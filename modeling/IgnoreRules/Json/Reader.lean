import IgnoreRules.Json.Basic

/-!
Reading JSON text.  Every reader returns what it leaves unread.  Three words beyond the standard
are read as floating-point numbers: `NaN`, `Infinity` and `-Infinity`.  Arrays and objects can only
be nested as deep as the caller has room for them, and inside them there must be room to read such a
word, and to report what is malformed.  That no value stands where one should is reported by the
caller.  A text is made of characters here, so half of a pair that stands alone is replaced;
`PairsHalves` leaves such texts out.
-/

namespace IgnoreRules

namespace Json

def isSpace (character : Char) : Bool :=
  character == ' ' || character == '\t' || character == '\n' || character == '\r'

def skipSpaces (text : List Char) : List Char :=
  text.dropWhile isSpace

def dropWord? : (word : List Char) → List Char → Option (List Char)
  | [], text => some text
  | _ :: _, [] => none
  | expected :: word, character :: text =>
      if expected = character then dropWord? word text else none

def hexDigit? (character : Char) : Option Nat :=
  if '0' ≤ character ∧ character ≤ '9' then some (character.toNat - '0'.toNat)
  else if 'a' ≤ character ∧ character ≤ 'f' then some (character.toNat - 'a'.toNat + 10)
  else if 'A' ≤ character ∧ character ≤ 'F' then some (character.toNat - 'A'.toNat + 10)
  else none

def hexNumber? (digits : List Char) : Option Nat :=
  digits.foldl
    (fun number? digit =>
      match number?, hexDigit? digit with
      | some number, some value => some (16 * number + value)
      | _, _ => none)
    (some 0)

def unescaped? : Char → Option Char
  | '"' => some '"'
  | '\\' => some '\\'
  | '/' => some '/'
  | 'b' => some '\x08'
  | 'f' => some '\x0c'
  | 'n' => some '\n'
  | 'r' => some '\r'
  | 't' => some '\t'
  | _ => none

/-- Reads the inside of a text up to its closing quote, as code units; `done` is reversed. -/
def readUnits (done : List Nat) : List Char → Option (List Nat × List Char)
  | [] => none
  | '"' :: rest => some (done.reverse, rest)
  | '\\' :: 'u' :: first :: second :: third :: fourth :: rest =>
      match hexNumber? [first, second, third, fourth] with
      | some unit => readUnits (unit :: done) rest
      | none => none
  | '\\' :: mark :: rest =>
      match unescaped? mark with
      | some character => readUnits (character.toNat :: done) rest
      | none => none
  | character :: rest =>
      if character < ' ' || character == '\\' then none
      else readUnits (character.toNat :: done) rest

def isHighUnit (unit : Nat) : Bool :=
  decide (0xD800 ≤ unit) && decide (unit < 0xDC00)

def isLowUnit (unit : Nat) : Bool :=
  decide (0xDC00 ≤ unit) && decide (unit < 0xE000)

/-- The character of one unit; half of a pair alone is replaced. -/
def unitCharacter (unit : Nat) : Char :=
  if isHighUnit unit || isLowUnit unit then '\uFFFD' else Char.ofNat unit

def pairCharacter (high low : Nat) : Char :=
  Char.ofNat (0x10000 + 0x400 * (high - 0xD800) + (low - 0xDC00))

def joinUnits (done : List Char) : List Nat → List Char
  | [] => done.reverse
  | [unit] => (unitCharacter unit :: done).reverse
  | unit :: next :: rest =>
      if isHighUnit unit && isLowUnit next then joinUnits (pairCharacter unit next :: done) rest
      else joinUnits (unitCharacter unit :: done) (next :: rest)

def readText (text : List Char) : Option (String × List Char) :=
  (readUnits [] text).map fun (units, rest) => (String.ofList (joinUnits [] units), rest)

def spanDigits (text : List Char) : List Char × List Char :=
  text.span Char.isDigit

def digitsNumber (digits : List Char) : Nat :=
  digits.foldl (fun number digit => 10 * number + (digit.toNat - '0'.toNat)) 0

def readWhole : List Char → Option (List Char × List Char)
  | '0' :: rest => some (['0'], rest)
  | text =>
      match spanDigits text with
      | ([], _) => none
      | (digits, rest) => some (digits, rest)

def readFraction (text : List Char) : List Char × List Char :=
  match text with
  | '.' :: rest =>
      match spanDigits rest with
      | ([], _) => ([], text)
      | (digits, rest) => (digits, rest)
  | _ => ([], text)

def takeMinus : List Char → Bool × List Char
  | '-' :: rest => (true, rest)
  | rest => (false, rest)

def takeSign : List Char → Bool × List Char
  | '-' :: rest => (true, rest)
  | '+' :: rest => (false, rest)
  | rest => (false, rest)

def readPower (text : List Char) : Option Int × List Char :=
  match text with
  | mark :: rest =>
      if mark = 'e' ∨ mark = 'E' then
        let (negative, digitsText) := takeSign rest
        match spanDigits digitsText with
        | ([], _) => (none, text)
        | (digits, rest) =>
            let power : Int := digitsNumber digits
            (some (if negative then -power else power), rest)
      else (none, text)
  | [] => (none, [])

def readNumber (text : List Char) : Option (Json × List Char) :=
  let (negative, text) := takeMinus text
  match readWhole text with
  | none => none
  | some (whole, rest) =>
      let (fraction, rest) := readFraction rest
      let (power?, rest) := readPower rest
      if fraction = [] ∧ power? = none then
        if greatestDigitCount < whole.length then none
        else
          let number : Int := digitsNumber whole
          some (integer (if negative then -number else number), rest)
      else
        let digits := digitsNumber (whole ++ fraction)
        let scale := power?.getD 0 - fraction.length
        some (float (Binary64.nearest negative digits scale), rest)

def words : List (List Char × Json) :=
  [("null".toList, null), ("true".toList, boolean true), ("false".toList, boolean false)]

/-- The words beyond the standard, which take a level of their own to be read. -/
def constants : List (List Char × Json) :=
  [ ("NaN".toList, float .notANumber), ("Infinity".toList, float (.infinite false)),
    ("-Infinity".toList, float (.infinite true)) ]

def readListed (listed : List (List Char × Json)) (text : List Char) : Option (Json × List Char) :=
  listed.findSome? fun (word, value) => (dropWord? word text).map fun rest => (value, rest)

/-- What takes a level while it is read. -/
inductive Nesting where
  | array
  | object
  | constant
deriving DecidableEq, Repr

/-- What the report of too deep a text says is being done.  Of a word it only says that something
is called, which is left out. -/
def Nesting.activity : Nesting → String
  | array => " while decoding a JSON array from a unicode string"
  | object => " while decoding a JSON object from a unicode string"
  | constant => ""

inductive ReadError where
  | malformed
  /-- There is no room for one more level inside those that are open. -/
  | tooDeep (innermost : Nesting)
  /-- What is malformed cannot be reported from where it stands. -/
  | cutShort
deriving DecidableEq, Repr

/-- Reporting what is malformed takes three levels. -/
def ReadError.reported (room : Nat) : ReadError :=
  if room < 3 then cutShort else malformed

def ReadError.expected {Alpha : Type} (found? : Option Alpha) : Except ReadError Alpha :=
  match found? with
  | some found => .ok found
  | none => .error malformed

/-- Reads a word or a number. -/
def readUnquoted (room : Nat) (text : List Char) : Except ReadError (Json × List Char) :=
  match readListed constants text with
  | some found => if room = 0 then .error (.tooDeep .constant) else .ok found
  | none => ReadError.expected ((readListed words text).or (readNumber text))

mutual

/-- Reads one value, with room for so many levels inside one another.  Every call spends fuel, and a
text needs at most two units a character. -/
def readValue : (fuel room : Nat) → List Char → Except ReadError (Json × List Char)
  | 0, _, _ => .error .malformed
  | _ + 1, room, '"' :: rest =>
      match readText rest with
      | none => .error (.reported room)
      | some (value, rest) => .ok (string value, rest)
  | _ + 1, 0, '[' :: _ => .error (.tooDeep .array)
  | fuel + 1, room + 1, '[' :: rest =>
      match skipSpaces rest with
      | ']' :: rest => .ok (array [], rest)
      | rest => readElements fuel room [] rest
  | _ + 1, 0, '\x7b' :: _ => .error (.tooDeep .object)
  | fuel + 1, room + 1, '\x7b' :: rest =>
      match skipSpaces rest with
      | '\x7d' :: rest => .ok (object [], rest)
      | rest => readFields fuel room [] rest
  | _ + 1, room, rest => readUnquoted room rest

def readElements :
    (fuel room : Nat) → List Json → List Char → Except ReadError (Json × List Char)
  | 0, _, _, _ => .error .malformed
  | fuel + 1, room, done, rest =>
      match readValue fuel room rest with
      | .error error => .error error
      | .ok (element, rest) =>
          match skipSpaces rest with
          | ',' :: rest => readElements fuel room (element :: done) (skipSpaces rest)
          | ']' :: rest => .ok (array (element :: done).reverse, rest)
          | _ => .error (.reported room)

def readFields :
    (fuel room : Nat) → List (String × Json) → List Char → Except ReadError (Json × List Char)
  | 0, _, _, _ => .error .malformed
  | fuel + 1, room, done, '"' :: rest =>
      match readText rest with
      | none => .error (.reported room)
      | some (key, rest) =>
          match skipSpaces rest with
          | ':' :: rest =>
              match readValue fuel room (skipSpaces rest) with
              | .error error => .error error
              | .ok (value, rest) =>
                  match skipSpaces rest with
                  | ',' :: rest => readFields fuel room ((key, value) :: done) (skipSpaces rest)
                  | '\x7d' :: rest => .ok (ofFields ((key, value) :: done).reverse, rest)
                  | _ => .error (.reported room)
          | _ => .error (.reported room)
  | _ + 1, room, _, _ => .error (.reported room)

end

def read (room : Nat) (text : List Char) : Except ReadError Json :=
  match readValue (2 * text.length + 2) room (skipSpaces text) with
  | .error error => .error error
  | .ok (value, rest) => if skipSpaces rest = [] then .ok value else .error .malformed

end Json

end IgnoreRules
