/-!
Texts as bytes.  What is not UTF-8 is left to a detector, which belongs to another package and is
only described here: it is a parameter of all that reads files.  What it answers is a list of
characters, so a text with half of a pair of UTF-16 in it is left out.
-/

namespace IgnoreRules.Text

inductive ByteOrder where
  | littleEndian
  | bigEndian
deriving DecidableEq, Repr

/-- Bytes put so that the greatest comes first, from the given order; the same map goes back. -/
def ByteOrder.arrange (order : ByteOrder) (bytes : List UInt8) : List UInt8 :=
  match order with
  | .littleEndian => bytes.reverse
  | .bigEndian => bytes

def bytesNumber (bytes : List UInt8) : Nat :=
  bytes.foldl (fun number byte => 256 * number + byte.toNat) 0

def units16? (order : ByteOrder) : List UInt8 → Option (List Nat)
  | [] => some []
  | first :: second :: rest =>
      (units16? order rest).map (bytesNumber (order.arrange [first, second]) :: ·)
  | _ => none

def units32? (order : ByteOrder) : List UInt8 → Option (List Nat)
  | [] => some []
  | first :: second :: third :: fourth :: rest =>
      (units32? order rest).map (bytesNumber (order.arrange [first, second, third, fourth]) :: ·)
  | _ => none

def scalar? (code : Nat) : Option Char :=
  if code.isValidChar then some (Char.ofNat code) else none

def isPair (high low : Nat) : Bool :=
  decide (0xD800 ≤ high ∧ high < 0xDC00 ∧ 0xDC00 ≤ low ∧ low < 0xE000)

def pairCode (high low : Nat) : Nat :=
  0x10000 + 0x400 * (high - 0xD800) + (low - 0xDC00)

def characters16? : List Nat → Option (List Char)
  | [] => some []
  | [unit] => (scalar? unit).map ([·])
  | high :: low :: rest =>
      if isPair high low then
        (scalar? (pairCode high low)).bind fun character =>
          (characters16? rest).map (character :: ·)
      else
        (scalar? high).bind fun character => (characters16? (low :: rest)).map (character :: ·)

def characters32? (units : List Nat) : Option (List Char) :=
  units.mapM scalar?

def unitBytes (width unit : Nat) : List UInt8 :=
  (List.range width).reverse.map fun place => UInt8.ofNat (unit >>> (8 * place))

def unitsOf (character : Char) : List Nat :=
  let code := character.toNat
  if code < 0x10000 then [code]
  else [0xD800 + (code - 0x10000) / 0x400, 0xDC00 + (code - 0x10000) % 0x400]

def encode16 (order : ByteOrder) (text : List Char) : List UInt8 :=
  (text.flatMap unitsOf).flatMap fun unit => order.arrange (unitBytes 2 unit)

def encode32 (order : ByteOrder) (text : List Char) : List UInt8 :=
  text.flatMap fun character => order.arrange (unitBytes 4 character.toNat)

/-! ### UTF-8 with something wrong in it -/

/-- A character of UTF-8 whose first bytes have been read: where the next byte must lie, how many
are to follow it, and the number that is written so far. -/
structure Begun where
  least : UInt8
  greatest : UInt8
  following : Nat
  number : Nat
deriving DecidableEq

/-- What a byte begins, which keeps out numbers that have a shorter form, halves of pairs, and what
lies beyond the last character. -/
def begun? (byte : UInt8) : Option Begun :=
  if byte < 0xC2 then none
  else if byte < 0xE0 then some ⟨0x80, 0xBF, 0, byte.toNat - 0xC0⟩
  else if byte < 0xF0 then
    let least := if byte = 0xE0 then 0xA0 else 0x80
    let greatest := if byte = 0xED then 0x9F else 0xBF
    some ⟨least, greatest, 1, byte.toNat - 0xE0⟩
  else if byte < 0xF5 then
    let least := if byte = 0xF0 then 0x90 else 0x80
    let greatest := if byte = 0xF4 then 0x8F else 0xBF
    some ⟨least, greatest, 2, byte.toNat - 0xF0⟩
  else none

def replacement : Char := '\uFFFD'

def opening (byte : UInt8) : List Char × Option Begun :=
  if byte < 0x80 then ([Char.ofNat byte.toNat], none)
  else
    match begun? byte with
    | some begun => ([], some begun)
    | none => ([replacement], none)

/-- The characters of bytes, where one may have begun.  Bytes that begin one and do not end it are
replaced together, as are those at the end. -/
def replacing : Option Begun → List UInt8 → List Char
  | none, [] => []
  | some _, [] => [replacement]
  | none, byte :: rest => (opening byte).1 ++ replacing (opening byte).2 rest
  | some begun, byte :: rest =>
      if begun.least ≤ byte ∧ byte ≤ begun.greatest then
        let number := 64 * begun.number + (byte.toNat - 0x80)
        if begun.following = 0 then Char.ofNat number :: replacing none rest
        else replacing (some ⟨0x80, 0xBF, begun.following - 1, number⟩) rest
      else replacement :: (opening byte).1 ++ replacing (opening byte).2 rest

def replaced : List UInt8 → List Char :=
  replacing none

/-! ### Detection -/

/-- What is asked about bytes that are not UTF-8.  It answers with the name of an encoding and the
text in it, or not at all. -/
abbrev Detector := List UInt8 → Option (String × List Char)

def decodeMarked32? : List UInt8 → Option (List Char)
  | 0xFF :: 0xFE :: 0x00 :: 0x00 :: rest => (units32? .littleEndian rest).bind characters32?
  | 0x00 :: 0x00 :: 0xFE :: 0xFF :: rest => (units32? .bigEndian rest).bind characters32?
  | _ => none

def decodeMarked16? : List UInt8 → Option (List Char)
  | 0xFF :: 0xFE :: rest => (units16? .littleEndian rest).bind characters16?
  | 0xFE :: 0xFF :: rest => (units16? .bigEndian rest).bind characters16?
  | _ => none

def detectMarked : Detector := fun bytes =>
  match decodeMarked32? bytes with
  | some text => some ("utf_32", text)
  | none => (decodeMarked16? bytes).map fun text => ("utf_16", text)

/-- The text of bytes, and the encoding that was detected.  A detector is asked only about what is
not UTF-8, which keeps everything, and where it knows nothing the bytes are read as UTF-8 after
all. -/
def decodeBy (detector : Detector) (bytes : ByteArray) : Option String × List Char :=
  match String.fromUTF8? bytes with
  | some text => (none, text.toList)
  | none =>
      match detector bytes.toList with
      | some (encoding, text) => (some encoding, text)
      | none => (none, replaced bytes.toList)

end IgnoreRules.Text
