import IgnoreRules.Json.Reader
import IgnoreRules.Text.Pieces

/-!
What a JSON text says.  Each part of the grammar pairs a stretch of text with what it stands for;
nothing here looks at how the text is read.  A value is spelled within the room that its arrays and
objects need inside one another, with one more level for a word beyond the standard, and a text
overflows where the next level has no room.
-/

namespace IgnoreRules

namespace Json

/-! ### Tokens -/

def AreSpaces (text : List Char) : Prop :=
  ∀ character ∈ text, isSpace character = true

inductive IsBody : (body : List Char) → (units : List Nat) → Prop where
  | nil : IsBody [] []
  | plain {character : Char} {body : List Char} {units : List Nat} : character ≠ '"' →
      character ≠ '\\' → ¬character < ' ' → IsBody body units →
      IsBody (character :: body) (character.toNat :: units)
  | escape {mark character : Char} {body : List Char} {units : List Nat} :
      unescaped? mark = some character → IsBody body units →
      IsBody ('\\' :: mark :: body) (character.toNat :: units)
  | code {first second third fourth : Char} {unit : Nat} {body : List Char} {units : List Nat} :
      hexNumber? [first, second, third, fourth] = some unit → IsBody body units →
      IsBody ('\\' :: 'u' :: first :: second :: third :: fourth :: body) (unit :: units)

def textOfUnits (units : List Nat) : String :=
  String.ofList (joinUnits [] units)

def arePaired : (units : List Nat) → Bool
  | [] => true
  | [unit] => !isHighUnit unit && !isLowUnit unit
  | unit :: next :: rest =>
      if isHighUnit unit && isLowUnit next then arePaired rest
      else !isHighUnit unit && !isLowUnit unit && arePaired (next :: rest)

structure IsContent (body : List Char) (units : List Nat) : Prop where
  isBody : IsBody body units
  paired : arePaired units = true

/-- Whatever is quoted is made of characters. -/
def PairsHalves (text : List Char) : Prop :=
  ∀ before body units after, text = before ++ '"' :: (body ++ '"' :: after) → IsBody body units →
    arePaired units = true

structure AreDigits (digits : List Char) : Prop where
  ne_nil : digits ≠ []
  each : ∀ digit ∈ digits, digit.isDigit = true

inductive IsWhole : (whole : List Char) → Prop where
  | zero : IsWhole ['0']
  | digits {first : Char} {others : List Char} : first ≠ '0' → AreDigits (first :: others) →
      IsWhole (first :: others)

inductive IsFraction : (text digits : List Char) → Prop where
  | none : IsFraction [] []
  | point {digits : List Char} : AreDigits digits → IsFraction ('.' :: digits) digits

def signs : List (List Char × Bool) :=
  [([], false), (['+'], false), (['-'], true)]

def signed (negative : Bool) (digits : List Char) : Int :=
  let number : Int := digitsNumber digits
  if negative then -number else number

inductive IsPower : (text : List Char) → (power? : Option Int) → Prop where
  | none : IsPower [] none
  | mark {mark : Char} {sign digits : List Char} {negative : Bool} : mark = 'e' ∨ mark = 'E' →
      (sign, negative) ∈ signs → AreDigits digits →
      IsPower (mark :: (sign ++ digits)) (some (signed negative digits))

def minus (negative : Bool) : List Char :=
  if negative then ['-'] else []

/-- A number is floating-point as soon as it has a fraction or a power.  A whole number must not be
too long. -/
inductive IsNumber : (own : List Char) → (value : Json) → Prop where
  | integer {negative : Bool} {whole : List Char} : IsWhole whole →
      whole.length ≤ greatestDigitCount →
      IsNumber (minus negative ++ whole) (integer (signed negative whole))
  | float {negative : Bool} {whole point fraction mark : List Char} {power? : Option Int} :
      IsWhole whole → IsFraction point fraction → IsPower mark power? →
      ¬(fraction = [] ∧ power? = none) →
      IsNumber (minus negative ++ (whole ++ (point ++ mark)))
        (float (Binary64.nearest negative (digitsNumber (whole ++ fraction))
          (power?.getD 0 - fraction.length)))

/-! ### Values -/

structure Element where
  before : List Char
  own : List Char
  after : List Char
  value : Json
  areSpacesBefore : AreSpaces before
  areSpacesAfter : AreSpaces after

def Element.text (element : Element) : List Char :=
  element.before ++ (element.own ++ element.after)

structure Field where
  before : List Char
  body : List Char
  units : List Nat
  after : List Char
  element : Element
  areSpacesBefore : AreSpaces before
  isContent : IsContent body units
  areSpacesAfter : AreSpaces after

def Field.text (field : Field) : List Char :=
  field.before ++ '"' :: (field.body ++ '"' :: (field.after ++ ':' :: field.element.text))

def Field.entry (field : Field) : String × Json :=
  (textOfUnits field.units, field.element.value)

/-- Parts with commas between them.  Where there is no part, there can still be blanks. -/
inductive IsListing : (inside : List Char) → (parts : List (List Char)) → Prop where
  | blank {inside : List Char} : AreSpaces inside → IsListing inside []
  | parts {parts : List (List Char)} : parts ≠ [] → IsListing (Text.unpieces ',' parts) parts

/-- A stretch of text that a blank neither starts nor ends, and its value, in which no more levels
stand inside one another than there is room for. -/
inductive Spells : (room : Nat) → (own : List Char) → (value : Json) → Prop where
  | word {room : Nat} {own : List Char} {value : Json} : (own, value) ∈ words →
      Spells room own value
  | constant {room : Nat} {own : List Char} {value : Json} : (own, value) ∈ constants →
      Spells (room + 1) own value
  | number {room : Nat} {own : List Char} {value : Json} : IsNumber own value →
      Spells room own value
  | text {room : Nat} {body : List Char} {units : List Nat} : IsContent body units →
      Spells room ('"' :: (body ++ ['"'])) (string (textOfUnits units))
  | array {room : Nat} {inside : List Char} {elements : List Element} :
      IsListing inside (elements.map Element.text) →
      (∀ element ∈ elements, Spells room element.own element.value) →
      Spells (room + 1) ('[' :: (inside ++ [']'])) (array (elements.map Element.value))
  | object {room : Nat} {inside : List Char} {fields : List Field} :
      IsListing inside (fields.map Field.text) →
      (∀ field ∈ fields, Spells room field.element.own field.element.value) →
      Spells (room + 1) ('\x7b' :: (inside ++ ['\x7d'])) (ofFields (fields.map Field.entry))

def IsText (room : Nat) (text : List Char) (value : Json) : Prop :=
  ∃ before own after,
    AreSpaces before ∧ AreSpaces after ∧ Spells room own value ∧ text = before ++ (own ++ after)

def IsObjectText (room : Nat) (text : List Char) (written : List (String × Json)) : Prop :=
  ∃ before inside after inner, ∃ fields : List Field,
    AreSpaces before ∧ AreSpaces after ∧ IsListing inside (fields.map Field.text) ∧
      (∀ field ∈ fields, Spells inner field.element.own field.element.value) ∧
      text = before ++ ('\x7b' :: (inside ++ ['\x7d']) ++ after) ∧
      written = fields.map Field.entry ∧ room = inner + 1

/-- The text starts with arrays and objects, each behind complete parts of the one that it stands
in, and there is no room left for what stands innermost. -/
inductive Overflows : (room : Nat) → (innermost : Nesting) → (text : List Char) → Prop where
  | array {rest : List Char} : Overflows 0 .array ('[' :: rest)
  | object {rest : List Char} : Overflows 0 .object ('\x7b' :: rest)
  | constant {own rest : List Char} {value : Json} : (own, value) ∈ constants →
      Overflows 0 .constant (own ++ rest)
  | element {room : Nat} {innermost : Nesting} {elements : List Element}
      {before rest : List Char} :
      (∀ element ∈ elements, Spells room element.own element.value) → AreSpaces before →
      Overflows room innermost rest →
      Overflows (room + 1) innermost
        ('[' :: (elements.flatMap (fun element => element.text ++ [',']) ++ (before ++ rest)))
  | field {room : Nat} {innermost : Nesting} {fields : List Field}
      {before body after lead rest : List Char} {units : List Nat} :
      (∀ field ∈ fields, Spells room field.element.own field.element.value) →
      AreSpaces before → IsContent body units → AreSpaces after → AreSpaces lead →
      Overflows room innermost rest →
      Overflows (room + 1) innermost
        ('\x7b' :: (fields.flatMap (fun field => field.text ++ [',']) ++
          (before ++ '"' :: (body ++ '"' :: (after ++ ':' :: (lead ++ rest))))))

variable {room : Nat}

theorem IsObjectText.isText {text : List Char} {written : List (String × Json)}
    (holds : IsObjectText room text written) : IsText room text (ofFields written) := by
  obtain ⟨before, inside, after, inner, fields, spacesBefore, spacesAfter, listing, each, same, rfl,
    rfl⟩ := holds
  exact ⟨before, _, after, spacesBefore, spacesAfter, .object listing each, same⟩

end Json

end IgnoreRules
