import IgnoreRules.Json.Basic

/-!
Writing JSON text, one element or field a line, two spaces deeper at each level.
-/

namespace IgnoreRules

namespace Json

def hexDigit (value : Nat) : Char :=
  Nat.digitChar value

def escapedCharacter (character : Char) : List Char :=
  if character = '"' then ['\\', '"']
  else if character = '\\' then ['\\', '\\']
  else if character = '\n' then ['\\', 'n']
  else if character = '\r' then ['\\', 'r']
  else if character = '\t' then ['\\', 't']
  else if character = '\x0c' then ['\\', 'f']
  else if character = '\x08' then ['\\', 'b']
  else if character < ' ' then
    ['\\', 'u', '0', '0', hexDigit (character.toNat / 16), hexDigit (character.toNat % 16)]
  else [character]

def writeText (value : String) : List Char :=
  '"' :: value.toList.flatMap escapedCharacter ++ ['"']

def newLine (depth : Nat) : List Char :=
  '\n' :: List.replicate (2 * depth) ' '

def writeInteger : Int → List Char
  | .ofNat number => Nat.toDigits 10 number
  | .negSucc number => '-' :: Nat.toDigits 10 (number + 1)

mutual

/-- No whole number in the value has too many digits. -/
def isWritable : Json → Bool
  | integer value => decide ((Nat.toDigits 10 value.natAbs).length ≤ greatestDigitCount)
  | array elements => areWritable elements
  | object fields => areFieldsWritable fields
  | _ => true

def areWritable : List Json → Bool
  | [] => true
  | element :: others => isWritable element && areWritable others

def areFieldsWritable : List (String × Json) → Bool
  | [] => true
  | (_, value) :: others => isWritable value && areFieldsWritable others

end

mutual

def write (depth : Nat) : Json → List Char
  | null => "null".toList
  | boolean value => (if value then "true" else "false").toList
  | integer value => writeInteger value
  | float value => (value.text "Infinity" "NaN").toList
  | string value => writeText value
  | array [] => ['[', ']']
  | array (first :: others) =>
      '[' :: newLine (depth + 1) ++ write (depth + 1) first ++ writeElements (depth + 1) others ++
        newLine depth ++ [']']
  | object [] => ['\x7b', '\x7d']
  | object ((key, value) :: others) =>
      '\x7b' :: newLine (depth + 1) ++ writeText key ++ [':', ' '] ++ write (depth + 1) value ++
        writeFields (depth + 1) others ++ newLine depth ++ ['\x7d']

def writeElements (depth : Nat) : List Json → List Char
  | [] => []
  | element :: others =>
      ',' :: newLine depth ++ write depth element ++ writeElements depth others

def writeFields (depth : Nat) : List (String × Json) → List Char
  | [] => []
  | (key, value) :: others =>
      ',' :: newLine depth ++ writeText key ++ [':', ' '] ++ write depth value ++
        writeFields depth others

end

def toText (value : Json) : String :=
  String.ofList (write 0 value)

end Json

end IgnoreRules
