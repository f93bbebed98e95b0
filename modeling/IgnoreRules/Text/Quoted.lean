import IgnoreRules.Text.Unprintable

/-!
Texts in quotes, as messages show them: one line, every invisible character spelled out.
-/

namespace IgnoreRules.Text

def hexadecimal (width number : Nat) : List Char :=
  let digits := Nat.toDigits 16 number
  List.replicate (width - digits.length) '0' ++ digits

/-- The shortest of the three escapes by code point that holds the character. -/
def codeEscape (character : Char) : List Char :=
  let code := character.toNat
  if code < 0x100 then '\\' :: 'x' :: hexadecimal 2 code
  else if code < 0x10000 then '\\' :: 'u' :: hexadecimal 4 code
  else '\\' :: 'U' :: hexadecimal 8 code

def quotedCharacter (quote character : Char) : List Char :=
  if character = quote || character = '\\' then ['\\', character]
  else if character = '\t' then ['\\', 't']
  else if character = '\n' then ['\\', 'n']
  else if character = '\r' then ['\\', 'r']
  else if isPrintable character then [character]
  else codeEscape character

/-- Single quotes, unless they would need an escape and double quotes would not. -/
def quoteFor (text : List Char) : Char :=
  if '\'' ∈ text ∧ '"' ∉ text then '"' else '\''

def quoted (text : List Char) : String :=
  let quote := quoteFor text
  String.ofList (quote :: text.flatMap (quotedCharacter quote) ++ [quote])

def quotedList (texts : List (List Char)) : String :=
  "[" ++ String.intercalate ", " (texts.map quoted) ++ "]"

end IgnoreRules.Text
