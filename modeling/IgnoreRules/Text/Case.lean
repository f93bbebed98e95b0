import IgnoreRules.Text.CaseTable

/-!
Upper-casing and case swapping over the whole character set.  A form may be a sequence, and a
capital sigma at the end of a word goes to the final form.
-/

namespace IgnoreRules.Text

def CaseRun.shift? : List CaseRun → Nat → Option Int
  | [], _ => none
  | run :: rest, code =>
      if code < run.first then none
      else if code ≤ run.last && (code - run.first) % run.step == 0 then some run.shift
      else shift? rest code

def caseForm? (sequences : List (Nat × List Nat)) (runs : List CaseRun) (code : Nat) :
    Option (List Char) :=
  match sequences.lookup code with
  | some form => some (form.map Char.ofNat)
  | none => (CaseRun.shift? runs code).map fun shift => [Char.ofNat ((code : Int) + shift).toNat]

def upperForm? (character : Char) : Option (List Char) :=
  caseForm? upperSequences upperRuns character.toNat

def lowerForm? (character : Char) : Option (List Char) :=
  caseForm? lowerSequences lowerRuns character.toNat

def upper (text : List Char) : List Char :=
  text.flatMap fun character => (upperForm? character).getD [character]

/-- The nearest character that is not looked past is a letter with a case. -/
def metCased (neighbours : List Char) : Bool :=
  match neighbours.find? fun character =>
      !CodeRange.covers caseIgnorableRanges character.toNat with
  | some character => CodeRange.covers casedRanges character.toNat
  | none => false

/-- One character with its case swapped; `before` runs leftwards and `after` rightwards.  A
title-case letter, which has both other forms, stays. -/
def swappedCharacter (before : List Char) (character : Char) (after : List Char) : List Char :=
  if character = 'Σ' then
    if metCased before && !metCased after then ['ς'] else ['σ']
  else
    match lowerForm? character, upperForm? character with
    | some _, some _ => [character]
    | some form, none => form
    | none, some form => form
    | none, none => [character]

def swapCaseAfter (before : List Char) : List Char → List Char
  | [] => []
  | character :: after =>
      swappedCharacter before character after ++ swapCaseAfter (character :: before) after

def swapCase (text : List Char) : List Char :=
  swapCaseAfter [] text

end IgnoreRules.Text
