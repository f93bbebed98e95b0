import IgnoreRules.Proofs.Tree.Real
import IgnoreRules.Text.Case

/-!
Case swapping makes letters of letters and leaves everything else alone, so a name stays a name.
-/

namespace IgnoreRules

namespace Text

/-- The character stands before all letters. -/
def BeforeLetters (character : Char) : Prop := character.toNat < 0x41

def CaseRun.staysInLetters (run : CaseRun) : Bool :=
  0x41 ≤ (run.first : Int) + run.shift &&
    ((run.last : Int) + run.shift < 0xD800 ||
      0xE000 ≤ (run.first : Int) + run.shift && (run.last : Int) + run.shift < 0x110000)

def sequenceStaysInLetters (sequence : Nat × List Nat) : Bool :=
  !sequence.2.isEmpty && sequence.2.all fun code => 0x41 ≤ code && code < 0xD800

theorem CaseRun.bounds_of_shift? {runs : List CaseRun} {code : Nat} {shift : Int}
    (found : shift? runs code = some shift) :
    ∃ run ∈ runs, run.first ≤ code ∧ code ≤ run.last ∧ run.shift = shift := by
  induction runs with
  | nil => contradiction
  | cons run rest inductionHypothesis =>
      unfold shift? at found
      split at found
      next => contradiction
      next notBelow =>
        split at found
        next held =>
          rw [Bool.and_eq_true, decide_eq_true_eq] at held
          exact ⟨run, by simp, by omega, held.1, Option.some.inj found⟩
        next =>
          obtain ⟨other, inRest, bounds⟩ := inductionHypothesis found
          exact ⟨other, by simp [inRest], bounds⟩

theorem toNat_ofNat {code : Nat} (valid : code.isValidChar) : (Char.ofNat code).toNat = code := by
  have made : Char.ofNat code = Char.ofNatAux code valid := dif_pos valid
  rw [made]
  rfl

theorem caseForm?_letters {sequences : List (Nat × List Nat)} {runs : List CaseRun} {code : Nat}
    {form : List Char} (sequencesStay : sequences.all sequenceStaysInLetters = true)
    (runsStay : runs.all CaseRun.staysInLetters = true)
    (found : caseForm? sequences runs code = some form) :
    form ≠ [] ∧ ∀ character ∈ form, ¬BeforeLetters character := by
  unfold caseForm? at found
  split at found
  next codes inSequences =>
    obtain ⟨before, after, split, -⟩ := List.lookup_eq_some_iff.mp inSequences
    have stays := List.all_eq_true.mp sequencesStay (code, codes) (by simp [split])
    cases found
    unfold sequenceStaysInLetters at stays
    rw [Bool.and_eq_true, List.all_eq_true] at stays
    refine ⟨by simpa using stays.1, fun character present => ?_⟩
    obtain ⟨letter, inCodes, rfl⟩ := List.mem_map.mp present
    have bounds := stays.2 letter inCodes
    rw [Bool.and_eq_true, decide_eq_true_eq, decide_eq_true_eq] at bounds
    rw [BeforeLetters, toNat_ofNat (.inl bounds.2)]
    omega
  next =>
    obtain ⟨shift, shifted, rfl⟩ := Option.map_eq_some_iff.mp found
    obtain ⟨run, inRuns, low, high, rfl⟩ := CaseRun.bounds_of_shift? shifted
    have stays := List.all_eq_true.mp runsStay run inRuns
    unfold CaseRun.staysInLetters at stays
    simp only [Bool.and_eq_true, Bool.or_eq_true, decide_eq_true_eq] at stays
    have valid : ((code : Int) + run.shift).toNat.isValidChar := by
      unfold Nat.isValidChar
      omega
    refine ⟨by simp, fun character present => ?_⟩
    rw [List.mem_singleton.mp present, BeforeLetters, toNat_ofNat valid]
    omega

theorem swappedCharacter_cases (before : List Char) (character : Char) (after : List Char) :
    swappedCharacter before character after = [character] ∨
      swappedCharacter before character after ≠ [] ∧
        ∀ swapped ∈ swappedCharacter before character after, ¬BeforeLetters swapped := by
  have upperLetters {form : List Char} (found : upperForm? character = some form) :=
    caseForm?_letters (by decide +kernel) (by decide +kernel) found
  have lowerLetters {form : List Char} (found : lowerForm? character = some form) :=
    caseForm?_letters (by decide +kernel) (by decide +kernel) found
  unfold swappedCharacter
  split
  next => split <;> simp [BeforeLetters]
  next =>
    split
    next => exact .inl rfl
    next found _ => exact .inr (lowerLetters found)
    next _ found => exact .inr (upperLetters found)
    next => exact .inl rfl

theorem mem_of_mem_swapCaseAfter {before text : List Char} {character : Char}
    (beforeLetters : BeforeLetters character) (present : character ∈ swapCaseAfter before text) :
    character ∈ text := by
  induction text generalizing before with
  | nil => exact present
  | cons first rest inductionHypothesis =>
      rw [swapCaseAfter, List.mem_append] at present
      rcases present with inFirst | inRest
      · rcases swappedCharacter_cases before first rest with alone | ⟨-, letters⟩
        · rw [alone, List.mem_singleton] at inFirst
          simp [inFirst]
        · exact absurd beforeLetters (letters character inFirst)
      · simp [inductionHypothesis inRest]

theorem swapCaseAfter_eq_self {before text : List Char}
    (beforeLetters : ∀ character ∈ swapCaseAfter before text, BeforeLetters character) :
    swapCaseAfter before text = text := by
  induction text generalizing before with
  | nil => rfl
  | cons first rest inductionHypothesis =>
      rw [swapCaseAfter] at beforeLetters ⊢
      rw [List.forall_mem_append] at beforeLetters
      rw [inductionHypothesis beforeLetters.2]
      rcases swappedCharacter_cases before first rest with alone | ⟨nonempty, letters⟩
      · rw [alone]
        rfl
      · obtain ⟨swapped, present⟩ := List.exists_mem_of_ne_nil _ nonempty
        exact absurd (beforeLetters.1 swapped present) (letters swapped present)

/-- A text without letters comes only from itself. -/
theorem eq_of_swapCase_eq {text other : List Char} (swapped : swapCase text = other)
    (beforeLetters : ∀ character ∈ other, BeforeLetters character) : text = other := by
  rw [← swapped] at beforeLetters ⊢
  exact (swapCaseAfter_eq_self beforeLetters).symm

end Text

theorem Name.Plain.swapCase {name : Name} (plain : name.Plain) :
    Name.Plain (Text.swapCase name) where
  nonempty := fun swapped => plain.nonempty (Text.eq_of_swapCase_eq swapped (by simp))
  notHere := fun swapped => plain.notHere
    (Text.eq_of_swapCase_eq swapped (by simp [Name.here, Text.BeforeLetters]))
  noSlash := fun present => plain.noSlash
    (Text.mem_of_mem_swapCaseAfter (by simp [Text.BeforeLetters]) present)
  notAbove := fun swapped => plain.notAbove
    (Text.eq_of_swapCase_eq swapped (by simp [Name.above, Text.BeforeLetters]))

theorem Name.NoNull.swapCase {name : Name} (noNull : name.NoNull) :
    Name.NoNull (Text.swapCase name) :=
  fun present => noNull (Text.mem_of_mem_swapCaseAfter (by simp [Text.BeforeLetters]) present)

end IgnoreRules
