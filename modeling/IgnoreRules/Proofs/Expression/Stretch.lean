import IgnoreRules.Proofs.Glob.Spelled

/-!
The stretches that expressions take.  What is left of a text is an end of it, so an expression with
a slash to take finds nothing in a text without one.  Whether an expression holds a backward range
does not depend on where it is written.
-/

namespace IgnoreRules

namespace Expression

variable {expression first second : Expression} {text rest : List Char}

theorem suffix_of_matches (taken : Matches expression text rest) : rest <:+ text := by
  induction taken with
  | empty | manyStop | without | atEnd | atFinalNewline => exact List.suffix_refl _
  | one => exact List.suffix_cons _ _
  | manyMore _ _ inductionHypothesis => exact inductionHypothesis.trans (List.suffix_cons _ _)
  | oneOrMore _ _ inductionHypothesis => exact inductionHypothesis.trans (List.suffix_cons _ _)
  | sequence _ _ firstHypothesis secondHypothesis => exact secondHypothesis.trans firstHypothesis
  | left _ inductionHypothesis => exact inductionHypothesis
  | right _ inductionHypothesis => exact inductionHypothesis
  | present _ inductionHypothesis => exact inductionHypothesis

theorem matches_optional_iff :
    Matches (optional expression) text rest ↔ text = rest ∨ Matches expression text rest := by
  constructor
  · intro taken
    cases taken with
    | without => exact .inl rfl
    | present taken => exact .inr taken
  · rintro (rfl | taken)
    · exact .without
    · exact .present taken

theorem matches_empty_iff : Matches empty text rest ↔ text = rest := by
  constructor
  · intro taken
    cases taken
    rfl
  · rintro rfl
    exact .empty

theorem matches_empty_sequence_iff :
    Matches (sequence empty expression) text rest ↔ Matches expression text rest := by
  simp [matches_sequence_iff, matches_empty_iff]

theorem matches_sequence_empty_iff :
    Matches (sequence expression empty) text rest ↔ Matches expression text rest := by
  simp [matches_sequence_iff, matches_empty_iff]

theorem matches_sequence_iff_suffix :
    Matches (sequence first second) text rest ↔
      ∃ middle, middle <:+ text ∧ Matches first text middle ∧ Matches second middle rest := by
  rw [matches_sequence_iff]
  constructor
  · rintro ⟨middle, takenFirst, takenSecond⟩
    exact ⟨middle, suffix_of_matches takenFirst, takenFirst, takenSecond⟩
  · rintro ⟨middle, -, takenFirst, takenSecond⟩
    exact ⟨middle, takenFirst, takenSecond⟩

theorem matches_many_iff {set : CharSet} :
    Matches (many set) text rest ↔
      ∃ stretch, text = stretch ++ rest ∧
        ∀ character ∈ stretch, set.contains character = true := by
  constructor
  · intro taken
    induction text with
    | nil =>
        cases taken
        exact ⟨[], rfl, by simp⟩
    | cons character text inductionHypothesis =>
        cases taken with
        | manyStop => exact ⟨[], rfl, by simp⟩
        | manyMore held taken =>
            obtain ⟨stretch, rfl, others⟩ := inductionHypothesis taken
            exact ⟨character :: stretch, rfl, List.forall_mem_cons.mpr ⟨held, others⟩⟩
  · rintro ⟨stretch, rfl, held⟩
    induction stretch with
    | nil => exact .manyStop
    | cons character stretch inductionHypothesis =>
        rw [List.forall_mem_cons] at held
        exact .manyMore held.1 (inductionHypothesis held.2)

theorem matches_many_of_forall {set : CharSet}
    (held : ∀ character ∈ text, set.contains character = true) : Matches (many set) text [] :=
  matches_many_iff.mpr ⟨text, (List.append_nil text).symm, held⟩

theorem matches_oneOrMore_of_forall {set : CharSet} (nonempty : text ≠ [])
    (held : ∀ character ∈ text, set.contains character = true) :
    Matches (oneOrMore set) text [] := by
  obtain ⟨character, others, rfl⟩ := List.exists_cons_of_ne_nil nonempty
  rw [List.forall_mem_cons] at held
  exact .oneOrMore held.1 (matches_many_of_forall held.2)

/-- The expression takes nothing from a text that does not hold the character. -/
def Needs (character : Char) (expression : Expression) : Prop :=
  ∀ text rest, Matches expression text rest → character ∈ text

namespace Needs

variable {character : Char}

theorem exactly (character : Char) : Needs character (one (.exactly character)) := by
  intro text rest taken
  obtain ⟨first, rfl, held⟩ := matches_one_iff.mp taken
  obtain rfl : character = first := by simpa [CharSet.contains] using held
  exact List.mem_cons_self

theorem sequenceRight (needs : Needs character second) (first : Expression) :
    Needs character (sequence first second) := by
  intro text rest taken
  obtain ⟨middle, isEnd, -, takenSecond⟩ := matches_sequence_iff_suffix.mp taken
  exact isEnd.mem (needs middle rest takenSecond)

theorem occursIn_eq_false (needs : Needs character expression) (absent : character ∉ text) :
    expression.occursIn text = false := by
  have notInFront {other : List Char} (absent : character ∉ other) :
      expression.matchesFront other = false := by
    rw [Bool.eq_false_iff, ne_eq, matchesFront_eq_true_iff]
    rintro ⟨rest, taken⟩
    exact absent (needs other rest taken)
  induction text with
  | nil => exact notInFront absent
  | cons first text inductionHypothesis =>
      rw [occursIn, notInFront absent, Bool.false_or]
      apply inductionHypothesis
      exact fun present => absent (List.mem_cons_of_mem first present)

end Needs

theorem matchesFront_eq_true_of_matches (taken : Matches expression text rest) :
    expression.matchesFront text = true :=
  matchesFront_eq_true_iff.mpr ⟨rest, taken⟩

theorem occursIn_of_matchesFront (found : expression.matchesFront text = true) :
    expression.occursIn text = true := by
  cases text with
  | nil => exact found
  | cons character text => rw [occursIn, found, Bool.true_or]

theorem occursIn_one_iff {set : CharSet} :
    (one set).occursIn text = true ↔
      ∃ character ∈ text, set.contains character = true := by
  induction text with
  | nil => simp [occursIn, matchesFront, run, runOne]
  | cons first others inductionHypothesis =>
      simp [occursIn, matchesFront, run, runOne, inductionHypothesis]

end Expression

theorem Member.backwardRange?_eq_none_iff {position : Nat} {members : List Member} :
    Member.backwardRange? position members = none ↔
      ∀ member ∈ members, member.isBackward = false := by
  induction members generalizing position with
  | nil => simp [Member.backwardRange?]
  | cons member members inductionHypothesis =>
      cases member with
      | single character =>
          simp [Member.backwardRange?, inductionHypothesis, Member.isBackward]
      | range low high =>
          rw [Member.backwardRange?]
          split
          next backward => simp [Member.isBackward, backward]
          next forward => simp [inductionHypothesis, Member.isBackward, forward]

theorem CharSet.backwardRange?_eq_none_anywhere {set : CharSet} {position : Nat}
    (forward : set.backwardRange? position = none) (other : Nat) :
    set.backwardRange? other = none := by
  cases set with
  | exactly => rfl
  | allBut => rfl
  | bracket negated members =>
      apply Member.backwardRange?_eq_none_iff.mpr
      exact Member.backwardRange?_eq_none_iff.mp forward

namespace Expression

theorem backwardRange?_eq_none_anywhere {expression : Expression} {position : Nat}
    (forward : expression.backwardRange? position = none) (other : Nat) :
    expression.backwardRange? other = none := by
  induction expression generalizing position other with
  | empty => rfl
  | atEnd => rfl
  | one set => exact CharSet.backwardRange?_eq_none_anywhere forward other
  | many set => exact CharSet.backwardRange?_eq_none_anywhere forward other
  | oneOrMore set => exact CharSet.backwardRange?_eq_none_anywhere forward other
  | sequence first second firstHypothesis secondHypothesis =>
      rw [backwardRange?, Option.or_eq_none_iff] at forward ⊢
      exact ⟨firstHypothesis forward.1 _, secondHypothesis forward.2 _⟩
  | either left right leftHypothesis rightHypothesis =>
      rw [backwardRange?, Option.or_eq_none_iff] at forward ⊢
      exact ⟨leftHypothesis forward.1 _, rightHypothesis forward.2 _⟩
  | optional expression inductionHypothesis =>
      cases expression with
      | one set => exact CharSet.backwardRange?_eq_none_anywhere forward other
      | _ => exact @inductionHypothesis (position + 3) forward (other + 3)

def IsForward (expression : Expression) : Prop :=
  ∀ position, expression.backwardRange? position = none

theorem isForward_of_eq_none {expression : Expression} {position : Nat}
    (forward : expression.backwardRange? position = none) : expression.IsForward :=
  backwardRange?_eq_none_anywhere forward

theorem isForward_sequence_iff {first second : Expression} :
    (sequence first second).IsForward ↔ first.IsForward ∧ second.IsForward := by
  constructor
  · intro forward
    have both := Option.or_eq_none_iff.mp (forward 0)
    exact ⟨isForward_of_eq_none both.1, isForward_of_eq_none both.2⟩
  · rintro ⟨forwardFirst, forwardSecond⟩ position
    exact Option.or_eq_none_iff.mpr ⟨forwardFirst _, forwardSecond _⟩

end Expression

namespace Glob

theorem matches_segment_iff {body : Expression} {name : Name} (noSlash : '/' ∉ name) :
    Expression.Matches (.sequence body segmentEnd) name [] ↔ Expression.Matches body name [] := by
  rw [Expression.matches_sequence_iff_suffix]
  constructor
  · rintro ⟨middle, isEnd, taken, ends⟩
    cases ends with
    | left slash => exact absurd (isEnd.mem (Expression.Needs.exactly '/' _ _ slash)) noSlash
    | right ends =>
        cases ends
        exact taken
  · intro taken
    exact ⟨[], List.nil_suffix, taken, .right .atEnd⟩

theorem notSlash_contains {name : Name} (noSlash : '/' ∉ name) :
    ∀ character ∈ name, notSlash.contains character = true := by
  intro character present
  have other : '/' ≠ character := by
    rintro rfl
    exact noSlash present
  simpa [notSlash, CharSet.contains] using other

end Glob

end IgnoreRules
