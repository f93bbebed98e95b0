import IgnoreRules.Proofs.Glob.Scan
import IgnoreRules.Rule.Match

/-!
Names that are escaped character by character.  Whatever brackets, stars, backslashes or blanks such
a name holds, its glob takes the name itself and nothing else.
-/

namespace IgnoreRules

namespace Glob

theorem body?_backslash_cons (character : Char) (glob : List Char) :
    body? ('\\' :: character :: glob) =
      (body? glob).map (.sequence (.one (.exactly character))) := by
  simp only [body?, scan?, scanAfter?, Option.map_map]
  rfl

theorem body?_bracketed_blank {character : Char} (blank : Text.isBlank character = true) :
    body? ['[', character, ']'] =
      some (.sequence (.one (.bracket false [.single character])) .empty) := by
  rw [body?, scan?_bracketed_blank blank]
  rfl

end Glob

namespace Expression

/-- The expression takes a text and nothing else, and holds no range at all. -/
structure Spells (expression : Expression) (text : List Char) : Prop where
  takes : ∀ whole rest, Matches expression whole rest ↔ whole = text ++ rest
  noRange : ∀ position, expression.backwardRange? position = none

theorem matches_one_iff {set : CharSet} {whole rest : List Char} :
    Matches (one set) whole rest ↔
      ∃ character, whole = character :: rest ∧ set.contains character = true := by
  constructor
  · intro taken
    cases taken with
    | one held => exact ⟨_, rfl, held⟩
  · rintro ⟨character, rfl, held⟩
    exact .one held

theorem matches_sequence_iff {first second : Expression} {whole rest : List Char} :
    Matches (sequence first second) whole rest ↔
      ∃ middle, Matches first whole middle ∧ Matches second middle rest := by
  constructor
  · intro taken
    cases taken with
    | sequence takenFirst takenSecond => exact ⟨_, takenFirst, takenSecond⟩
  · rintro ⟨middle, takenFirst, takenSecond⟩
    exact .sequence takenFirst takenSecond

theorem spells_empty : Spells empty [] where
  takes := by
    intro whole rest
    constructor
    · intro taken
      cases taken
      rfl
    · rintro rfl
      exact .empty
  noRange := fun _ => rfl

namespace Spells

variable {character : Char} {expression : Expression} {text : List Char}

theorem cons {set : CharSet} (single : ∀ other, set.contains other = true ↔ other = character)
    (noRange : ∀ position, set.backwardRange? position = none)
    (spells : Spells expression text) :
    Spells (sequence (one set) expression) (character :: text) where
  takes := by
    intro whole rest
    simp only [matches_sequence_iff, matches_one_iff, single, spells.takes]
    constructor
    · rintro ⟨middle, ⟨_, rfl, rfl⟩, rfl⟩
      rfl
    · rintro rfl
      exact ⟨text ++ rest, ⟨character, rfl, rfl⟩, rfl⟩
  noRange := by
    intro position
    simp [backwardRange?, noRange, spells.noRange]

theorem exactly (spells : Spells expression text) :
    Spells (sequence (one (.exactly character)) expression) (character :: text) :=
  spells.cons (fun other => by rw [CharSet.contains, beq_iff_eq, eq_comm]) fun _ => rfl

theorem bracketed (spells : Spells expression text) :
    Spells (sequence (one (.bracket false [.single character])) expression) (character :: text) :=
  spells.cons (fun other => by simpa [CharSet.contains, Member.holds] using eq_comm) fun _ => rfl

end Spells

end Expression

namespace Segment

theorem spells_glob_escaped {directory : Name} (nonempty : directory ≠ []) :
    ∃ expression, Glob.body? (glob (directory.map (⟨·, true⟩))) = some expression ∧
      expression.Spells directory := by
  induction directory with
  | nil => contradiction
  | cons character rest inductionHypothesis =>
      cases rest with
      | nil =>
          rw [List.map_singleton, glob]
          dsimp only
          split
          next blank =>
            exact ⟨_, Glob.body?_bracketed_blank blank, .bracketed Expression.spells_empty⟩
          next =>
            exact ⟨_, Glob.body?_backslash_cons character [], .exactly Expression.spells_empty⟩
      | cons next rest =>
          obtain ⟨expression, body, spells⟩ := inductionHypothesis (by simp)
          have split : glob ((character :: next :: rest).map (⟨·, true⟩)) =
              '\\' :: character :: glob ((next :: rest).map (⟨·, true⟩)) := rfl
          exact ⟨_, by rw [split, Glob.body?_backslash_cons, body, Option.map_some],
            .exactly spells⟩

theorem glob_escaped_ne_star (directory : Name) :
    glob (directory.map (⟨·, true⟩)) ≠ ['*'] := by
  match directory with
  | [] => simp [glob]
  | [character] =>
      simp only [List.map_singleton, glob]
      split <;> simp
  | first :: second :: rest => simp [glob]

/-- A name whose characters are all escaped compiles to a segment that accepts this name alone. -/
theorem ofPart_escaped {directory : Name} (nonempty : directory ≠ []) :
    ∃ expression, ofPart (directory.map (⟨·, true⟩)) = .ok (name expression) ∧
      ∀ component : Name, '/' ∉ component →
        ((name expression).accepts component = true ↔ component = directory) := by
  obtain ⟨body, scanned, spells⟩ := spells_glob_escaped nonempty
  have notStars : isGlobstar (directory.map (⟨·, true⟩)) = false := by
    match directory with
    | [] => rfl
    | first :: rest => simp [isGlobstar]
  have compiled : Glob.segment? (glob (directory.map (⟨·, true⟩))) =
      some (.sequence body Glob.segmentEnd) := by
    rw [Glob.segment?, if_neg (glob_escaped_ne_star directory), scanned, Option.map_some]
  refine ⟨.sequence body Glob.segmentEnd, ?_, fun component noSlash => ?_⟩
  · have noRange : (Expression.sequence body Glob.segmentEnd).backwardRange? 1 = none := by
      rw [Expression.backwardRange?, spells.noRange]
      rfl
    rw [ofPart, notStars, if_neg (by simp), ofGlob, compiled]
    dsimp only
    rw [noRange]
  · rw [accepts, Expression.matchesAll_eq_true_iff, Expression.matches_sequence_iff]
    simp only [spells.takes]
    constructor
    · rintro ⟨middle, rfl, ends⟩
      -- A segment could end at a slash, but there is none in a component.
      cases ends with
      | left slash =>
          obtain ⟨character, rfl, held⟩ := Expression.matches_one_iff.mp slash
          obtain rfl : '/' = character := by simpa [CharSet.contains] using held
          simp at noSlash
      | right ends =>
          cases ends
          simp
    · rintro rfl
      exact ⟨[], by simp, .right .atEnd⟩

end Segment

end IgnoreRules
