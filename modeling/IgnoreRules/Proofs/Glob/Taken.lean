import IgnoreRules.Proofs.Expression.Stretch
import Mathlib.Data.List.Forall2

/-!
What the pieces of a glob take.  Each piece takes a stretch of a name, and the stretches one after
another are the name.  A segment accepts the names without a slash that the pieces of its glob take.
-/

namespace IgnoreRules

namespace Glob

/-- A piece takes a stretch of a name. -/
inductive Piece.Takes : Piece → Name → Prop where
  | literal (character : Char) : Takes (.literal character) [character]
  | star (stretch : Name) : Takes .star stretch
  | question (character : Char) : Takes .question [character]
  | bracket {negated : Bool} {body : List Char} {character : Char} :
      (CharSet.bracket negated (Member.readAll body)).contains character = true →
      Takes (.bracket negated body) [character]

/-- The pieces take the name in stretches, in order and with nothing left over. -/
def Takes (pieces : List Piece) (name : Name) : Prop :=
  ∃ stretches, List.Forall₂ Piece.Takes pieces stretches ∧ stretches.flatten = name

variable {piece : Piece} {pieces : List Piece} {name rest : Name}

theorem takes_nil_iff : Takes [] name ↔ name = [] := by
  constructor
  · rintro ⟨stretches, taken, rfl⟩
    cases taken
    rfl
  · rintro rfl
    exact ⟨[], .nil, rfl⟩

theorem takes_cons_iff :
    Takes (piece :: pieces) name ↔
      ∃ stretch rest, name = stretch ++ rest ∧ piece.Takes stretch ∧ Takes pieces rest := by
  constructor
  · rintro ⟨stretches, taken, rfl⟩
    cases taken with
    | @cons _ stretch _ others first further =>
        exact ⟨stretch, others.flatten, rfl, first, others, further, rfl⟩
  · rintro ⟨stretch, rest, rfl, first, others, further, rfl⟩
    exact ⟨stretch :: others, .cons first further, rfl⟩

theorem takes_literal_cons_iff {character : Char} :
    Takes (.literal character :: pieces) name ↔
      ∃ rest, name = character :: rest ∧ Takes pieces rest := by
  rw [takes_cons_iff]
  constructor
  · rintro ⟨stretch, rest, rfl, taken, others⟩
    cases taken
    exact ⟨rest, rfl, others⟩
  · rintro ⟨rest, rfl, others⟩
    exact ⟨[character], rest, rfl, .literal character, others⟩

theorem takes_star_cons_iff :
    Takes (.star :: pieces) name ↔ ∃ stretch rest, name = stretch ++ rest ∧ Takes pieces rest := by
  rw [takes_cons_iff]
  constructor
  · rintro ⟨stretch, rest, rfl, -, others⟩
    exact ⟨stretch, rest, rfl, others⟩
  · rintro ⟨stretch, rest, rfl, others⟩
    exact ⟨stretch, rest, rfl, .star stretch, others⟩

theorem takes_question_cons_iff :
    Takes (.question :: pieces) name ↔
      ∃ character rest, name = character :: rest ∧ Takes pieces rest := by
  rw [takes_cons_iff]
  constructor
  · rintro ⟨stretch, rest, rfl, taken, others⟩
    cases taken with
    | question character => exact ⟨character, rest, rfl, others⟩
  · rintro ⟨character, rest, rfl, others⟩
    exact ⟨[character], rest, rfl, .question character, others⟩

theorem takes_bracket_cons_iff {negated : Bool} {body : List Char} :
    Takes (.bracket negated body :: pieces) name ↔
      ∃ character rest, name = character :: rest ∧
        (CharSet.bracket negated (Member.readAll body)).contains character = true ∧
        Takes pieces rest := by
  rw [takes_cons_iff]
  constructor
  · rintro ⟨stretch, rest, rfl, taken, others⟩
    cases taken with
    | bracket held => exact ⟨_, rest, rfl, held, others⟩
  · rintro ⟨character, rest, rfl, held, others⟩
    exact ⟨[character], rest, rfl, .bracket held, others⟩

theorem takes_empty_iff : Takes pieces [] ↔ ∀ piece ∈ pieces, piece = .star := by
  induction pieces with
  | nil => simp [takes_nil_iff]
  | cons piece pieces inductionHypothesis =>
      rw [takes_cons_iff, List.forall_mem_cons, ← inductionHypothesis]
      constructor
      · rintro ⟨stretch, further, nothing, taken, others⟩
        obtain ⟨rfl, rfl⟩ := List.append_eq_nil_iff.mp nothing.symm
        cases taken
        exact ⟨rfl, others⟩
      · rintro ⟨rfl, others⟩
        exact ⟨[], [], rfl, .star [], others⟩

theorem takes_of_stars (stars : ∀ piece ∈ pieces, piece = .star) (nonempty : pieces ≠ [])
    (name : Name) : Takes pieces name := by
  obtain ⟨first, others, rfl⟩ := List.exists_cons_of_ne_nil nonempty
  rw [List.forall_mem_cons] at stars
  obtain rfl := stars.1
  exact takes_star_cons_iff.mpr ⟨name, [], by simp, takes_empty_iff.mpr stars.2⟩

theorem matches_piece_iff (noSlash : '/' ∉ name) :
    Expression.Matches piece.expression name rest ↔
      ∃ stretch, name = stretch ++ rest ∧ piece.Takes stretch := by
  cases piece with
  | literal own =>
      rw [Piece.expression, Expression.matches_one_iff]
      constructor
      · rintro ⟨character, rfl, held⟩
        obtain rfl : own = character := by simpa [CharSet.contains] using held
        exact ⟨[own], rfl, .literal own⟩
      · rintro ⟨stretch, rfl, taken⟩
        cases taken
        exact ⟨own, rfl, by simp [CharSet.contains]⟩
  | star =>
      rw [Piece.expression, Expression.matches_many_iff]
      constructor
      · rintro ⟨stretch, rfl, -⟩
        exact ⟨stretch, rfl, .star stretch⟩
      · rintro ⟨stretch, rfl, -⟩
        refine ⟨stretch, rfl, notSlash_contains ?_⟩
        exact fun slash => noSlash (List.mem_append_left _ slash)
  | question =>
      rw [Piece.expression, Expression.matches_one_iff]
      constructor
      · rintro ⟨character, rfl, -⟩
        exact ⟨[character], rfl, .question character⟩
      · rintro ⟨stretch, rfl, taken⟩
        cases taken with
        | question character =>
            exact ⟨character, rfl, notSlash_contains noSlash character List.mem_cons_self⟩
  | bracket negated body =>
      rw [Piece.expression, Expression.matches_one_iff]
      constructor
      · rintro ⟨character, rfl, held⟩
        exact ⟨[character], rfl, .bracket held⟩
      · rintro ⟨stretch, rfl, taken⟩
        cases taken with
        | bracket held => exact ⟨_, rfl, held⟩

theorem matches_sequenceAll_iff_stretch (noSlash : '/' ∉ name) :
    Expression.Matches (sequenceAll (pieces.map Piece.expression)) name rest ↔
      ∃ stretch, name = stretch ++ rest ∧ Takes pieces stretch := by
  induction pieces generalizing name with
  | nil =>
      have unfolded : sequenceAll (([] : List Piece).map Piece.expression) = .empty := rfl
      rw [unfolded, Expression.matches_empty_iff]
      simp [takes_nil_iff]
  | cons piece pieces inductionHypothesis =>
      have unfolded : sequenceAll ((piece :: pieces).map Piece.expression) =
          .sequence piece.expression (sequenceAll (pieces.map Piece.expression)) := rfl
      rw [unfolded, Expression.matches_sequence_iff]
      constructor
      · rintro ⟨middle, first, others⟩
        obtain ⟨stretch, rfl, taken⟩ := (matches_piece_iff noSlash).mp first
        have noSlashMiddle : '/' ∉ middle := fun slash => noSlash (List.mem_append_right _ slash)
        obtain ⟨further, rfl, takenOthers⟩ := (inductionHypothesis noSlashMiddle).mp others
        exact ⟨stretch ++ further, by rw [List.append_assoc],
          takes_cons_iff.mpr ⟨stretch, further, rfl, taken, takenOthers⟩⟩
      · rintro ⟨whole, rfl, takenWhole⟩
        obtain ⟨stretch, further, rfl, taken, takenOthers⟩ := takes_cons_iff.mp takenWhole
        rw [List.append_assoc] at noSlash ⊢
        have noSlashMiddle : '/' ∉ further ++ rest :=
          fun slash => noSlash (List.mem_append_right _ slash)
        exact ⟨further ++ rest, (matches_piece_iff noSlash).mpr ⟨stretch, rfl, taken⟩,
          (inductionHypothesis noSlashMiddle).mpr ⟨further, rfl, takenOthers⟩⟩

theorem matches_sequenceAll_iff (noSlash : '/' ∉ name) :
    Expression.Matches (sequenceAll (pieces.map Piece.expression)) name [] ↔
      Takes pieces name := by
  rw [matches_sequenceAll_iff_stretch noSlash]
  simp

end Glob

namespace Segment

variable {name : Name}

theorem accepts_of_star {segment : Segment} (compiled : ofGlob ['*'] = .ok segment)
    (nonempty : name ≠ []) (noSlash : '/' ∉ name) : segment.accepts name = true := by
  cases compiled
  apply Expression.matchesAll_eq_true_iff.mpr
  refine .sequence ?_ (.sequence .without (.sequence .atEnd .empty))
  exact Expression.matches_oneOrMore_of_forall nonempty (Glob.notSlash_contains noSlash)

theorem exists_body_of_ofGlob {glob : List Char} {segment : Segment} (notStar : glob ≠ ['*'])
    (compiled : ofGlob glob = .ok segment) :
    ∃ body, Glob.body? glob = some body ∧
      segment = .name (.sequence body Glob.segmentEnd) := by
  rw [ofGlob, Glob.segment?, if_neg notStar] at compiled
  cases body : Glob.body? glob with
  | none =>
      rw [body] at compiled
      contradiction
  | some inner =>
      rw [body] at compiled
      dsimp only [Option.map_some] at compiled
      split at compiled
      next => contradiction
      next => exact ⟨inner, rfl, (Except.ok.inj compiled).symm⟩

/-- A segment accepts a name without a slash when the pieces of its glob take it. -/
theorem accepts_iff_takes {glob : List Char} {pieces : List Glob.Piece} {segment : Segment}
    (compiled : ofGlob glob = .ok segment) (scanned : Glob.scan? glob = some pieces)
    (nonempty : name ≠ []) (noSlash : '/' ∉ name) :
    segment.accepts name = true ↔ Glob.Takes pieces name := by
  by_cases star : glob = ['*']
  · subst star
    obtain rfl : [.star] = pieces := Option.some.inj scanned
    refine iff_of_true (accepts_of_star compiled nonempty noSlash) ?_
    exact ⟨[name], .cons (.star name) .nil, by simp⟩
  · obtain ⟨body, isBody, rfl⟩ := exists_body_of_ofGlob star compiled
    obtain rfl : Glob.sequenceAll (pieces.map Glob.Piece.expression) = body := by
      simpa [Glob.body?, scanned] using isBody
    rw [accepts, Expression.matchesAll_eq_true_iff, Glob.matches_segment_iff noSlash,
      Glob.matches_sequenceAll_iff noSlash]

end Segment

end IgnoreRules
