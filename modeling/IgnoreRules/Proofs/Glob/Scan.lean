import IgnoreRules.Glob
import IgnoreRules.Proofs.Rule.Line
import Mathlib.Data.List.Basic

/-!
How a glob is read.  What is read off its front is an escaped character, a whole set or a single
character, and `induction_scan` follows the glob in these steps.  A set ends in a bracket, so a glob
that can be read leaves no backslash open at its end.
-/

namespace IgnoreRules

namespace Glob

theorem beforeClosing?_eq_some_iff {text body : List Char} :
    beforeClosing? text = some body ↔ ∃ rest, text = body ++ ']' :: rest ∧ ']' ∉ body := by
  induction text generalizing body with
  | nil => simp [beforeClosing?]
  | cons character rest inductionHypothesis =>
      by_cases closing : character = ']'
      · subst closing
        cases body with
        | nil => simp [beforeClosing?]
        | cons first inside =>
            simp only [beforeClosing?, Option.some.injEq, reduceCtorEq, false_iff]
            rintro ⟨after, split, absent⟩
            obtain ⟨rfl, -⟩ := List.cons_eq_cons.mp split
            exact absent List.mem_cons_self
      · rw [beforeClosing?, Option.map_eq_some_iff]
        · simp only [inductionHypothesis]
          constructor
          · rintro ⟨inside, ⟨after, rfl, absent⟩, rfl⟩
            exact ⟨after, rfl, by simp [absent, Ne.symm closing]⟩
          · rintro ⟨after, split, absent⟩
            cases body with
            | nil => exact absurd (List.cons_eq_cons.mp split).1 closing
            | cons first inside =>
                obtain ⟨rfl, rfl⟩ := List.cons_eq_cons.mp split
                exact ⟨inside, ⟨after, rfl, fun inInside => absent (by simp [inInside])⟩, rfl⟩
        · exact closing

theorem bracketBody?_eq_some_iff {text body : List Char} :
    bracketBody? text = some body ↔
      ∃ rest, text = body ++ ']' :: rest ∧ body ≠ [] ∧ ']' ∉ body.tail := by
  unfold bracketBody?
  split
  next rest =>
    rw [Option.map_eq_some_iff]
    simp only [beforeClosing?_eq_some_iff]
    constructor
    · rintro ⟨inside, ⟨after, rfl, absent⟩, rfl⟩
      exact ⟨after, rfl, by simp, absent⟩
    · rintro ⟨after, split, nonempty, absent⟩
      obtain ⟨first, inside, rfl⟩ := List.exists_cons_of_ne_nil nonempty
      obtain ⟨rfl, rfl⟩ := List.cons_eq_cons.mp split
      exact ⟨inside, ⟨after, rfl, absent⟩, rfl⟩
  next notFirst =>
    rw [beforeClosing?_eq_some_iff]
    refine exists_congr fun after => and_congr_right ?_
    rintro rfl
    cases body with
    | nil => exact absurd rfl (notFirst after)
    | cons first inside =>
        have other : ']' ≠ first := by
          rintro rfl
          exact notFirst _ rfl
        simp [other]

theorem bracketAfter?_negation_cons {mark : Char} (negation : mark = '!' ∨ mark = '^')
    (text : List Char) : bracketAfter? (mark :: text) = (bracketBody? text).map (true, ·) := by
  rcases negation with rfl | rfl <;> rfl

theorem bracketAfter?_of_plain {text : List Char} (notBang : text.head? ≠ some '!')
    (notCaret : text.head? ≠ some '^') :
    bracketAfter? text = (bracketBody? text).map (false, ·) := by
  unfold bracketAfter?
  split
  next => simp at notBang
  next => simp at notCaret
  next => rfl

/-- What follows an opening bracket is read as a set with a mark in front or without one. -/
theorem bracketAfter?_cases {text body : List Char} {negated : Bool}
    (closed : bracketAfter? text = some (negated, body)) :
    (∃ mark rest, text = mark :: rest ∧ (mark = '!' ∨ mark = '^') ∧ negated = true ∧
      bracketBody? rest = some body) ∨
    text.head? ≠ some '!' ∧ text.head? ≠ some '^' ∧ negated = false ∧
      bracketBody? text = some body := by
  unfold bracketAfter? at closed
  split at closed
  next rest =>
    obtain ⟨read, readClosed, same⟩ := Option.map_eq_some_iff.mp closed
    cases same
    exact .inl ⟨'!', rest, rfl, .inl rfl, rfl, readClosed⟩
  next rest =>
    obtain ⟨read, readClosed, same⟩ := Option.map_eq_some_iff.mp closed
    cases same
    exact .inl ⟨'^', rest, rfl, .inr rfl, rfl, readClosed⟩
  next notBang notCaret =>
    obtain ⟨read, readClosed, same⟩ := Option.map_eq_some_iff.mp closed
    cases same
    refine .inr ⟨?_, ?_, rfl, readClosed⟩
    · intro first
      obtain ⟨rest, rfl⟩ := List.head?_eq_some_iff.mp first
      exact notBang rest rfl
    · intro first
      obtain ⟨rest, rfl⟩ := List.head?_eq_some_iff.mp first
      exact notCaret rest rfl

theorem exists_inside_of_bracketAfter? {text body : List Char} {negated : Bool}
    (closed : bracketAfter? text = some (negated, body)) :
    ∃ inside, text = inside ++ ']' :: text.drop (bracketWidth negated body) := by
  rcases bracketAfter?_cases closed with
    ⟨mark, rest, rfl, -, rfl, closedBody⟩ | ⟨-, -, rfl, closedBody⟩
  · obtain ⟨after, rfl, -⟩ := bracketBody?_eq_some_iff.mp closedBody
    refine ⟨mark :: body, ?_⟩
    have width : bracketWidth true body = body.length + 1 + 1 := by
      simp [bracketWidth, Nat.add_comm]
    simp [width]
  · obtain ⟨after, rfl, -⟩ := bracketBody?_eq_some_iff.mp closedBody
    exact ⟨body, by simp [bracketWidth]⟩

/-- Follows a glob in the steps in which it is read. -/
theorem induction_scan {motive : List Char → Prop} (nil : motive []) (lone : motive ['\\'])
    (escaped : ∀ character rest, motive rest → motive ('\\' :: character :: rest))
    (set : ∀ rest negated body, bracketAfter? rest = some (negated, body) →
      motive (rest.drop (bracketWidth negated body)) → motive ('[' :: rest))
    (single : ∀ character rest, character ≠ '\\' →
      (character = '[' → bracketAfter? rest = none) → motive rest → motive (character :: rest))
    (glob : List Char) : motive glob := by
  induction size : glob.length using Nat.strongRecOn generalizing glob with
  | _ size shorter =>
      have further (other : List Char) (less : other.length < glob.length) : motive other :=
        shorter other.length (size ▸ less) other rfl
      match glob with
      | [] => exact nil
      | character :: rest =>
          by_cases backslash : character = '\\'
          · subst backslash
            cases rest with
            | nil => exact lone
            | cons next rest =>
                apply escaped
                apply further
                simp only [List.length_cons]
                omega
          · by_cases closed : character = '[' ∧ bracketAfter? rest ≠ none
            · obtain ⟨rfl, isSet⟩ := closed
              obtain ⟨⟨negated, body⟩, found⟩ := Option.ne_none_iff_exists'.mp isSet
              apply set rest negated body found
              apply further
              simp only [List.length_drop, List.length_cons]
              omega
            · apply single character rest backslash
              · intro opening
                by_contra isSet
                exact closed ⟨opening, isSet⟩
              · apply further
                simp

theorem scan?_escaped_cons (character : Char) (rest : List Char) :
    scan? ('\\' :: character :: rest) = (scan? rest).map (.literal character :: ·) := rfl

theorem scan?_set_cons {rest body : List Char} {negated : Bool}
    (closed : bracketAfter? rest = some (negated, body)) :
    scan? ('[' :: rest) =
      (scan? (rest.drop (bracketWidth negated body))).map (.bracket negated body :: ·) := by
  rw [scan?, scanAfter?, closed]
  dsimp only
  rw [scanAfter?_eq_scan?_drop]

def single (character : Char) : Piece :=
  if character = '*' then .star else if character = '?' then .question else .literal character

theorem scan?_single_cons {character : Char} {rest : List Char} (notBackslash : character ≠ '\\')
    (noSet : character = '[' → bracketAfter? rest = none) :
    scan? (character :: rest) = (scan? rest).map (single character :: ·) := by
  unfold single
  by_cases star : character = '*'
  · subst star
    rfl
  · by_cases question : character = '?'
    · subst question
      rfl
    · rw [if_neg star, if_neg question]
      by_cases opening : character = '['
      · subst opening
        rw [scan?, scanAfter?, noSet rfl]
        rfl
      · rw [scan?, scanAfter?] <;> simp_all [scan?]

theorem ne_nil_of_scan? {glob : List Char} {pieces : List Piece} (nonempty : glob ≠ [])
    (scanned : scan? glob = some pieces) : pieces ≠ [] := by
  rintro rfl
  induction glob using induction_scan with
  | nil => contradiction
  | lone => contradiction
  | escaped character rest _ => simp [scan?_escaped_cons] at scanned
  | set rest negated body isSet _ => simp [scan?_set_cons isSet] at scanned
  | single character rest notBackslash noSet _ =>
      simp [scan?_single_cons notBackslash noSet] at scanned

theorem bracketAfter?_blank {character : Char} (blank : Text.isBlank character = true)
    (rest : List Char) :
    bracketAfter? (character :: ']' :: rest) = some (false, [character]) := by
  have notMark (mark : Char) (visible : Text.isBlank mark = false) : character ≠ mark := by
    rintro rfl
    rw [blank] at visible
    contradiction
  have notBang := notMark '!' (by decide)
  have notCaret := notMark '^' (by decide)
  have notClosing := notMark ']' (by decide)
  simp [bracketAfter?, bracketBody?, beforeClosing?, notBang, notCaret, notClosing]

theorem scan?_bracketed_blank {character : Char} (blank : Text.isBlank character = true) :
    scan? ['[', character, ']'] = some [.bracket false [character]] := by
  rw [scan?_set_cons (bracketAfter?_blank blank [])]
  rfl

/-- A glob that can be read leaves no backslash open at its end. -/
theorem escapes_eq_false_of_scan? {glob : List Char} {pieces : List Piece}
    (scanned : scan? glob = some pieces) : Line.escapes glob.reverse = false := by
  induction glob using induction_scan generalizing pieces with
  | nil => rfl
  | lone => contradiction
  | escaped character rest inductionHypothesis =>
      rw [scan?_escaped_cons] at scanned
      obtain ⟨others, scannedRest, -⟩ := Option.map_eq_some_iff.mp scanned
      have closed := Line.escapes_append_of_not_escapes (Line.escapes_pair character) rest.reverse
      simpa [closed] using inductionHypothesis scannedRest
  | set rest negated body isSet inductionHypothesis =>
      rw [scan?_set_cons isSet] at scanned
      obtain ⟨others, scannedRest, -⟩ := Option.map_eq_some_iff.mp scanned
      -- Backslashes behind the set are counted from its closing bracket on.
      obtain ⟨inside, split⟩ := exists_inside_of_bracketAfter? isSet
      have bracketSolid : Line.isSolid ']' = true := by decide
      have stop := Line.escapes_append_solid bracketSolid
        (rest.drop (bracketWidth negated body)).reverse (inside.reverse ++ ['['])
      rw [split]
      simpa [stop] using inductionHypothesis scannedRest
  | single character rest notBackslash noSet inductionHypothesis =>
      rw [scan?_single_cons notBackslash noSet] at scanned
      obtain ⟨others, scannedRest, -⟩ := Option.map_eq_some_iff.mp scanned
      have closed := Line.escapes_append_of_not_escapes
        (Line.escapes_cons_of_ne notBackslash []) rest.reverse
      simpa [closed] using inductionHypothesis scannedRest

end Glob

end IgnoreRules
