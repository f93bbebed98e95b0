import IgnoreRules.Expression.CharSet
import IgnoreRules.Proofs.Path.Normal
import IgnoreRules.Rule.Line
import Mathlib.Data.List.Basic

/-!
The grammar of a part.  What its labelled characters take of a name is said without any glob: only
characters that are not escaped are wildcards, open or close a set, turn it around or span a range,
and every other character stands for itself.
-/

namespace IgnoreRules

theorem Member.readAll_cons_of_ne_dash {character next : Char} {rest : List Char}
    (notDash : next ≠ '-') :
    readAll (character :: next :: rest) = .single character :: readAll (next :: rest) := by
  rw [readAll] <;> simp [notDash]

namespace Mark

def opening : Mark := ⟨'[', false⟩

def closing : Mark := ⟨']', false⟩

def IsNegation (mark : Mark) : Prop :=
  mark = ⟨'!', false⟩ ∨ mark = ⟨'^', false⟩

instance : DecidablePred IsNegation :=
  fun _ => inferInstanceAs (Decidable (_ ∨ _))

/-- The members of a set are written in at least one character, and none but the first is a closing
bracket. -/
structure IsBody (body : List Mark) : Prop where
  nonempty : body ≠ []
  notClosed : closing ∉ body.tail

/-- What follows an opening bracket is the rest of a set: its negation or none, its body and its
closing bracket, and then what comes after the set. -/
inductive StartsSet : (following : List Mark) → (negated : Bool) → (body rest : List Mark) → Prop
  where
  | plain {body rest : List Mark} :
      IsBody body → (∀ mark, body.head? = some mark → ¬mark.IsNegation) →
      StartsSet (body ++ closing :: rest) false body rest
  | negated {mark : Mark} {body rest : List Mark} :
      mark.IsNegation → IsBody body → StartsSet (mark :: (body ++ closing :: rest)) true body rest

/-- The members of a set, read from the left.  Only a dash that is not escaped makes a range. -/
def members : List Mark → List Member
  | [] => []
  | low :: ⟨'-', false⟩ :: high :: rest => .range low.character high.character :: members rest
  | mark :: rest => .single mark.character :: members rest

def SetHolds (negated : Bool) (body : List Mark) (character : Char) : Prop :=
  (∃ member ∈ members body, member.holds character = true) ↔ negated = false

instance (negated : Bool) (body : List Mark) (character : Char) :
    Decidable (SetHolds negated body character) :=
  inferInstanceAs (Decidable (_ ↔ _))

/-- The character stands for itself wherever it is no part of a set. -/
def IsLiteral (mark : Mark) : Prop :=
  mark.escaped = true ∨ mark.character ≠ '*' ∧ mark.character ≠ '?' ∧ mark.character ≠ '['

instance : DecidablePred IsLiteral :=
  fun _ => inferInstanceAs (Decidable (_ ∨ _))

inductive Takes : List Mark → Name → Prop where
  | nil : Takes [] []
  | literal {mark : Mark} {marks : List Mark} {name : Name} :
      mark.IsLiteral → Takes marks name → Takes (mark :: marks) (mark.character :: name)
  | star {marks : List Mark} {name : Name} (stretch : Name) :
      Takes marks name → Takes (⟨'*', false⟩ :: marks) (stretch ++ name)
  | question {marks : List Mark} {name : Name} (character : Char) :
      Takes marks name → Takes (⟨'?', false⟩ :: marks) (character :: name)
  | set {following body rest : List Mark} {negated : Bool} {character : Char} {name : Name} :
      StartsSet following negated body rest → SetHolds negated body character →
      Takes rest name → Takes (opening :: following) (character :: name)
  | loneOpening {marks : List Mark} {name : Name} :
      (∀ negated body rest, ¬StartsSet marks negated body rest) →
      Takes marks name → Takes (opening :: marks) ('[' :: name)

variable {mark : Mark} {marks following body rest : List Mark} {negated : Bool} {name : Name}

theorem takes_nil_iff : Takes [] name ↔ name = [] := by
  constructor
  · intro taken
    cases taken
    rfl
  · rintro rfl
    exact .nil

theorem IsBody.unique {other otherRest : List Mark} (isBody : IsBody body) (isOther : IsBody other)
    (same : body ++ closing :: rest = other ++ closing :: otherRest) :
    body = other ∧ rest = otherRest := by
  obtain ⟨first, others, rfl⟩ := List.exists_cons_of_ne_nil isBody.nonempty
  obtain ⟨otherFirst, otherOthers, rfl⟩ := List.exists_cons_of_ne_nil isOther.nonempty
  obtain ⟨rfl, sameOthers⟩ := List.cons_eq_cons.mp same
  have absent : closing ∉ others := isBody.notClosed
  have otherAbsent : closing ∉ otherOthers := isOther.notClosed
  -- Cut at closing brackets, both sides have what comes before the first as their first piece.
  have cut : Text.pieces (· == closing) (others ++ closing :: rest) =
      Text.pieces (· == closing) (otherOthers ++ closing :: otherRest) :=
    congrArg _ sameOthers
  rw [Text.pieces_append_separator absent, Text.pieces_append_separator otherAbsent,
    List.cons_eq_cons] at cut
  obtain rfl : others = otherOthers := cut.1
  exact ⟨rfl, by simpa using sameOthers⟩

theorem StartsSet.unique {otherNegated : Bool} {other otherRest : List Mark}
    (starts : StartsSet following negated body rest)
    (otherStarts : StartsSet following otherNegated other otherRest) :
    negated = otherNegated ∧ body = other ∧ rest = otherRest := by
  have notNegation {mark : Mark} {body rest others : List Mark} (isBody : IsBody body)
      (plain : ∀ first, body.head? = some first → ¬first.IsNegation)
      (same : body ++ closing :: rest = mark :: others) : ¬mark.IsNegation := by
    apply plain
    rw [← List.head?_append_of_ne_nil _ isBody.nonempty, same, List.head?_cons]
  generalize whole : following = text at otherStarts
  cases starts with
  | plain isBody plain =>
      cases otherStarts with
      | plain isOther _ => exact ⟨rfl, isBody.unique isOther whole⟩
      | negated isNegation _ => exact absurd isNegation (notNegation isBody plain whole)
  | negated isNegation isBody =>
      cases otherStarts with
      | plain isOther plain => exact absurd isNegation (notNegation isOther plain whole.symm)
      | negated _ isOther =>
          exact ⟨rfl, isBody.unique isOther (List.cons_eq_cons.mp whole).2⟩

theorem takes_literal_cons_iff (literal : mark.IsLiteral) :
    Takes (mark :: marks) name ↔ ∃ rest, name = mark.character :: rest ∧ Takes marks rest := by
  constructor
  · intro taken
    cases taken with
    | literal _ others => exact ⟨_, rfl, others⟩
    | star => simp [IsLiteral] at literal
    | question => simp [IsLiteral] at literal
    | set => simp [IsLiteral, opening] at literal
    | loneOpening => simp [IsLiteral, opening] at literal
  · rintro ⟨rest, rfl, others⟩
    exact .literal literal others

theorem takes_star_cons_iff :
    Takes (⟨'*', false⟩ :: marks) name ↔
      ∃ stretch rest, name = stretch ++ rest ∧ Takes marks rest := by
  constructor
  · intro taken
    cases taken with
    | literal literal => simp [IsLiteral] at literal
    | star stretch others => exact ⟨stretch, _, rfl, others⟩
  · rintro ⟨stretch, rest, rfl, others⟩
    exact .star stretch others

theorem takes_question_cons_iff :
    Takes (⟨'?', false⟩ :: marks) name ↔
      ∃ character rest, name = character :: rest ∧ Takes marks rest := by
  constructor
  · intro taken
    cases taken with
    | literal literal => simp [IsLiteral] at literal
    | question character others => exact ⟨character, _, rfl, others⟩
  · rintro ⟨character, rest, rfl, others⟩
    exact .question character others

theorem not_isLiteral_opening : ¬opening.IsLiteral := by
  simp [IsLiteral, opening]

/-- An opening bracket opens a set or, where nothing closes one, stands for itself. -/
theorem Takes.of_opening (taken : Takes (opening :: following) name) :
    (∃ negated body rest, StartsSet following negated body rest ∧
      ∃ character others, name = character :: others ∧ SetHolds negated body character ∧
        Takes rest others) ∨
    (∀ negated body rest, ¬StartsSet following negated body rest) ∧
      ∃ others, name = '[' :: others ∧ Takes following others := by
  generalize whole : opening :: following = text at taken
  cases taken with
  | nil => contradiction
  | literal literal =>
      obtain ⟨rfl, -⟩ := List.cons_eq_cons.mp whole
      exact absurd literal not_isLiteral_opening
  | star => simp [opening] at whole
  | question => simp [opening] at whole
  | set starts holds others =>
      obtain ⟨-, rfl⟩ := List.cons_eq_cons.mp whole
      exact .inl ⟨_, _, _, starts, _, _, rfl, holds, others⟩
  | loneOpening noSet others =>
      obtain ⟨-, rfl⟩ := List.cons_eq_cons.mp whole
      exact .inr ⟨noSet, _, rfl, others⟩

theorem takes_set_cons_iff (starts : StartsSet following negated body rest) :
    Takes (opening :: following) name ↔
      ∃ character others, name = character :: others ∧ SetHolds negated body character ∧
        Takes rest others := by
  constructor
  · intro taken
    rcases taken.of_opening with ⟨_, _, _, otherStarts, found⟩ | ⟨noSet, -⟩
    · obtain ⟨rfl, rfl, rfl⟩ := starts.unique otherStarts
      exact found
    · exact absurd starts (noSet _ _ _)
  · rintro ⟨character, others, rfl, holds, taken⟩
    exact .set starts holds taken

theorem takes_loneOpening_cons_iff
    (noSet : ∀ negated body rest, ¬StartsSet following negated body rest) :
    Takes (opening :: following) name ↔
      ∃ others, name = '[' :: others ∧ Takes following others := by
  constructor
  · intro taken
    rcases taken.of_opening with ⟨_, _, _, starts, -⟩ | ⟨-, found⟩
    · exact absurd starts (noSet _ _ _)
    · exact found
  · rintro ⟨others, rfl, taken⟩
    exact .loneOpening noSet taken

theorem members_eq_readAll (plain : ∀ mark ∈ body, mark.escaped = false) :
    members body = Member.readAll (body.map Mark.character) := by
  fun_induction members body with
  | case1 => rfl
  | case2 low high rest inductionHypothesis =>
      have plainRest : ∀ mark ∈ rest, mark.escaped = false :=
        fun mark inRest => plain mark (by simp [inRest])
      rw [inductionHypothesis plainRest]
      rfl
  | case3 mark rest notRange inductionHypothesis =>
      rw [List.forall_mem_cons] at plain
      rw [inductionHypothesis plain.2]
      match rest with
      | [] => rfl
      | [last] =>
          by_cases dash : last.character = '-'
          · simp [Member.readAll, dash]
          · exact (Member.readAll_cons_of_ne_dash dash).symm
      | ⟨character, escaped⟩ :: high :: others =>
          obtain rfl : escaped = false := plain.2 _ List.mem_cons_self
          have notDash : character ≠ '-' := by
            rintro rfl
            exact notRange high others rfl
          exact (Member.readAll_cons_of_ne_dash notDash).symm

end Mark

end IgnoreRules
