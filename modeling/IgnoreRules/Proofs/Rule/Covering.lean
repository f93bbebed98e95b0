import IgnoreRules.Rule.Match

/-!
The matcher follows all cuts of a path at once.  A position stays marked exactly when the segments
read so far cover a stretch that ends there, so a rule matches the components that its segments
cover from an allowed start.
-/

namespace IgnoreRules

namespace Segment

variable {segment : Segment} {segments : List Segment} {component : Name}
  {components : List Name} {marked : List Bool} {position : Nat}

@[simp]
theorem covers_nil_iff : Covers [] components ↔ components = [] := by
  constructor
  · intro covers
    cases covers
    rfl
  · rintro rfl
    exact .nil

theorem covers_name_iff {expression : Expression} :
    Covers (name expression :: segments) components ↔
      ∃ component rest, components = component :: rest ∧
        (name expression).accepts component = true ∧ Covers segments rest := by
  constructor
  · intro covers
    cases covers with
    | name accepted others => exact ⟨_, _, rfl, accepted, others⟩
  · rintro ⟨component, rest, rfl, accepted, others⟩
    exact .name accepted others

theorem covers_name_cons_iff {expression : Expression} :
    Covers (name expression :: segments) (component :: components) ↔
      (name expression).accepts component = true ∧ Covers segments components := by
  rw [covers_name_iff]
  constructor
  · rintro ⟨first, rest, split, accepted, others⟩
    cases split
    exact ⟨accepted, others⟩
  · rintro ⟨accepted, others⟩
    exact ⟨component, components, rfl, accepted, others⟩

theorem covers_globstar_of_covers (skipped : List Name) (covers : Covers segments components) :
    Covers (globstar :: segments) (skipped ++ components) := by
  induction skipped with
  | nil => exact .globstarStop covers
  | cons component skipped inductionHypothesis => exact .globstarMore inductionHypothesis

theorem covers_globstar_iff :
    Covers (globstar :: segments) components ↔
      ∃ count, Covers segments (components.drop count) := by
  constructor
  · intro covers
    induction components with
    | nil =>
        cases covers with
        | globstarStop others => exact ⟨0, others⟩
    | cons component components inductionHypothesis =>
        cases covers with
        | name accepted => simp [accepts] at accepted
        | globstarStop others => exact ⟨0, others⟩
        | globstarMore others =>
            obtain ⟨count, covers⟩ := inductionHypothesis others
            exact ⟨count + 1, covers⟩
  · rintro ⟨count, covers⟩
    have whole := covers_globstar_of_covers (components.take count) covers
    rwa [List.take_append_drop] at whole

theorem covers_globstar_self (components : List Name) : Covers [globstar] components := by
  rw [covers_globstar_iff]
  exact ⟨components.length, by simp⟩

theorem covers_cons_congr {others : List Segment}
    (same : ∀ components, Covers segments components ↔ Covers others components) :
    Covers (segment :: segments) components ↔ Covers (segment :: others) components := by
  cases segment with
  | globstar => simp only [covers_globstar_iff, same]
  | name expression => simp only [covers_name_iff, same]

theorem covers_globstar_globstar_iff :
    Covers (globstar :: globstar :: segments) components ↔
      Covers (globstar :: segments) components := by
  simp only [covers_globstar_iff, List.drop_drop]
  constructor
  · rintro ⟨first, second, covers⟩
    exact ⟨first + second, covers⟩
  · rintro ⟨count, covers⟩
    exact ⟨count, 0, covers⟩

theorem covers_mergeGlobstars_iff :
    Covers (mergeGlobstars segments) components ↔ Covers segments components := by
  induction segments generalizing components with
  | nil => rfl
  | cons segment rest inductionHypothesis =>
      rw [mergeGlobstars]
      split
      next run =>
        obtain ⟨rfl, another⟩ := run
        obtain ⟨others, rfl⟩ := List.head?_eq_some_iff.mp another
        rw [inductionHypothesis, covers_globstar_globstar_iff]
      next => exact covers_cons_congr fun _ => inductionHypothesis

theorem getElem?_spread_eq_some_true_iff {reached : Bool} :
    (spread reached marked)[position]? = some true ↔
      position < marked.length ∧
        (reached = true ∨ ∃ earlier ≤ position, marked[earlier]? = some true) := by
  induction marked generalizing reached position with
  | nil => simp [spread]
  | cons here rest inductionHypothesis =>
      cases position with
      | zero => simp [spread]
      | succ position =>
          have fromHere : (∃ earlier ≤ position + 1, (here :: rest)[earlier]? = some true) ↔
              here = true ∨ ∃ earlier ≤ position, rest[earlier]? = some true := by
            constructor
            · rintro ⟨earlier, bound, isMarked⟩
              cases earlier with
              | zero => exact .inl (by simpa using isMarked)
              | succ earlier => exact .inr ⟨earlier, by omega, by simpa using isMarked⟩
            · rintro (rfl | ⟨earlier, bound, isMarked⟩)
              · exact ⟨0, by omega, rfl⟩
              · exact ⟨earlier + 1, by omega, by simpa using isMarked⟩
          rw [spread, List.getElem?_cons_succ, inductionHypothesis, fromHere, Bool.or_eq_true,
            or_assoc]
          simp

theorem length_spread (reached : Bool) : (spread reached marked).length = marked.length := by
  induction marked generalizing reached with
  | nil => rfl
  | cons here rest inductionHypothesis => simp [spread, inductionHypothesis]

theorem length_advance (onePerPosition : marked.length = components.length + 1) :
    (advance components marked segment).length = components.length + 1 := by
  cases segment with
  | globstar => rw [advance, length_spread, onePerPosition]
  | name expression => simp [advance, onePerPosition]

theorem drop_eq_cons_iff {rest : List Name} :
    components.drop position = component :: rest ↔
      components[position]? = some component ∧ rest = components.drop (position + 1) := by
  constructor
  · intro split
    refine ⟨?_, ?_⟩
    · rw [← List.head?_drop, split, List.head?_cons]
    · rw [← List.tail_drop, split, List.tail_cons]
  · rintro ⟨found, rfl⟩
    rw [List.drop_eq_getElem?_toList_append, found]
    rfl

/-- The marks after a segment are those from which the rest is covered when the segment is read
first. -/
theorem exists_advance_iff (onePerPosition : marked.length = components.length + 1) :
    (∃ position, (advance components marked segment)[position]? = some true ∧
        Covers segments (components.drop position)) ↔
      ∃ position, marked[position]? = some true ∧
        Covers (segment :: segments) (components.drop position) := by
  cases segment with
  | globstar =>
      simp only [advance, getElem?_spread_eq_some_true_iff, covers_globstar_iff, List.drop_drop]
      constructor
      · rintro ⟨position, ⟨-, reached | ⟨earlier, bound, isMarked⟩⟩, covers⟩
        · contradiction
        · refine ⟨earlier, isMarked, position - earlier, ?_⟩
          rwa [Nat.add_sub_cancel' bound]
      · rintro ⟨earlier, isMarked, count, covers⟩
        have inMarks := (List.getElem?_eq_some_iff.mp isMarked).1
        -- Behind the last component every position leaves the same empty stretch.
        refine ⟨min (earlier + count) components.length, ⟨by omega, .inr ⟨earlier, by omega,
          isMarked⟩⟩, ?_⟩
        rcases Nat.le_total (earlier + count) components.length with inside | behind
        · rwa [Nat.min_eq_left inside]
        · rw [List.drop_of_length_le behind] at covers
          rwa [Nat.min_eq_right behind, List.drop_length]
  | name expression =>
      simp only [advance, covers_name_iff]
      constructor
      · rintro ⟨position, isMarked, covers⟩
        cases position with
        | zero => simp at isMarked
        | succ position =>
            rw [List.getElem?_cons_succ, List.getElem?_zipWith_eq_some] at isMarked
            obtain ⟨here, component, isHere, isThere, both⟩ := isMarked
            rw [Bool.and_eq_true] at both
            refine ⟨position, by rw [isHere, both.1], component, _, ?_, both.2, covers⟩
            exact drop_eq_cons_iff.mpr ⟨isThere, rfl⟩
      · rintro ⟨position, isMarked, component, rest, split, accepted, covers⟩
        obtain ⟨isThere, rfl⟩ := drop_eq_cons_iff.mp split
        refine ⟨position + 1, ?_, covers⟩
        rw [List.getElem?_cons_succ, List.getElem?_zipWith_eq_some]
        exact ⟨true, component, isMarked, isThere, by rw [accepted]; rfl⟩

theorem getLast?_foldl_advance_iff (onePerPosition : marked.length = components.length + 1) :
    (segments.foldl (advance components) marked).getLast? = some true ↔
      ∃ position, marked[position]? = some true ∧
        Covers segments (components.drop position) := by
  induction segments generalizing marked with
  | nil =>
      rw [List.foldl_nil, List.getLast?_eq_getElem?, onePerPosition, Nat.add_sub_cancel]
      simp only [covers_nil_iff, List.drop_eq_nil_iff]
      constructor
      · intro isMarked
        exact ⟨components.length, isMarked, Nat.le_refl _⟩
      · rintro ⟨position, isMarked, behind⟩
        have inMarks := (List.getElem?_eq_some_iff.mp isMarked).1
        obtain rfl : position = components.length := by omega
        exact isMarked
  | cons segment segments inductionHypothesis =>
      rw [List.foldl_cons, inductionHypothesis (length_advance onePerPosition),
        exists_advance_iff onePerPosition]

end Segment

namespace Rule

variable {rule : Rule} {components : List Name} {count start : Nat}

/-- A match may start here: at the last component for a rule about that alone, in front for a rule
tied to its directory, and anywhere otherwise. -/
def MayStart (rule : Rule) (count start : Nat) : Prop :=
  start ≤ count ∧
    (if rule.basenameOnly then start + 1 = count else if rule.rooted then start = 0 else True)

theorem getElem?_starts_eq_some_true_iff :
    (rule.starts count)[start]? = some true ↔ rule.MayStart count start := by
  unfold starts MayStart
  by_cases inRange : start ≤ count
  · rw [List.getElem?_map, List.getElem?_range (Nat.lt_succ_of_le inRange)]
    simp only [Option.map_some, Option.some.injEq, inRange, true_and]
    split
    next => exact beq_iff_eq
    next =>
      split
      next => exact beq_iff_eq
      next => simp
  · rw [List.getElem?_eq_none (by rw [List.length_map, List.length_range]; omega)]
    simp [inRange]

theorem matchesParts_iff :
    rule.matchesParts components = true ↔
      components ≠ [] ∧ ∃ start, rule.MayStart components.length start ∧
        Segment.Covers rule.segments (components.drop start) := by
  have onePerPosition : (rule.starts components.length).length = components.length + 1 := by
    simp [starts]
  have lastMarked (marks : List Bool) : marks.getLast?.getD false = true ↔
      marks.getLast? = some true := by
    cases marks.getLast? <;> simp
  simp only [matchesParts, Bool.and_eq_true, bne_iff_ne, lastMarked,
    Segment.getLast?_foldl_advance_iff onePerPosition, getElem?_starts_eq_some_true_iff]

theorem matchesParts_of_rooted (rooted : rule.rooted = true) (components : List Name) :
    rule.matchesParts components = true ↔
      components ≠ [] ∧ Segment.Covers rule.segments components := by
  have starts (start : Nat) : rule.MayStart components.length start ↔ start = 0 := by
    have notBasename : rule.basenameOnly = false := by simp [basenameOnly, rooted]
    simp [MayStart, notBasename, rooted]
    omega
  rw [matchesParts_iff]
  simp [starts]

/-- A rule that is not tied to its directory matches what its segments cover after any number of
components; one without a slash has only the last component to cover. -/
theorem matchesParts_of_floating (notRooted : rule.rooted = false) (components : List Name) :
    rule.matchesParts components = true ↔
      components ≠ [] ∧ Segment.Covers (.globstar :: rule.segments) components := by
  rw [matchesParts_iff, Segment.covers_globstar_iff]
  refine and_congr_right fun nonempty => ?_
  have positive : 0 < components.length := List.length_pos_iff.mpr nonempty
  cases basename : rule.basenameOnly with
  | false =>
      constructor
      · rintro ⟨start, -, covers⟩
        exact ⟨start, covers⟩
      · rintro ⟨count, covers⟩
        -- Behind the last component every start leaves the same empty stretch.
        refine ⟨min count components.length, ⟨by omega, by simp [basename, notRooted]⟩, ?_⟩
        rcases Nat.le_total count components.length with inside | behind
        · rwa [Nat.min_eq_left inside]
        · rw [List.drop_of_length_le behind] at covers
          rwa [Nat.min_eq_right behind, List.drop_length]
  | true =>
      obtain ⟨segment, alone⟩ : ∃ segment, rule.segments = [segment] := by
        rw [← List.length_eq_one_iff]
        simpa [basenameOnly, notRooted] using basename
      rw [alone]
      constructor
      · rintro ⟨start, -, covers⟩
        exact ⟨start, covers⟩
      · rintro ⟨count, covers⟩
        have last : rule.MayStart components.length (components.length - 1) :=
          ⟨by omega, by rw [if_pos basename]; omega⟩
        cases segment with
        | globstar => exact ⟨_, last, Segment.covers_globstar_self _⟩
        | name expression =>
            refine ⟨count, ?_, covers⟩
            obtain ⟨component, rest, split, -, others⟩ := Segment.covers_name_iff.mp covers
            obtain rfl := Segment.covers_nil_iff.mp others
            have oneLeft := congrArg List.length split
            rw [List.length_drop, List.length_singleton] at oneLeft
            obtain rfl : count = components.length - 1 := by omega
            exact last

end Rule

end IgnoreRules
