import Mathlib.Data.List.Forall2
import IgnoreRules.Proofs.Rule.Canonical
import IgnoreRules.Proofs.Rule.Covering

/-!
What a rule says about a path.  A rule holds of the components that can be cut, from a place where
it may start to the end, into one block for each segment.  Merging runs of `**` changes where a
rule may start, and not what it says.
-/

namespace IgnoreRules

namespace Segment

/-- A segment takes a block of components: two stars any block, a name one component. -/
inductive Takes : Segment → List Name → Prop where
  | globstar (block : List Name) : Takes globstar block
  | name {expression : Expression} {component : Name} :
      expression.matchesAll component = true → Takes (name expression) [component]

variable {segments : List Segment} {components : List Name}

theorem covers_iff_exists_blocks :
    Covers segments components ↔
      ∃ blocks, List.Forall₂ Takes segments blocks ∧ blocks.flatten = components := by
  constructor
  · intro covers
    induction covers with
    | nil => exact ⟨[], .nil, rfl⟩
    | @name segment segments component components accepted _ inductionHypothesis =>
        obtain ⟨blocks, taken, rfl⟩ := inductionHypothesis
        cases segment with
        | globstar => contradiction
        | name expression => exact ⟨[component] :: blocks, .cons (.name accepted) taken, rfl⟩
    | globstarStop _ inductionHypothesis =>
        obtain ⟨blocks, taken, rfl⟩ := inductionHypothesis
        exact ⟨[] :: blocks, .cons (.globstar []) taken, rfl⟩
    | @globstarMore segments component components _ inductionHypothesis =>
        -- The block that the stars have taken already grows by one component.
        obtain ⟨blocks, taken, rfl⟩ := inductionHypothesis
        cases taken with
        | @cons _ first _ others _ rest =>
            exact ⟨(component :: first) :: others, .cons (.globstar _) rest, rfl⟩
  · rintro ⟨blocks, taken, rfl⟩
    induction taken with
    | nil => exact .nil
    | cons first _ inductionHypothesis =>
        cases first with
        | globstar => exact covers_globstar_of_covers _ inductionHypothesis
        | name accepted => exact .name accepted inductionHypothesis

end Segment

namespace Rule

theorem exists_unmerged {line : List Char} {rule : Rule} (compiled : ofLine? line = some rule) :
    ∃ segments, (Segment.parts rule.pattern).mapM Segment.ofPart = .ok segments ∧
      rule.segments = Segment.mergeGlobstars segments := by
  obtain ⟨-, merged, -⟩ := ofLine?_eq_some_iff.mp compiled
  unfold Segment.ofPattern at merged
  cases each : (Segment.parts rule.pattern).mapM Segment.ofPart with
  | error error =>
      rw [each] at merged
      contradiction
  | ok segments =>
      rw [each] at merged
      exact ⟨segments, rfl, (Except.ok.inj merged).symm⟩

/-- A rule says the same with runs of `**` as with each run as one, although a run that is merged to
a single segment leaves the rule only the last component to start at. -/
theorem matchesParts_of_merged {rule : Rule} {segments : List Segment}
    (merged : rule.segments = Segment.mergeGlobstars segments) (components : List Name) :
    rule.matchesParts components = { rule with segments }.matchesParts components := by
  apply Bool.eq_iff_iff.mpr
  cases rooted : rule.rooted with
  | true =>
      have unmergedRooted : { rule with segments }.rooted = true := rooted
      rw [matchesParts_of_rooted rooted, matchesParts_of_rooted unmergedRooted, merged]
      exact and_congr_right fun _ => Segment.covers_mergeGlobstars_iff
  | false =>
      have unmergedFloating : { rule with segments }.rooted = false := rooted
      rw [matchesParts_of_floating rooted, matchesParts_of_floating unmergedFloating, merged]
      apply and_congr_right
      intro _
      exact Segment.covers_cons_congr fun _ => Segment.covers_mergeGlobstars_iff

/-- A rule matches components exactly when there are some and, from a place where it may start, they
can be cut into a block for each of its segments.  For a compiled line it makes no difference that
runs of `**` have been merged. -/
theorem matchesParts_iff_cut :
    (∀ (rule : Rule) (components : List Name),
      rule.matchesParts components = true ↔
        0 < components.length ∧ ∃ start, rule.MayStart components.length start ∧
          ∃ blocks, List.Forall₂ Segment.Takes rule.segments blocks ∧
            blocks.flatten = components.drop start) ∧
    (∀ (line : List Char) (rule : Rule), ofLine? line = some rule →
      ∃ segments, (Segment.parts rule.pattern).mapM Segment.ofPart = .ok segments ∧
        ∀ components : List Name,
          rule.matchesParts components = { rule with segments }.matchesParts components) := by
  constructor
  · intro rule components
    rw [matchesParts_iff, ← List.length_pos_iff]
    simp only [Segment.covers_iff_exists_blocks]
  · intro line rule compiled
    obtain ⟨segments, each, merged⟩ := exists_unmerged compiled
    exact ⟨segments, each, matchesParts_of_merged merged⟩

/-- Two runs of stars: merged, the rule is about the last component alone; written out, it may start
anywhere. -/
theorem matchesParts_run_of_stars :
    ∃ rule segments, ofLine? "**/**".toList = some rule ∧
      (Segment.parts rule.pattern).mapM Segment.ofPart = .ok segments ∧
      rule.basenameOnly = true ∧ { rule with segments }.basenameOnly = false ∧
      rule.matchesParts ["a".toList, "b".toList] =
        { rule with segments }.matchesParts ["a".toList, "b".toList] ∧
      rule.matchesParts ["a".toList, "b".toList] = true := by
  have compiled :
      ofLine? "**/**".toList = some ((ofLine? "**/**".toList).get (by decide +kernel)) :=
    (Option.some_get _).symm
  obtain ⟨segments, each, same⟩ := matchesParts_iff_cut.2 _ _ compiled
  obtain rfl : [.globstar, .globstar] = segments := Except.ok.inj each
  exact ⟨_, _, compiled, each, by decide +kernel, by decide +kernel, same _, by decide +kernel⟩

end Rule

end IgnoreRules
