import IgnoreRules.Proofs.Tree.Real

/-!
Disks on which every link holds a real path.  Following a link ends at once there, so links never
run in a circle.
-/

namespace IgnoreRules

namespace Tree

variable {tree : Tree} {location : Location} {target : List Char}

theorem mem_mentions_of_present {entry : Entry} (nonempty : location ≠ [])
    (present : tree.entry? location = some entry) : (location, entry) ∈ tree.mentions := by
  unfold Tree.entry? at present
  split at present
  next =>
    rw [mentioned?, if_neg nonempty] at present
    obtain ⟨before, after, split, -⟩ := List.lookup_eq_some_iff.mp present
    simp [split]
  next => contradiction

theorem mem_mentions_of_link? (isLink : tree.link? location = some target) :
    (location, Entry.link target) ∈ tree.mentions := by
  unfold link? at isLink
  split at isLink
  next found =>
    cases isLink
    refine mem_mentions_of_present ?_ found
    rintro rfl
    simp at found
  next => contradiction

end Tree

namespace Disk

variable {disk : Disk} {follow : List Path → Path → List Char → Except Fault Resolution}
  {here : Path} {names : List Name}

theorem complete_of_resolveWith {resolution : Resolution}
    (followComplete : ∀ underway here location target, disk.tree.link? location = some target →
      ∃ path, follow underway here target = .ok ⟨path, true⟩)
    (resolved : disk.resolveWith follow [] here names = .ok resolution) :
    resolution.complete = true := by
  induction names generalizing here with
  | nil =>
      cases resolved
      rfl
  | cons name names inductionHypothesis =>
      by_cases skipped : name = [] ∨ name = Name.here
      · rw [resolveWith_cons_of_skipped skipped] at resolved
        exact inductionHypothesis resolved
      · by_cases isAbove : name = Name.above
        · subst isAbove
          rw [resolveWith_cons_above] at resolved
          exact inductionHypothesis resolved
        · rw [resolveWith_cons_of_named skipped isAbove] at resolved
          split at resolved
          next => contradiction
          next =>
            split at resolved
            next => exact inductionHypothesis resolved
            next target isLink =>
              obtain ⟨path, complete⟩ := followComplete [here.child name] here _ target isLink
              rw [if_neg (by simp), complete] at resolved
              exact inductionHypothesis resolved

/-- Links that hold real paths never run in a circle. -/
theorem freeOfCircles_of_straight
    (straight : ∀ location target, disk.tree.link? location = some target →
      ∃ real, disk.IsReal real ∧ target = real.text) :
    disk.FreeOfCircles := by
  intro path resolution resolved
  rw [resolveText_eq_resolveWith] at resolved
  refine complete_of_resolveWith (fun underway here location target isLink => ?_) resolved
  obtain ⟨real, isReal, rfl⟩ := straight location target isLink
  refine ⟨real, ?_⟩
  rw [greatestDepth, followAt, resolveText_text isReal.isSpelled]
  obtain ⟨anchor, names⟩ := real
  obtain rfl : anchor = .root := isReal.anchored
  exact resolveWith_of_isReal isReal

end Disk

end IgnoreRules
