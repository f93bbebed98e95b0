import IgnoreRules.Proofs.Tree.Circle

/-!
Resolutions that are complete.  Where they end depends on where they start and not on how this place
is written, and without circles of links and null characters there always is one.
-/

namespace IgnoreRules

def Tree.LinksHoldNoNull (tree : Tree) : Prop :=
  ∀ location target, tree.link? location = some target → '\x00' ∉ target

namespace Path

variable {path : Path}

theorem noNull_of_mem_components {text : List Char} (noNull : '\x00' ∉ text) :
    ∀ name ∈ components text, name.NoNull :=
  fun _ present isNull => noNull (Text.mem_of_mem_pieces present isNull)

theorem noNull_of_mem_ofText {text : List Char} (noNull : '\x00' ∉ text) :
    ∀ name ∈ (ofText text).names, name.NoNull :=
  fun _ isName present => noNull (mem_of_mem_name isName present)

end Path

namespace Disk

variable {disk : Disk} {follow otherFollow : List Path → Path → List Char → Except Fault Resolution}
  {underway otherUnderway : List Path} {here there path first second : Path}
  {name : Name} {names : List Name}
  {depth otherDepth : Nat}

theorem resolveWith_ne_error (holdsNoNull : disk.tree.LinksHoldNoNull)
    (follows : ∀ underway here target fault, '\x00' ∉ target →
      follow underway here target ≠ .error fault)
    (noNull : ∀ name ∈ names, name.NoNull) (fault : Fault) :
    disk.resolveWith follow underway here names ≠ .error fault := by
  induction names generalizing here with
  | nil => simp [resolveWith]
  | cons name names inductionHypothesis =>
      rw [List.forall_mem_cons] at noNull
      have goesOn (next : Path) := @inductionHypothesis next noNull.2
      by_cases skipped : name = [] ∨ name = Name.here
      · rw [resolveWith_cons_of_skipped skipped]
        exact goesOn here
      · by_cases isAbove : name = Name.above
        · subst isAbove
          rw [resolveWith_cons_above]
          exact goesOn (up here)
        · rw [resolveWith_cons_of_named skipped isAbove,
            if_neg (by simpa [Name.NoNull] using noNull.1)]
          split
          next => exact goesOn (here.child name)
          next target isLink =>
            split
            next => simp
            next =>
              split
              next fault followed =>
                exact absurd followed (follows _ _ _ _ (holdsNoNull _ _ isLink))
              next next _ => exact goesOn next
              next => simp

theorem followAt_ne_error (holdsNoNull : disk.tree.LinksHoldNoNull) {text : List Char}
    (noNull : '\x00' ∉ text) (fault : Fault) :
    disk.followAt depth underway here text ≠ .error fault := by
  induction depth generalizing underway here text fault with
  | zero => simp [followAt]
  | succ depth inductionHypothesis =>
      rw [followAt, resolveText_eq_resolveWith]
      exact resolveWith_ne_error holdsNoNull
        (fun _ _ _ fault noNullTarget => inductionHypothesis noNullTarget fault)
        (Path.noNull_of_mem_components noNull) fault

theorem linkAt?_child_of_same (notAbove : name ≠ Name.above)
    (same : Path.normalAbsolute disk.current here = Path.normalAbsolute disk.current there) :
    disk.linkAt? (here.child name) = disk.linkAt? (there.child name) := by
  rw [linkAt?, linkAt?, Path.normalAbsolute_child notAbove, Path.normalAbsolute_child notAbove,
    same]

theorem Step.same_next (absoluteCurrent : disk.current.isAbsolute = true)
    (same : Path.normalAbsolute disk.current here = Path.normalAbsolute disk.current there)
    (step : disk.Step follow underway here name first)
    (stepToo : disk.Step otherFollow otherUnderway there name second)
    (sameFollowed : ∀ target,
      follow (here.child name :: underway) here target = .ok ⟨first, true⟩ →
      otherFollow (there.child name :: otherUnderway) there target = .ok ⟨second, true⟩ →
      Path.normalAbsolute disk.current first = Path.normalAbsolute disk.current second) :
    Path.normalAbsolute disk.current first = Path.normalAbsolute disk.current second := by
  cases step with
  | stay skipped =>
      cases stepToo with
      | stay => exact same
      | up => simp [Name.above, Name.here] at skipped
      | down named => contradiction
      | along named => contradiction
  | up =>
      cases stepToo with
      | stay skipped => simp [Name.above, Name.here] at skipped
      | up => rw [normalAbsolute_up absoluteCurrent, normalAbsolute_up absoluteCurrent, same]
      | down named notAbove => contradiction
      | along named notAbove => contradiction
  | down named notAbove noNull noLink =>
      rw [linkAt?_child_of_same notAbove same] at noLink
      cases stepToo with
      | stay skipped => contradiction
      | up => contradiction
      | down =>
          rw [Path.normalAbsolute_child notAbove, Path.normalAbsolute_child notAbove, same]
      | along _ _ _ isLink =>
          rw [noLink] at isLink
          contradiction
  | along named notAbove noNull isLink fresh followed =>
      rw [linkAt?_child_of_same notAbove same] at isLink
      cases stepToo with
      | stay skipped => contradiction
      | up => contradiction
      | down _ _ _ noLink =>
          rw [noLink] at isLink
          contradiction
      | along _ _ _ isLinkToo _ followedToo =>
          rw [isLinkToo] at isLink
          cases isLink
          exact sameFollowed _ followed followedToo

/-- Complete resolutions of the same names end at the same place if they start at the same. -/
theorem resolveWith_complete_unique (absoluteCurrent : disk.current.isAbsolute = true)
    (same : Path.normalAbsolute disk.current here = Path.normalAbsolute disk.current there)
    (resolved : disk.resolveWith (disk.followAt depth) underway here names = .ok ⟨first, true⟩)
    (resolvedToo : disk.resolveWith (disk.followAt otherDepth) otherUnderway there names =
      .ok ⟨second, true⟩) :
    Path.normalAbsolute disk.current first = Path.normalAbsolute disk.current second := by
  -- Following a link makes the depth smaller, and everything else makes the names fewer.
  induction depth using Nat.strong_induction_on generalizing otherDepth underway otherUnderway
    here there names first second with
  | _ depth shallower =>
  induction names generalizing here there with
  | nil =>
      cases resolved
      cases resolvedToo
      exact same
  | cons name names inductionHypothesis =>
      obtain ⟨next, step, resolvedNext⟩ := exists_step_of_resolveWith resolved
      obtain ⟨nextToo, stepToo, resolvedNextToo⟩ := exists_step_of_resolveWith resolvedToo
      refine inductionHypothesis (step.same_next absoluteCurrent same stepToo ?_) resolvedNext
        resolvedNextToo
      intro target followed followedToo
      cases depth with
      | zero => simp [followAt] at followed
      | succ depth =>
          cases otherDepth with
          | zero => simp [followAt] at followedToo
          | succ otherDepth =>
              rw [followAt, resolveText_eq_resolveWith] at followed followedToo
              refine shallower depth (Nat.lt_succ_self depth) ?_ followed followedToo
              split
              next => exact same
              next => rfl

theorem resolveText_text_of_relative (isRelative : path.anchor = .relative)
    (proper : path.HasProperNames) (depth : Nat) :
    disk.resolveText depth underway here path.text =
      disk.resolveWith (disk.followAt depth) underway here path.names := by
  obtain ⟨anchor, names⟩ := path
  obtain rfl : anchor = .relative := isRelative
  cases names with
  | nil => exact (resolveText_eq_resolveWith ..).trans (resolveWith_cons_of_skipped (.inr rfl))
  | cons name names =>
      have unanchored : Anchor.ofText (Text.unpieces '/' (name :: names)) = .relative :=
        congrArg Path.anchor (Path.ofText_unpieces proper)
      have found : Path.components (Text.unpieces '/' (name :: names)) = name :: names :=
        Text.pieces_unpieces (by simp) fun name present => (proper name present).noSlash
      have written : Path.text ⟨.relative, name :: names⟩ = Text.unpieces '/' (name :: names) := rfl
      rw [resolveText_eq_resolveWith, written, unanchored, found, if_pos rfl]

section

variable (realCurrent : disk.IsReal disk.current) (acyclic : disk.FreeOfCircles)
  (holdsNoNull : disk.tree.LinksHoldNoNull)

include acyclic holdsNoNull in
theorem exists_complete (proper : path.HasProperNames)
    (noNull : ∀ name ∈ path.names, name.NoNull) :
    ∃ stop,
      disk.resolveText disk.greatestDepth [] ⟨.relative, []⟩ path.text = .ok ⟨stop, true⟩ := by
  obtain ⟨start, byNames⟩ : ∃ start,
      disk.resolveText disk.greatestDepth [] ⟨.relative, []⟩ path.text =
        disk.resolveWith (disk.followAt disk.greatestDepth) [] start path.names := by
    by_cases isRelative : path.anchor = .relative
    · exact ⟨_, resolveText_text_of_relative isRelative proper _⟩
    · exact ⟨_, resolveText_text ⟨by simpa [Path.isAbsolute] using isRelative, proper⟩ _⟩
  cases read : disk.resolveText disk.greatestDepth [] ⟨.relative, []⟩ path.text with
  | error fault =>
      have failed := byNames.symm.trans read
      exact absurd failed (resolveWith_ne_error holdsNoNull
        (fun _ _ _ fault noNullTarget => followAt_ne_error holdsNoNull noNullTarget fault)
        noNull fault)
  | ok resolution =>
      obtain ⟨stop, complete⟩ := resolution
      obtain rfl : complete = true := acyclic path _ read
      exact ⟨stop, rfl⟩

include realCurrent acyclic holdsNoNull

theorem exists_resolve (proper : path.HasProperNames)
    (noNull : ∀ name ∈ path.names, name.NoNull) : ∃ real, disk.resolve path = .ok real := by
  obtain ⟨stop, complete⟩ := exists_complete acyclic holdsNoNull proper noNull
  exact ⟨_, (resolve_of_complete realCurrent complete).1⟩

end

end Disk

end IgnoreRules
