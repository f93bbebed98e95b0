import IgnoreRules.Proofs.Tree.Spelled

/-!
Resolutions that break off.  Where links run in a circle, what is left of a path is put behind the
place where this was found out, and the file system has the last word.  It gives a longer path no
better answer than a shorter one: a path that has a real one also has one for each directory on the
way to it.
-/

namespace IgnoreRules

namespace Path

variable {current path : Path} {rest more : List Name}

theorem ofText_unpieces (proper : ∀ name ∈ rest, name.Proper) :
    ofText (Text.unpieces '/' rest) = ⟨.relative, rest⟩ := by
  have unanchored : Anchor.ofText (Text.unpieces '/' rest) = .relative := by
    cases rest with
    | nil => rfl
    | cons first others =>
        have startsOtherwise : (Text.unpieces '/' (first :: others)).head? ≠ some '/' := by
          intro starts
          have properFirst := proper first (by simp)
          obtain ⟨initial, further, rfl⟩ := List.exists_cons_of_ne_nil properFirst.nonempty
          obtain rfl : initial = '/' := by
            cases others <;> simpa [Text.unpieces] using starts
          exact properFirst.noSlash (by simp)
        unfold Anchor.ofText
        split <;> simp_all
  rw [ofText, unanchored, significant_components_unpieces proper]

theorem withRest_eq (proper : ∀ name ∈ rest, name.Proper) :
    Disk.withRest path rest = { path with names := path.names ++ rest } := by
  rw [Disk.withRest, ofText_unpieces proper]
  rfl

theorem normalAbsolute_append (noAbove : Name.above ∉ more) :
    normalAbsolute current { path with names := path.names ++ more } =
      { normalAbsolute current path with
        names := (normalAbsolute current path).names ++ more } := by
  have opened : absolute current { path with names := path.names ++ more } =
      { absolute current path with names := (absolute current path).names ++ more } := by
    obtain ⟨anchor, names⟩ := path
    cases anchor <;> simp [absolute, join]
  have sameKind : isAbsolute { absolute current path with
      names := (absolute current path).names ++ more } = (absolute current path).isAbsolute := rfl
  rw [normalAbsolute, opened, normal, sameKind, List.foldl_append,
    foldl_pushLexically_of_not_above noAbove]
  simp [normalAbsolute, normal]

end Path

namespace Disk

variable {disk : Disk} {follow : List Path → Path → List Char → Except Fault Resolution}
  {underway : List Path} {here path real : Path} {front more names : List Name}

/-- The file system cannot go along a path, or gives up on it for the number of its links. -/
def GivesUpOn (disk : Disk) (path : Path) : Prop :=
  disk.locate path = .error .nullCharacter ∨
    ∃ place, disk.locate path = .error (.tree .tooManyLinks place)

theorem GivesUpOn.append (givesUp : disk.GivesUpOn path) (more : List Name) :
    disk.GivesUpOn { path with names := path.names ++ more } := by
  cases null : hasNull { path with names := path.names ++ more } with
  | true => exact .inl (by rw [locate, if_pos null])
  | false =>
      have noNull : hasNull path = false := by
        rw [hasNull_eq_false_iff] at null ⊢
        exact fun name present => null name (List.mem_append_left _ present)
      have located : disk.locate path = (disk.tree.walk Tree.greatestLinkCount
          (if path.isAbsolute then [] else disk.current.names) path.names).mapError
            (Fault.tree · path) := by
        rw [locate, if_neg (by simp [noNull])]
      rw [GivesUpOn, located] at givesUp
      have tooMany : disk.tree.walk Tree.greatestLinkCount
          (if path.isAbsolute then [] else disk.current.names) path.names =
            .error .tooManyLinks := by
        cases walked : disk.tree.walk Tree.greatestLinkCount
            (if path.isAbsolute then [] else disk.current.names) path.names with
        | ok stop => simp [walked, Except.mapError] at givesUp
        | error error => simpa [walked, Except.mapError] using givesUp
      refine .inr ⟨{ path with names := path.names ++ more }, ?_⟩
      have further := Tree.walk_append_error tooMany more
      rw [locate, if_neg (by simp [null])]
      exact congrArg (Except.mapError _) further

theorem resolveWith_append (proper : ∀ name ∈ front ++ more, name.Proper) :
    disk.resolveWith follow underway here (front ++ more) =
      match disk.resolveWith follow underway here front with
      | .error fault => .error fault
      | .ok ⟨middle, true⟩ => disk.resolveWith follow underway middle more
      | .ok ⟨stop, false⟩ => .ok ⟨{ stop with names := stop.names ++ more }, false⟩ := by
  induction front generalizing here with
  | nil => rfl
  | cons name front inductionHypothesis =>
      rw [List.cons_append, List.forall_mem_cons] at proper
      have properFront : ∀ name ∈ front, name.Proper := fun name inFront =>
        proper.2 name (by simp [inFront])
      have addsRest (path : Path) :
          withRest path (front ++ more) =
            { withRest path front with names := (withRest path front).names ++ more } := by
        rw [Path.withRest_eq proper.2, Path.withRest_eq properFront, List.append_assoc]
      have further (next : Path) := @inductionHypothesis next proper.2
      rw [List.cons_append]
      by_cases isAbove : name = Name.above
      · subst isAbove
        rw [resolveWith_cons_above, resolveWith_cons_above]
        exact further _
      · rw [resolveWith_cons_of_named proper.1.named isAbove,
          resolveWith_cons_of_named proper.1.named isAbove]
        split
        next => rfl
        next =>
          cases disk.linkAt? (here.child name) with
          | none => exact further _
          | some target =>
              dsimp only
              split
              next => rw [addsRest]
              next =>
                cases follow (here.child name :: underway) here target with
                | error fault => rfl
                | ok resolution =>
                    obtain ⟨next, complete⟩ := resolution
                    cases complete with
                    | true => exact further next
                    | false =>
                        dsimp only
                        rw [addsRest]

theorem resolve_outcomes (disk : Disk) (path : Path) :
    disk.resolve path = .error .nullCharacter ∨ (∃ real, disk.resolve path = .ok real) ∨
      ∃ place, disk.resolve path = .error (.linkLoop place) := by
  cases read : disk.resolveText disk.greatestDepth [] ⟨.relative, []⟩ path.text with
  | error fault =>
      have failed : disk.followAt (disk.greatestDepth + 1) [] ⟨.relative, []⟩ path.text =
          .error fault := read
      left
      rw [resolve, read, nullCharacter_of_followAt failed]
  | ok resolution =>
      unfold resolve
      rw [read]
      dsimp only
      split
      · exact .inr (.inr ⟨_, rfl⟩)
      · exact .inl rfl
      · exact .inr (.inl ⟨_, rfl⟩)

theorem linkLoop_of_resolve {fault : Fault} (failed : disk.resolve path = .error fault)
    (notNull : fault ≠ .nullCharacter) : ∃ place, fault = .linkLoop place := by
  rcases resolve_outcomes disk path with null | ⟨real, resolved⟩ | ⟨place, circled⟩
  · rw [null] at failed
    exact absurd (Except.error.inj failed).symm notNull
  · rw [resolved] at failed
    contradiction
  · rw [circled] at failed
    exact ⟨place, (Except.error.inj failed).symm⟩

def IsCircleFree (disk : Disk) (path : Path) : Prop :=
  ∀ place, disk.resolve path ≠ .error (.linkLoop place)

theorem isCircleFree_iff :
    disk.IsCircleFree path ↔
      disk.resolve path = .error .nullCharacter ∨ ∃ real, disk.resolve path = .ok real := by
  unfold IsCircleFree
  rcases resolve_outcomes disk path with null | resolved | ⟨place, circled⟩
  · simp [null]
  · obtain ⟨real, resolved⟩ := resolved
    simp [resolved]
  · simp [circled]

theorem resolve_of_brokenOff (spelled : path.IsSpelled) {stop : Path}
    (brokenOff : disk.resolveWith (disk.followAt disk.greatestDepth) [] ⟨.root, []⟩ path.names =
      .ok ⟨stop, false⟩) :
    disk.resolve path = .ok real ↔
      real = Path.normalAbsolute disk.current stop ∧ ¬disk.GivesUpOn real := by
  unfold resolve GivesUpOn
  rw [resolveText_text spelled, brokenOff]
  dsimp only
  grind

theorem resolve_of_resolveWith (spelled : path.IsSpelled)
    (complete : disk.resolveWith (disk.followAt disk.greatestDepth) [] ⟨.root, []⟩ path.names =
      .ok ⟨real, true⟩) : disk.resolve path = .ok real ∧ disk.IsReal real := by
  have isReal : disk.IsReal real :=
    (goesOn_isReal disk).resolveWith
      (fun _ _ _ _ realNext followed => (goesOn_isReal disk).followAt realNext followed)
      (fun name present => (spelled.proper name present).noSlash) (isReal_root disk) complete
  have same := isReal.normalAbsolute_eq_self disk.current
  have sameRead : disk.resolveText disk.greatestDepth [] ⟨.relative, []⟩ path.text = _ :=
    resolveText_text spelled _
  rw [← sameRead] at complete
  have resolved := resolve_of_isReal_end complete (same.symm ▸ isReal)
  exact ⟨same ▸ resolved, isReal⟩

theorem resolveWith_of_resolve (acyclic : disk.FreeOfCircles) (spelled : path.IsSpelled)
    (resolved : disk.resolve path = .ok real) :
    disk.resolveWith (disk.followAt disk.greatestDepth) [] ⟨.root, []⟩ path.names =
      .ok ⟨real, true⟩ := by
  cases ended : disk.resolveWith (disk.followAt disk.greatestDepth) [] ⟨.root, []⟩
      path.names with
  | error fault =>
      rw [resolve, resolveText_text spelled, ended] at resolved
      contradiction
  | ok resolution =>
      obtain ⟨stop, complete⟩ := resolution
      obtain rfl : complete = true := by
        rw [← resolveText_text spelled] at ended
        exact acyclic path _ ended
      rw [(resolve_of_resolveWith spelled ended).1] at resolved
      rw [Except.ok.inj resolved]

theorem isCircleFree_of_freeOfCircles (acyclic : disk.FreeOfCircles) (spelled : path.IsSpelled) :
    disk.IsCircleFree path := by
  intro place circled
  cases read : disk.resolveText disk.greatestDepth [] ⟨.relative, []⟩ path.text with
  | error fault =>
      have failed : disk.followAt (disk.greatestDepth + 1) [] ⟨.relative, []⟩ path.text =
          .error fault := read
      rw [resolve, read, nullCharacter_of_followAt failed] at circled
      simp at circled
  | ok resolution =>
      obtain ⟨stop, complete⟩ := resolution
      obtain rfl : complete = true := acyclic path _ read
      rw [resolveText_text spelled] at read
      rw [(resolve_of_resolveWith spelled read).1] at circled
      contradiction

section

variable (spelled : path.IsSpelled) (noAbove : Name.above ∉ path.names)
  (resolved : disk.resolve path = .ok real)
include spelled noAbove resolved

/-- When a path has a real one, its front part is resolved to the end, or else the file system
follows the path that is put together there. -/
theorem front_of_resolve (split : front ++ more = path.names) :
    (∃ middle resolution,
      disk.resolveWith (disk.followAt disk.greatestDepth) [] ⟨.root, []⟩ front =
        .ok ⟨middle, true⟩ ∧
      disk.resolveWith (disk.followAt disk.greatestDepth) [] middle more = .ok resolution) ∨
    ∃ stop,
      disk.resolveWith (disk.followAt disk.greatestDepth) [] ⟨.root, []⟩ front =
        .ok ⟨stop, false⟩ ∧
      ¬disk.GivesUpOn { Path.normalAbsolute disk.current stop with
        names := (Path.normalAbsolute disk.current stop).names ++ more } := by
  have proper : ∀ name ∈ front ++ more, name.Proper := fun name present =>
    spelled.proper name (split ▸ present)
  have goesOn := @resolveWith_append disk (disk.followAt disk.greatestDepth) [] ⟨.root, []⟩ front
    more proper
  rw [split] at goesOn
  cases reached : disk.resolveWith (disk.followAt disk.greatestDepth) [] ⟨.root, []⟩ front with
  | error fault =>
      rw [reached] at goesOn
      rw [resolve, resolveText_text spelled, goesOn] at resolved
      contradiction
  | ok resolution =>
      rw [reached] at goesOn
      obtain ⟨stop, complete⟩ := resolution
      cases complete with
      | true =>
          left
          cases rest : disk.resolveWith (disk.followAt disk.greatestDepth) [] stop more with
          | error fault =>
              rw [resolve, resolveText_text spelled, goesOn] at resolved
              dsimp only at resolved
              rw [rest] at resolved
              contradiction
          | ok resolution => exact ⟨stop, resolution, rfl, rest⟩
      | false =>
          right
          obtain ⟨rfl, notGivenUp⟩ := (resolve_of_brokenOff spelled goesOn).mp resolved
          have noAboveMore : Name.above ∉ more := fun present =>
            noAbove (by simp [← split, present])
          rw [Path.normalAbsolute_append noAboveMore] at notGivenUp
          exact ⟨stop, rfl, notGivenUp⟩

theorem exists_resolve_of_prefix (inFront : front <+: path.names) :
    ∃ realFront, disk.resolve { path with names := front } = .ok realFront := by
  have spelledFront := spelled.of_prefix inFront
  obtain ⟨more, split⟩ := inFront
  rcases front_of_resolve spelled noAbove resolved split with
    ⟨middle, -, complete, -⟩ | ⟨stop, brokenOff, notGivenUp⟩
  · exact ⟨middle, (resolve_of_resolveWith spelledFront complete).1⟩
  · refine ⟨_, (resolve_of_brokenOff spelledFront brokenOff).mpr ⟨rfl, ?_⟩⟩
    intro givesUp
    exact notGivenUp (givesUp.append more)

theorem noNull_of_resolve_spelled : ∀ name ∈ path.names, name.NoNull := by
  intro name present
  obtain ⟨front, more, split⟩ := List.append_of_mem present
  by_contra hasNull
  rcases front_of_resolve spelled noAbove resolved split.symm with
    ⟨middle, resolution, -, further⟩ | ⟨stop, -, notGivenUp⟩
  · have notAbove : name ≠ Name.above := fun isAbove => noAbove (isAbove ▸ present)
    rw [resolveWith_cons_of_null (spelled.proper name present).named notAbove hasNull] at further
    contradiction
  · apply notGivenUp
    left
    rw [locate, if_pos]
    simpa [Disk.hasNull] using .inr (.inl (not_not.mp hasNull))

end

end Disk

end IgnoreRules
