import IgnoreRules.Proofs.Tree.Circle
import IgnoreRules.Workspace

/-!
How entries relate to directories where links never run in a circle.  Whatever lies on the way to
an entry has a real path if the entry has one, and only a null character keeps a relation from
being known.
-/

namespace IgnoreRules

theorem Text.unpieces_eq_nil_iff {names : List Name} (proper : ∀ name ∈ names, name.Proper) :
    Text.unpieces '/' names = [] ↔ names = [] := by
  constructor
  · intro empty
    rw [← Path.significant_components_unpieces proper, empty]
    rfl
  · intro none
    rw [none]
    rfl

theorem Path.exists_cons_of_namesBelow? {base path : Path} {names : List Name}
    (plain : ∀ name ∈ path.names, name.Plain) (isBelow : base.namesBelow? path = some names)
    (more : names ≠ []) : ∃ first rest, Text.unpieces '/' names = first :: rest := by
  apply List.exists_cons_of_ne_nil
  rw [eq_append_of_namesBelow? isBelow] at plain
  rwa [ne_eq, Text.unpieces_eq_nil_iff]
  intro name present
  exact (plain name (by simp [present])).toProper

namespace Disk

variable {disk : Disk} {path real entry : Path} {names : List Name}

theorem entryPath_of_isSpelled (spelled : path.IsSpelled) (noAbove : Name.above ∉ path.names) :
    disk.entryPath path =
      if path.names = [] then .ok path
      else (disk.resolve path.parent).map (·.child path.lastName) := by
  unfold entryPath
  rw [Path.normalAbsolute_of_absolute spelled.absolute, Path.normal_eq_self noAbove]

theorem resolve_parent_of_entryPath (spelled : path.IsSpelled)
    (noAbove : Name.above ∉ path.names) (nonempty : path.names ≠ [])
    (known : disk.entryPath path = .ok entry) : ∃ real, disk.resolve path.parent = .ok real := by
  rw [entryPath_of_isSpelled spelled noAbove, if_neg nonempty] at known
  cases resolved : disk.resolve path.parent with
  | ok real => exact ⟨real, rfl⟩
  | error fault =>
      rw [resolved] at known
      contradiction

theorem exists_of_relativePath {ancestor : Path} {text : List Char}
    (related : disk.relativePath path ancestor = .ok (some text)) :
    ∃ entry base, disk.entryPath path = .ok entry ∧ disk.resolve ancestor = .ok base := by
  unfold relativePath at related
  split at related
  next => simp at related
  next => contradiction
  next entry known =>
    split at related
    next => simp at related
    next => contradiction
    next base resolved => exact ⟨entry, base, known, resolved⟩

theorem relativePath_of_isCircleFree {ancestor : Path}
    (known : disk.entryPath path = .ok entry) (free : disk.IsCircleFree ancestor) :
    ∃ text?, disk.relativePath path ancestor = .ok text? := by
  unfold relativePath
  rw [known]
  rcases isCircleFree_iff.mp free with null | ⟨base, resolved⟩
  · rw [null]
    exact ⟨none, rfl⟩
  · rw [resolved]
    exact ⟨_, rfl⟩

theorem relativePath_eq_error_iff {root : Path} {fault : Fault} :
    disk.relativePath path root = .error fault ↔
      fault ≠ .nullCharacter ∧
        (disk.entryPath path = .error fault ∨
          ∃ known, disk.entryPath path = .ok known ∧ disk.resolve root = .error fault) := by
  unfold relativePath
  grind

theorem resolve_parent_of_entryPath_error {fault : Fault}
    (failed : disk.entryPath path = .error fault) :
    disk.resolve (Path.normalAbsolute disk.current path).parent = .error fault := by
  unfold entryPath at failed
  dsimp only at failed
  split at failed
  next => contradiction
  next =>
    cases resolved : disk.resolve (Path.normalAbsolute disk.current path).parent with
    | ok real =>
        rw [resolved] at failed
        contradiction
    | error other =>
        rw [resolved] at failed
        rw [← Except.error.inj failed]

/-- A circle of links at a place keeps an entry, or the directory that it is written from, from
being known. -/
def CirclesAt (disk : Disk) (path ancestor place : Path) : Prop :=
  disk.entryPath path = .error (.linkLoop place) ∨
    ∃ known, disk.entryPath path = .ok known ∧ disk.resolve ancestor = .error (.linkLoop place)

theorem relativePath_eq_error_iff_circlesAt {ancestor : Path} {fault : Fault} :
    disk.relativePath path ancestor = .error fault ↔
      ∃ place, fault = .linkLoop place ∧ disk.CirclesAt path ancestor place := by
  rw [relativePath_eq_error_iff]
  constructor
  · rintro ⟨notNull, unknown⟩
    obtain ⟨place, rfl⟩ : ∃ place, fault = .linkLoop place := by
      rcases unknown with noEntry | ⟨known, -, noAncestor⟩
      · exact linkLoop_of_resolve (resolve_parent_of_entryPath_error noEntry) notNull
      · exact linkLoop_of_resolve noAncestor notNull
    exact ⟨place, rfl, unknown⟩
  · rintro ⟨place, rfl, unknown⟩
    exact ⟨by simp, unknown⟩

theorem not_circlesAt_of_freeOfCircles {ancestor : Path} (acyclic : disk.FreeOfCircles)
    (spelled : path.IsSpelled) (spelledAncestor : ancestor.IsSpelled) (place : Path) :
    ¬disk.CirclesAt path.normal ancestor place := by
  rintro (noEntry | ⟨known, -, noAncestor⟩)
  · have noParent := resolve_parent_of_entryPath_error noEntry
    rw [Path.normalAbsolute_of_absolute spelled.normal.absolute,
      Path.normal_normal spelled.absolute] at noParent
    exact isCircleFree_of_freeOfCircles acyclic spelled.normal.parent place noParent
  · exact isCircleFree_of_freeOfCircles acyclic spelledAncestor place noAncestor

theorem entryPath_of_prefix (spelled : path.IsSpelled) (noAbove : Name.above ∉ path.names)
    (known : disk.entryPath path = .ok entry) (inFront : names <+: path.names) :
    ∃ above, disk.entryPath { path with names } = .ok above := by
  have noAboveFront : Name.above ∉ names := fun present => noAbove (inFront.subset present)
  by_cases whole : names = path.names
  · subst whole
    exact ⟨entry, known⟩
  · rw [entryPath_of_isSpelled (spelled.of_prefix inFront) noAboveFront]
    split
    next => exact ⟨_, rfl⟩
    next nonempty =>
      have inParent : names.dropLast <+: path.parent.names :=
        (List.dropLast_prefix names).trans (Path.prefix_parent inFront whole)
      have pathNonempty : path.names ≠ [] := by
        intro empty
        rw [empty, List.prefix_nil] at inFront
        exact nonempty inFront
      have noAboveParent : Name.above ∉ path.parent.names := fun present =>
        noAbove (List.dropLast_subset _ present)
      obtain ⟨real, resolved⟩ :=
        resolve_parent_of_entryPath spelled noAbove pathNonempty known
      obtain ⟨realFront, resolvedFront⟩ :=
        exists_resolve_of_prefix spelled.parent noAboveParent resolved inParent
      have resolvedParent : disk.resolve (Path.parent { path with names }) = .ok realFront :=
        resolvedFront
      rw [resolvedParent]
      exact ⟨_, rfl⟩

/-- Behind a directory that is resolved to the end, a name that is no link is kept. -/
theorem resolve_of_complete_front {front : List Name} {last : Name} (spelled : path.IsSpelled)
    (split : path.names = front ++ [last]) (notAbove : last ≠ Name.above) (noNull : last.NoNull)
    (complete : disk.resolveWith (disk.followAt disk.greatestDepth) [] ⟨.root, []⟩ front =
      .ok ⟨real, true⟩)
    (noLink : disk.tree.link? (real.child last).names = none) :
    disk.resolve path = .ok (real.child last) := by
  have parentNames : path.parent.names = front := by simp [Path.parent, split]
  have realFront := (resolve_of_resolveWith spelled.parent (by rwa [parentNames])).2
  have step : disk.Step (disk.followAt disk.greatestDepth) [] real last (real.child last) := by
    refine .down (spelled.proper last (by simp [split])).named notAbove noNull ?_
    rwa [realFront.linkAt?_child notAbove]
  have goesOn := @resolveWith_append disk (disk.followAt disk.greatestDepth) [] ⟨.root, []⟩ front
    [last] fun name present => spelled.proper name (by rwa [split])
  rw [complete, ← split] at goesOn
  exact (resolve_of_resolveWith spelled (goesOn.trans (resolveWith_of_step step))).1

theorem resolve_of_not_link (acyclic : disk.FreeOfCircles) (spelled : path.IsSpelled)
    (noAbove : Name.above ∉ path.names) (nonempty : path.names ≠ [])
    (noNull : ∀ name ∈ path.names, name.NoNull) (known : disk.entryPath path = .ok entry)
    (noLink : disk.tree.link? entry.names = none) : disk.resolve path = .ok entry := by
  obtain ⟨front, last, split⟩ : ∃ front last, path.names = front ++ [last] := by
    rcases List.eq_nil_or_concat path.names with empty | ⟨front, last, split⟩
    · exact absurd empty nonempty
    · exact ⟨front, last, by rw [split, List.concat_eq_append]⟩
  have notAbove : last ≠ Name.above := fun isAbove => noAbove (by simp [split, isAbove])
  obtain ⟨real, resolved⟩ := resolve_parent_of_entryPath spelled noAbove nonempty known
  obtain rfl : entry = real.child last := by
    rw [entryPath_of_isSpelled spelled noAbove, if_neg nonempty, resolved] at known
    simpa [Except.map, Path.lastName, split] using (Except.ok.inj known).symm
  have parentNames : path.parent.names = front := by simp [Path.parent, split]
  have complete := resolveWith_of_resolve acyclic spelled.parent resolved
  rw [parentNames] at complete
  exact resolve_of_complete_front spelled split notAbove (noNull last (by simp [split])) complete
    noLink

variable (realCurrent : disk.IsReal disk.current) (acyclic : disk.FreeOfCircles)
include realCurrent acyclic

theorem resolve_eq_null {fault : Fault} (failed : disk.resolve path = .error fault) :
    fault = .nullCharacter := by
  rcases resolve_cases realCurrent acyclic path with ⟨found, resolved, -⟩ | null
  · rw [resolved] at failed
    contradiction
  · rw [null] at failed
    exact (Except.error.inj failed).symm

theorem isReal_of_resolve (resolved : disk.resolve path = .ok real) : disk.IsReal real := by
  rcases resolve_cases realCurrent acyclic path with ⟨found, isFound, isReal⟩ | null
  · rw [isFound] at resolved
    rwa [← Except.ok.inj resolved]
  · rw [null] at resolved
    contradiction

theorem plain_of_entryPath (spelled : path.IsSpelled) (noAbove : Name.above ∉ path.names)
    (known : disk.entryPath path = .ok entry) : ∀ name ∈ entry.names, name.Plain := by
  have plainPath : ∀ name ∈ path.names, name.Plain := fun name present =>
    ⟨spelled.proper name present, fun isAbove => noAbove (isAbove ▸ present)⟩
  rw [entryPath_of_isSpelled spelled noAbove] at known
  split at known
  next =>
    rwa [← Except.ok.inj known]
  next nonempty =>
    cases resolved : disk.resolve path.parent with
    | error fault =>
        rw [resolved] at known
        contradiction
    | ok real =>
        rw [resolved] at known
        have isReal := isReal_of_resolve realCurrent acyclic resolved
        intro name present
        rw [← Except.ok.inj known] at present
        rcases List.mem_append.mp present with inReal | isLast
        · exact isReal.plain name inReal
        · apply plainPath
          rw [List.mem_singleton.mp isLast, Path.lastName, List.getLast?_eq_some_getLast nonempty]
          exact List.getLast_mem nonempty

theorem relativePath_of_entryPath (known : disk.entryPath path = .ok entry) (ancestor : Path) :
    disk.relativePath path ancestor =
      .ok (((disk.resolve ancestor).toOption.bind (·.namesBelow? entry)).map
        (Text.unpieces '/')) := by
  unfold relativePath
  rw [known]
  cases resolved : disk.resolve ancestor with
  | ok base => rfl
  | error fault =>
      obtain rfl := resolve_eq_null realCurrent acyclic resolved
      rfl

omit acyclic

theorem isAncestor_of_entryPath {root : Path} (realRoot : disk.IsReal root)
    (known : disk.entryPath path = .ok entry) :
    disk.isAncestor root path = .ok ((entry :: entry.ancestors).contains root) := by
  rw [isAncestor, realRoot.resolve_eq_self realCurrent, known, List.contains_cons]

theorem entryPath_of_isReal_parent (absolute : path.isAbsolute = true)
    (realParent : disk.IsReal path.normal.parent) : disk.entryPath path = .ok path.normal := by
  rw [entryPath, Path.normalAbsolute_of_absolute absolute]
  split
  next => rfl
  next nonempty =>
    rw [realParent.resolve_eq_self realCurrent, Path.lastName,
      List.getLast?_eq_some_getLast nonempty]
    simp only [Except.map, Path.child, Path.parent, Option.getD_some,
      List.dropLast_append_getLast]

theorem entryPath_eq_self (real : disk.IsReal path) : disk.entryPath path = .ok path := by
  have realParent : disk.IsReal path.normal.parent := by
    rw [real.normal_eq_self]
    exact real.parent
  rw [entryPath_of_isReal_parent realCurrent real.isAbsolute realParent, real.normal_eq_self]

theorem isAncestor_of_isReal {root : Path} (realRoot : disk.IsReal root)
    (real : disk.IsReal path) :
    disk.isAncestor root path = .ok (decide (root.names <+: path.names)) := by
  rw [isAncestor_of_entryPath realCurrent realRoot (entryPath_eq_self realCurrent real)]
  congr 1
  rw [Bool.eq_iff_iff, List.contains_iff_mem, Path.mem_cons_ancestors_iff, decide_eq_true_iff]
  simp [realRoot.anchored, real.anchored]

end Disk

end IgnoreRules
