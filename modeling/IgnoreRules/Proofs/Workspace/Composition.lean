import IgnoreRules.Proofs.Tree.Completed
import IgnoreRules.Proofs.Workspace.Entry

/-!
How relations between entries and directories agree and compose.  Whether an entry lies at or below
a directory and how it is written from there is the same question, and what is written from a
directory on the way goes on from how the directory is written, if the directory is real where it is
known.
-/

namespace IgnoreRules

namespace Text

/-- One relative text behind another; the empty text adds nothing. -/
def behind (first second : List Char) : List Char :=
  if first = [] then second
  else if second = [] then first
  else first ++ '/' :: second

theorem unpieces_append {Alpha : Type} (separator : Alpha) {first second : List (List Alpha)}
    (some : first ≠ []) (more : second ≠ []) :
    unpieces separator (first ++ second) =
      unpieces separator first ++ separator :: unpieces separator second := by
  induction first with
  | nil => contradiction
  | cons part others inductionHypothesis =>
      rw [List.cons_append, unpieces_cons separator part (by simp [more])]
      cases others with
      | nil => rfl
      | cons next others =>
          rw [inductionHypothesis (by simp), unpieces_cons separator part (by simp)]
          simp

theorem behind_unpieces {first second : List Name} (proper : ∀ name ∈ first, name.Proper)
    (properToo : ∀ name ∈ second, name.Proper) :
    behind (unpieces '/' first) (unpieces '/' second) = unpieces '/' (first ++ second) := by
  simp only [behind, unpieces_eq_nil_iff proper, unpieces_eq_nil_iff properToo]
  split
  next none => simp [none]
  next some =>
    split
    next none => simp [none]
    next more => rw [unpieces_append '/' some more]

end Text

namespace Path

variable {base path : Path} {names : List Name}

theorem namesBelow?_eq_some_iff :
    base.namesBelow? path = some names ↔ base.join ⟨.relative, names⟩ = path := by
  obtain ⟨anchor, above⟩ := base
  obtain ⟨otherAnchor, all⟩ := path
  unfold namesBelow?
  constructor
  · intro isBelow
    split at isBelow
    next related =>
      obtain ⟨rfl, inFront⟩ := related
      cases isBelow
      simp [join, List.prefix_iff_eq_append.mp inFront]
    next => contradiction
  · intro joined
    obtain ⟨rfl, rfl⟩ : anchor = otherAnchor ∧ above ++ names = all := by
      simpa [join] using joined
    simp

theorem isSome_namesBelow?_iff :
    (base.namesBelow? path).isSome = true ↔ base ∈ path :: path.ancestors := by
  rw [mem_cons_ancestors_iff, namesBelow?]
  split <;> simp_all

end Path

namespace Disk

variable {disk : Disk} {path directory base entry real : Path}

/-- No circle of links is met when the path is resolved. -/
def IsResolvedToEnd (disk : Disk) (path : Path) : Prop :=
  ∃ stop, disk.resolveText disk.greatestDepth [] ⟨.relative, []⟩ path.text = .ok ⟨stop, true⟩

theorem relativePath_of_known (known : disk.entryPath path = .ok entry)
    (resolved : disk.resolve directory = .ok base) :
    disk.relativePath path directory = .ok ((base.namesBelow? entry).map (Text.unpieces '/')) := by
  simp only [relativePath, known, resolved]

theorem isAncestor_of_known (known : disk.entryPath path = .ok entry)
    (resolved : disk.resolve directory = .ok base) :
    disk.isAncestor directory path = .ok (base.namesBelow? entry).isSome := by
  simp only [isAncestor, known, resolved]
  congr 1
  rw [← List.contains_cons, Bool.eq_iff_iff, List.contains_iff_mem, Path.isSome_namesBelow?_iff]

theorem above_not_mem_of_resolve (spelledCurrent : disk.current.IsSpelled)
    (resolved : disk.resolve path = .ok real) : Name.above ∉ real.names := by
  unfold resolve at resolved
  split at resolved
  next => contradiction
  next resolution _ =>
    dsimp only at resolved
    split at resolved
    next => contradiction
    next => contradiction
    next =>
      rw [← Except.ok.inj resolved]
      exact Path.above_not_mem_normal (Path.isAbsolute_absolute spelledCurrent.absolute _)

theorem plain_of_known (spelledCurrent : disk.current.IsSpelled) {text : List Char}
    (known : disk.entryPath (Path.ofText text) = .ok entry) :
    ∀ name ∈ entry.names, name.Plain := by
  rcases entryPath_cases known with ⟨atTop, rfl⟩ | ⟨below, real, resolved, rfl⟩
  · simp [atTop]
  · intro name present
    rcases List.mem_append.mp present with inReal | isLast
    · refine ⟨(isSpelled_of_resolve spelledCurrent resolved).proper name inReal, ?_⟩
      rintro rfl
      exact above_not_mem_of_resolve spelledCurrent resolved inReal
    · rw [List.mem_singleton.mp isLast]
      exact plain_lastName spelledCurrent below

section

variable (known : disk.entryPath path = .ok entry) (resolved : disk.resolve path = .ok real)
  (noLink : disk.tree.link? entry.names = none)
include known resolved noLink

/-- An absolute path that is no link and does not lead up resolves to the path that its entry is
known by, also where a circle of links is met on the way to it. -/
theorem resolve_eq_entryPath_of_isSpelled (realCurrent : disk.IsReal disk.current)
    (spelled : path.IsSpelled) (noAbove : Name.above ∉ path.names)
    (single : path ≠ ⟨.doubleRoot, []⟩) : real = entry := by
  rcases List.eq_nil_or_concat path.names with atTop | ⟨front, last, split⟩
  · rw [entryPath_of_isSpelled spelled noAbove, if_pos atTop] at known
    obtain rfl := Except.ok.inj known
    rw [eq_root_of_isSpelled spelled atTop single,
      (isReal_root disk).resolve_eq_self realCurrent] at resolved
    rw [eq_root_of_isSpelled spelled atTop single, Except.ok.inj resolved]
  · rw [List.concat_eq_append] at split
    have parentNames : path.parent.names = front := by simp [Path.parent, split]
    have notAbove : last ≠ Name.above := fun isAbove => noAbove (by simp [split, isAbove])
    have nonempty : path.names ≠ [] := by simp [split]
    obtain ⟨realParent, resolvedParent⟩ :=
      resolve_parent_of_entryPath spelled noAbove nonempty known
    obtain rfl : entry = realParent.child last := by
      rw [entryPath_of_isSpelled spelled noAbove, if_neg nonempty, resolvedParent] at known
      simpa [Except.map, Path.lastName, split] using (Except.ok.inj known).symm
    rcases front_of_resolve spelled noAbove resolved split.symm with
      ⟨middle, resolution, complete, -⟩ | ⟨stop, brokenOff, -⟩
    · -- The directory is real, and the last name is added to it.
      have isMiddle := (resolve_of_resolveWith spelled.parent (by rwa [parentNames])).1
      obtain rfl := Except.ok.inj (resolvedParent.symm.trans isMiddle)
      have noNull : last.NoNull :=
        noNull_of_resolve_spelled spelled noAbove resolved last (by simp [split])
      have whole := resolve_of_complete_front spelled split notAbove noNull complete noLink
      exact Except.ok.inj (resolved.symm.trans whole)
    · -- The name that is left is put behind the place where the circle was met.
      have goesOn := @resolveWith_append disk (disk.followAt disk.greatestDepth) [] ⟨.root, []⟩
        front [last] fun name present => spelled.proper name (by rwa [split])
      rw [← split, brokenOff] at goesOn
      obtain ⟨rfl, -⟩ := (resolve_of_brokenOff spelled goesOn).mp resolved
      obtain ⟨rfl, -⟩ :=
        (resolve_of_brokenOff spelled.parent (by rwa [parentNames])).mp resolvedParent
      rw [Path.normalAbsolute_append (by simpa using Ne.symm notAbove)]
      rfl

theorem resolve_eq_entryPath (realCurrent : disk.IsReal disk.current)
    (proper : path.HasProperNames) (noAbove : Name.above ∉ path.names)
    (single : path ≠ ⟨.doubleRoot, []⟩)
    (firm : path.isAbsolute = true ∨ disk.IsResolvedToEnd path) : real = entry := by
  by_cases absolute : path.isAbsolute = true
  · exact resolve_eq_entryPath_of_isSpelled known resolved noLink realCurrent ⟨absolute, proper⟩
      noAbove single
  · obtain ⟨stop, complete⟩ := firm.resolve_left absolute
    have isRelative : path.anchor = .relative := by simpa [Path.isAbsolute] using absolute
    have absoluteJoin : (disk.current.join path).isAbsolute = true :=
      Path.isAbsolute_absolute realCurrent.isAbsolute path
    have spelledJoin : (disk.current.join path).IsSpelled := by
      refine ⟨absoluteJoin, fun name present => ?_⟩
      rcases Path.mem_names_join present with inCurrent | inPath
      · exact realCurrent.isSpelled.proper name inCurrent
      · exact proper name inPath
    have noAboveJoin : Name.above ∉ (disk.current.join path).names := by
      intro present
      rcases Path.mem_names_join present with inCurrent | inPath
      · exact realCurrent.above_not_mem inCurrent
      · exact noAbove inPath
    have singleJoin : disk.current.join path ≠ ⟨.doubleRoot, []⟩ := by
      intro isDouble
      have anchored : (disk.current.join path).anchor = .root := by
        rw [Path.join, isRelative]
        exact realCurrent.anchored
      simp [isDouble] at anchored
    have knownJoin : disk.entryPath (disk.current.join path) = .ok entry := by
      rw [← known, entryPath, entryPath, Path.normalAbsolute_of_absolute absoluteJoin]
      rfl
    rw [← resolve_join_current_of_complete realCurrent isRelative proper complete] at resolved
    exact resolve_eq_entryPath_of_isSpelled knownJoin resolved noLink realCurrent spelledJoin
      noAboveJoin singleJoin

end

section

variable (realCurrent : disk.IsReal disk.current) {directory path : List Char}
  (known : disk.entryPath (Path.ofText path) = .ok entry)
  (resolved : disk.resolve (Path.ofText directory) = .ok base)
include realCurrent known resolved

theorem exists_plain_of_relativePath {text : List Char}
    (written : disk.relativePath (Path.ofText path) (Path.ofText directory) = .ok (some text)) :
    ∃ names, base.join ⟨.relative, names⟩ = entry ∧ text = Text.unpieces '/' names ∧
      ∀ name ∈ names, name.Plain := by
  rw [relativePath_of_known known resolved, Except.ok.injEq, Option.map_eq_some_iff] at written
  obtain ⟨names, isBelow, rfl⟩ := written
  have joined := Path.namesBelow?_eq_some_iff.mp isBelow
  refine ⟨names, joined, rfl, fun name present => ?_⟩
  apply plain_of_known realCurrent.isSpelled known
  rw [← joined]
  exact List.mem_append_right _ present

theorem relativePath_eq_nil_iff :
    disk.relativePath (Path.ofText path) (Path.ofText directory) = .ok (some []) ↔
      entry = base := by
  constructor
  · intro isEmpty
    obtain ⟨names, joined, none, plain⟩ :=
      exists_plain_of_relativePath realCurrent known resolved isEmpty
    rw [eq_comm, Text.unpieces_eq_nil_iff fun name present => (plain name present).toProper] at none
    subst none
    simpa [Path.join] using joined.symm
  · rintro rfl
    have isBelow : entry.namesBelow? entry = some [] :=
      Path.namesBelow?_eq_some_iff.mpr (by simp [Path.join])
    rw [relativePath_of_known known resolved, isBelow]
    rfl

theorem join_of_relativePath {text : List Char}
    (written : disk.relativePath (Path.ofText path) (Path.ofText directory) = .ok (some text)) :
    base.join (Path.ofText text) = entry ∧
      (text ≠ [] → ∀ name ∈ Path.components text, name.Plain) := by
  obtain ⟨names, joined, rfl, plain⟩ :=
    exists_plain_of_relativePath realCurrent known resolved written
  have proper : ∀ name ∈ names, name.Proper := fun name present => (plain name present).toProper
  refine ⟨by rwa [Path.ofText_unpieces proper], fun nonempty => ?_⟩
  have some : names ≠ [] := fun none => nonempty ((Text.unpieces_eq_nil_iff proper).mpr none)
  rwa [Path.components, Text.pieces_unpieces some fun name present => (proper name present).noSlash]

theorem relativePath_append {between first second : List Char} {own : Path}
    (knownOwn : disk.entryPath (Path.ofText between) = .ok own)
    (realOwn : disk.resolve (Path.ofText between) = .ok own)
    (isFirst : disk.relativePath (Path.ofText between) (Path.ofText directory) = .ok (some first))
    (isSecond : disk.relativePath (Path.ofText path) (Path.ofText between) = .ok (some second)) :
    disk.relativePath (Path.ofText path) (Path.ofText directory) =
      .ok (some (Text.behind first second)) := by
  obtain ⟨names, joined, rfl, plain⟩ :=
    exists_plain_of_relativePath realCurrent knownOwn resolved isFirst
  obtain ⟨more, joinedMore, rfl, plainMore⟩ :=
    exists_plain_of_relativePath realCurrent known realOwn isSecond
  have isBelow : base.namesBelow? entry = some (names ++ more) := by
    rw [Path.namesBelow?_eq_some_iff, ← joinedMore, ← joined]
    simp [Path.join]
  rw [relativePath_of_known known resolved, isBelow, Option.map_some, Text.behind_unpieces]
  · exact fun name present => (plain name present).toProper
  · exact fun name present => (plainMore name present).toProper

end

section

variable (realCurrent : disk.IsReal disk.current) {directory between path : List Char}
  {first second : List Char} (noAbove : Name.above ∉ (Path.ofText between).names)
  (noLink : ∀ own, disk.entryPath (Path.ofText between) = .ok own →
    disk.tree.link? own.names = none)
  (isFirst : disk.relativePath (Path.ofText between) (Path.ofText directory) = .ok (some first))
  (isSecond : disk.relativePath (Path.ofText path) (Path.ofText between) = .ok (some second))
include realCurrent noAbove noLink isFirst isSecond

theorem relativePath_composes (single : Path.ofText between ≠ ⟨.doubleRoot, []⟩)
    (firm : (Path.ofText between).isAbsolute = true ∨
      disk.IsResolvedToEnd (Path.ofText between)) :
    disk.relativePath (Path.ofText path) (Path.ofText directory) =
      .ok (some (Text.behind first second)) := by
  obtain ⟨own, base, knownOwn, resolved⟩ := exists_of_relativePath isFirst
  obtain ⟨entry, real, known, resolvedOwn⟩ := exists_of_relativePath isSecond
  obtain rfl : real = own :=
    resolve_eq_entryPath knownOwn resolvedOwn (noLink own knownOwn) realCurrent
      (fun name => Path.proper_of_mem_ofText) noAbove single firm
  exact relativePath_append realCurrent known resolved knownOwn resolvedOwn isFirst isSecond

/-- Where resolving both directories does not stop at a circle of links, what is written composes
with no condition on how the path of the second is written. -/
theorem relativePath_composes_of_resolvedToEnd
    (toEnd : disk.IsResolvedToEnd (Path.ofText directory))
    (betweenToEnd : disk.IsResolvedToEnd (Path.ofText between)) :
    disk.relativePath (Path.ofText path) (Path.ofText directory) =
      .ok (some (Text.behind first second)) := by
  refine relativePath_composes realCurrent noAbove noLink isFirst isSecond ?_ (.inr betweenToEnd)
  -- The root with two slashes is its own entry, and lies below no real path.
  intro isDouble
  obtain ⟨stop, complete⟩ := toEnd
  obtain ⟨resolved, real⟩ := resolve_of_complete realCurrent complete
  have known : disk.entryPath (Path.ofText between) = .ok ⟨.doubleRoot, []⟩ := by
    rw [isDouble]
    rfl
  rw [relativePath_of_known known resolved, Except.ok.injEq, Option.map_eq_some_iff] at isFirst
  obtain ⟨names, isBelow, -⟩ := isFirst
  have anchored := congrArg Path.anchor (Path.namesBelow?_eq_some_iff.mp isBelow)
  simp [Path.join, real.anchored] at anchored

end

/-- An entry lies at or below a directory exactly when it is written from there: with the empty text
when it is the directory itself, and otherwise with plain names that lead from the real directory to
the entry.  What is written from a directory that leads up nowhere and is no link goes on from how
that directory is written, if its path is absolute or meets no circle of links, and is not the root
with two slashes. -/
theorem relations_agree_and_compose (realCurrent : disk.IsReal disk.current)
    {directory path : List Char} (resolved : disk.resolve (Path.ofText directory) = .ok base)
    (known : disk.entryPath (Path.ofText path) = .ok entry) :
    (∃ text?, disk.relativePath (Path.ofText path) (Path.ofText directory) = .ok text? ∧
      disk.isAncestor (Path.ofText directory) (Path.ofText path) = .ok text?.isSome) ∧
    (disk.relativePath (Path.ofText path) (Path.ofText directory) = .ok (some []) ↔
      entry = base) ∧
    (∀ text, disk.relativePath (Path.ofText path) (Path.ofText directory) = .ok (some text) →
      base.join (Path.ofText text) = entry ∧
        (text ≠ [] → ∀ name ∈ Path.components text, name.Plain)) ∧
    ∀ between first second, Name.above ∉ (Path.ofText between).names →
      Path.ofText between ≠ ⟨.doubleRoot, []⟩ →
      (∀ own, disk.entryPath (Path.ofText between) = .ok own →
        disk.tree.link? own.names = none) →
      (Path.ofText between).isAbsolute = true ∨ disk.IsResolvedToEnd (Path.ofText between) →
      disk.relativePath (Path.ofText between) (Path.ofText directory) = .ok (some first) →
      disk.relativePath (Path.ofText path) (Path.ofText between) = .ok (some second) →
        disk.relativePath (Path.ofText path) (Path.ofText directory) =
          .ok (some (Text.behind first second)) := by
  refine ⟨⟨_, relativePath_of_known known resolved, ?_⟩,
    relativePath_eq_nil_iff realCurrent known resolved,
    fun text written => join_of_relativePath realCurrent known resolved written, ?_⟩
  · rw [isAncestor_of_known known resolved, Option.isSome_map]
  · intro between first second noAbove single noLink firm isFirst isSecond
    exact relativePath_composes realCurrent noAbove noLink isFirst isSecond single firm

/-- Two links that lead to each other, and two that lead past them: one back to a directory, the
other to the root with two slashes. -/
def forked : Disk where
  tree := ⟨[(["r".toList], .directory), (["r".toList, "q".toList], .directory),
    (["r".toList, "o".toList], .link "/r/q/p".toList),
    (["r".toList, "q".toList, "p".toList], .link "/r/o".toList),
    (["r".toList, "l".toList], .link "o/../d".toList),
    (["r".toList, "m".toList], .link "o///x/..".toList)]⟩
  current := ⟨.root, ["r".toList]⟩

/-- By its absolute path, a directory past the circle is written and written from alike. -/
theorem forked_composes :
    let entry : Path := ⟨.root, ["r".toList, "d".toList, "b".toList, "x".toList]⟩
    forked.resolve (Path.ofText "/r".toList) = .ok ⟨.root, ["r".toList]⟩ ∧
      forked.entryPath (Path.ofText "l/b/x".toList) = .ok entry ∧
      forked.relativePath (Path.ofText "/r/l/b".toList) (Path.ofText "/r".toList) =
        .ok (some "d/b".toList) ∧
      forked.relativePath (Path.ofText "l/b/x".toList) (Path.ofText "/r/l/b".toList) =
        .ok (some "x".toList) ∧
      forked.relativePath (Path.ofText "l/b/x".toList) (Path.ofText "/r".toList) =
        .ok (some "d/b/x".toList) := by
  intro entry
  have resolved : forked.resolve (Path.ofText "/r".toList) = .ok ⟨.root, ["r".toList]⟩ := by
    decide +kernel
  have known : forked.entryPath (Path.ofText "l/b/x".toList) = .ok entry := by decide +kernel
  have first : forked.relativePath (Path.ofText "/r/l/b".toList) (Path.ofText "/r".toList) =
      .ok (some "d/b".toList) := by decide +kernel
  have second : forked.relativePath (Path.ofText "l/b/x".toList) (Path.ofText "/r/l/b".toList) =
      .ok (some "x".toList) := by decide +kernel
  have noLink : ∀ own, forked.entryPath (Path.ofText "/r/l/b".toList) = .ok own →
      forked.tree.link? own.names = none := by
    have isOwn : forked.entryPath (Path.ofText "/r/l/b".toList) =
        .ok ⟨.root, ["r".toList, "d".toList, "b".toList]⟩ := by decide +kernel
    intro own known
    rw [← Except.ok.inj (isOwn.symm.trans known)]
    decide +kernel
  obtain ⟨-, -, -, composes⟩ := relations_agree_and_compose (by decide +kernel) resolved known
  exact ⟨resolved, known, first, second, composes _ _ _ (by decide) (by decide) noLink
    (.inl (by decide)) first second⟩

/-- Without its last conditions this fails: by its relative path the directory is written at one
place and written from at another, and so is the root with two slashes. -/
theorem forked_does_not_compose :
    (Name.above ∉ (Path.ofText "l/b".toList).names ∧
      forked.entryPath (Path.ofText "l/b".toList) =
        .ok ⟨.root, ["r".toList, "d".toList, "b".toList]⟩ ∧
      forked.tree.link? ["r".toList, "d".toList, "b".toList] = none ∧
      forked.relativePath (Path.ofText "l/b".toList) (Path.ofText "/r".toList) =
        .ok (some "d/b".toList) ∧
      forked.relativePath (Path.ofText "q/d/b/x".toList) (Path.ofText "l/b".toList) =
        .ok (some "x".toList) ∧
      forked.relativePath (Path.ofText "q/d/b/x".toList) (Path.ofText "/r".toList) =
        .ok (some "q/d/b/x".toList) ∧
      Text.behind "d/b".toList "x".toList ≠ "q/d/b/x".toList) ∧
    forked.entryPath (Path.ofText "//".toList) = .ok ⟨.doubleRoot, []⟩ ∧
    forked.relativePath (Path.ofText "//".toList) (Path.ofText "/r/m".toList) = .ok (some []) ∧
    forked.relativePath (Path.ofText "/x".toList) (Path.ofText "//".toList) =
      .ok (some "x".toList) ∧
    forked.relativePath (Path.ofText "/x".toList) (Path.ofText "/r/m".toList) = .ok none := by
  decide +kernel

end Disk

end IgnoreRules
