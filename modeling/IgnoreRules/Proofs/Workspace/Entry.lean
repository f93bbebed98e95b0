import IgnoreRules.Proofs.Tree.Straight
import IgnoreRules.Proofs.Workspace.Relative

/-!
The path that an entry is known by.  Where links never run in a circle it is a normal form: it is
known by itself, its directory is real, and it ends with the name that was asked about, link or not.
-/

namespace IgnoreRules

namespace Disk

variable {disk : Disk} {path entry : Path}

theorem entryPath_cases (known : disk.entryPath path = .ok entry) :
    ((Path.normalAbsolute disk.current path).names = [] ∧
        entry = Path.normalAbsolute disk.current path) ∨
      ((Path.normalAbsolute disk.current path).names ≠ [] ∧
        ∃ real, disk.resolve (Path.normalAbsolute disk.current path).parent = .ok real ∧
          entry = real.child (Path.normalAbsolute disk.current path).lastName) := by
  unfold entryPath at known
  dsimp only at known
  split at known
  next atTop => exact .inl ⟨atTop, (Except.ok.inj known).symm⟩
  next below =>
    right
    cases resolved : disk.resolve (Path.normalAbsolute disk.current path).parent with
    | error fault =>
        rw [resolved] at known
        contradiction
    | ok real =>
        rw [resolved] at known
        exact ⟨below, real, rfl, (Except.ok.inj known).symm⟩

theorem isSpelled_normalAbsolute (spelledCurrent : disk.current.IsSpelled) (text : List Char) :
    (Path.normalAbsolute disk.current (Path.ofText text)).IsSpelled :=
  (spelledCurrent.join_ofText text).normal

theorem plain_of_mem_normalAbsolute (spelledCurrent : disk.current.IsSpelled) (text : List Char) :
    ∀ name ∈ (Path.normalAbsolute disk.current (Path.ofText text)).names, name.Plain := by
  intro name present
  refine ⟨(isSpelled_normalAbsolute spelledCurrent text).proper name present, ?_⟩
  rintro rfl
  exact Path.above_not_mem_normal (spelledCurrent.join_ofText text).absolute present

theorem plain_lastName {text : List Char} (spelledCurrent : disk.current.IsSpelled)
    (below : (Path.normalAbsolute disk.current (Path.ofText text)).names ≠ []) :
    (Path.normalAbsolute disk.current (Path.ofText text)).lastName.Plain := by
  apply plain_of_mem_normalAbsolute spelledCurrent text
  rw [Path.lastName, List.getLast?_eq_some_getLast below]
  exact List.getLast_mem below

theorem eq_root_of_isSpelled (spelled : path.IsSpelled) (atTop : path.names = [])
    (single : path ≠ ⟨.doubleRoot, []⟩) : path = ⟨.root, []⟩ := by
  obtain ⟨anchor, names⟩ := path
  obtain rfl : names = [] := atTop
  cases anchor with
  | relative => exact absurd spelled.absolute (by decide)
  | root => rfl
  | doubleRoot => exact absurd rfl single

theorem entryPath_child_of_isReal {real : Path} {name : Name}
    (realCurrent : disk.IsReal disk.current) (isReal : disk.IsReal real) (plain : name.Plain) :
    disk.entryPath (real.child name) = .ok (real.child name) := by
  have normal : (real.child name).normal = real.child name := by
    rw [Path.normal_child plain.notAbove, isReal.normal_eq_self]
  have absolute : (real.child name).isAbsolute = true := isReal.isAbsolute
  rw [entryPath_of_isReal_parent realCurrent absolute, normal]
  rwa [normal, Path.parent_child]

/-- The path that an entry is known by is known by itself; its directory is real, unless it is the
root with two slashes; it has the last name of the normal path, which alone decides it. -/
theorem entryPath_is_normal_form (realCurrent : disk.IsReal disk.current)
    (acyclic : disk.FreeOfCircles) {text : List Char}
    (known : disk.entryPath (Path.ofText text) = .ok entry) :
    disk.entryPath entry = .ok entry ∧
    (Path.normalAbsolute disk.current (Path.ofText text) ≠ ⟨.doubleRoot, []⟩ →
      disk.resolve entry.parent = .ok entry.parent) ∧
    entry.lastName = (Path.normalAbsolute disk.current (Path.ofText text)).lastName ∧
    ∀ other, Path.normalAbsolute disk.current (Path.ofText other) =
        Path.normalAbsolute disk.current (Path.ofText text) →
      disk.entryPath (Path.ofText other) = .ok entry := by
  have decided : ∀ other, Path.normalAbsolute disk.current (Path.ofText other) =
        Path.normalAbsolute disk.current (Path.ofText text) →
      disk.entryPath (Path.ofText other) = .ok entry := by
    intro other same
    rw [← known, entryPath, entryPath, same]
  have spelled := isSpelled_normalAbsolute realCurrent.isSpelled text
  rcases entryPath_cases known with ⟨atTop, rfl⟩ | ⟨below, real, resolved, rfl⟩
  · have noAbove : Name.above ∉ (Path.normalAbsolute disk.current (Path.ofText text)).names := by
      simp [atTop]
    refine ⟨?_, fun single => ?_, rfl, decided⟩
    · rw [entryPath_of_isSpelled spelled noAbove, if_pos atTop]
    · rw [eq_root_of_isSpelled spelled atTop single]
      exact (isReal_root disk).resolve_eq_self realCurrent
  · have isReal := isReal_of_resolve realCurrent acyclic resolved
    have plain := plain_lastName realCurrent.isSpelled below
    refine ⟨entryPath_child_of_isReal realCurrent isReal plain, fun _ => ?_, ?_, decided⟩
    · rw [Path.parent_child]
      exact isReal.resolve_eq_self realCurrent
    · simp [Path.lastName, Path.child]

/-- A directory, a link to it, and a link in it that leads back. -/
def looped : Disk where
  tree := ⟨[(["r".toList], .directory), (["r".toList, "d".toList], .directory),
    (["r".toList, "d".toList, "l".toList], .link "/r/d".toList),
    (["r".toList, "k".toList], .link "/r/d".toList)]⟩
  current := ⟨.root, ["r".toList]⟩

theorem looped_freeOfCircles : looped.FreeOfCircles := by
  apply freeOfCircles_of_straight
  intro location target isLink
  have isMentioned := Tree.mem_mentions_of_link? isLink
  obtain rfl : target = "/r/d".toList := by
    simp [looped] at isMentioned
    grind
  exact ⟨⟨.root, ["r".toList, "d".toList]⟩, by decide +kernel, by decide +kernel⟩

/-- Through one link to the other: the first is replaced, and the second keeps its name. -/
theorem looped_entry :
    ∃ entry, looped.entryPath (Path.ofText "k/./x/../l".toList) = .ok entry ∧
      looped.tree.link? entry.names = some "/r/d".toList ∧
      looped.entryPath entry = .ok entry ∧ looped.resolve entry.parent = .ok entry.parent ∧
      entry.lastName = "l".toList ∧
      looped.entryPath (Path.ofText "/r//k/l/".toList) = .ok entry := by
  have known : looped.entryPath (Path.ofText "k/./x/../l".toList) =
      .ok ⟨.root, ["r".toList, "d".toList, "l".toList]⟩ := by decide +kernel
  obtain ⟨again, real, lastName, decided⟩ :=
    entryPath_is_normal_form (by decide +kernel) looped_freeOfCircles known
  exact ⟨_, known, by decide +kernel, again, real (by decide), lastName,
    decided _ (by decide +kernel)⟩

end Disk

end IgnoreRules
