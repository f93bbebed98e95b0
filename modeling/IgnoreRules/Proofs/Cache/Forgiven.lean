import IgnoreRules.Proofs.Cache.Uncached
import IgnoreRules.Proofs.Workspace.Relative

/-!
Failures that are put up with.  Whatever the file system answers, looking for an ignore file and
reading it come to an end, and so does the way up from an entry that is known.
-/

namespace IgnoreRules

theorem OutageKind.unless_eq_error_iff {Alpha : Type} {outage? : Option OutageKind}
    {result : Except Fault Alpha} {fault : Fault} :
    OutageKind.unless outage? result = .error fault ↔
      (∃ kind, outage? = some kind ∧ fault = .outage kind) ∨
        (outage? = none ∧ result = .error fault) := by
  cases outage? with
  | none => simp [OutageKind.unless]
  | some kind => simp [OutageKind.unless, eq_comm]

/-- Whatever is made to fail does so in a way that the cache puts up with. -/
structure Outages.AreForgiven (outages : Outages) : Prop where
  read : ∀ path kind, outages.read path = some kind → (Fault.outage kind).isUnreadable = true
  isDir : ∀ path kind, outages.isDir path = some kind → (Fault.outage kind).isSystem = true
  findChild : ∀ directory kind, outages.findChild directory = some kind →
    (Fault.outage kind).isSystem = true

theorem Outages.areForgiven_none : Outages.none.AreForgiven where
  read := fun _ _ struck => by contradiction
  isDir := fun _ _ struck => by contradiction
  findChild := fun _ _ struck => by contradiction

namespace Workspace

variable {workspace : Workspace} {root spelled entry directory : Path} {isDir : Bool}

theorem isSystem_of_childOf {disk : Disk} {name : Name} {fault : Fault}
    (noNull : Disk.hasNull directory = false)
    (failed : disk.childOf directory name = .error fault) : fault.isSystem = true := by
  unfold Disk.childOf at failed
  rcases bind_eq_error_iff.mp failed with unseen | ⟨isThere, -, failed⟩
  · exact Disk.isSystem_of_leadsTo unseen
  · split at failed
    next => contradiction
    next =>
      dsimp only at failed
      split at failed
      next => contradiction
      next =>
        rcases bind_eq_error_iff.mp failed with unseen | ⟨twinThere, -, failed⟩
        · exact Disk.isSystem_of_leadsTo unseen
        · split at failed
          next => contradiction
          next =>
            rcases bind_eq_error_iff.mp failed with unlisted | ⟨listed, -, failed⟩
            · exact Disk.isSystem_of_children noNull unlisted
            · contradiction

theorem pathExists_of_childOf {disk : Disk} {name : Name} {found : Path}
    (present : disk.childOf directory name = .ok (some found)) :
    disk.pathExists found = .ok true := by
  obtain rfl := eq_join_of_childOf present
  unfold Disk.childOf at present
  obtain ⟨isThere, seen, present⟩ := bind_eq_ok_iff.mp present
  cases isThere with
  | true => exact seen
  | false => simp at present

section

variable (forgiven : workspace.outages.AreForgiven)
include forgiven

theorem isSystem_of_directoryFlag {path : Path} {fault : Fault}
    (failed : workspace.directoryFlag path = .error fault) : fault.isSystem = true := by
  rcases OutageKind.unless_eq_error_iff.mp failed with ⟨kind, struck, rfl⟩ | ⟨-, unknown⟩
  · exact forgiven.isDir path kind struck
  · exact Disk.isSystem_of_leadsTo unknown

theorem ignoreFileOf_of_forgiven (noNull : Disk.hasNull directory = false) :
    ∃ found?, workspace.ignoreFileOf directory = .ok found? := by
  refine ⟨_, forgive_eq_ok fun fault failed => ?_⟩
  rcases bind_eq_error_iff.mp failed with unseen | ⟨child?, -, failed⟩
  · rcases OutageKind.unless_eq_error_iff.mp unseen with ⟨kind, struck, rfl⟩ | ⟨-, unseen⟩
    · exact forgiven.findChild directory kind struck
    · exact isSystem_of_childOf noNull unseen
  · cases child? with
    | none => contradiction
    | some child =>
        rcases bind_eq_error_iff.mp failed with unknown | ⟨flag, -, failed⟩
        · exact isSystem_of_directoryFlag forgiven unknown
        · contradiction

theorem isUnreadable_of_textOf {path : Path} {fault : Fault} (noNull : Disk.hasNull path = false)
    (failed : workspace.textOf path = .error fault) : fault.isUnreadable = true := by
  rcases OutageKind.unless_eq_error_iff.mp failed with ⟨kind, struck, rfl⟩ | ⟨-, failed⟩
  · exact forgiven.read path kind struck
  · cases readable : workspace.disk.readFile path with
    | ok bytes =>
        rw [readable] at failed
        contradiction
    | error other =>
        rw [readable] at failed
        cases failed
        exact Fault.isUnreadable_of_isSystem (Disk.isSystem_of_readFile noNull readable)

theorem fileAt_of_forgiven {path : Path} (noNull : Disk.hasNull path = false) :
    ∃ file?, workspace.fileAt path = .ok file? := by
  refine ⟨_, forgive_eq_ok fun fault failed => ?_⟩
  cases read : workspace.textOf path with
  | ok text =>
      rw [read] at failed
      contradiction
  | error other =>
      rw [read] at failed
      cases failed
      exact isUnreadable_of_textOf forgiven noNull read

end

theorem hasNull_of_ignoreFileOf {found : Path}
    (looked : workspace.ignoreFileOf directory = .ok (some found)) :
    Disk.hasNull found = false :=
  Disk.hasNull_of_leadsTo (pathExists_of_childOf (childOf_of_ignoreFileOf looked))

theorem hasNull_of_prefix {path : Path} {names : List Name} (noNull : Disk.hasNull path = false)
    (inFront : names <+: path.names) : Disk.hasNull { path with names } = false := by
  rw [Disk.hasNull_eq_false_iff] at noNull ⊢
  intro name present
  exact noNull name (inFront.subset present)

theorem prefix_of_mem_wayUp (onWay : directory ∈ wayUp spelled isDir) :
    ∃ names, names <+: spelled.names ∧ directory = { spelled with names } :=
  Path.prefix_of_mem_cons_ancestors (mem_cons_ancestors_of_mem_wayUp onWay)

section

variable (isSpelled : spelled.IsSpelled) (noAbove : Name.above ∉ spelled.names)
  (known : workspace.disk.entryPath spelled = .ok entry)
include isSpelled noAbove known

theorem hasNull_of_mem_wayUp
    (flagged : isDir = true → workspace.disk.isDirectory spelled = .ok true)
    (onWay : directory ∈ wayUp spelled isDir) : Disk.hasNull directory = false := by
  have noNullStart : Disk.hasNull (if isDir then spelled else spelled.parent) = false := by
    split
    next isDirectory => exact Disk.hasNull_of_leadsTo (flagged isDirectory)
    next =>
      by_cases atTop : spelled.names = []
      · simp [Disk.hasNull, Path.parent, atTop]
      · obtain ⟨real, resolved⟩ :=
          Disk.resolve_parent_of_entryPath isSpelled noAbove atTop known
        have noAboveParent : Name.above ∉ spelled.parent.names := fun present =>
          noAbove (List.dropLast_subset _ present)
        exact Disk.hasNull_eq_false_iff.mpr
          (Disk.noNull_of_resolve_spelled isSpelled.parent noAboveParent resolved)
  obtain ⟨names, inFront, rfl⟩ := Path.prefix_of_mem_cons_ancestors onWay
  exact hasNull_of_prefix noNullStart inFront

theorem isAncestor_of_mem_wayUp {base : Path}
    (resolvedRoot : workspace.disk.resolve root = .ok base)
    (onWay : directory ∈ wayUp spelled isDir) :
    ∃ within, workspace.disk.isAncestor root directory = .ok within := by
  obtain ⟨names, inFront, rfl⟩ := prefix_of_mem_wayUp onWay
  obtain ⟨above, isAbove⟩ := Disk.entryPath_of_prefix isSpelled noAbove known inFront
  rw [Disk.isAncestor, resolvedRoot, isAbove]
  exact ⟨_, rfl⟩

end

end Workspace

end IgnoreRules
