import IgnoreRules.Proofs.Path.Normal
import IgnoreRules.Tree.Walk
import Mathlib.Data.List.Induction
import Mathlib.Data.List.Infix

/-!
Walking where no link is met.  Such a walk ends at the location that its names spell, and it ends
there exactly when something stands there.  Any walk that fails does so with a fault of the file
system, unless a null character is in the way.
-/

namespace IgnoreRules

namespace Tree

variable {tree : Tree} {here location : Location} {name : Name} {names : List Name} {entry : Entry}

theorem isDirectoryAt_append_singleton :
    tree.isDirectoryAt (here ++ [name]) =
      (tree.isDirectoryAt here && (tree.mentioned? (here ++ [name])).any Entry.isDirectory) := by
  have shorter : ∀ length ∈ List.range (here.length + 1),
      (here ++ [name]).take length = here.take length := by
    intro length bound
    rw [List.mem_range] at bound
    exact List.take_append_of_le_length (by omega)
  have whole : (here ++ [name]).take (here.length + 1) = here ++ [name] :=
    List.take_of_length_le (by simp)
  unfold isDirectoryAt
  rw [List.length_append, List.length_singleton, List.range_succ, List.all_append]
  simp only [List.all_cons, List.all_nil, Bool.and_true, whole]
  congr 1
  rw [Bool.eq_iff_iff, List.all_eq_true, List.all_eq_true]
  exact forall₂_congr fun length bound => by rw [shorter length bound]

theorem entry?_append_singleton :
    tree.entry? (here ++ [name]) =
      if tree.isDirectoryAt here then tree.mentioned? (here ++ [name]) else none := by
  rw [Tree.entry?, List.dropLast_concat]

@[simp]
theorem entry?_nil : tree.entry? [] = some .directory := by
  simp [Tree.entry?, isDirectoryAt, mentioned?, Entry.isDirectory]

theorem isDirectoryAt_iff :
    tree.isDirectoryAt here = true ↔ tree.entry? here = some .directory := by
  induction here using List.reverseRecOn with
  | nil => simp [isDirectoryAt, mentioned?, Entry.isDirectory]
  | append_singleton before last inductionHypothesis =>
      rw [isDirectoryAt_append_singleton, Tree.entry?_append_singleton]
      cases tree.isDirectoryAt before with
      | false => simp
      | true =>
          cases tree.mentioned? (before ++ [last]) with
          | none => simp
          | some entry => cases entry <;> simp [Entry.isDirectory]

theorem entry?_eq_directory_of_append_singleton
    (present : tree.entry? (here ++ [name]) = some entry) : tree.entry? here = some .directory := by
  rw [Tree.entry?_append_singleton] at present
  split at present
  next directory => exact isDirectoryAt_iff.mp directory
  next => contradiction

theorem entry?_eq_directory_of_append (nonempty : names ≠ [])
    (present : tree.entry? (here ++ names) = some entry) :
    tree.entry? here = some .directory := by
  induction names using List.reverseRecOn generalizing entry with
  | nil => contradiction
  | append_singleton before last inductionHypothesis =>
      rw [← List.append_assoc] at present
      have above := entry?_eq_directory_of_append_singleton present
      by_cases shorter : before = []
      · simpa [shorter] using above
      · exact inductionHypothesis shorter above

/-- Nothing on the way to a location is a link, and the location itself is none. -/
def IsLinkFree (tree : Tree) (location : Location) : Prop :=
  ∀ front, front <+: location → tree.link? front = none

instance (tree : Tree) : DecidablePred tree.IsLinkFree := fun location =>
  decidable_of_iff (∀ front ∈ location.inits, tree.link? front = none)
    (by simp [IsLinkFree, List.mem_inits])

theorem IsLinkFree.of_prefix {longer : Location} (free : tree.IsLinkFree longer)
    (inFront : location <+: longer) : tree.IsLinkFree location :=
  fun _ shorter => free _ (shorter.trans inFront)

variable {follow : Location → List Name → Except TreeError (Location × Entry)}

theorem walkWith_cons_of_plain (plain : name.Plain) :
    tree.walkWith follow here (name :: names) =
      if isNameTooLong name then .error .nameTooLong
      else
        match tree.entry? (here ++ [name]) with
        | none => .error .notFound
        | some .directory => tree.walkWith follow (here ++ [name]) names
        | some (.file content) =>
            if names = [] then .ok (here ++ [name], .file content) else .error .notDirectory
        | some (.link target) =>
            follow (if Anchor.ofText target = .relative then here else [])
              (Path.components target ++ names) := by
  rw [walkWith]
  exact (if_neg plain.named).trans (if_neg plain.notAbove)

theorem IsLinkFree.not_link (free : tree.IsLinkFree location) (target : List Char) :
    tree.entry? location ≠ some (.link target) := by
  intro link
  have noLink := free location (List.prefix_refl _)
  simp [link?, link] at noLink

theorem walkWith_ok_iff (plain : ∀ name ∈ names, name.Plain)
    (free : tree.IsLinkFree (here ++ names)) (start : tree.entry? here = some .directory)
    {stop : Location × Entry} :
    tree.walkWith follow here names = .ok stop ↔
      (∀ name ∈ names, isNameTooLong name = false) ∧
        tree.entry? (here ++ names) = some stop.2 ∧ stop.1 = here ++ names := by
  induction names generalizing here with
  | nil =>
      obtain ⟨location, entry⟩ := stop
      rw [walkWith, List.append_nil, start, Except.ok.injEq, Prod.mk.injEq, Option.some.injEq]
      simp only [List.not_mem_nil, false_implies, implies_true, true_and]
      exact ⟨fun ⟨same, directory⟩ => ⟨directory, same.symm⟩,
        fun ⟨directory, same⟩ => ⟨same.symm, directory⟩⟩
  | cons name names inductionHypothesis =>
      have further (directory : tree.entry? (here ++ [name]) = some .directory) :=
        inductionHypothesis (fun other inNames => plain other (by simp [inNames]))
          (by simpa using free) directory
      have blocked (notDirectory : tree.entry? (here ++ [name]) ≠ some .directory)
          (more : names ≠ []) {entry : Entry} :
          tree.entry? (here ++ name :: names) ≠ some entry := by
        intro present
        rw [← List.singleton_append, ← List.append_assoc] at present
        exact notDirectory (entry?_eq_directory_of_append more present)
      have freeThere : tree.IsLinkFree (here ++ [name]) := free.of_prefix (by simp)
      have noLink := freeThere.not_link
      rw [walkWith_cons_of_plain (plain name (by simp))]
      cases long : isNameTooLong name with
      | true => simp [long]
      | false =>
          cases present : tree.entry? (here ++ [name]) with
          | none =>
              suffices tree.entry? (here ++ name :: names) ≠ some stop.2 by simp [this]
              by_cases last : names = []
              · simp [last, present]
              · exact blocked (by simp [present]) last
          | some entry =>
              cases entry with
              | directory => simpa [long] using further present
              | file content =>
                  by_cases last : names = []
                  · subst last
                    obtain ⟨location, entry⟩ := stop
                    simp only [Bool.false_eq_true, if_false, if_true, Except.ok.injEq,
                      Prod.mk.injEq, List.mem_singleton, forall_eq, long, present,
                      Option.some.injEq, true_and]
                    exact ⟨fun ⟨same, file⟩ => ⟨file, same.symm⟩,
                      fun ⟨file, same⟩ => ⟨same.symm, file⟩⟩
                  · simp [last, blocked (by simp [present]) last]
              | link target => exact absurd present (noLink target)

theorem walkWith_ne_tooManyLinks (plain : ∀ name ∈ names, name.Plain)
    (free : tree.IsLinkFree (here ++ names)) :
    tree.walkWith follow here names ≠ .error .tooManyLinks := by
  induction names generalizing here with
  | nil => simp [walkWith]
  | cons name names inductionHypothesis =>
      have further : tree.walkWith follow (here ++ [name]) names ≠ .error .tooManyLinks :=
        inductionHypothesis (fun other inNames => plain other (by simp [inNames]))
          (by simpa using free)
      have freeThere : tree.IsLinkFree (here ++ [name]) := free.of_prefix (by simp)
      have noLink := freeThere.not_link
      rw [walkWith_cons_of_plain (plain name (by simp))]
      split
      next => simp
      next =>
        split
        next => simp
        next => exact further
        next => split <;> simp
        next target link => exact absurd link (noLink target)

theorem walk_ok_iff (plain : ∀ name ∈ names, name.Plain) (free : tree.IsLinkFree (here ++ names))
    (start : tree.entry? here = some .directory) {links : Nat} {stop : Location × Entry} :
    tree.walk links here names = .ok stop ↔
      (∀ name ∈ names, isNameTooLong name = false) ∧
        tree.entry? (here ++ names) = some stop.2 ∧ stop.1 = here ++ names := by
  cases links <;> exact walkWith_ok_iff plain free start

theorem walk_ne_tooManyLinks (plain : ∀ name ∈ names, name.Plain)
    (free : tree.IsLinkFree (here ++ names)) (links : Nat) :
    tree.walk links here names ≠ .error .tooManyLinks := by
  cases links <;> exact walkWith_ne_tooManyLinks plain free

theorem entry?_dropLast_of_directory (directory : tree.entry? here = some .directory) :
    tree.entry? here.dropLast = some .directory := by
  rcases List.eq_nil_or_concat here with rfl | ⟨before, last, rfl⟩
  · simp
  · rw [List.concat_eq_append] at directory
    simpa using entry?_eq_directory_of_append_singleton directory

theorem entry?_of_walkWith {stop : Location × Entry}
    (followEnds : ∀ here names, tree.entry? here = some .directory →
      follow here names = .ok stop → tree.entry? stop.1 = some stop.2)
    (directory : tree.entry? here = some .directory)
    (walked : tree.walkWith follow here names = .ok stop) :
    tree.entry? stop.1 = some stop.2 := by
  induction names generalizing here with
  | nil =>
      cases walked
      exact directory
  | cons name names inductionHypothesis =>
      rw [walkWith] at walked
      split at walked
      next => exact inductionHypothesis directory walked
      next =>
        split at walked
        next => exact inductionHypothesis (entry?_dropLast_of_directory directory) walked
        next =>
          split at walked
          next => contradiction
          next =>
            dsimp only at walked
            split at walked
            next => contradiction
            next present => exact inductionHypothesis present walked
            next content present =>
              split at walked
              next =>
                cases walked
                exact present
              next => contradiction
            next target present =>
              refine followEnds _ _ ?_ walked
              split
              · exact directory
              · exact entry?_nil

theorem entry?_of_walk {links : Nat} {stop : Location × Entry}
    (directory : tree.entry? here = some .directory)
    (walked : tree.walk links here names = .ok stop) : tree.entry? stop.1 = some stop.2 := by
  induction links generalizing here names with
  | zero => exact entry?_of_walkWith (fun _ _ _ stuck => by contradiction) directory walked
  | succ links inductionHypothesis =>
      exact entry?_of_walkWith (fun _ _ directoryNext further =>
        inductionHypothesis directoryNext further) directory walked

def Continues (tree : Tree) (rest : List Name) (whole : Except TreeError (Location × Entry)) :
    Except TreeError (Location × Entry) → Prop
  | .error error => whole = .error error
  | .ok (stop, .directory) => ∃ links, whole = tree.walk links stop rest
  | .ok (_, .file _) => rest ≠ [] → whole = .error .notDirectory
  | .ok (_, .link _) => False

theorem continues_walkWith {links : Nat} {rest : List Name}
    (isWalk : tree.walk links = tree.walkWith follow)
    (followContinues : ∀ here names,
      tree.Continues rest (follow here (names ++ rest)) (follow here names)) :
    tree.Continues rest (tree.walkWith follow here (names ++ rest))
      (tree.walkWith follow here names) := by
  induction names generalizing here with
  | nil => exact ⟨links, by rw [isWalk]; rfl⟩
  | cons name names inductionHypothesis =>
      rw [List.cons_append, walkWith, walkWith]
      split
      next => exact inductionHypothesis
      next =>
        split
        next => exact inductionHypothesis
        next =>
          split
          next => rfl
          next =>
            dsimp only
            split
            next => rfl
            next => exact inductionHypothesis
            next content isFile =>
              by_cases last : names = []
              · subst last
                intro more
                simp [more]
              · simp [last, Continues]
            next target isLink =>
              rw [← List.append_assoc]
              exact followContinues _ _

theorem continues_walk (links : Nat) (here : Location) (names rest : List Name) :
    tree.Continues rest (tree.walk links here (names ++ rest)) (tree.walk links here names) := by
  induction links generalizing here names with
  | zero =>
      have isWalk : tree.walk 0 = tree.walkWith fun _ _ => .error .tooManyLinks := rfl
      exact continues_walkWith isWalk fun _ _ => rfl
  | succ links inductionHypothesis =>
      have isWalk : tree.walk (links + 1) = tree.walkWith (tree.walk links) := rfl
      exact continues_walkWith isWalk inductionHypothesis

theorem walk_append_error {links : Nat} {error : TreeError}
    (failed : tree.walk links here names = .error error) (rest : List Name) :
    tree.walk links here (names ++ rest) = .error error := by
  have continues := @continues_walk tree links here names rest
  rwa [failed] at continues

theorem exists_directory_of_walk_append {links : Nat} {rest : List Name} {stop : Location × Entry}
    (more : rest ≠ []) (walked : tree.walk links here (names ++ rest) = .ok stop) :
    ∃ middle further, tree.walk links here names = .ok (middle, .directory) ∧
      tree.walk further middle rest = .ok stop := by
  have continues := @continues_walk tree links here names rest
  cases front : tree.walk links here names with
  | error error =>
      rw [walk_append_error front rest] at walked
      contradiction
  | ok reached =>
      obtain ⟨middle, entry⟩ := reached
      rw [front, walked] at continues
      cases entry with
      | directory =>
          obtain ⟨further, same⟩ := continues
          exact ⟨middle, further, rfl, same.symm⟩
      | file content => simp [Continues, more] at continues
      | link target => exact continues.elim

end Tree

namespace Disk

variable {disk : Disk} {path : Path} {fault : Fault}

theorem locate_ok_iff (absolute : path.isAbsolute = true) {stop : Location × Entry} :
    disk.locate path = .ok stop ↔
      hasNull path = false ∧ disk.tree.walk Tree.greatestLinkCount [] path.names = .ok stop := by
  rw [locate, if_pos absolute]
  cases hasNull path with
  | true => simp
  | false =>
      dsimp only
      cases disk.tree.walk Tree.greatestLinkCount [] path.names <;> simp [Except.mapError]

theorem entry?_of_locate (absolute : path.isAbsolute = true) {stop : Location × Entry}
    (located : disk.locate path = .ok stop) : disk.tree.entry? stop.1 = some stop.2 :=
  Tree.entry?_of_walk Tree.entry?_nil ((locate_ok_iff absolute).mp located).2

/-- What a path leads to is mentioned in the directory that the path in front of its last name leads
to, and stands there unless it is a link. -/
theorem locate_child {directory : Path} {name : Name} (absolute : directory.isAbsolute = true)
    (plain : name.Plain) {stop : Location × Entry}
    (located : disk.locate (directory.child name) = .ok stop) :
    ∃ location entry, disk.locate directory = .ok (location, .directory) ∧
      disk.tree.entry? (location ++ [name]) = some entry ∧
      ∀ content, entry = .file content → stop.1 = location ++ [name] := by
  have absoluteChild : (directory.child name).isAbsolute = true := absolute
  obtain ⟨noNull, walked⟩ := (locate_ok_iff absoluteChild).mp located
  obtain ⟨location, further, reached, last⟩ :=
    Tree.exists_directory_of_walk_append (List.cons_ne_nil name []) walked
  have noNullDirectory : hasNull directory = false := by
    unfold hasNull at noNull ⊢
    rw [Path.child, List.any_append, Bool.or_eq_false_iff] at noNull
    exact noNull.1
  have lastStep : ∃ follow, disk.tree.walkWith follow location [name] = .ok stop := by
    cases further <;> exact ⟨_, last⟩
  obtain ⟨follow, lastStep⟩ := lastStep
  rw [Tree.walkWith_cons_of_plain plain] at lastStep
  split at lastStep
  next => contradiction
  next =>
    have locatedDirectory := (locate_ok_iff absolute).mpr ⟨noNullDirectory, reached⟩
    cases present : disk.tree.entry? (location ++ [name]) with
    | none =>
        rw [present] at lastStep
        contradiction
    | some entry =>
        refine ⟨location, entry, locatedDirectory, present, ?_⟩
        rintro content rfl
        rw [present] at lastStep
        cases lastStep
        rfl

theorem isSystem_of_locate (noNull : hasNull path = false)
    (failed : disk.locate path = .error fault) : fault.isSystem = true := by
  rw [locate, if_neg (by simp [noNull])] at failed
  dsimp only at failed
  revert failed
  cases disk.tree.walk Tree.greatestLinkCount _ path.names with
  | ok stop => simp [Except.mapError]
  | error error =>
      intro failed
      cases failed
      rfl

theorem isSystem_of_leadsTo {test : Entry → Bool} (failed : disk.leadsTo test path = .error fault) :
    fault.isSystem = true := by
  unfold leadsTo at failed
  split at failed
  next => contradiction
  next other unlocated =>
    split at failed
    next => contradiction
    next notAbsent =>
      cases failed
      cases hasNullPath : hasNull path with
      | true =>
          rw [locate, if_pos hasNullPath] at unlocated
          simp [← Except.error.inj unlocated, meansAbsent] at notAbsent
      | false => exact isSystem_of_locate hasNullPath unlocated

theorem exists_locate_of_leadsTo {test : Entry → Bool} (found : disk.leadsTo test path = .ok true) :
    ∃ stop, disk.locate path = .ok stop := by
  unfold leadsTo at found
  split at found
  next location entry located => exact ⟨(location, entry), located⟩
  next => split at found <;> simp at found

theorem hasNull_of_leadsTo {test : Entry → Bool} (found : disk.leadsTo test path = .ok true) :
    hasNull path = false := by
  obtain ⟨stop, located⟩ := exists_locate_of_leadsTo found
  cases null : hasNull path with
  | false => rfl
  | true =>
      rw [locate, if_pos null] at located
      contradiction

theorem isSystem_of_children (noNull : hasNull path = false)
    (failed : disk.children path = .error fault) : fault.isSystem = true := by
  unfold children at failed
  split at failed
  next => contradiction
  next =>
    cases failed
    rfl
  next other unlocated =>
    cases failed
    exact isSystem_of_locate noNull unlocated

theorem isSystem_of_readFile (noNull : hasNull path = false)
    (failed : disk.readFile path = .error fault) : fault.isSystem = true := by
  unfold readFile at failed
  split at failed
  next => contradiction
  next =>
    cases failed
    rfl
  next other unlocated =>
    cases failed
    exact isSystem_of_locate noNull unlocated

end Disk

theorem Fault.isUnreadable_of_isSystem {fault : Fault} (system : fault.isSystem = true) :
    fault.isUnreadable = true := by
  cases fault with
  | outage kind => cases kind <;> simp_all [Fault.isSystem, Fault.isUnreadable]
  | _ => simp_all [Fault.isSystem, Fault.isUnreadable]

end IgnoreRules
