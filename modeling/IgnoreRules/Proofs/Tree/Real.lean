import IgnoreRules.Proofs.Tree.Walk
import IgnoreRules.Tree.Resolve

/-!
Real paths.  Where no circle of links is met, resolving a path ends at a path of plain names on
which nothing is a link, and such a path resolves to itself.
-/

namespace IgnoreRules

def Name.NoNull (name : Name) : Prop := '\x00' ∉ name
deriving Decidable

namespace Path

variable {current here : Path} {name : Name}

theorem absolute_child :
    absolute current (here.child name) = (absolute current here).child name := by
  obtain ⟨anchor, names⟩ := here
  cases anchor <;> simp [absolute, join, child]

theorem normalAbsolute_child (notAbove : name ≠ Name.above) :
    normalAbsolute current (here.child name) = (normalAbsolute current here).child name := by
  rw [normalAbsolute, absolute_child, normal_child notAbove, normalAbsolute]

theorem normalAbsolute_of_absolute (absoluteHere : here.isAbsolute = true) :
    normalAbsolute current here = here.normal := by
  obtain ⟨anchor, names⟩ := here
  cases anchor with
  | relative => simp [isAbsolute] at absoluteHere
  | root => rfl
  | doubleRoot => rfl

theorem parent_child : (here.child name).parent = here := by
  simp [parent, child]

end Path

namespace Disk

variable {disk : Disk}

theorem hasNull_eq_false_iff {path : Path} :
    hasNull path = false ↔ ∀ name ∈ path.names, name.NoNull := by
  simp [hasNull, Name.NoNull]

/-- A path below the root on which every name is plain and nothing is a link. -/
structure IsReal (disk : Disk) (path : Path) : Prop where
  anchored : path.anchor = .root
  plain : ∀ name ∈ path.names, name.Plain
  noNull : ∀ name ∈ path.names, name.NoNull
  linkFree : disk.tree.IsLinkFree path.names

instance (disk : Disk) : DecidablePred disk.IsReal := fun path =>
  decidable_of_iff
    (path.anchor = .root ∧ (∀ name ∈ path.names, name.Plain) ∧ (∀ name ∈ path.names, name.NoNull) ∧
      disk.tree.IsLinkFree path.names)
    ⟨fun ⟨anchored, plain, noNull, linkFree⟩ => ⟨anchored, plain, noNull, linkFree⟩,
      fun real => ⟨real.anchored, real.plain, real.noNull, real.linkFree⟩⟩

theorem isReal_root (disk : Disk) : disk.IsReal ⟨.root, []⟩ where
  anchored := rfl
  plain := by simp
  noNull := by simp
  linkFree := by
    intro front inFront
    obtain rfl := List.prefix_nil.mp inFront
    simp [Tree.link?]

namespace IsReal

variable {path : Path} {name : Name}

theorem above_not_mem (real : disk.IsReal path) : Name.above ∉ path.names :=
  fun present => (real.plain _ present).notAbove rfl

theorem isAbsolute (real : disk.IsReal path) : path.isAbsolute = true := by
  simp [Path.isAbsolute, real.anchored]

theorem isSpelled (real : disk.IsReal path) : path.IsSpelled :=
  ⟨real.isAbsolute, fun name present => (real.plain name present).toProper⟩

theorem normal_eq_self (real : disk.IsReal path) : path.normal = path :=
  Path.normal_eq_self real.above_not_mem

theorem normalAbsolute_eq_self (real : disk.IsReal path) (current : Path) :
    Path.normalAbsolute current path = path := by
  rw [Path.normalAbsolute_of_absolute real.isAbsolute, real.normal_eq_self]

theorem of_prefix {names : List Name} (real : disk.IsReal path) (inFront : names <+: path.names) :
    disk.IsReal { path with names } where
  anchored := real.anchored
  plain := fun name present => real.plain name (inFront.subset present)
  noNull := fun name present => real.noNull name (inFront.subset present)
  linkFree := real.linkFree.of_prefix inFront

theorem parent (real : disk.IsReal path) : disk.IsReal path.parent :=
  real.of_prefix (List.dropLast_prefix path.names)

theorem child (real : disk.IsReal path) (plain : name.Plain) (noNull : name.NoNull)
    (noLink : disk.tree.link? (path.names ++ [name]) = none) : disk.IsReal (path.child name) where
  anchored := real.anchored
  plain := by
    intro other present
    rcases List.mem_append.mp present with inPath | isLast
    · exact real.plain other inPath
    · rwa [List.mem_singleton.mp isLast]
  noNull := by
    intro other present
    rcases List.mem_append.mp present with inPath | isLast
    · exact real.noNull other inPath
    · rwa [List.mem_singleton.mp isLast]
  linkFree := by
    intro front inFront
    rcases List.prefix_concat_iff.mp inFront with rfl | shorter
    · exact noLink
    · exact real.linkFree front shorter

end IsReal

theorem up_cases (here : Path) :
    up here = here.child Name.above ∨
      (∃ last, last ≠ Name.above ∧ here = (up here).child last) ∨
      (here.isAbsolute = true ∧ here.names = [] ∧ up here = here) := by
  obtain ⟨anchor, names⟩ := here
  rcases List.eq_nil_or_concat names with rfl | ⟨before, last, rfl⟩
  · cases anchored : Path.isAbsolute ⟨anchor, []⟩ with
    | true => simp [up, Path.pushLexically, anchored]
    | false => simp [up, Path.pushLexically, anchored, Path.child]
  · by_cases isAbove : last = Name.above
    · simp [up, Path.pushLexically, isAbove, Path.child]
    · refine .inr (.inl ⟨last, isAbove, ?_⟩)
      simp [up, Path.pushLexically, isAbove, Path.child]

theorem normalAbsolute_up {current : Path} (absoluteCurrent : current.isAbsolute = true)
    (here : Path) :
    Path.normalAbsolute current (up here) = (Path.normalAbsolute current here).parent := by
  rcases up_cases here with addsAbove | ⟨last, notAbove, split⟩ | ⟨absoluteHere, atRoot, stays⟩
  · rw [addsAbove, Path.normalAbsolute, Path.absolute_child,
      Path.normal_child_above (Path.isAbsolute_absolute absoluteCurrent here),
      Path.normalAbsolute]
  · conv_rhs => rw [split, Path.normalAbsolute_child notAbove, Path.parent_child]
  · rw [stays, Path.normalAbsolute_of_absolute absoluteHere]
    simp [Path.normal, Path.parent, atRoot]

theorem IsReal.up_eq_parent {path : Path} (real : disk.IsReal path) : up path = path.parent := by
  obtain ⟨anchor, names⟩ := path
  obtain rfl : anchor = .root := real.anchored
  rcases List.eq_nil_or_concat names with rfl | ⟨before, last, rfl⟩
  · rfl
  · have notAbove : last ≠ Name.above := (real.plain last (by simp)).notAbove
    simp [up, Path.pushLexically, notAbove, Path.parent]

/-- Following links never runs in a circle. -/
def FreeOfCircles (disk : Disk) : Prop :=
  ∀ (path : Path) (resolution : Resolution),
    disk.resolveText disk.greatestDepth [] ⟨.relative, []⟩ path.text = .ok resolution →
      resolution.complete = true

variable {follow : List Path → Path → List Char → Except Fault Resolution}
  {underway : List Path} {here path : Path} {name : Name} {names rest : List Name}

theorem resolveWith_cons_of_skipped (skipped : name = [] ∨ name = Name.here) :
    disk.resolveWith follow underway here (name :: names) =
      disk.resolveWith follow underway here names := by
  rw [resolveWith, if_pos skipped]

theorem resolveWith_cons_above :
    disk.resolveWith follow underway here (Name.above :: names) =
      disk.resolveWith follow underway (up here) names := by
  rw [resolveWith, if_neg (by decide), if_pos rfl]

theorem resolveWith_cons_of_named (named : ¬(name = [] ∨ name = Name.here))
    (notAbove : name ≠ Name.above) :
    disk.resolveWith follow underway here (name :: names) =
      if name.contains '\x00' then .error .nullCharacter
      else
        match disk.linkAt? (here.child name) with
        | none => disk.resolveWith follow underway (here.child name) names
        | some target =>
            if here.child name ∈ underway then .ok ⟨withRest (here.child name) names, false⟩
            else
              match follow (here.child name :: underway) here target with
              | .error fault => .error fault
              | .ok ⟨path, true⟩ => disk.resolveWith follow underway path names
              | .ok ⟨path, false⟩ => .ok ⟨withRest path names, false⟩ := by
  rw [resolveWith]
  exact (if_neg named).trans (if_neg notAbove)

theorem resolveWith_cons_of_null (named : ¬(name = [] ∨ name = Name.here))
    (notAbove : name ≠ Name.above) (hasNull : ¬name.NoNull) :
    disk.resolveWith follow underway here (name :: names) = .error .nullCharacter := by
  rw [resolveWith_cons_of_named named notAbove, if_pos]
  simpa [Name.NoNull] using hasNull

theorem IsReal.linkAt?_child (real : disk.IsReal here) (notAbove : name ≠ Name.above) :
    disk.linkAt? (here.child name) = disk.tree.link? (here.names ++ [name]) := by
  rw [linkAt?, Path.normalAbsolute_child notAbove, real.normalAbsolute_eq_self, Path.child]

/-- Where a component of a resolution that will be complete leads. -/
inductive Step (disk : Disk) (follow : List Path → Path → List Char → Except Fault Resolution)
    (underway : List Path) (here : Path) : Name → Path → Prop where
  | stay {name : Name} (skipped : name = [] ∨ name = Name.here) :
      Step disk follow underway here name here
  | up : Step disk follow underway here Name.above (up here)
  | down {name : Name} (named : ¬(name = [] ∨ name = Name.here)) (notAbove : name ≠ Name.above)
      (noNull : name.NoNull) (noLink : disk.linkAt? (here.child name) = none) :
      Step disk follow underway here name (here.child name)
  | along {name : Name} {target : List Char} {next : Path}
      (named : ¬(name = [] ∨ name = Name.here)) (notAbove : name ≠ Name.above)
      (noNull : name.NoNull) (isLink : disk.linkAt? (here.child name) = some target)
      (fresh : here.child name ∉ underway)
      (followed : follow (here.child name :: underway) here target = .ok ⟨next, true⟩) :
      Step disk follow underway here name next

theorem resolveWith_of_step {next : Path} (step : disk.Step follow underway here name next) :
    disk.resolveWith follow underway here (name :: names) =
      disk.resolveWith follow underway next names := by
  cases step with
  | stay skipped => exact resolveWith_cons_of_skipped skipped
  | up => exact resolveWith_cons_above
  | down named notAbove noNull noLink =>
      rw [resolveWith_cons_of_named named notAbove, if_neg (by simpa [Name.NoNull] using noNull),
        noLink]
  | along named notAbove noNull isLink fresh followed =>
      rw [resolveWith_cons_of_named named notAbove, if_neg (by simpa [Name.NoNull] using noNull),
        isLink]
      dsimp only
      rw [if_neg fresh, followed]

theorem resolveWith_cons_of_broken {target : List Char} {fault : Fault}
    (named : ¬(name = [] ∨ name = Name.here)) (notAbove : name ≠ Name.above)
    (noNull : name.NoNull) (isLink : disk.linkAt? (here.child name) = some target)
    (fresh : here.child name ∉ underway)
    (broken : follow (here.child name :: underway) here target = .error fault) :
    disk.resolveWith follow underway here (name :: names) = .error fault := by
  rw [resolveWith_cons_of_named named notAbove, if_neg (by simpa [Name.NoNull] using noNull),
    isLink]
  dsimp only
  rw [if_neg fresh, broken]

theorem exists_step_of_resolveWith
    (resolved : disk.resolveWith follow underway here (name :: names) = .ok ⟨path, true⟩) :
    ∃ next, disk.Step follow underway here name next ∧
      disk.resolveWith follow underway next names = .ok ⟨path, true⟩ := by
  suffices ∃ next, disk.Step follow underway here name next by
    obtain ⟨next, step⟩ := this
    exact ⟨next, step, by rwa [resolveWith_of_step step] at resolved⟩
  by_cases skipped : name = [] ∨ name = Name.here
  · exact ⟨here, .stay skipped⟩
  · by_cases isAbove : name = Name.above
    · exact ⟨up here, isAbove ▸ .up⟩
    · rw [resolveWith_cons_of_named skipped isAbove] at resolved
      split at resolved
      next => contradiction
      next nullFree =>
        have noNull : name.NoNull := by simpa [Name.NoNull] using nullFree
        split at resolved
        next noLink => exact ⟨_, .down skipped isAbove noNull noLink⟩
        next target isLink =>
          split at resolved
          next => simp at resolved
          next fresh =>
            split at resolved
            next => contradiction
            next next followed => exact ⟨next, .along skipped isAbove noNull isLink fresh followed⟩
            next => simp at resolved

/-- Something that is true of the root and goes on being true with every component and every link
that is followed. -/
structure GoesOn (disk : Disk) (holds : Path → Prop) : Prop where
  root : holds ⟨.root, []⟩
  up : ∀ {here : Path}, holds here → holds (up here)
  down : ∀ {here : Path} {name : Name}, holds here → name.Plain → name.NoNull →
    disk.linkAt? (here.child name) = none → holds (here.child name)

theorem goesOn_isReal (disk : Disk) : disk.GoesOn disk.IsReal where
  root := isReal_root disk
  up := fun real => real.up_eq_parent ▸ real.parent
  down := by
    intro here name real plain noNull noLink
    rw [real.linkAt?_child plain.notAbove] at noLink
    exact real.child plain noNull noLink

theorem goesOn_isReal_normalAbsolute (absoluteCurrent : disk.current.isAbsolute = true) :
    disk.GoesOn fun here => disk.IsReal (Path.normalAbsolute disk.current here) where
  root := by
    rw [(isReal_root disk).normalAbsolute_eq_self]
    exact isReal_root disk
  up := by
    intro here real
    rw [normalAbsolute_up absoluteCurrent]
    exact real.parent
  down := by
    intro here name real plain noNull noLink
    rw [linkAt?, Path.normalAbsolute_child plain.notAbove] at noLink
    rw [Path.normalAbsolute_child plain.notAbove]
    exact real.child plain noNull noLink

section

variable {holds : Path → Prop} (goesOn : disk.GoesOn holds)
include goesOn

theorem GoesOn.step {next : Path} (step : disk.Step follow underway here name next)
    (followHolds : ∀ underway here target path, holds here →
      follow underway here target = .ok ⟨path, true⟩ → holds path)
    (noSlash : '/' ∉ name) (holdsHere : holds here) : holds next := by
  cases step with
  | stay => exact holdsHere
  | up => exact goesOn.up holdsHere
  | down named notAbove noNull noLink =>
      have plain : name.Plain := by
        rcases Name.kinds noSlash with skipped | isAbove | plain
        · contradiction
        · contradiction
        · exact plain
      exact goesOn.down holdsHere plain noNull noLink
  | along _ _ _ _ _ followed => exact followHolds _ _ _ _ holdsHere followed

theorem GoesOn.resolveWith
    (followHolds : ∀ underway here target path, holds here →
      follow underway here target = .ok ⟨path, true⟩ → holds path)
    (noSlash : ∀ name ∈ names, '/' ∉ name) (holdsHere : holds here)
    (resolved : disk.resolveWith follow underway here names = .ok ⟨path, true⟩) : holds path := by
  induction names generalizing here with
  | nil =>
      cases resolved
      exact holdsHere
  | cons name names inductionHypothesis =>
      rw [List.forall_mem_cons] at noSlash
      obtain ⟨next, step, resolvedNext⟩ := exists_step_of_resolveWith resolved
      exact inductionHypothesis noSlash.2 (goesOn.step step followHolds noSlash.1 holdsHere)
        resolvedNext

end

def followAt (disk : Disk) : (depth : Nat) → (underway : List Path) → Path → List Char →
    Except Fault Resolution
  | 0 => fun _ here target => .ok ⟨withRest here (Path.components target), false⟩
  | depth + 1 => disk.resolveText depth

theorem resolveText_eq_resolveWith (disk : Disk) (depth : Nat) (underway : List Path)
    (here : Path) (text : List Char) :
    disk.resolveText depth underway here text =
      disk.resolveWith (disk.followAt depth) underway
        (if Anchor.ofText text = .relative then here else ⟨.root, []⟩) (Path.components text) := by
  cases depth <;> rfl

theorem GoesOn.followAt {holds : Path → Prop} (goesOn : disk.GoesOn holds) {depth : Nat}
    {text : List Char} (holdsHere : holds here)
    (resolved : disk.followAt depth underway here text = .ok ⟨path, true⟩) : holds path := by
  induction depth generalizing underway here text path with
  | zero => simp [Disk.followAt] at resolved
  | succ depth inductionHypothesis =>
      rw [Disk.followAt, resolveText_eq_resolveWith] at resolved
      have holdsStart : holds (if Anchor.ofText text = .relative then here else ⟨.root, []⟩) := by
        split
        · exact holdsHere
        · exact goesOn.root
      exact goesOn.resolveWith (fun _ _ _ _ holdsNext => inductionHypothesis holdsNext)
        (fun _ present => Path.noSlash_of_mem_components present) holdsStart resolved

theorem nullCharacter_of_resolveWith {fault : Fault}
    (followFaults : ∀ underway here target fault,
      follow underway here target = .error fault → fault = .nullCharacter)
    (failed : disk.resolveWith follow underway here names = .error fault) :
    fault = .nullCharacter := by
  induction names generalizing here with
  | nil => contradiction
  | cons name names inductionHypothesis =>
      rw [resolveWith] at failed
      split at failed
      next => exact inductionHypothesis failed
      next =>
        split at failed
        next => exact inductionHypothesis failed
        next =>
          split at failed
          next => exact (Except.error.inj failed).symm
          next =>
            dsimp only at failed
            split at failed
            next => exact inductionHypothesis failed
            next =>
              split at failed
              next => contradiction
              next =>
                split at failed
                next broken =>
                  cases failed
                  exact followFaults _ _ _ _ broken
                next => exact inductionHypothesis failed
                next => contradiction

theorem nullCharacter_of_followAt {depth : Nat} {text : List Char} {fault : Fault}
    (failed : disk.followAt depth underway here text = .error fault) :
    fault = .nullCharacter := by
  induction depth generalizing underway here text fault with
  | zero => simp [followAt] at failed
  | succ depth inductionHypothesis =>
      rw [followAt, resolveText_eq_resolveWith] at failed
      exact nullCharacter_of_resolveWith (fun _ _ _ _ broken => inductionHypothesis broken) failed

theorem IsReal.locate_eq_walk (real : disk.IsReal path) :
    disk.locate path =
      (disk.tree.walk Tree.greatestLinkCount [] path.names).mapError (Fault.tree · path) := by
  have noNull := hasNull_eq_false_iff.mpr real.noNull
  rw [locate, if_neg (by simp [noNull]), if_pos real.isAbsolute]

theorem IsReal.locate_ok_iff (real : disk.IsReal path) {stop : Location × Entry} :
    disk.locate path = .ok stop ↔
      (∀ name ∈ path.names, Tree.isNameTooLong name = false) ∧
        disk.tree.entry? path.names = some stop.2 ∧ stop.1 = path.names := by
  have noNull := hasNull_eq_false_iff.mpr real.noNull
  have free : disk.tree.IsLinkFree ([] ++ path.names) := real.linkFree
  rw [Disk.locate_ok_iff real.isAbsolute, Tree.walk_ok_iff real.plain free Tree.entry?_nil,
    List.nil_append]
  exact and_iff_right noNull

theorem IsReal.locate_error (real : disk.IsReal path) {fault : Fault}
    (failed : disk.locate path = .error fault) :
    ∃ error, fault = .tree error path ∧ error ≠ .tooManyLinks := by
  rw [real.locate_eq_walk] at failed
  cases walked : disk.tree.walk Tree.greatestLinkCount [] path.names with
  | ok stop =>
      rw [walked] at failed
      contradiction
  | error error =>
      rw [walked] at failed
      refine ⟨error, (Except.error.inj failed).symm, ?_⟩
      rintro rfl
      exact Tree.walk_ne_tooManyLinks real.plain real.linkFree _ walked

theorem normalAbsolute_nil (realCurrent : disk.IsReal disk.current) :
    Path.normalAbsolute disk.current ⟨.relative, []⟩ = disk.current := by
  have joined : Path.absolute disk.current ⟨.relative, []⟩ = disk.current := by
    simp [Path.absolute, Path.join]
  rw [Path.normalAbsolute, joined, realCurrent.normal_eq_self]

theorem resolve_of_isReal_end {real : Path}
    (complete : disk.resolveText disk.greatestDepth [] ⟨.relative, []⟩ path.text =
      .ok ⟨real, true⟩)
    (isReal : disk.IsReal (Path.normalAbsolute disk.current real)) :
    disk.resolve path = .ok (Path.normalAbsolute disk.current real) := by
  rw [resolve, complete]
  dsimp only
  split
  next tooMany =>
    obtain ⟨error, same, notTooMany⟩ := isReal.locate_error tooMany
    cases same
    exact absurd rfl notTooMany
  next null =>
    obtain ⟨error, same, -⟩ := isReal.locate_error null
    contradiction
  next => rfl

theorem resolve_of_complete (realCurrent : disk.IsReal disk.current) {real : Path}
    (complete : disk.resolveText disk.greatestDepth [] ⟨.relative, []⟩ path.text =
      .ok ⟨real, true⟩) :
    disk.resolve path = .ok (Path.normalAbsolute disk.current real) ∧
      disk.IsReal (Path.normalAbsolute disk.current real) := by
  have followed : disk.followAt (disk.greatestDepth + 1) [] ⟨.relative, []⟩ path.text =
      .ok ⟨real, true⟩ := complete
  have isReal : disk.IsReal (Path.normalAbsolute disk.current real) := by
    refine (goesOn_isReal_normalAbsolute realCurrent.isAbsolute).followAt ?_ followed
    rwa [normalAbsolute_nil realCurrent]
  exact ⟨resolve_of_isReal_end complete isReal, isReal⟩

/-- Without circles of links, only a null character keeps a path from having a real one. -/
theorem resolve_cases (realCurrent : disk.IsReal disk.current) (acyclic : disk.FreeOfCircles)
    (path : Path) :
    (∃ real, disk.resolve path = .ok real ∧ disk.IsReal real) ∨
      disk.resolve path = .error .nullCharacter := by
  cases resolved : disk.resolveText disk.greatestDepth [] ⟨.relative, []⟩ path.text with
  | error fault =>
      right
      have failed : disk.followAt (disk.greatestDepth + 1) [] ⟨.relative, []⟩ path.text =
          .error fault := resolved
      rw [resolve, resolved, nullCharacter_of_followAt failed]
  | ok resolution =>
      left
      obtain ⟨real, complete⟩ := resolution
      obtain rfl : complete = true := acyclic path _ resolved
      exact ⟨_, resolve_of_complete realCurrent resolved⟩

theorem resolveWith_of_isReal (realEnd : disk.IsReal { here with names := here.names ++ names }) :
    disk.resolveWith follow underway here names =
      .ok ⟨{ here with names := here.names ++ names }, true⟩ := by
  induction names generalizing here with
  | nil => simp [resolveWith]
  | cons name names inductionHypothesis =>
      have realThere : disk.IsReal (here.child name) := by
        have inFront : here.names ++ [name] <+: here.names ++ name :: names := by simp
        exact realEnd.of_prefix inFront
      have plain : name.Plain := realThere.plain name (by simp [Path.child])
      have noNull : name.NoNull := realThere.noNull name (by simp [Path.child])
      have noLink : disk.linkAt? (here.child name) = none := by
        rw [linkAt?, realThere.normalAbsolute_eq_self]
        exact realThere.linkFree _ (List.prefix_refl _)
      rw [resolveWith_of_step (.down plain.named plain.notAbove noNull noLink)]
      have further := @inductionHypothesis (here.child name) (by simpa [Path.child] using realEnd)
      simpa [Path.child] using further

theorem resolveWith_replicate_append (count : Nat) :
    disk.resolveWith follow underway here (List.replicate count [] ++ names) =
      disk.resolveWith follow underway here names := by
  induction count with
  | zero => rfl
  | succ count inductionHypothesis =>
      rw [List.replicate_succ, List.cons_append, resolveWith_cons_of_skipped (.inl rfl),
        inductionHypothesis]

theorem resolveText_text (spelled : path.IsSpelled) (depth : Nat) :
    disk.resolveText depth underway here path.text =
      disk.resolveWith (disk.followAt depth) underway ⟨.root, []⟩ path.names := by
  obtain ⟨count, components⟩ := Path.components_text_of_isAbsolute spelled.absolute
    fun name present => (spelled.proper name present).noSlash
  rw [resolveText_eq_resolveWith, if_neg (Path.ofText_text_ne_relative spelled.absolute),
    components, resolveWith_replicate_append]

theorem IsReal.resolve_eq_self (real : disk.IsReal path) (realCurrent : disk.IsReal disk.current) :
    disk.resolve path = .ok path := by
  have complete : disk.resolveText disk.greatestDepth [] ⟨.relative, []⟩ path.text =
      .ok ⟨path, true⟩ := by
    rw [resolveText_text real.isSpelled]
    obtain ⟨anchor, names⟩ := path
    obtain rfl : anchor = .root := real.anchored
    exact resolveWith_of_isReal real
  rw [(resolve_of_complete realCurrent complete).1, real.normalAbsolute_eq_self]

end Disk

end IgnoreRules
