import IgnoreRules.Proofs.Tree.Real

/-!
What resolving leaves is spelled unmistakably.  Whatever links are met, and even where they run in a
circle, the path that a path resolves to is absolute and has proper names.
-/

namespace IgnoreRules

theorem Name.proper_above : Name.above.Proper :=
  ⟨by decide, by decide, by decide⟩

def Path.HasProperNames (path : Path) : Prop :=
  ∀ name ∈ path.names, name.Proper

namespace Path.HasProperNames

variable {here : Path}

theorem child {name : Name} (properHere : here.HasProperNames) (proper : name.Proper) :
    (here.child name).HasProperNames := by
  intro other present
  rcases List.mem_append.mp present with inHere | isLast
  · exact properHere other inHere
  · rwa [List.mem_singleton.mp isLast]

theorem up (properHere : here.HasProperNames) : (Disk.up here).HasProperNames := by
  rcases Disk.up_cases here with addsAbove | ⟨last, -, split⟩ | ⟨-, -, stays⟩
  · rw [addsAbove]
    exact properHere.child Name.proper_above
  · intro name present
    apply properHere
    rw [split]
    exact List.mem_append_left _ present
  · rwa [stays]

theorem withRest (properHere : here.HasProperNames) (rest : List Name) :
    (Disk.withRest here rest).HasProperNames := by
  intro name present
  rcases Path.mem_names_join present with inHere | inText
  · exact properHere name inHere
  · exact Path.proper_of_mem_ofText inText

end Path.HasProperNames

namespace Disk

variable {disk : Disk} {follow : List Path → Path → List Char → Except Fault Resolution}
  {underway : List Path} {here : Path} {names : List Name} {resolution : Resolution}

theorem hasProperNames_of_resolveWith
    (followProper : ∀ underway here target resolution, here.HasProperNames →
      follow underway here target = .ok resolution → resolution.path.HasProperNames)
    (noSlash : ∀ name ∈ names, '/' ∉ name) (properHere : here.HasProperNames)
    (resolved : disk.resolveWith follow underway here names = .ok resolution) :
    resolution.path.HasProperNames := by
  induction names generalizing here with
  | nil =>
      cases resolved
      exact properHere
  | cons name names inductionHypothesis =>
      rw [List.forall_mem_cons] at noSlash
      rcases Name.kinds noSlash.1 with skipped | rfl | plain
      · rw [resolveWith_cons_of_skipped skipped] at resolved
        exact inductionHypothesis noSlash.2 properHere resolved
      · rw [resolveWith_cons_above] at resolved
        exact inductionHypothesis noSlash.2 properHere.up resolved
      · have properThere := properHere.child plain.toProper
        rw [resolveWith_cons_of_named plain.named plain.notAbove] at resolved
        split at resolved
        next => contradiction
        next =>
          split at resolved
          next => exact inductionHypothesis noSlash.2 properThere resolved
          next target isLink =>
            split at resolved
            next =>
              cases resolved
              exact properThere.withRest names
            next =>
              split at resolved
              next => contradiction
              next path followed =>
                have properPath := followProper _ _ _ _ properHere followed
                exact inductionHypothesis noSlash.2 properPath resolved
              next path followed =>
                have properPath := followProper _ _ _ _ properHere followed
                cases resolved
                exact properPath.withRest names

theorem hasProperNames_of_followAt {depth : Nat} {text : List Char}
    (properHere : here.HasProperNames)
    (resolved : disk.followAt depth underway here text = .ok resolution) :
    resolution.path.HasProperNames := by
  induction depth generalizing underway here text resolution with
  | zero =>
      cases resolved
      exact properHere.withRest _
  | succ depth inductionHypothesis =>
      rw [followAt, resolveText_eq_resolveWith] at resolved
      refine hasProperNames_of_resolveWith
        (fun _ _ _ _ properNext followed => inductionHypothesis properNext followed)
        (fun _ present => Path.noSlash_of_mem_components present) ?_ resolved
      split
      · exact properHere
      · exact fun _ absent => absurd absent List.not_mem_nil

/-- The real path of a path is an absolute path of proper names. -/
theorem isSpelled_of_resolve {path real : Path} (spelledCurrent : disk.current.IsSpelled)
    (resolved : disk.resolve path = .ok real) : real.IsSpelled := by
  unfold resolve at resolved
  split at resolved
  next => contradiction
  next resolution read =>
    have followed : disk.followAt (disk.greatestDepth + 1) [] ⟨.relative, []⟩ path.text =
        .ok resolution := read
    have proper : resolution.path.HasProperNames :=
      hasProperNames_of_followAt (fun _ absent => absurd absent List.not_mem_nil) followed
    have spelled : (Path.absolute disk.current resolution.path).IsSpelled := by
      refine ⟨Path.isAbsolute_absolute spelledCurrent.absolute _, fun name present => ?_⟩
      rcases Path.mem_names_join present with inCurrent | inPath
      · exact spelledCurrent.proper name inCurrent
      · exact proper name inPath
    dsimp only at resolved
    split at resolved
    next => contradiction
    next => contradiction
    next =>
      rw [← Except.ok.inj resolved]
      exact spelled.normal

end Disk

end IgnoreRules
