import IgnoreRules.Proofs.Rule.Covering
import IgnoreRules.Proofs.Rule.Platforms
import IgnoreRules.Proofs.Rule.Slash

/-!
Lines that are not tied to their directory.  Such a line says of a path what the tied line says of
some end of it, and two stars in front say no more.
-/

namespace IgnoreRules

namespace Line

variable {text : List Char} {line : Line}

theorem read?_of_slash_cons (read : read? ('/' :: text) = some line)
    (unmarked : ∀ first ∈ (trimmed text).head?, first ≠ '#' ∧ first ≠ '!' ∧ first ≠ '/') :
    read? text = some { line with rooted := false } := by
  rw [read?_slash_cons] at read
  split at read
  next => contradiction
  next kept =>
    cases read
    have notFirst {first : Char} (isMark : first = '#' ∨ first = '!' ∨ first = '/') :
        (trimmed text).head? ≠ some first := by
      intro isFirst
      obtain ⟨notHash, notBang, notSlash⟩ := unmarked first isFirst
      simp [notHash, notBang, notSlash] at isMark
    exact ofTrimmed?_eq_some_iff.mpr ⟨trimmed text, rfl, notFirst (.inl rfl),
      fun _ => notFirst (.inr (.inl rfl)), fun _ => notFirst (.inr (.inr rfl)), kept, rfl, rfl⟩

theorem flags_of_head? (read : read? text = some line) (notBang : text.head? ≠ some '!')
    (notSlash : text.head? ≠ some '/') : line.negated = false ∧ line.rooted = false := by
  have sameHead {first : Char} (isFirst : (trimmed text).head? = some first) :
      text.head? = some first := by
    obtain ⟨others, trimmedSplit⟩ := List.head?_eq_some_iff.mp isFirst
    obtain ⟨behind, split⟩ := prefix_trimmed text
    rw [← split, trimmedSplit, List.cons_append, List.head?_cons]
  obtain ⟨rest, split, -⟩ := ofTrimmed?_eq_some_iff.mp read
  have trimmedSplit : trimmed text = opening line.negated line.rooted ++ rest := split
  have notNegated : line.negated = false := by
    rw [Bool.eq_false_iff]
    intro negated
    exact notBang (sameHead (by rw [trimmedSplit, negated]; rfl))
  refine ⟨notNegated, ?_⟩
  rw [Bool.eq_false_iff]
  intro rooted
  exact notSlash (sameHead (by rw [trimmedSplit, notNegated, rooted]; rfl))

end Line

namespace Segment

variable {segments : List Segment} {components : List Name}

theorem covers_of_covers_nil (covers : Covers segments []) (nonempty : segments ≠ [])
    (components : List Name) : Covers segments components := by
  cases covers with
  | nil => contradiction
  | globstarStop others => simpa using covers_globstar_of_covers components others

/-- Segments behind two stars cover components, if there are any, when they cover some end of them
that is not empty. -/
theorem covers_globstar_iff_of_ne_nil (nonempty : segments ≠ []) :
    components ≠ [] ∧ Covers (.globstar :: segments) components ↔
      ∃ count < components.length, Covers segments (components.drop count) := by
  rw [covers_globstar_iff]
  constructor
  · rintro ⟨someLeft, count, covers⟩
    rcases Nat.lt_or_ge count components.length with inside | behind
    · exact ⟨count, inside, covers⟩
    · rw [List.drop_of_length_le behind] at covers
      exact ⟨0, List.length_pos_iff.mpr someLeft, covers_of_covers_nil covers nonempty _⟩
  · rintro ⟨count, inside, covers⟩
    exact ⟨List.ne_nil_of_length_pos (Nat.zero_lt_of_lt inside), count, covers⟩

end Segment

namespace Rule

variable {rule : Rule} {line : List Char}

theorem exists_starred (compiled : ofLine? line = some rule) (notNegated : rule.negated = false)
    (notRooted : rule.rooted = false) :
    ∃ starred tiedStarred raw,
      ofLine? ("**/".toList ++ line) = some starred ∧
      ofLine? ("/**/".toList ++ line) = some tiedStarred ∧
      (starred.rooted = false ∧ starred.dirOnly = rule.dirOnly ∧
        starred.segments = Segment.mergeGlobstars (.globstar :: raw)) ∧
      (tiedStarred.rooted = true ∧ tiedStarred.dirOnly = rule.dirOnly ∧
        tiedStarred.segments = Segment.mergeGlobstars (.globstar :: raw)) ∧
      rule.segments = Segment.mergeGlobstars raw := by
  obtain ⟨read, segments, -, -⟩ := ofLine?_eq_some_iff.mp compiled
  let stars : List Mark := [⟨'*', false⟩, ⟨'*', false⟩]
  have compiledStars : (Segment.parts stars).mapM Segment.ofPart = .ok [.globstar] := rfl
  obtain ⟨raw, isMerged, together⟩ := Segment.ofPattern_below compiledStars segments
  have nonempty : Segment.mergeGlobstars (.globstar :: raw) ≠ [] :=
    Segment.mergeGlobstars_ne_nil (List.cons_ne_nil _ _)
  let starred : Rule := { rule with
    pattern := stars ++ ⟨'/', false⟩ :: rule.pattern
    segments := Segment.mergeGlobstars (.globstar :: raw)
    source := Line.withoutTerminator (Mark.writeAll stars ++ '/' :: line) }
  let tiedStarred : Rule := { starred with
    rooted := true
    source := Line.withoutTerminator ('/' :: (Mark.writeAll stars ++ '/' :: line)) }
  have readTied : Line.read? ('/' :: (Mark.writeAll stars ++ '/' :: line)) =
      some tiedStarred.toLine :=
    Line.read?_below (by decide) (Line.read?_slash_cons_of_floating read notNegated notRooted)
  have readStarred : Line.read? (Mark.writeAll stars ++ '/' :: line) = some starred.toLine := by
    have unmarked : ∀ first ∈ (Line.trimmed (Mark.writeAll stars ++ '/' :: line)).head?,
        first ≠ '#' ∧ first ≠ '!' ∧ first ≠ '/' := by
      rw [Line.trimmed_append_solid (by decide)]
      rintro first isFirst
      obtain rfl : '*' = first := Option.some.inj isFirst
      decide
    rw [Line.read?_of_slash_cons readTied unmarked, ← notRooted]
  exact ⟨starred, tiedStarred, raw,
    ofLine?_eq_some_iff.mpr ⟨readStarred, together, nonempty, rfl⟩,
    ofLine?_eq_some_iff.mpr ⟨readTied, together, nonempty, rfl⟩, ⟨notRooted, rfl, rfl⟩,
    ⟨rfl, rfl, rfl⟩, isMerged⟩

theorem applies_eq_of_matchesParts_eq {first second : Rule}
    (sameDirOnly : first.dirOnly = second.dirOnly)
    (sameParts : ∀ components, first.matchesParts components = second.matchesParts components)
    (platform : Platform) (path : List Char) (isDir : Bool) :
    first.applies platform path isDir = second.applies platform path isDir := by
  rw [applies_eq_matchesText, applies_eq_matchesText, sameDirOnly, matchesText, matchesText,
    sameParts]

/-- A rule that is not tied to its directory applies to a path when, tied to it, the rule applies to
some end of the path. -/
theorem applies_of_floating_iff {tied : Rule} (notRooted : rule.rooted = false)
    (rooted : tied.rooted = true) (sameDirOnly : tied.dirOnly = rule.dirOnly)
    (sameSegments : tied.segments = rule.segments) (nonempty : rule.segments ≠ [])
    (platform : Platform) (path : List Char) (isDir : Bool) :
    rule.applies platform path isDir = true ↔
      ∃ count < (Path.ofText path).names.length,
        tied.applies platform (Text.unpieces '/' ((Path.ofText path).names.drop count)) isDir =
          true := by
  have onEnd (count : Nat) : Path.significant (Path.components
      (Text.unpieces '/' ((Path.ofText path).names.drop count))) =
        (Path.ofText path).names.drop count :=
    Path.significant_components_unpieces fun name present =>
      Path.proper_of_mem_ofText (List.mem_of_mem_drop present)
  simp only [applies_eq_matchesText, matchesText, onEnd, sameDirOnly, Bool.and_eq_true,
    matchesParts_of_rooted rooted, matchesParts_of_floating notRooted, sameSegments]
  rw [Segment.covers_globstar_iff_of_ne_nil nonempty]
  constructor
  · rintro ⟨allowed, count, inside, covers⟩
    have someLeft : (Path.ofText path).names.drop count ≠ [] := by
      rw [ne_eq, List.drop_eq_nil_iff]
      exact Nat.not_le_of_lt inside
    exact ⟨count, inside, allowed, someLeft, covers⟩
  · rintro ⟨count, inside, allowed, -, covers⟩
    exact ⟨allowed, count, inside, covers⟩

/-- A line that is neither negated nor tied to its directory says the same behind two stars, and
applies to a path when, tied, it applies to some end of the path. -/
theorem floating_line_applies_to_ends (compiled : ofLine? line = some rule)
    (notBang : line.head? ≠ some '!') (notSlash : line.head? ≠ some '/') :
    ∃ starred tiedStarred tied,
      ofLine? ("**/".toList ++ line) = some starred ∧
      ofLine? ("/**/".toList ++ line) = some tiedStarred ∧
      ofLine? ('/' :: line) = some tied ∧
      ∀ (platform : Platform) (path : List Char) (isDir : Bool),
        starred.applies platform path isDir = rule.applies platform path isDir ∧
        tiedStarred.applies platform path isDir = rule.applies platform path isDir ∧
        (rule.applies platform path isDir = true ↔
          ∃ count < (Path.ofText path).names.length,
            tied.applies platform (Text.unpieces '/' ((Path.ofText path).names.drop count)) isDir =
              true) := by
  obtain ⟨read, -, nonempty, -⟩ := ofLine?_eq_some_iff.mp compiled
  obtain ⟨notNegated, notRooted⟩ := Line.flags_of_head? read notBang notSlash
  obtain ⟨starred, tiedStarred, raw, compiledStarred, compiledTiedStarred,
    ⟨starredNotRooted, starredDirOnly, starredSegments⟩,
    ⟨tiedStarredRooted, tiedStarredDirOnly, tiedStarredSegments⟩, isMerged⟩ :=
    exists_starred compiled notNegated notRooted
  have starsBelow (components : List Name) :
      Segment.Covers (.globstar :: rule.segments) components ↔
        Segment.Covers (.globstar :: raw) components := by
    rw [isMerged]
    exact Segment.covers_cons_congr fun _ => Segment.covers_mergeGlobstars_iff
  have starredSame (components : List Name) :
      starred.matchesParts components = rule.matchesParts components := by
    rw [Bool.eq_iff_iff, matchesParts_of_floating starredNotRooted,
      matchesParts_of_floating notRooted, starredSegments, starsBelow,
      Segment.covers_cons_congr fun _ => Segment.covers_mergeGlobstars_iff,
      Segment.covers_globstar_globstar_iff]
  have tiedStarredSame (components : List Name) :
      tiedStarred.matchesParts components = rule.matchesParts components := by
    rw [Bool.eq_iff_iff, matchesParts_of_rooted tiedStarredRooted,
      matchesParts_of_floating notRooted, tiedStarredSegments, starsBelow,
      Segment.covers_mergeGlobstars_iff]
  let tied : Rule := { rule with
    rooted := true
    source := Line.withoutTerminator ('/' :: line) }
  have tiedRooted : tied.rooted = true := rfl
  have tiedSays := applies_of_floating_iff notRooted tiedRooted rfl rfl nonempty
  exact ⟨starred, tiedStarred, tied, compiledStarred, compiledTiedStarred,
    ofLine?_slash_cons_of_floating compiled notNegated notRooted, fun platform path isDir =>
      ⟨applies_eq_of_matchesParts_eq starredDirOnly starredSame platform path isDir,
        applies_eq_of_matchesParts_eq tiedStarredDirOnly tiedStarredSame platform path isDir,
        tiedSays platform path isDir⟩⟩

/-- Two runs of stars around a name, about directories alone. -/
theorem floating_line_applies_to_ends_between_stars :
    let line := "**/a\\ /**/".toList
    let path := "x//a /b".toList
    ∃ rule starred tiedStarred tied, ofLine? line = some rule ∧
      ofLine? ("**/".toList ++ line) = some starred ∧
      ofLine? ("/**/".toList ++ line) = some tiedStarred ∧ ofLine? ('/' :: line) = some tied ∧
      starred.applies .unix path true = rule.applies .unix path true ∧
      tiedStarred.applies .unix path true = rule.applies .unix path true ∧
      (rule.applies .unix path true = true ↔
        ∃ count < (Path.ofText path).names.length,
          tied.applies .unix (Text.unpieces '/' ((Path.ofText path).names.drop count)) true =
            true) ∧
      rule.applies .unix path true = true := by
  intro line path
  have compiled : ofLine? line = some ((ofLine? line).get (by decide +kernel)) :=
    (Option.some_get _).symm
  obtain ⟨starred, tiedStarred, tied, compiledStarred, compiledTiedStarred, compiledTied, same⟩ :=
    floating_line_applies_to_ends compiled (by decide) (by decide)
  obtain ⟨starredSame, tiedStarredSame, tiedSays⟩ := same .unix path true
  exact ⟨_, starred, tiedStarred, tied, compiled, compiledStarred, compiledTiedStarred,
    compiledTied, starredSame, tiedStarredSame, tiedSays, by decide +kernel⟩

end Rule

end IgnoreRules
