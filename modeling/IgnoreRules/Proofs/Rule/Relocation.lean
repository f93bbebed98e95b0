import IgnoreRules.Proofs.Glob.Spelled
import IgnoreRules.Proofs.Rule.Covering
import IgnoreRules.Proofs.Rule.Platforms
import IgnoreRules.Proofs.Rule.Slash

/-!
Moving a line one directory up.  A name that is escaped character by character is a segment that
takes this name alone, and put in front of a line that is tied to its directory it makes a rule that
says below that directory what the line said in it, and nothing elsewhere.
-/

namespace IgnoreRules

def Name.escaped (name : Name) : List Char :=
  name.flatMap fun character => ['\\', character]

namespace Path

variable {directory : Name}

theorem significant_components_below (proper : directory.Proper) (path : List Char) :
    significant (components (directory ++ '/' :: path)) =
      directory :: significant (components path) := by
  rw [components, Text.pieces_append_separator proper.noSlash, ← components]
  simp [significant, proper.nonempty, proper.notHere]

theorem noSlash_of_mem_significant {text : List Char} {name : Name}
    (present : name ∈ significant (components text)) : '/' ∉ name :=
  noSlash_of_mem_components (mem_significant_iff.mp present).1

end Path

namespace Line

/-- The line with a directory in front, to which it is tied. -/
def movedUp (directory : Name) (line : List Char) : List Char :=
  '/' :: (directory.escaped ++ '/' :: line)

/-- The line with a directory in front and any number of components between them. -/
def movedUpFloating (directory : Name) (line : List Char) : List Char :=
  '/' :: (directory.escaped ++ "/**/".toList ++ line)

end Line

namespace Rule

variable {directory : Name} {rule moved : Rule} {line : List Char}

/-- A rule says below a directory what another says in it, and nothing elsewhere. -/
structure SpeaksBelow (moved : Rule) (directory : Name) (rule : Rule) : Prop where
  sameVerdict : moved.verdict = rule.verdict
  inside : ∀ (platform : Platform) (path : List Char) (isDir : Bool),
    Path.significant (Path.components path) ≠ [] →
      moved.applies platform (directory ++ '/' :: path) isDir = rule.applies platform path isDir
  outside : ∀ (platform : Platform) (path : List Char) (isDir : Bool),
    (Path.significant (Path.components path)).head? ≠ some directory →
      moved.applies platform path isDir = false

/-- Putting labels in front of a line that is tied to its directory puts their segments in front of
the rule's, and changes no flag. -/
theorem exists_moved {marks : List Mark} {expression : Expression} {more : List Segment}
    (faithful : ∀ mark ∈ marks, mark.escaped = false → mark.character ≠ '\\')
    (compiledMarks : (Segment.parts marks).mapM Segment.ofPart = .ok (.name expression :: more))
    (compiled : ofLine? ('/' :: line) = some rule) :
    ∃ moved raw, ofLine? ('/' :: (Mark.writeAll marks ++ '/' :: line)) = some moved ∧
      moved.dirOnly = rule.dirOnly ∧ rule.segments = Segment.mergeGlobstars raw ∧
      moved.segments = Segment.mergeGlobstars (.name expression :: (more ++ raw)) := by
  obtain ⟨read, segments, -, -⟩ := ofLine?_eq_some_iff.mp compiled
  obtain ⟨raw, isMerged, together⟩ := Segment.ofPattern_below compiledMarks segments
  have nonempty : Segment.mergeGlobstars (.name expression :: (more ++ raw)) ≠ [] :=
    Segment.mergeGlobstars_ne_nil (List.cons_ne_nil _ _)
  exact ⟨{ rule with
      pattern := marks ++ ⟨'/', false⟩ :: rule.pattern
      segments := Segment.mergeGlobstars (.name expression :: (more ++ raw))
      source := Line.withoutTerminator ('/' :: (Mark.writeAll marks ++ '/' :: line)) }, raw,
    ofLine?_eq_some_iff.mpr ⟨Line.read?_below faithful read, together, nonempty, rfl⟩, rfl,
    isMerged, rfl⟩

theorem speaksBelow_of_covers {expression : Expression} {others : List Segment}
    (accepts : ∀ component : Name, '/' ∉ component →
      ((Segment.name expression).accepts component = true ↔ component = directory))
    (proper : directory.Proper) (movedRooted : moved.rooted = true)
    (sameNegated : moved.negated = rule.negated) (sameDirOnly : moved.dirOnly = rule.dirOnly)
    (segments : moved.segments = Segment.mergeGlobstars (.name expression :: others))
    (covers : ∀ components, components ≠ [] →
      (Segment.Covers others components ↔ rule.matchesParts components = true)) :
    moved.SpeaksBelow directory rule where
  sameVerdict := by rw [verdict, verdict, sameNegated]
  inside := by
    intro platform path isDir nonempty
    rw [applies_eq_matchesText, applies_eq_matchesText, sameDirOnly, matchesText, matchesText,
      Path.significant_components_below proper]
    congr 1
    rw [Bool.eq_iff_iff, matchesParts_of_rooted movedRooted, segments,
      Segment.covers_mergeGlobstars_iff, Segment.covers_name_cons_iff, covers _ nonempty,
      accepts directory proper.noSlash]
    simp
  outside := by
    intro platform path isDir elsewhere
    rw [applies_eq_matchesText, matchesText, Bool.and_eq_false_iff]
    right
    rw [← Bool.not_eq_true, matchesParts_of_rooted movedRooted, segments,
      Segment.covers_mergeGlobstars_iff, Segment.covers_name_iff]
    rintro ⟨-, component, rest, split, accepted, -⟩
    have noSlash : '/' ∉ component :=
      Path.noSlash_of_mem_significant (by rw [split]; exact List.mem_cons_self)
    rw [split, (accepts component noSlash).mp accepted] at elsewhere
    exact elsewhere rfl

theorem writeAll_escaped (directory : Name) :
    Mark.writeAll (directory.map (⟨·, true⟩)) = directory.escaped := by
  rw [Mark.writeAll, List.flatMap_map, Name.escaped]
  rfl

theorem parts_escaped (proper : directory.Proper) :
    Segment.parts (directory.map (⟨·, true⟩)) = [directory.map (⟨·, true⟩)] := by
  have uncut : Text.pieces (·.character == '/') (directory.map (Mark.mk · true)) =
      [directory.map (⟨·, true⟩)] := by
    refine Text.pieces_of_forall_not fun mark present => ?_
    obtain ⟨character, inDirectory, rfl⟩ := List.mem_map.mp present
    rw [beq_eq_false_iff_ne]
    rintro rfl
    exact proper.noSlash inDirectory
  rw [Segment.parts, uncut]
  simp [proper.nonempty]

theorem exists_movedUp (proper : directory.Proper) (compiled : ofLine? ('/' :: line) = some rule) :
    ∃ moved, ofLine? (Line.movedUp directory line) = some moved ∧
      moved.SpeaksBelow directory rule := by
  obtain ⟨expression, compiledName, accepts⟩ := Segment.ofPart_escaped proper.nonempty
  have compiledMarks : (Segment.parts (directory.map (⟨·, true⟩))).mapM Segment.ofPart =
      .ok [.name expression] := by
    rw [parts_escaped proper, List.mapM_cons, compiledName]
    rfl
  obtain ⟨moved, raw, compiledMoved, sameDirOnly, isMerged, segments⟩ :=
    exists_moved (by simp) compiledMarks compiled
  rw [writeAll_escaped] at compiledMoved
  obtain ⟨notNegated, rooted⟩ := flags_of_slash_cons compiled
  obtain ⟨movedNotNegated, movedRooted⟩ := flags_of_slash_cons compiledMoved
  have sameNegated : moved.negated = rule.negated := by rw [notNegated, movedNotNegated]
  refine ⟨moved, compiledMoved, speaksBelow_of_covers accepts proper movedRooted sameNegated
    sameDirOnly segments fun components nonempty => ?_⟩
  rw [matchesParts_of_rooted rooted, isMerged, Segment.covers_mergeGlobstars_iff]
  simp [nonempty]

def starredMarks (directory : Name) : List Mark :=
  directory.map (⟨·, true⟩) ++ [⟨'/', false⟩, ⟨'*', false⟩, ⟨'*', false⟩]

theorem faithful_starredMarks (directory : Name) :
    ∀ mark ∈ starredMarks directory, mark.escaped = false → mark.character ≠ '\\' := by
  intro mark present unescaped
  rcases List.mem_append.mp present with inName | inStars
  · obtain ⟨character, -, rfl⟩ := List.mem_map.mp inName
    contradiction
  · obtain rfl | rfl : mark = ⟨'/', false⟩ ∨ mark = ⟨'*', false⟩ := by simpa using inStars
    · decide
    · decide

theorem writeAll_starredMarks (directory : Name) :
    Mark.writeAll (starredMarks directory) = directory.escaped ++ "/**".toList := by
  rw [starredMarks, Mark.writeAll, List.flatMap_append, ← Mark.writeAll, writeAll_escaped]
  rfl

theorem mapM_starredMarks (proper : directory.Proper) {expression : Expression}
    (compiledName : Segment.ofPart (directory.map (⟨·, true⟩)) = .ok (.name expression)) :
    (Segment.parts (starredMarks directory)).mapM Segment.ofPart =
      .ok [.name expression, .globstar] := by
  have compiledStars : (Segment.parts [⟨'*', false⟩, ⟨'*', false⟩]).mapM Segment.ofPart =
      .ok [.globstar] := rfl
  rw [starredMarks, Segment.parts_append_slash, List.mapM_append, parts_escaped proper,
    List.mapM_cons, compiledName, compiledStars]
  rfl

/-- A line that is neither tied nor negated, behind the name and two stars.  The stars are two more
labels in front of the line once it is tied to its directory. -/
theorem exists_movedUpFloating (proper : directory.Proper) (compiled : ofLine? line = some rule)
    (notNegated : rule.negated = false) (notRooted : rule.rooted = false) :
    ∃ moved, ofLine? (Line.movedUpFloating directory line) = some moved ∧
      moved.SpeaksBelow directory rule := by
  obtain ⟨expression, compiledName, accepts⟩ := Segment.ofPart_escaped proper.nonempty
  obtain ⟨moved, raw, compiledMoved, sameDirOnly, isMerged, segments⟩ :=
    exists_moved (faithful_starredMarks directory) (mapM_starredMarks proper compiledName)
      (ofLine?_slash_cons_of_floating compiled notNegated notRooted)
  rw [writeAll_starredMarks, List.append_assoc] at compiledMoved
  obtain ⟨movedNotNegated, movedRooted⟩ := flags_of_slash_cons compiledMoved
  have sameNegated : moved.negated = rule.negated := by rw [notNegated, movedNotNegated]
  refine ⟨moved, by simpa [Line.movedUpFloating] using compiledMoved,
    speaksBelow_of_covers accepts proper movedRooted sameNegated sameDirOnly segments
      fun components nonempty => ?_⟩
  rw [matchesParts_of_floating notRooted, isMerged, List.singleton_append,
    Segment.covers_cons_congr fun _ => Segment.covers_mergeGlobstars_iff]
  simp [nonempty]

/-- A line that is tied to its directory, moved one directory up behind the directory's escaped
name, says below that directory what it said in it; so does a line that is neither tied to its
directory nor negated, behind the name and two stars. -/
theorem moved_line_speaks_below (proper : directory.Proper) :
    (∀ (line : List Char) (rule : Rule), ofLine? ('/' :: line) = some rule →
      ∃ moved, ofLine? (Line.movedUp directory line) = some moved ∧
        moved.SpeaksBelow directory rule) ∧
    (∀ (line : List Char) (rule : Rule), ofLine? line = some rule → rule.negated = false →
      rule.rooted = false →
      ∃ moved, ofLine? (Line.movedUpFloating directory line) = some moved ∧
        moved.SpeaksBelow directory rule) :=
  ⟨fun _ _ compiled => exists_movedUp proper compiled,
    fun _ _ compiled => exists_movedUpFloating proper compiled⟩

/-- A directory whose name is full of marks, above a line with two stars, an escaped blank and a
slash at its end, and above one without a slash. -/
theorem moved_line_below_marked_directory :
    let directory : Name := "[!a]*\\ ".toList
    let tied := "x/**/y\\ /\r\n".toList
    let floating := "*.log".toList
    directory.Proper ∧
      (∃ rule moved, ofLine? ('/' :: tied) = some rule ∧
        ofLine? (Line.movedUp directory tied) = some moved ∧ moved.SpeaksBelow directory rule ∧
        moved.applies .unix (directory ++ '/' :: "x/z/y ".toList) true = true) ∧
      (∃ rule moved, ofLine? floating = some rule ∧ rule.negated = false ∧ rule.rooted = false ∧
        ofLine? (Line.movedUpFloating directory floating) = some moved ∧
        moved.SpeaksBelow directory rule ∧
        moved.applies .unix (directory ++ '/' :: "x/y.log".toList) false = true) := by
  intro directory tied floating
  have proper : directory.Proper := ⟨by decide, by decide, by decide⟩
  have compiledTied : ofLine? ('/' :: tied) =
      some ((ofLine? ('/' :: tied)).get (by decide +kernel)) := (Option.some_get _).symm
  have compiledFloating : ofLine? floating = some ((ofLine? floating).get (by decide +kernel)) :=
    (Option.some_get _).symm
  refine ⟨proper, ?_, ?_⟩
  · obtain ⟨moved, compiledMoved, speaks⟩ :=
      (moved_line_speaks_below proper).1 tied _ compiledTied
    refine ⟨_, moved, compiledTied, compiledMoved, speaks, ?_⟩
    rw [speaks.inside _ _ _ (by decide)]
    decide +kernel
  · obtain ⟨moved, compiledMoved, speaks⟩ :=
      (moved_line_speaks_below proper).2 floating _ compiledFloating (by decide +kernel)
        (by decide +kernel)
    refine ⟨_, moved, compiledFloating, by decide +kernel, by decide +kernel, compiledMoved,
      speaks, ?_⟩
    rw [speaks.inside _ _ _ (by decide)]
    decide +kernel

end Rule

end IgnoreRules
