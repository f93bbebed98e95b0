import IgnoreRules.Proofs.Rule.Line
import IgnoreRules.Proofs.Rule.Platforms
import Mathlib.Data.List.Basic

/-!
The canonical line of a rule.  A rule keeps of its line all that its meaning depends on: written
out from its flags, its characters and the positions of its literals, and read again, it is the
same rule up to the text it came from.
-/

namespace IgnoreRules

namespace Line

def written (line : Line) : List Char :=
  opening line.negated line.rooted ++
    (Mark.writeAll line.pattern ++ if line.dirOnly then ['/'] else [])

theorem withoutTerminator_append (text : List Char) :
    withoutTerminator (text ++ ['\r', '\n']) = text := by
  simp [withoutTerminator, Text.dropEndWhile]

theorem trimSlashes_eq_self {text : List Char} (noSlash : text.getLast? ≠ some '/') :
    trimSlashes text = text := by
  rw [trimSlashes, dropSlashes_eq_self (by simpa using noSlash), List.reverse_reverse]

theorem getLast?_trimSlashes (text : List Char) : (trimSlashes text).getLast? ≠ some '/' := by
  simpa [trimSlashes] using head?_dropSlashes text.reverse

theorem head?_trimSlashes {text : List Char} (kept : trimSlashes text ≠ []) :
    (trimSlashes text).head? = text.head? := by
  have inFront : trimSlashes text <+: text := by
    simpa [trimSlashes] using List.reverse_prefix.mpr (dropSlashes_suffix text.reverse)
  obtain ⟨slashes, split⟩ := inFront
  calc
    (trimSlashes text).head? = (trimSlashes text ++ slashes).head? :=
      (List.head?_append_of_ne_nil _ kept).symm
    _ = text.head? := by rw [split]

theorem trimSlashes_writeAll_readAll {body : List Char} (noSlash : body.getLast? ≠ some '/')
    (slashed : Bool) :
    trimSlashes (Mark.writeAll (Mark.readAll body) ++ if slashed then ['/'] else []) =
      Mark.writeAll (Mark.readAll body) := by
  have stillNoSlash : (Mark.writeAll (Mark.readAll body)).getLast? ≠ some '/' := by
    rwa [Mark.getLast?_writeAll_readAll]
  cases slashed with
  | false => simpa using trimSlashes_eq_self stillNoSlash
  | true =>
      have closed := Mark.escapes_writeAll_readAll body
      simp only [trimSlashes, if_true, List.reverse_append, List.reverse_singleton,
        List.singleton_append, dropSlashes_slash_cons closed]
      exact trimSlashes_eq_self stillNoSlash

theorem trimBlanks_written {text : List Char} {line : Line}
    (read : ofTrimmed? (trimBlanks text) = some line) :
    trimBlanks line.written = line.written := by
  obtain ⟨rest, textSplit, -, -, -, kept, dirOnly, pattern⟩ := ofTrimmed?_eq_some_iff.mp read
  cases slash : line.dirOnly with
  | true =>
      refine trimBlanks_eq_self fun character last => ?_
      obtain rfl : '/' = character := by simpa [written, slash] using last
      rfl
  | false =>
      -- Without slashes to take off, the line is the text itself or ends in a second backslash.
      have whole : trimSlashes rest = rest := by
        refine trimSlashes_eq_self ?_
        simpa [slash] using dirOnly
      rw [whole] at pattern
      have spelled : line.written =
          opening line.negated line.rooted ++
            if escapes rest.reverse then rest ++ ['\\'] else rest := by
        simp [written, slash, pattern, Mark.writeAll_readAll]
      cases lone : escapes rest.reverse with
      | true =>
          rw [if_pos lone] at spelled
          refine trimBlanks_eq_self fun character last => ?_
          obtain rfl : '\\' = character := by simpa [spelled] using last
          rfl
      | false =>
          rw [lone, if_neg (by simp), ← textSplit] at spelled
          rw [spelled, trimBlanks_trimBlanks]

theorem head?_opening_append {first second : List Char} (sameHead : first.head? = second.head?)
    (negated rooted : Bool) :
    (opening negated rooted ++ first).head? = (opening negated rooted ++ second).head? := by
  rw [List.head?_append, List.head?_append, sameHead]

theorem ofTrimmed?_written {text : List Char} {line : Line}
    (read : ofTrimmed? text = some line) : ofTrimmed? line.written = some line := by
  obtain ⟨rest, textSplit, notComment, notNegated, notRooted, kept, dirOnly, pattern⟩ :=
    ofTrimmed?_eq_some_iff.mp read
  have bodyKept : Mark.writeAll line.pattern ≠ [] := by
    rw [pattern]
    exact Mark.writeAll_readAll_ne_nil kept
  have trimmed :
      trimSlashes (Mark.writeAll line.pattern ++ if line.dirOnly then ['/'] else []) =
        Mark.writeAll line.pattern := by
    rw [pattern]
    exact trimSlashes_writeAll_readAll (getLast?_trimSlashes rest) line.dirOnly
  have sameRestHead :
      (Mark.writeAll line.pattern ++ if line.dirOnly then ['/'] else []).head? = rest.head? := by
    rw [List.head?_append_of_ne_nil _ bodyKept, pattern, Mark.head?_writeAll_readAll,
      head?_trimSlashes kept]
  have sameHead : line.written.head? = text.head? := by
    rw [textSplit]
    exact head?_opening_append sameRestHead _ _
  refine ofTrimmed?_eq_some_iff.mpr ⟨_, rfl, ?_, ?_, ?_, ?_, ?_, ?_⟩
  · rwa [sameHead]
  · rwa [sameHead]
  · rwa [sameRestHead]
  · rwa [trimmed]
  · cases slash : line.dirOnly with
    | true => simp
    | false =>
        have noSlash : (Mark.writeAll line.pattern).getLast? ≠ some '/' := by
          rw [pattern, Mark.getLast?_writeAll_readAll]
          exact getLast?_trimSlashes rest
        simpa using noSlash
  · rw [trimmed, pattern, Mark.readAll_writeAll_readAll]

theorem read?_written {text : List Char} {line : Line} (read : read? text = some line) :
    read? (line.written ++ ['\r', '\n']) = some line := by
  rw [read?, withoutTerminator_append, trimBlanks_written read, ofTrimmed?_written read]

end Line

namespace Rule

/-- The characters of the pattern, those at the positions of literals behind a backslash. -/
def writtenPattern (rule : Rule) : List Char :=
  rule.patternText.zipIdx.flatMap fun (character, position) =>
    if position ∈ rule.literals then ['\\', character] else [character]

/-- The line that says no more than a rule keeps. -/
def canonicalLine (rule : Rule) : List Char :=
  (if rule.negated then ['!'] else []) ++ (if rule.rooted then ['/'] else []) ++
    rule.writtenPattern ++ (if rule.dirOnly then ['/'] else []) ++ ['\r', '\n']

theorem mem_literals_iff {rule : Rule} {position : Nat} :
    position ∈ rule.literals ↔
      ∃ mark, rule.pattern[position]? = some mark ∧ mark.escaped = true := by
  simp only [literals, List.mem_filterMap, Prod.exists, List.mem_zipIdx_iff_getElem?]
  constructor
  · rintro ⟨mark, found, present, kept⟩
    split at kept
    next escaped =>
      cases kept
      exact ⟨mark, present, escaped⟩
    next => contradiction
  · rintro ⟨mark, present, escaped⟩
    exact ⟨mark, position, present, by simp [escaped]⟩

theorem writtenPattern_eq_writeAll (rule : Rule) :
    rule.writtenPattern = Mark.writeAll rule.pattern := by
  have sameAt : ∀ labelled ∈ rule.pattern.zipIdx,
      (if labelled.2 ∈ rule.literals then ['\\', labelled.1.character]
        else [labelled.1.character]) = labelled.1.written := by
    rintro ⟨mark, position⟩ present
    rw [List.mem_zipIdx_iff_getElem?] at present
    have literal : position ∈ rule.literals ↔ mark.escaped = true := by
      simp [mem_literals_iff, present]
    simp [Mark.written, literal]
  calc
    rule.writtenPattern = rule.pattern.zipIdx.flatMap fun labelled =>
        if labelled.2 ∈ rule.literals then ['\\', labelled.1.character]
          else [labelled.1.character] := by
      simp [writtenPattern, patternText, List.zipIdx_map, List.flatMap_map]
    _ = rule.pattern.zipIdx.flatMap fun labelled => labelled.1.written :=
      List.flatMap_congr sameAt
    _ = (rule.pattern.zipIdx.map Prod.fst).flatMap Mark.written := by
      rw [List.flatMap_map]
    _ = Mark.writeAll rule.pattern := by rw [List.zipIdx_map_fst, Mark.writeAll]

theorem canonicalLine_eq_written (rule : Rule) :
    rule.canonicalLine = rule.toLine.written ++ ['\r', '\n'] := by
  simp [canonicalLine, writtenPattern_eq_writeAll, Line.written, Line.opening]

/-- Characters and positions of literals leave no choice of labels. -/
theorem pattern_eq_of_fields_eq {first second : Rule}
    (sameText : first.patternText = second.patternText)
    (sameLiterals : first.literals = second.literals) : first.pattern = second.pattern := by
  refine List.ext_getElem? fun position => ?_
  have sameCharacter : (first.pattern[position]?).map Mark.character =
      (second.pattern[position]?).map Mark.character := by
    simpa [patternText] using congrArg (·[position]?) sameText
  have sameLiteral : position ∈ first.literals ↔ position ∈ second.literals := by
    rw [sameLiterals]
  rw [mem_literals_iff, mem_literals_iff] at sameLiteral
  cases inFirst : first.pattern[position]? with
  | none =>
      rw [inFirst] at sameCharacter
      exact (Option.map_eq_none_iff.mp sameCharacter.symm).symm
  | some mark =>
      rw [inFirst, Option.map_some] at sameCharacter
      obtain ⟨other, inSecond, sameCharacter⟩ := Option.map_eq_some_iff.mp sameCharacter.symm
      have sameLabel : mark.escaped = other.escaped := by
        rw [Bool.eq_iff_iff]
        simpa [inFirst, inSecond] using sameLiteral
      rw [inSecond, Option.some.injEq]
      cases mark
      cases other
      simp_all

theorem ofLine?_eq_some_iff {line : List Char} {rule : Rule} :
    ofLine? line = some rule ↔
      Line.read? line = some rule.toLine ∧
        Segment.ofPattern rule.pattern = .ok rule.segments ∧ rule.segments ≠ [] ∧
        rule.source = Line.withoutTerminator line := by
  cases read : Line.read? line with
  | none => simp [ofLine?, compile, read]
  | some marks =>
      cases compiled : Segment.ofPattern marks.pattern with
      | error error =>
          have dropped : ofLine? line = none := by
            simp [ofLine?, compile, read, compiled, Except.map]
          rw [dropped]
          constructor
          · intro made
            contradiction
          · rintro ⟨same, compiledAgain, -⟩
            cases same
            rw [compiled] at compiledAgain
            contradiction
      | ok segments =>
          have kept : ofLine? line = if segments = [] then none else
              some { marks with source := Line.withoutTerminator line, segments } := by
            simp [ofLine?, compile, read, compiled, Except.map]
          rw [kept]
          constructor
          · intro made
            split at made
            next => contradiction
            next nonempty =>
              cases made
              exact ⟨rfl, compiled, nonempty, rfl⟩
          · rintro ⟨same, compiledAgain, nonempty, source⟩
            cases same
            obtain rfl : segments = rule.segments := by
              rw [compiled] at compiledAgain
              exact Except.ok.inj compiledAgain
            rw [if_neg nonempty, ← source]

theorem ofLine?_canonicalLine {line : List Char} {rule : Rule}
    (compiled : ofLine? line = some rule) :
    ofLine? rule.canonicalLine = some { rule with source := rule.toLine.written } := by
  obtain ⟨read, segments, nonempty, -⟩ := ofLine?_eq_some_iff.mp compiled
  rw [canonicalLine_eq_written, ofLine?_eq_some_iff]
  exact ⟨Line.read?_written read, segments, nonempty,
    (Line.withoutTerminator_append rule.toLine.written).symm⟩

theorem segments_eq_of_pattern_eq {line other : List Char} {first second : Rule}
    (compiledFirst : ofLine? line = some first) (compiledSecond : ofLine? other = some second)
    (samePattern : first.pattern = second.pattern) : first.segments = second.segments := by
  obtain ⟨-, segmentsFirst, -⟩ := ofLine?_eq_some_iff.mp compiledFirst
  obtain ⟨-, segmentsSecond, -⟩ := ofLine?_eq_some_iff.mp compiledSecond
  rw [samePattern, segmentsSecond] at segmentsFirst
  exact (Except.ok.inj segmentsFirst).symm

theorem applies_eq_of_meaning_eq {first second : Rule} (sameRooted : first.rooted = second.rooted)
    (sameDirOnly : first.dirOnly = second.dirOnly)
    (sameSegments : first.segments = second.segments) (platform : Platform) (path : List Char)
    (isDir : Bool) : first.applies platform path isDir = second.applies platform path isDir := by
  cases first with
  | mk firstLine firstSource firstSegments =>
  cases second with
  | mk secondLine secondSource secondSegments =>
  cases firstLine
  cases secondLine
  simp only at sameRooted sameDirOnly sameSegments
  subst sameRooted sameDirOnly sameSegments
  rfl

/-- Every compiled line has the same pattern, literals, flags and segments as its canonical line,
and two lines that agree in pattern, literals and flags make rules that say the same about every
entry. -/
theorem canonicalLine_keeps_meaning :
    (∀ (line : List Char) (rule : Rule), ofLine? line = some rule →
      ∃ again, ofLine? rule.canonicalLine = some again ∧
        again.patternText = rule.patternText ∧ again.literals = rule.literals ∧
        again.negated = rule.negated ∧ again.rooted = rule.rooted ∧
        again.dirOnly = rule.dirOnly ∧ again.segments = rule.segments) ∧
    (∀ (line other : List Char) (first second : Rule),
      ofLine? line = some first → ofLine? other = some second →
      first.patternText = second.patternText → first.literals = second.literals →
      first.negated = second.negated → first.rooted = second.rooted →
      first.dirOnly = second.dirOnly →
      ∀ (platform : Platform) (path : List Char) (isDir : Bool),
        first.applies platform path isDir = second.applies platform path isDir ∧
          first.verdict = second.verdict) := by
  constructor
  · intro line rule compiled
    exact ⟨_, ofLine?_canonicalLine compiled, rfl, rfl, rfl, rfl, rfl, rfl⟩
  · intro line other first second compiledFirst compiledSecond sameText sameLiterals sameNegated
      sameRooted sameDirOnly platform path isDir
    have samePattern := pattern_eq_of_fields_eq sameText sameLiterals
    have sameSegments := segments_eq_of_pattern_eq compiledFirst compiledSecond samePattern
    refine ⟨applies_eq_of_meaning_eq sameRooted sameDirOnly sameSegments platform path isDir, ?_⟩
    rw [verdict, verdict, sameNegated]

/-- A negated pattern with an escaped star, a class, an escaped blank and two slashes at its end,
one of them escaped, next to a line with one slash. -/
theorem canonicalLine_escaped_blank :
    let line := "!a\\*[b-d]\\ /\\/ \r\n".toList
    let other := "!a\\*[b-d]\\ /".toList
    ∃ rule second, ofLine? line = some rule ∧ ofLine? other = some second ∧
      rule.canonicalLine = "!a\\*[b-d]\\ /\r\n".toList ∧
      (∃ again, ofLine? rule.canonicalLine = some again ∧
        again.patternText = rule.patternText ∧ again.literals = rule.literals ∧
        again.negated = rule.negated ∧ again.rooted = rule.rooted ∧
        again.dirOnly = rule.dirOnly ∧ again.segments = rule.segments) ∧
      rule.applies .unix "x/a*c ".toList true = true ∧
      (rule.applies .unix "x/a*c ".toList true = second.applies .unix "x/a*c ".toList true ∧
        rule.verdict = second.verdict) := by
  refine ⟨(ofLine? _).get (by decide +kernel), (ofLine? _).get (by decide +kernel),
    (Option.some_get _).symm, (Option.some_get _).symm, by decide +kernel,
    canonicalLine_keeps_meaning.1 _ _ (Option.some_get _).symm, by decide +kernel, ?_⟩
  exact canonicalLine_keeps_meaning.2 _ _ _ _ (Option.some_get _).symm (Option.some_get _).symm
    (by decide +kernel) (by decide +kernel) (by decide +kernel) (by decide +kernel)
    (by decide +kernel) .unix _ true

end Rule

end IgnoreRules
