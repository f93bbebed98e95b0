import IgnoreRules.Proofs.Glob.Taken
import IgnoreRules.Proofs.NameFilter.SingleName
import IgnoreRules.Proofs.Text.Results

/-!
A name filter and an ignore file with the same lines.  About the name of a file they agree, as long
as every line is empty, a comment or a single name between its marks, and no line is an exclamation
mark with a slash: to the filter this means everything, and to the file nothing.
-/

namespace IgnoreRules

namespace NamePattern

/-- An empty line, a comment, or a single name with or without marks: an exclamation mark and a
slash in front of it and a slash behind. -/
inductive IsSingle : List Char → Prop where
  | empty : IsSingle []
  | comment (text : List Char) : IsSingle ('#' :: text)
  | name (negated rooted slashed : Bool) {body : Name} : body.Solid →
      IsSingle (Line.opening negated rooted ++ body ++ if slashed then ['/'] else [])

def between (rooted slashed : Bool) (body : Name) : List Name :=
  (if rooted then [[]] else []) ++ body :: if slashed then [[]] else []

/-- The expression of a single name: it stands anywhere or in front, and is or holds a directory. -/
def ofSingle? (rooted slashed : Bool) (body : Name) : Option (Bool × Expression) :=
  ofComponents? slashed (mergeGlobstars (openEnded (placed (between rooted slashed body))))

variable {negated rooted slashed anchored : Bool} {body name : Name} {expression : Expression}

/-- Marks that are taken off a line are written again in front of its name; what is left out is an
exclamation mark that is itself the name. -/
theorem exists_marks {text : List Char} (solid : body.Solid)
    (written : text = Line.opening negated rooted ++ body ++ if slashed then ['/'] else [])
    (notAlone : text ≠ ['!']) (notSlashed : text ≠ ['!', '/']) :
    ∃ (taken : Bool) (rest : Name), rest.Solid ∧
      text = Line.opening taken rooted ++ rest ++ (if slashed then ['/'] else []) ∧
      (taken = false → text.head? ≠ some '!') := by
  cases negated with
  | true => exact ⟨true, body, solid, written, by simp⟩
  | false =>
      cases rooted with
      | true => exact ⟨false, body, solid, written, by simp [written, Line.opening]⟩
      | false =>
          obtain ⟨first, rest, rfl⟩ := List.exists_cons_of_ne_nil solid.nonempty
          by_cases mark : first = '!'
          · -- The name starts with the mark, which is read as one.
            subst mark
            have more : rest ≠ [] := by
              rintro rfl
              cases slashed with
              | true => exact notSlashed written
              | false => exact notAlone written
            refine ⟨true, rest, ⟨more, ?_, ?_⟩, written, by simp⟩
            · exact fun slash => solid.noSlash (List.mem_cons_of_mem _ slash)
            · exact fun character present => solid.noBlank _ (List.mem_cons_of_mem _ present)
          · exact ⟨false, first :: rest, solid, written, by simp [written, Line.opening, mark]⟩

theorem components_between (noSlash : '/' ∉ body) (rooted slashed : Bool) :
    Path.components ((if rooted then ['/'] else []) ++ (body ++ if slashed then ['/'] else [])) =
      between rooted slashed body := by
  have behind : Path.components (body ++ if slashed then ['/'] else []) =
      body :: if slashed then [[]] else [] := by
    cases slashed with
    | true => exact Text.pieces_append_separator noSlash []
    | false =>
        simp only [Bool.false_eq_true, if_false, List.append_nil]
        exact Text.pieces_of_not_mem noSlash
  cases rooted with
  | true => rw [if_pos rfl, List.singleton_append, Path.components_slash_cons, behind]; rfl
  | false => simpa [between] using behind

theorem trimmed_of_solid {text : List Char} (solid : body.Solid)
    (written : text = Line.opening negated rooted ++ body ++ if slashed then ['/'] else []) :
    trimmed text = text := by
  have visible : ∀ character, text.getLast? = some character →
      Text.isBlank character = false := by
    intro character last
    cases slashed with
    | true =>
        obtain rfl : '/' = character := by simpa [written] using last
        rfl
    | false =>
        have inBody : body.getLast? = some character := by
          simpa [written, List.getLast?_append_of_ne_nil _ solid.nonempty] using last
        exact solid.noBlank character (List.mem_of_getLast? inBody)
  rw [trimmed, Text.trimEnd, Text.dropEndWhile_eq_self visible, ite_self]

theorem compile_of_marks {text : List Char} (solid : body.Solid)
    (written : text = Line.opening negated rooted ++ body ++ if slashed then ['/'] else [])
    (notComment : text.head? ≠ some '#') (notNegated : negated = false → text.head? ≠ some '!') :
    compile text =
      match ofSingle? rooted slashed body with
      | none => .error (.invalid text)
      | some (anchored, expression) =>
          match expression.backwardRange? 1 with
          | some range => .error (.backward range)
          | none => .ok (some ⟨negated, anchored, expression⟩) := by
  have afterNegation : Line.takeMark '!' text =
      (negated, (if rooted then ['/'] else []) ++ (body ++ if slashed then ['/'] else [])) := by
    rw [Line.takeMark_eq_iff]
    exact ⟨by simp [written, Line.opening], notNegated⟩
  have notSlash :
      (if rooted then ['/'] else []) ++ (body ++ if slashed then ['/'] else []) ≠ ['/'] := by
    obtain ⟨first, rest, rfl⟩ := List.exists_cons_of_ne_nil solid.nonempty
    have other : first ≠ '/' := by
      rintro rfl
      exact solid.noSlash List.mem_cons_self
    cases rooted <;> simp [other]
  have wantsDirectory : ((between rooted slashed body).getLast? == some [] &&
      (if rooted then ['/'] else []) ++ (body ++ if slashed then ['/'] else []) != ['/']) =
        slashed := by
    rw [bne_iff_ne.mpr notSlash, Bool.and_true]
    cases slashed <;> simp [between, solid.nonempty]
  unfold compile
  rw [trimmed_of_solid solid written]
  split
  next =>
    have nothing := written.symm
    rw [List.append_eq_nil_iff, List.append_eq_nil_iff] at nothing
    exact absurd nothing.1.2 solid.nonempty
  next => simp at notComment
  next =>
    rw [afterNegation]
    dsimp only
    rw [components_between solid.noSlash, wantsDirectory]
    rfl

theorem arranged_between (nonempty : body ≠ []) (rooted slashed : Bool) :
    mergeGlobstars (openEnded (placed (between rooted slashed body))) =
      if body = globstar then [globstar]
      else (if rooted then [] else [globstar]) ++ body :: if slashed then [globstar] else [] := by
  obtain ⟨first, rest, rfl⟩ := List.exists_cons_of_ne_nil nonempty
  by_cases stars : first :: rest = globstar
  · rw [stars]
    cases rooted <;> cases slashed <;> decide
  · cases rooted <;> cases slashed <;>
      simp [between, placed, openEnded, mergeGlobstars, stars]

def ofName? (body : Name) : Option Expression :=
  if body = ['*'] then some (.oneOrMore Glob.notSlash) else Glob.body? body

def fileEnd (body : Name) : Expression :=
  if body = ['*'] then .sequence (.optional slash) .atEnd else Glob.segmentEnd

def anywhere : Expression :=
  .optional (.sequence (.oneOrMore notNewline) slash)

theorem continued?_directory (notStars : body ≠ globstar) :
    continued? false [body, globstar] =
      (ofName? body).map fun inner =>
        .sequence .empty (.sequence inner (.sequence .empty slash)) := by
  unfold ofName?
  by_cases star : body = ['*']
  · subst star
    rfl
  · simp only [continued?, if_neg notStars, if_neg star]
    cases Glob.body? body <;> rfl

theorem continued?_file (notStars : body ≠ globstar) :
    continued? false [body] =
      (ofName? body).map fun inner =>
        .sequence .empty (.sequence inner (.sequence (fileEnd body) .empty)) := by
  unfold ofName? fileEnd
  by_cases star : body = ['*']
  · subst star
    rfl
  · simp only [continued?, if_neg notStars, if_neg star]
    cases Glob.body? body <;> rfl

/-- The compiled form of a single name.  Two stars, and one star that is not tied to its place, are
found wherever there is anything, or any slash. -/
theorem ofSingle?_eq (nonempty : body ≠ []) (rooted slashed : Bool) :
    ofSingle? rooted slashed body =
      if body = globstar ∨ (body = ['*'] ∧ rooted = false) then
        some (false, if slashed then slash else .one notNewline)
      else
        (continued? false (body :: if slashed then [globstar] else [])).map fun inner =>
          (true, if rooted then inner else .sequence anywhere inner) := by
  rw [ofSingle?, arranged_between nonempty]
  by_cases stars : body = globstar
  · subst stars
    cases slashed <;> rfl
  · rw [if_neg stars]
    have wholeName (rest : List Name) :
        whole? (body :: rest) = continued? false (body :: rest) := by
      rw [whole?, if_neg stars]
    cases rooted with
    | true => cases slashed <;> simp [ofComponents?, stars, wholeName]
    | false =>
        by_cases star : body = ['*']
        · subst star
          cases slashed <;> rfl
        · cases slashed <;> simp [ofComponents?, stars, star, whole?, anywhere, Function.comp_def]

theorem needs_slash_of_slashed (nonempty : body ≠ [])
    (compiled : ofSingle? rooted true body = some (anchored, expression)) :
    expression.Needs '/' := by
  rw [ofSingle?_eq nonempty] at compiled
  split at compiled
  next =>
    cases compiled
    exact .exactly '/'
  next notAny =>
    rw [not_or] at notAny
    rw [if_pos rfl, continued?_directory notAny.1, Option.map_map] at compiled
    obtain ⟨inner, -, same⟩ := Option.map_eq_some_iff.mp compiled
    have ended :
        (Expression.sequence .empty (.sequence inner (.sequence .empty slash))).Needs '/' :=
      (((Expression.Needs.exactly '/').sequenceRight _).sequenceRight _).sequenceRight _
    cases rooted with
    | true =>
        cases same
        exact ended
    | false =>
        cases same
        exact ended.sequenceRight _

theorem finds_eq_false_of_needs (needs : expression.Needs '/') (noSlash : '/' ∉ name) :
    finds ⟨negated, anchored, expression⟩ name = false := by
  have notFound := needs.occursIn_eq_false noSlash
  unfold finds
  cases anchored with
  | false => exact notFound
  | true =>
      rw [Bool.eq_false_iff]
      intro found
      rw [Expression.occursIn_of_matchesFront found] at notFound
      contradiction

theorem matchesFront_anywhere_iff (noSlash : '/' ∉ name) :
    (Expression.sequence anywhere expression).matchesFront name = true ↔
      expression.matchesFront name = true := by
  simp only [Expression.matchesFront_eq_true_iff, Expression.matches_sequence_iff]
  constructor
  · rintro ⟨rest, middle, taken, found⟩
    rcases Expression.matches_optional_iff.mp taken with rfl | directories
    · exact ⟨rest, found⟩
    · exact absurd ((Expression.Needs.exactly '/').sequenceRight _ _ _ directories) noSlash
  · rintro ⟨rest, found⟩
    exact ⟨rest, name, .without, found⟩

theorem finds_any (negated : Bool) (proper : name.Proper) (noNewline : '\n' ∉ name) :
    finds ⟨negated, false, .one notNewline⟩ name = true := by
  obtain ⟨first, rest, rfl⟩ := List.exists_cons_of_ne_nil proper.nonempty
  have other : '\n' ≠ first := by
    rintro rfl
    exact noNewline List.mem_cons_self
  apply Expression.occursIn_of_matchesFront
  apply Expression.matchesFront_eq_true_of_matches
  exact .one (by simpa [notNewline, CharSet.contains] using other)

theorem exists_segment_of_star (proper : name.Proper) :
    ∃ segment, Segment.ofPart (Mark.readAll ['*']) = .ok segment ∧ segment.accepts name = true := by
  exact ⟨_, rfl, Segment.accepts_of_star rfl proper.nonempty proper.noSlash⟩

/-- A single name without a slash behind it is searched for at the front.  In a name without a slash
it makes no difference whether directories may come first. -/
theorem exists_inner_of_file (negated : Bool) (nonempty : body ≠ []) (noSlash : '/' ∉ name)
    (notAny : ¬(body = globstar ∨ body = ['*'] ∧ rooted = false))
    (compiled : ofSingle? rooted false body = some (anchored, expression)) :
    ∃ inner, ofName? body = some inner ∧ (expression.IsForward → inner.IsForward) ∧
      (finds ⟨negated, anchored, expression⟩ name = true ↔
        ∃ rest, Expression.Matches (.sequence inner (.sequence (fileEnd body) .empty)) name
          rest) := by
  rw [ofSingle?_eq nonempty, if_neg notAny] at compiled
  rw [not_or] at notAny
  have file : continued? false (body :: if false then [globstar] else []) = _ :=
    continued?_file notAny.1
  rw [file, Option.map_map] at compiled
  obtain ⟨inner, named, same⟩ := Option.map_eq_some_iff.mp compiled
  refine ⟨inner, named, ?_⟩
  cases rooted with
  | true =>
      cases same
      constructor
      · intro forward
        have inPlace := Expression.isForward_sequence_iff.mp forward
        exact (Expression.isForward_sequence_iff.mp inPlace.2).1
      · simp [finds, Expression.matchesFront_eq_true_iff,
          Expression.matches_empty_sequence_iff]
  | false =>
      cases same
      constructor
      · intro forward
        have behind := Expression.isForward_sequence_iff.mp forward
        have inPlace := Expression.isForward_sequence_iff.mp behind.2
        exact (Expression.isForward_sequence_iff.mp inPlace.2).1
      · simp [finds, matchesFront_anywhere_iff noSlash,
          Expression.matchesFront_eq_true_iff, Expression.matches_empty_sequence_iff]

theorem exists_segment_of_single (negated : Bool) (solid : body.Solid)
    (compiled : ofSingle? rooted false body = some (anchored, expression))
    (forward : expression.IsForward) (proper : name.Proper) (noNewline : '\n' ∉ name) :
    ∃ segment, Segment.ofPart (Mark.readAll body) = .ok segment ∧
      (finds ⟨negated, anchored, expression⟩ name = true ↔
        segment = .globstar ∨ segment.accepts name = true) := by
  by_cases any : body = globstar ∨ body = ['*'] ∧ rooted = false
  · rw [ofSingle?_eq solid.nonempty, if_pos any] at compiled
    cases compiled
    have found := finds_any negated proper noNewline
    rcases any with rfl | ⟨rfl, -⟩
    · exact ⟨.globstar, rfl, iff_of_true found (.inl rfl)⟩
    · obtain ⟨segment, same, accepted⟩ := exists_segment_of_star proper
      exact ⟨segment, same, iff_of_true found (.inr accepted)⟩
  · obtain ⟨inner, named, forwardInner, searched⟩ :=
      exists_inner_of_file negated solid.nonempty proper.noSlash any compiled
    rw [searched]
    by_cases star : body = ['*']
    · subst star
      obtain ⟨segment, sameSegment, accepted⟩ := exists_segment_of_star proper
      refine ⟨segment, sameSegment, iff_of_true ⟨[], ?_⟩ (.inr accepted)⟩
      obtain rfl : .oneOrMore Glob.notSlash = inner := Option.some.inj named
      refine .sequence ?_ (.sequence (.sequence .without .atEnd) .empty)
      exact Expression.matches_oneOrMore_of_forall proper.nonempty
        (Glob.notSlash_contains proper.noSlash)
    · rw [ofName?, if_neg star] at named
      obtain ⟨pieces, scanned, -⟩ := Option.map_eq_some_iff.mp named
      refine ⟨.name (.sequence inner Glob.segmentEnd), ?_, ?_⟩
      · rw [Segment.ofPart_readAll solid (Glob.escapes_eq_false_of_scan? scanned),
          if_neg (not_or.mp any).1]
        exact Segment.ofGlob_of_body? star named (forwardInner forward)
      · rw [fileEnd, if_neg star, Glob.exists_matches_segment_iff proper.noSlash noNewline,
          Segment.accepts, Expression.matchesAll_eq_true_iff,
          Glob.matches_segment_iff proper.noSlash]
        simp

theorem exists_of_compile {text : List Char} {pattern? : Option NamePattern} (solid : body.Solid)
    (written : text = Line.opening negated rooted ++ body ++ if slashed then ['/'] else [])
    (notComment : text.head? ≠ some '#') (notNegated : negated = false → text.head? ≠ some '!')
    (accepted : compile text = .ok pattern?) :
    ∃ anchored expression, ofSingle? rooted slashed body = some (anchored, expression) ∧
      expression.IsForward ∧ pattern? = some ⟨negated, anchored, expression⟩ := by
  rw [compile_of_marks solid written notComment notNegated] at accepted
  split at accepted
  next => contradiction
  next anchored expression compiled =>
    split at accepted
    next => contradiction
    next forward =>
      exact ⟨anchored, expression, compiled, Expression.isForward_of_eq_none forward,
        (Except.ok.inj accepted).symm⟩

theorem compile_comment (text : List Char) : compile ('#' :: text) = .ok none := by
  have kept : ∃ rest, trimmed ('#' :: text) = '#' :: rest := by
    unfold trimmed
    split
    next => exact ⟨text, rfl⟩
    next =>
      have stays : Text.isBlank '#' = false := by decide
      exact ⟨_, Text.dropEndWhile_append_cons stays [] text⟩
  obtain ⟨rest, kept⟩ := kept
  rw [compile, kept]
  rfl

theorem negated_of_comment {text rest : List Char} {pattern? : Option NamePattern}
    (written : text = '#' :: rest) (accepted : compile text = .ok pattern?)
    (platform : Platform) :
    (pattern?.filter (·.finds name)).map (·.negated) =
      ((Rule.ofLine? text).filter (·.applies platform name false)).map (·.negated) := by
  subst written
  rw [compile_comment] at accepted
  cases accepted
  rw [Rule.ofLine?_eq_none (Line.read?_comment rest)]
  rfl

/-- About the name of a file, a pattern of the filter says what the rule of the same line says: it
speaks where the rule applies, and with the same mark. -/
theorem negated_of_found {text : List Char} {pattern? : Option NamePattern} (single : IsSingle text)
    (notSlashed : text ≠ ['!', '/']) (accepted : compile text = .ok pattern?)
    (proper : name.Proper) (noNewline : '\n' ∉ name) (platform : Platform) :
    (pattern?.filter (·.finds name)).map (·.negated) =
      ((Rule.ofLine? text).filter (·.applies platform name false)).map (·.negated) := by
  cases single with
  | empty =>
      cases accepted
      rfl
  | comment rest => exact negated_of_comment rfl accepted platform
  | @name negated rooted slashed body solid =>
      have notAlone : Line.opening negated rooted ++ body ++ (if slashed then ['/'] else []) ≠
          ['!'] := by
        intro alone
        rw [alone] at accepted
        contradiction
      obtain ⟨taken, rest, restSolid, written, notNegated⟩ :=
        exists_marks solid rfl notAlone notSlashed
      by_cases isComment : (Line.opening negated rooted ++ body ++
          if slashed then ['/'] else []).head? = some '#'
      · obtain ⟨others, first⟩ := List.head?_eq_some_iff.mp isComment
        exact negated_of_comment first accepted platform
      · obtain ⟨anchored, expression, compiled, forward, rfl⟩ :=
          exists_of_compile restSolid written isComment notNegated accepted
        rw [written] at isComment notNegated ⊢
        cases slashed with
        | true =>
            -- A file is no directory, to either of the two.
            have needs := needs_slash_of_slashed restSolid.nonempty compiled
            rw [if_pos rfl, Rule.filter_applies_of_slash, Option.filter_some,
              finds_eq_false_of_needs needs proper.noSlash]
            rfl
        | false =>
            simp only [Bool.false_eq_true, if_false, List.append_nil] at isComment notNegated ⊢
            obtain ⟨segment, ofPart, found⟩ :=
              exists_segment_of_single taken restSolid compiled forward proper noNewline
            obtain ⟨rule, ofLine, sameMark, notDirOnly, segments⟩ :=
              Rule.ofLine?_of_solid restSolid isComment notNegated ofPart
            have applied := Rule.applies_of_single segments notDirOnly proper platform
            have alike : finds ⟨taken, anchored, expression⟩ name =
                rule.applies platform name false :=
              Bool.eq_iff_iff.mpr (found.trans applied.symm)
            rw [ofLine, Option.filter_some, Option.filter_some, alike]
            split
            next => simp [sameMark]
            next => rfl

end NamePattern

namespace NameFilter

theorem excludes_eq (filter : NameFilter) (path : Path) (isDir : Bool) :
    filter.excludes path isDir =
      ((filter.patterns.reverse.find? (·.finds (subject path isDir))).map (·.negated) ==
        some false) := by
  unfold excludes
  cases filter.patterns.reverse.find? (·.finds (subject path isDir)) with
  | none => rfl
  | some pattern => cases h : pattern.negated <;> simp [h]

end NameFilter

theorem IgnoreFile.ignores_eq (file : IgnoreFile) (platform : Platform) {path : List Char}
    (nonempty : path ≠ []) (isDir : Bool) :
    file.ignores platform path isDir =
      ((file.rules.reverse.find? (·.applies platform path isDir)).map (·.negated) ==
        some false) := by
  unfold ignores verdict decidingRule?
  rw [if_neg nonempty]
  cases file.rules.reverse.find? (·.applies platform path isDir) with
  | none => rfl
  | some rule => cases h : rule.negated <;> simp [Rule.verdict, h]

namespace NameFilter

theorem subject_of_proper {path : Path} (proper : path.lastName.Proper) (isDir : Bool) :
    subject path isDir = path.lastName ++ if isDir then ['/'] else [] := by
  obtain ⟨first, others, split⟩ := List.exists_cons_of_ne_nil proper.nonempty
  have noSlash : '/' ∉ first :: others := split ▸ proper.noSlash
  rw [List.mem_cons, not_or] at noSlash
  unfold subject withoutLead
  rw [split]
  split
  next starts => exact absurd (List.cons.inj starts).1.symm noSlash.1
  next starts =>
    obtain ⟨rfl, behind⟩ := List.cons.inj starts
    cases others with
    | nil => exact absurd split proper.notHere
    | cons second others =>
        obtain ⟨rfl, -⟩ := List.cons.inj behind
        exact absurd List.mem_cons_self noSlash.2
  next => rfl

theorem subject_ofText {name : Name} (proper : name.Proper) :
    subject (Path.ofText name) false = name := by
  have components : Path.components name = [name] := Text.pieces_of_not_mem proper.noSlash
  have names : Path.significant [name] = [name] := by
    apply Path.significant_eq_self
    intro other isName
    obtain rfl := List.mem_singleton.mp isName
    exact proper
  have isLast : (Path.ofText name).lastName = name := by
    simp [Path.lastName, Path.ofText, components, names]
  rw [subject_of_proper (isLast.symm ▸ proper), isLast]
  simp

/-- A filter that is built and an ignore file of the same lines agree about the name of a file, when
each line is empty, a comment or a single name between its marks, and none is `!/`. -/
theorem excludes_eq_ignores {patterns : List (List Char)} {filter : NameFilter} {name : Name}
    (built : ofPatterns patterns = .ok filter)
    (single : ∀ pattern ∈ patterns, NamePattern.IsSingle pattern)
    (notSlashed : ['!', '/'] ∉ patterns) (proper : name.Proper) (noNewline : '\n' ∉ name)
    (platform : Platform) (directory : Path) (location : List Char) :
    filter.excludes (Path.ofText name) false =
      (IgnoreFile.ofLines patterns directory location).ignores platform name false := by
  unfold ofPatterns at built
  cases compiled : patterns.mapM NamePattern.compile with
  | error error =>
      rw [compiled] at built
      contradiction
  | ok results =>
      rw [compiled] at built
      cases built
      have saidAlike :
          (results.map fun pattern? => ((id pattern?).filter (·.finds name)).map (·.negated)) =
            patterns.map fun text =>
              ((Rule.ofLine? text).filter (·.applies platform name false)).map (·.negated) := by
        apply map_of_mapM compiled
        intro text inPatterns pattern? accepted
        apply NamePattern.negated_of_found (single text inPatterns) _ accepted proper noNewline
        rintro rfl
        exact notSlashed inPatterns
      rw [excludes_eq, IgnoreFile.ignores_eq _ _ proper.nonempty, subject_ofText proper,
        IgnoreFile.ofLines]
      dsimp only
      rw [map_find?_reverse_filterMap, map_find?_reverse_filterMap, saidAlike]

/-- An empty line, a comment, and names with every kind of mark, of which the last two speak about
the files. -/
theorem excludes_marked_names :
    let patterns := ["".toList, "# logs".toList, "bug*/".toList, "*.log".toList,
      "!/[!b].lo\\g".toList]
    ∃ filter, ofPatterns patterns = .ok filter ∧
      (∀ pattern ∈ patterns, NamePattern.IsSingle pattern) ∧ ['!', '/'] ∉ patterns ∧
      Name.Proper "b.log".toList ∧ '\n' ∉ "b.log".toList ∧
      filter.excludes (Path.ofText "b.log".toList) false =
        (IgnoreFile.ofLines patterns ⟨.root, []⟩ []).ignores .unix "b.log".toList false ∧
      filter.excludes (Path.ofText "b.log".toList) false = true ∧
      filter.excludes (Path.ofText "a.log".toList) false = false := by
  intro patterns
  have single : ∀ pattern ∈ patterns, NamePattern.IsSingle pattern := by
    have bug := @NamePattern.IsSingle.name false false true "bug*".toList (by decide)
    have log := @NamePattern.IsSingle.name false false false "*.log".toList (by decide)
    have keep := @NamePattern.IsSingle.name true true false "[!b].lo\\g".toList (by decide)
    simpa [patterns] using ⟨.empty, .comment _, bug, log, keep⟩
  have notSlashed : ['!', '/'] ∉ patterns := by decide
  have proper : Name.Proper "b.log".toList := ⟨by decide, by decide, by decide⟩
  obtain ⟨filter, built⟩ : ∃ filter, ofPatterns patterns = .ok filter := ⟨_, rfl⟩
  refine ⟨filter, built, single, notSlashed, proper, by decide,
    excludes_eq_ignores built single notSlashed proper (by decide) .unix _ _, ?_, ?_⟩
  · cases built
    decide +kernel
  · cases built
    decide +kernel

/-- An exclamation mark with a slash takes everything back from the filter, and is no rule at all.
-/
theorem excludes_ne_ignores_of_mark_with_slash :
    let patterns := ["a".toList, "!/".toList]
    ∃ filter, ofPatterns patterns = .ok filter ∧
      (∀ pattern ∈ patterns, NamePattern.IsSingle pattern) ∧
      Name.Proper "a".toList ∧ '\n' ∉ "a".toList ∧
      filter.excludes (Path.ofText "a".toList) false = false ∧
      (IgnoreFile.ofLines patterns ⟨.root, []⟩ []).ignores .unix "a".toList false = true := by
  intro patterns
  have single : ∀ pattern ∈ patterns, NamePattern.IsSingle pattern := by
    have letter := @NamePattern.IsSingle.name false false false "a".toList (by decide)
    have mark := @NamePattern.IsSingle.name false false true "!".toList (by decide)
    simpa [patterns] using ⟨letter, mark⟩
  obtain ⟨filter, built⟩ : ∃ filter, ofPatterns patterns = .ok filter := ⟨_, rfl⟩
  refine ⟨filter, built, single, ⟨by decide, by decide, by decide⟩, by decide, ?_, ?_⟩
  · cases built
    decide +kernel
  · decide +kernel

end NameFilter

end IgnoreRules
