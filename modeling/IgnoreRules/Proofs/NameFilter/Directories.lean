import IgnoreRules.Proofs.NameFilter.Agreement

/-!
Directories and files of one name, under patterns without slashes.  The name of a directory is
searched with a slash behind it.  No wildcard takes this slash, but a set does that lets it in; and
a file's name may end in a newline in front of which an expression may stop.  Elsewhere the two are
told apart by nothing.
-/

namespace IgnoreRules

namespace Glob

def Piece.takesSlash : Piece → Bool
  | literal character => character == '/'
  | star => false
  | question => false
  | bracket negated body => (CharSet.bracket negated (Member.readAll body)).contains '/'

/-- The pieces take a name and the slash behind it: one of them takes the slash, and nothing but
stars is left. -/
inductive TakesMarked : List Piece → Name → Prop where
  | slash {piece : Piece} {stars : List Piece} :
      piece.takesSlash = true → (∀ other ∈ stars, other = .star) → TakesMarked (piece :: stars) []
  | further {piece : Piece} {pieces : List Piece} {stretch rest : Name} :
      piece.Takes stretch → TakesMarked pieces rest →
      TakesMarked (piece :: pieces) (stretch ++ rest)

variable {piece : Piece} {pieces : List Piece} {name rest : Name}

theorem TakesMarked.exists_takesSlash (taken : TakesMarked pieces name) :
    ∃ piece ∈ pieces, piece.takesSlash = true := by
  induction taken with
  | slash isSlash _ => exact ⟨_, List.mem_cons_self, isSlash⟩
  | further _ _ inductionHypothesis =>
      obtain ⟨piece, present, isSlash⟩ := inductionHypothesis
      exact ⟨piece, List.mem_cons_of_mem _ present, isSlash⟩

theorem matches_one_marked_iff {set : CharSet} :
    Expression.Matches (.one set) (name ++ ['/']) rest ↔
      (∃ tail, rest = tail ++ ['/'] ∧ Expression.Matches (.one set) name tail) ∨
        name = [] ∧ rest = [] ∧ set.contains '/' = true := by
  simp only [Expression.matches_one_iff]
  cases name with
  | nil =>
      constructor
      · rintro ⟨character, split, held⟩
        cases split
        exact .inr ⟨rfl, rfl, held⟩
      · rintro (⟨tail, -, character, split, -⟩ | ⟨-, rfl, held⟩)
        · contradiction
        · exact ⟨'/', rfl, held⟩
  | cons first others =>
      constructor
      · rintro ⟨character, split, held⟩
        cases split
        exact .inl ⟨others, rfl, first, rfl, held⟩
      · rintro (⟨tail, rfl, character, split, held⟩ | ⟨empty, -⟩)
        · cases split
          exact ⟨first, rfl, held⟩
        · contradiction

theorem matches_piece_marked_iff :
    Expression.Matches piece.expression (name ++ ['/']) rest ↔
      (∃ tail, rest = tail ++ ['/'] ∧ Expression.Matches piece.expression name tail) ∨
        name = [] ∧ rest = [] ∧ piece.takesSlash = true := by
  cases piece with
  | literal own =>
      have slash : (own == '/') = (CharSet.exactly own).contains '/' := rfl
      rw [Piece.takesSlash, slash]
      exact matches_one_marked_iff
  | question =>
      have noSlash : notSlash.contains '/' = false := rfl
      rw [Piece.takesSlash, ← noSlash]
      exact matches_one_marked_iff
  | bracket negated body => exact matches_one_marked_iff
  | star =>
      simp only [Piece.expression, Expression.matches_many_iff, Piece.takesSlash,
        Bool.false_eq_true, and_false, or_false]
      constructor
      · rintro ⟨stretch, split, held⟩
        rcases List.eq_nil_or_concat rest with rfl | ⟨tail, last, rfl⟩
        · have present : '/' ∈ stretch := by
            rw [List.append_nil] at split
            simp [← split]
          exact absurd (held _ present) (by decide)
        · rw [List.concat_eq_append, ← List.append_assoc] at split
          obtain ⟨rfl, same⟩ := List.append_inj' split rfl
          cases same
          exact ⟨tail, List.concat_eq_append, stretch, rfl, held⟩
      · rintro ⟨tail, rfl, stretch, rfl, held⟩
        exact ⟨stretch, List.append_assoc _ _ _, held⟩

/-- With a slash behind a name, pieces take from the name what they take without it, or all of it
together with the slash. -/
theorem matches_sequenceAll_marked_iff (noSlash : '/' ∉ name) :
    Expression.Matches (sequenceAll (pieces.map Piece.expression)) (name ++ ['/']) rest ↔
      (∃ tail, rest = tail ++ ['/'] ∧
        Expression.Matches (sequenceAll (pieces.map Piece.expression)) name tail) ∨
      rest = [] ∧ TakesMarked pieces name := by
  induction pieces generalizing name with
  | nil =>
      have unfolded : sequenceAll (([] : List Piece).map Piece.expression) = .empty := rfl
      have nothing : ¬TakesMarked [] name := by
        rintro ⟨⟩
      simp only [unfolded, Expression.matches_empty_iff, nothing, and_false, or_false]
      exact ⟨fun same => ⟨name, same.symm, rfl⟩, fun ⟨tail, same, sameName⟩ => sameName ▸ same.symm⟩
  | cons piece pieces inductionHypothesis =>
      have unfolded : sequenceAll ((piece :: pieces).map Piece.expression) =
          .sequence piece.expression (sequenceAll (pieces.map Piece.expression)) := rfl
      simp only [unfolded, Expression.matches_sequence_iff]
      constructor
      · rintro ⟨middle, first, others⟩
        rcases matches_piece_marked_iff.mp first with ⟨tail, rfl, taken⟩ | ⟨rfl, rfl, isSlash⟩
        · obtain ⟨stretch, rfl, takenStretch⟩ := (matches_piece_iff noSlash).mp taken
          have noSlashTail : '/' ∉ tail := fun slash => noSlash (List.mem_append_right _ slash)
          rcases (inductionHypothesis noSlashTail).mp others with
            ⟨further, rfl, takenOthers⟩ | ⟨rfl, marked⟩
          · exact .inl ⟨further, rfl, tail, taken, takenOthers⟩
          · exact .inr ⟨rfl, .further takenStretch marked⟩
        · -- The slash is taken with nothing in front of it, and nothing is behind it.
          obtain ⟨stretch, nothing, takenStretch⟩ :=
            (matches_sequenceAll_iff_stretch (by simp)).mp others
          obtain ⟨rfl, rfl⟩ := List.append_eq_nil_iff.mp nothing.symm
          exact .inr ⟨rfl, .slash isSlash (takes_empty_iff.mp takenStretch)⟩
      · rintro (⟨further, rfl, middle, first, others⟩ | ⟨rfl, marked⟩)
        · obtain ⟨stretch, rfl, -⟩ := (matches_piece_iff noSlash).mp first
          have noSlashMiddle : '/' ∉ middle := fun slash => noSlash (List.mem_append_right _ slash)
          exact ⟨middle ++ ['/'], matches_piece_marked_iff.mpr (.inl ⟨middle, rfl, first⟩),
            (inductionHypothesis noSlashMiddle).mpr (.inl ⟨further, rfl, others⟩)⟩
        · cases marked with
          | slash isSlash areStars =>
              refine ⟨[], matches_piece_marked_iff.mpr (.inr ⟨rfl, rfl, isSlash⟩), ?_⟩
              exact (matches_sequenceAll_iff (by simp)).mpr (takes_empty_iff.mpr areStars)
          | @further _ _ stretch tail taken marked =>
              have noSlashTail : '/' ∉ tail := fun slash => noSlash (List.mem_append_right _ slash)
              refine ⟨tail ++ ['/'], matches_piece_marked_iff.mpr (.inl ⟨tail, rfl, ?_⟩),
                (inductionHypothesis noSlashTail).mpr (.inr ⟨rfl, marked⟩)⟩
              exact (matches_piece_iff noSlash).mpr ⟨stretch, rfl, taken⟩

theorem exists_matches_segment_iff_stop {body : Expression} {text : List Char} :
    (∃ rest, Expression.Matches (.sequence body (.sequence segmentEnd .empty)) text rest) ↔
      ∃ stop, Expression.Matches body text stop ∧
        (stop.head? = some '/' ∨ stop = [] ∨ stop = ['\n']) := by
  constructor
  · rintro ⟨rest, found⟩
    obtain ⟨stop, taken, ends⟩ := Expression.matches_sequence_iff.mp found
    refine ⟨stop, taken, ?_⟩
    cases Expression.matches_sequence_empty_iff.mp ends with
    | left slash =>
        obtain ⟨character, rfl, held⟩ := Expression.matches_one_iff.mp slash
        obtain rfl : '/' = character := by simpa [CharSet.contains] using held
        exact .inl rfl
    | right ends =>
        cases ends with
        | atEnd => exact .inr (.inl rfl)
        | atFinalNewline => exact .inr (.inr rfl)
  · rintro ⟨stop, taken, isEnd⟩
    obtain ⟨rest, ends⟩ : ∃ rest, Expression.Matches segmentEnd stop rest := by
      rcases isEnd with slash | rfl | rfl
      · obtain ⟨rest, rfl⟩ := List.head?_eq_some_iff.mp slash
        exact ⟨rest, .left (.one rfl)⟩
      · exact ⟨[], .right .atEnd⟩
      · exact ⟨['\n'], .right .atFinalNewline⟩
    exact ⟨rest, .sequence taken (Expression.matches_sequence_empty_iff.mpr ends)⟩

theorem exists_matches_segment_file_iff (noSlash : '/' ∉ name) :
    (∃ rest, Expression.Matches (.sequence (sequenceAll (pieces.map Piece.expression))
      (.sequence segmentEnd .empty)) name rest) ↔
      Takes pieces name ∨ ∃ front, name = front ++ ['\n'] ∧ Takes pieces front := by
  simp only [exists_matches_segment_iff_stop, matches_sequenceAll_iff_stretch noSlash]
  constructor
  · rintro ⟨stop, ⟨stretch, rfl, taken⟩, slash | rfl | rfl⟩
    · exact absurd (List.mem_append_right _ (List.mem_of_head? slash)) noSlash
    · exact .inl (by rwa [List.append_nil])
    · exact .inr ⟨stretch, rfl, taken⟩
  · rintro (taken | ⟨front, rfl, taken⟩)
    · exact ⟨[], ⟨name, (List.append_nil name).symm, taken⟩, .inr (.inl rfl)⟩
    · exact ⟨['\n'], ⟨front, rfl, taken⟩, .inr (.inr rfl)⟩

theorem exists_matches_segment_marked_iff (noSlash : '/' ∉ name) :
    (∃ rest, Expression.Matches (.sequence (sequenceAll (pieces.map Piece.expression))
      (.sequence segmentEnd .empty)) (name ++ ['/']) rest) ↔
      Takes pieces name ∨ TakesMarked pieces name := by
  simp only [exists_matches_segment_iff_stop, matches_sequenceAll_marked_iff noSlash,
    matches_sequenceAll_iff_stretch noSlash]
  constructor
  · rintro ⟨stop, ⟨tail, rfl, stretch, rfl, taken⟩ | ⟨rfl, marked⟩, isEnd⟩
    · left
      cases tail with
      | nil => rwa [List.append_nil]
      | cons first others =>
          -- Nothing of the name is left where the segment ends.
          rcases isEnd with slash | empty | newline
          · obtain rfl : first = '/' := by simpa using slash
            exact absurd (List.mem_append_right _ List.mem_cons_self) noSlash
          · simp at empty
          · simp at newline
    · exact .inr marked
  · rintro (taken | marked)
    · exact ⟨['/'], .inl ⟨[], rfl, name, (List.append_nil name).symm, taken⟩, .inl rfl⟩
    · exact ⟨[], .inr ⟨rfl, marked⟩, .inr (.inl rfl)⟩

end Glob

namespace NamePattern

/-- The mark and the glob of a pattern without slashes.  Empty patterns and comments have none. -/
def globOf? (pattern : List Char) : Option (Bool × Name) :=
  match trimmed pattern with
  | [] => none
  | '#' :: _ => none
  | text => some (Line.takeMark '!' text)

def TakesAny (glob : Name) : Prop :=
  glob = globstar ∨ glob = ['*']

/-- The glob is found in the name of a file: the pieces take the name, or what is in front of a
newline at its end. -/
def FindsFile (glob name : Name) : Prop :=
  (TakesAny glob ∧ ∃ character ∈ name, character ≠ '\n') ∨
    (¬TakesAny glob ∧ ∃ pieces, Glob.scan? glob = some pieces ∧
      (Glob.Takes pieces name ∨ ∃ front, name = front ++ ['\n'] ∧ Glob.Takes pieces front))

/-- The glob is found in the name of a directory: the pieces take the name, with the slash behind it
or without. -/
def FindsDirectory (glob name : Name) : Prop :=
  ∃ pieces, Glob.scan? glob = some pieces ∧ (Glob.Takes pieces name ∨ Glob.TakesMarked pieces name)

variable {glob name : Name} {anchored : Bool} {expression : Expression}

theorem exists_scan?_of_takesAny (any : TakesAny glob) (name : Name) :
    ∃ pieces, Glob.scan? glob = some pieces ∧ Glob.Takes pieces name := by
  rcases any with rfl | rfl
  · refine ⟨[.star, .star], rfl, ?_⟩
    exact Glob.takes_of_stars (by simp) (by simp) name
  · exact ⟨[.star], rfl, Glob.takes_of_stars (by simp) (by simp) name⟩

/-- Under a name that does not end in a newline, a glob that does not let a slash in finds a
directory where it finds a file. -/
theorem findsDirectory_iff_findsFile (nonempty : name ≠ [])
    (noFinalNewline : name.getLast? ≠ some '\n')
    (blind : ∀ pieces ∈ Glob.scan? glob, ∀ piece ∈ pieces, piece.takesSlash = false) :
    FindsDirectory glob name ↔ FindsFile glob name := by
  have notMarked {pieces : List Glob.Piece} (scanned : Glob.scan? glob = some pieces) :
      ¬Glob.TakesMarked pieces name := by
    intro marked
    obtain ⟨piece, present, isSlash⟩ := marked.exists_takesSlash
    rw [blind pieces scanned piece present] at isSlash
    contradiction
  have notInFront (front : Name) : name ≠ front ++ ['\n'] := by
    rintro rfl
    simp at noFinalNewline
  by_cases any : TakesAny glob
  · obtain ⟨pieces, scanned, taken⟩ := exists_scan?_of_takesAny any name
    refine iff_of_true ⟨pieces, scanned, .inl taken⟩ (.inl ⟨any, name.getLast nonempty,
      List.getLast_mem nonempty, ?_⟩)
    simpa [List.getLast?_eq_getLast_of_ne_nil nonempty] using noFinalNewline
  · constructor
    · rintro ⟨pieces, scanned, taken | marked⟩
      · exact .inr ⟨any, pieces, scanned, .inl taken⟩
      · exact absurd marked (notMarked scanned)
    · rintro (⟨isAny, -⟩ | ⟨-, pieces, scanned, taken | ⟨front, split, -⟩⟩)
      · contradiction
      · exact ⟨pieces, scanned, .inl taken⟩
      · exact absurd split (notInFront front)

theorem exists_of_ofSingle? (nonempty : glob ≠ [])
    (compiled : ofSingle? false false glob = some (anchored, expression)) :
    (TakesAny glob ∧ anchored = false ∧ expression = .one notNewline) ∨
      (¬TakesAny glob ∧ anchored = true ∧ ∃ pieces, Glob.scan? glob = some pieces ∧
        expression = .sequence anywhere (.sequence .empty
          (.sequence (Glob.sequenceAll (pieces.map Glob.Piece.expression))
            (.sequence Glob.segmentEnd .empty)))) := by
  rw [ofSingle?_eq nonempty] at compiled
  by_cases any : TakesAny glob
  · rw [if_pos (by simpa [TakesAny] using any)] at compiled
    cases compiled
    exact .inl ⟨any, rfl, rfl⟩
  · rw [if_neg (by simpa [TakesAny] using any)] at compiled
    obtain ⟨notStars, notStar⟩ := not_or.mp any
    have file : continued? false (glob :: if false then [globstar] else []) = _ :=
      continued?_file notStars
    rw [file, Option.map_map, ofName?, if_neg notStar, fileEnd, if_neg notStar, Glob.body?,
      Option.map_map] at compiled
    obtain ⟨pieces, scanned, same⟩ := Option.map_eq_some_iff.mp compiled
    cases same
    exact .inr ⟨any, rfl, pieces, scanned, rfl⟩

theorem notNewline_contains_iff {character : Char} :
    notNewline.contains character = true ↔ character ≠ '\n' := by
  rw [ne_comm]
  simp [notNewline, CharSet.contains]

theorem finds_file_iff (negated : Bool) (nonempty : glob ≠ [])
    (compiled : ofSingle? false false glob = some (anchored, expression)) (noSlash : '/' ∉ name) :
    finds ⟨negated, anchored, expression⟩ name = true ↔ FindsFile glob name := by
  rcases exists_of_ofSingle? nonempty compiled with
    ⟨any, rfl, rfl⟩ | ⟨notAny, rfl, pieces, scanned, rfl⟩
  · simp [finds, FindsFile, any, Expression.occursIn_one_iff, notNewline_contains_iff]
  · simp [finds, FindsFile, notAny, scanned, matchesFront_anywhere_iff noSlash,
      Expression.matchesFront_eq_true_iff, Expression.matches_empty_sequence_iff,
      Glob.exists_matches_segment_file_iff noSlash]

theorem matches_anywhere_marked {rest : List Char} (noSlash : '/' ∉ name)
    (taken : Expression.Matches anywhere (name ++ ['/']) rest) :
    rest = name ++ ['/'] ∨ rest = [] := by
  rcases Expression.matches_optional_iff.mp taken with same | directories
  · exact .inl same.symm
  · obtain ⟨middle, isEnd, -, ends⟩ := Expression.matches_sequence_iff_suffix.mp directories
    obtain ⟨character, rfl, held⟩ := Expression.matches_one_iff.mp ends
    obtain rfl : '/' = character := by simpa [CharSet.contains] using held
    obtain ⟨before, split⟩ := isEnd
    rcases List.eq_nil_or_concat rest with rfl | ⟨others, last, rfl⟩
    · exact .inr rfl
    · rw [List.concat_eq_append, ← List.cons_append, ← List.append_assoc] at split
      obtain ⟨rfl, -⟩ := List.append_inj' split rfl
      exact absurd (List.mem_append_right _ List.mem_cons_self) noSlash

theorem finds_directory_iff (negated : Bool) (nonempty : glob ≠ [])
    (compiled : ofSingle? false false glob = some (anchored, expression)) (noSlash : '/' ∉ name) :
    finds ⟨negated, anchored, expression⟩ (name ++ ['/']) = true ↔ FindsDirectory glob name := by
  rcases exists_of_ofSingle? nonempty compiled with
    ⟨any, rfl, rfl⟩ | ⟨-, rfl, pieces, scanned, rfl⟩
  · obtain ⟨pieces, scanned, taken⟩ := exists_scan?_of_takesAny any name
    refine iff_of_true ?_ ⟨pieces, scanned, .inl taken⟩
    exact Expression.occursIn_one_iff.mpr ⟨'/', by simp, by decide⟩
  · have inPlace := @Glob.exists_matches_segment_marked_iff pieces name noSlash
    simp only [finds, if_true, Expression.matchesFront_eq_true_iff, FindsDirectory, scanned,
      Option.some.injEq, exists_eq_left', ← inPlace]
    constructor
    · rintro ⟨rest, found⟩
      obtain ⟨middle, before, found⟩ := Expression.matches_sequence_iff.mp found
      rw [Expression.matches_empty_sequence_iff] at found
      rcases matches_anywhere_marked noSlash before with rfl | rfl
      · exact ⟨rest, found⟩
      · -- What is found in nothing is found in every name.
        have takesNothing : Glob.Takes pieces [] := by
          rcases (Glob.exists_matches_segment_file_iff (by simp)).mp ⟨rest, found⟩ with
            taken | ⟨front, split, -⟩
          · exact taken
          · simp at split
        have areStars := Glob.takes_empty_iff.mp takesNothing
        have isSome := Glob.ne_nil_of_scan? nonempty scanned
        exact inPlace.mpr (.inl (Glob.takes_of_stars areStars isSome name))
    · rintro ⟨rest, found⟩
      exact ⟨rest, .sequence .without (Expression.matches_empty_sequence_iff.mpr found)⟩

theorem mem_of_mem_trimmed {text : List Char} {character : Char}
    (present : character ∈ trimmed text) : character ∈ text := by
  unfold trimmed at present
  split at present
  next => exact present
  next =>
    rw [Text.trimEnd, Text.dropEndWhile, List.mem_reverse] at present
    exact List.mem_reverse.mp ((List.dropWhile_sublist _).mem present)

theorem mem_of_globOf? {text : List Char} {negated : Bool} {character : Char}
    (isGlob : globOf? text = some (negated, glob)) (present : character ∈ glob) :
    character ∈ text := by
  apply mem_of_mem_trimmed
  unfold globOf? at isGlob
  split at isGlob
  next => contradiction
  next => contradiction
  next =>
    rw [(Line.takeMark_eq_iff.mp (Option.some.inj isGlob)).1]
    exact List.mem_append_right _ present

theorem compile_of_globOf?_eq_none {text : List Char} (noGlob : globOf? text = none) :
    compile text = .ok none := by
  unfold globOf? at noGlob
  unfold compile
  split at noGlob <;> simp_all

theorem exists_of_compile_globOf? {text : List Char} {negated : Bool}
    {pattern? : Option NamePattern} (noSlash : '/' ∉ text)
    (isGlob : globOf? text = some (negated, glob)) (accepted : compile text = .ok pattern?) :
    ∃ anchored expression, glob ≠ [] ∧ ofSingle? false false glob = some (anchored, expression) ∧
      pattern? = some ⟨negated, anchored, expression⟩ := by
  have noSlashGlob : '/' ∉ glob := fun present => noSlash (mem_of_globOf? isGlob present)
  have single : Path.components glob = [glob] := Text.pieces_of_not_mem noSlashGlob
  have isDirectory : ([glob].getLast? == some [] && glob != ['/']) = (glob == []) := by
    cases glob <;> simp
  have nothing : ofComponents? ([] == ([] : Name)) (mergeGlobstars (openEnded (placed [[]]))) =
      none := rfl
  unfold globOf? at isGlob
  unfold compile at accepted
  split at isGlob
  next => contradiction
  next => contradiction
  next =>
    simp only [Option.some.inj isGlob, single, isDirectory] at accepted
    have nonempty : glob ≠ [] := by
      rintro rfl
      rw [nothing] at accepted
      contradiction
    rw [beq_eq_false_iff_ne.mpr nonempty] at accepted
    split at accepted
    next => contradiction
    next anchored expression compiled =>
      split at accepted
      next => contradiction
      next => exact ⟨anchored, expression, nonempty, compiled, (Except.ok.inj accepted).symm⟩

end NamePattern

namespace NameFilter

def LeavesOut (globs : List (Bool × Name)) (found : Name → Prop) : Prop :=
  ∃ before glob after, globs = before ++ (false, glob) :: after ∧ found glob ∧
    ∀ later ∈ after, ¬found later.2

theorem leavesOut_iff (globs : List (Bool × Name)) (found : Name → Prop) [DecidablePred found] :
    LeavesOut globs found ↔
      (globs.reverse.find? fun entry => decide (found entry.2)).map (·.1) = some false := by
  rw [Option.map_eq_some_iff]
  constructor
  · rintro ⟨before, glob, after, rfl, isFound, notLater⟩
    refine ⟨(false, glob), ?_, rfl⟩
    rw [List.find?_eq_some_iff_append]
    exact ⟨by simpa using isFound, after.reverse, before.reverse, by simp, by simpa using notLater⟩
  · rintro ⟨⟨mark, glob⟩, isLast, rfl⟩
    obtain ⟨isFound, after, before, split, notLater⟩ := List.find?_eq_some_iff_append.mp isLast
    have inOrder : globs = before.reverse ++ (false, glob) :: after.reverse := by
      simpa using congrArg List.reverse split
    exact ⟨before.reverse, glob, after.reverse, inOrder, by simpa using isFound,
      by simpa using notLater⟩

theorem leavesOut_congr {globs : List (Bool × Name)} {found other : Name → Prop}
    (same : ∀ entry ∈ globs, (found entry.2 ↔ other entry.2)) :
    LeavesOut globs found ↔ LeavesOut globs other := by
  constructor
  · rintro ⟨before, glob, after, rfl, isFound, notLater⟩
    refine ⟨before, glob, after, rfl, (same (false, glob) (by simp)).mp isFound, ?_⟩
    intro later present
    rw [← same later (by simp [present])]
    exact notLater later present
  · rintro ⟨before, glob, after, rfl, isFound, notLater⟩
    refine ⟨before, glob, after, rfl, (same (false, glob) (by simp)).mpr isFound, ?_⟩
    intro later present
    rw [same later (by simp [present])]
    exact notLater later present

variable {patterns : List (List Char)} {filter : NameFilter} {name : Name} {path : Path}

theorem excludes_iff_leavesOut (built : ofPatterns patterns = .ok filter)
    (noSlash : ∀ pattern ∈ patterns, '/' ∉ pattern) {isDir : Bool} {found : Name → Prop}
    (foundAs : ∀ negated glob anchored expression, glob ≠ [] →
      NamePattern.ofSingle? false false glob = some (anchored, expression) →
      (NamePattern.finds ⟨negated, anchored, expression⟩ (subject path isDir) = true ↔
        found glob)) :
    filter.excludes path isDir = true ↔
      LeavesOut (patterns.filterMap NamePattern.globOf?) found := by
  classical
  unfold ofPatterns at built
  cases compiled : patterns.mapM NamePattern.compile with
  | error error =>
      rw [compiled] at built
      contradiction
  | ok results =>
      rw [compiled] at built
      cases built
      have saidAlike :
          (results.map fun pattern? =>
            ((id pattern?).filter (·.finds (subject path isDir))).map (·.negated)) =
            patterns.map fun text =>
              ((NamePattern.globOf? text).filter fun entry => decide (found entry.2)).map
                (·.1) := by
        apply map_of_mapM compiled
        intro text inPatterns pattern? accepted
        cases isGlob : NamePattern.globOf? text with
        | none =>
            rw [NamePattern.compile_of_globOf?_eq_none isGlob] at accepted
            cases accepted
            rfl
        | some entry =>
            obtain ⟨negated, glob⟩ := entry
            obtain ⟨anchored, expression, nonempty, compiled, rfl⟩ :=
              NamePattern.exists_of_compile_globOf? (noSlash text inPatterns) isGlob accepted
            have alike := foundAs negated glob anchored expression nonempty compiled
            by_cases isFound : found glob
            · simp [Option.filter, alike.mpr isFound, isFound]
            · simp [Option.filter, Bool.eq_false_iff.mpr (isFound ∘ alike.mp), isFound]
      rw [excludes_eq, beq_iff_eq, leavesOut_iff, map_find?_reverse_filterMap,
        map_find?_reverse_filterMap, saidAlike]

/-- Under patterns without slashes, the last glob that is found decides.  A file and a directory of
one name are told apart only by globs that let the slash in, or by a newline that ends the name. -/
theorem excludes_of_plain_patterns (built : ofPatterns patterns = .ok filter)
    (noSlash : ∀ pattern ∈ patterns, '/' ∉ pattern) (text : List Char)
    (isLast : (Path.ofText text).lastName = name) (nonempty : name ≠ []) :
    (filter.excludes (Path.ofText text) true = true ↔
      LeavesOut (patterns.filterMap NamePattern.globOf?) (NamePattern.FindsDirectory · name)) ∧
    (filter.excludes (Path.ofText text) false = true ↔
      LeavesOut (patterns.filterMap NamePattern.globOf?) (NamePattern.FindsFile · name)) ∧
    (name.getLast? ≠ some '\n' →
      (∀ entry ∈ patterns.filterMap NamePattern.globOf?,
        ∀ pieces ∈ Glob.scan? entry.2, ∀ piece ∈ pieces, piece.takesSlash = false) →
      filter.excludes (Path.ofText text) true = filter.excludes (Path.ofText text) false) := by
  have proper : (Path.ofText text).lastName.Proper := by
    unfold Path.lastName at isLast ⊢
    cases last : (Path.ofText text).names.getLast? with
    | none =>
        rw [last] at isLast
        exact absurd isLast.symm nonempty
    | some found => exact Path.proper_of_mem_ofText (List.mem_of_getLast? last)
  have asDirectory : filter.excludes (Path.ofText text) true = true ↔
      LeavesOut (patterns.filterMap NamePattern.globOf?) (NamePattern.FindsDirectory · name) := by
    refine excludes_iff_leavesOut built noSlash fun negated glob _ _ some compiled => ?_
    rw [subject_of_proper proper, isLast]
    exact NamePattern.finds_directory_iff negated some compiled (isLast ▸ proper.noSlash)
  have asFile : filter.excludes (Path.ofText text) false = true ↔
      LeavesOut (patterns.filterMap NamePattern.globOf?) (NamePattern.FindsFile · name) := by
    refine excludes_iff_leavesOut built noSlash fun negated glob _ _ some compiled => ?_
    rw [subject_of_proper proper, isLast]
    simpa using NamePattern.finds_file_iff negated some compiled (isLast ▸ proper.noSlash)
  refine ⟨asDirectory, asFile, fun noFinalNewline blind => ?_⟩
  rw [Bool.eq_iff_iff, asDirectory, asFile]
  apply leavesOut_congr
  intro entry present
  exact NamePattern.findsDirectory_iff_findsFile nonempty noFinalNewline (blind entry present)

/-- A comment, stars, a class, and a name that is kept again.  The file and the directory `bin.o`
are both left out, and `keep.o` is not. -/
theorem excludes_plain_patterns :
    let patterns := ["# objects".toList, "*.[a-o]".toList, "!keep*".toList]
    ∃ filter, ofPatterns patterns = .ok filter ∧
      filter.excludes (Path.ofText "a/bin.o".toList) true =
        filter.excludes (Path.ofText "a/bin.o".toList) false ∧
      filter.excludes (Path.ofText "a/bin.o".toList) false = true ∧
      filter.excludes (Path.ofText "keep.o".toList) true = false := by
  intro patterns
  obtain ⟨filter, built⟩ : ∃ filter, ofPatterns patterns = .ok filter := ⟨_, rfl⟩
  obtain ⟨-, -, alike⟩ := excludes_of_plain_patterns built (by decide) "a/bin.o".toList rfl
    (by decide)
  refine ⟨filter, built, alike (by decide) (by decide), ?_, ?_⟩
  · cases built
    decide +kernel
  · cases built
    decide +kernel

/-- A set that lets the slash in leaves a directory out whose name it does not take, and a newline
at its end lets a file's name be taken without it. -/
theorem excludes_told_apart :
    (∃ filter, ofPatterns ["a[!b]".toList] = .ok filter ∧
      filter.excludes (Path.ofText "a".toList) true = true ∧
      filter.excludes (Path.ofText "a".toList) false = false) ∧
    ∃ filter, ofPatterns ["a".toList] = .ok filter ∧
      filter.excludes (Path.ofText "a\n".toList) true = false ∧
      filter.excludes (Path.ofText "a\n".toList) false = true :=
  ⟨⟨_, rfl, by decide +kernel, by decide +kernel⟩, ⟨_, rfl, by decide +kernel, by decide +kernel⟩⟩

end NameFilter

end IgnoreRules
