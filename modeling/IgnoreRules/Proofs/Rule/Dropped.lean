import IgnoreRules.Proofs.Expression.Stretch
import IgnoreRules.Proofs.Rule.Rebuilt
import IgnoreRules.Proofs.Rule.Slash
import IgnoreRules.Proofs.Text.Results
import Mathlib.Data.List.DropRight

/-!
Which lines make no rule.  Nothing is left of empty lines, of comments and of lines of slashes.
Every part of any other line has a glob that can be read and compiled, unless a set in it holds a
range that runs backwards.
-/

namespace IgnoreRules

namespace Line

/-- Nothing but slashes, with or without a backslash before each. -/
inductive IsSlashes : List Char → Prop where
  | nil : IsSlashes []
  | slash {rest : List Char} : IsSlashes rest → IsSlashes ('/' :: rest)
  | escaped {rest : List Char} : IsSlashes rest → IsSlashes ('\\' :: '/' :: rest)

variable {front back rest text reversed : List Char}

theorem IsSlashes.append (inFront : IsSlashes front) (behind : IsSlashes back) :
    IsSlashes (front ++ back) := by
  induction inFront with
  | nil => exact behind
  | slash _ inductionHypothesis => exact .slash inductionHypothesis
  | escaped _ inductionHypothesis => exact .escaped inductionHypothesis

theorem isSlashes_slash_cons_iff : IsSlashes ('/' :: rest) ↔ IsSlashes rest := by
  constructor
  · intro slashes
    cases slashes with
    | slash others => exact others
  · exact .slash

theorem isSlashes_of_dropSlashes_eq_nil (gone : dropSlashes reversed = []) :
    IsSlashes reversed.reverse := by
  fun_induction dropSlashes reversed with
  | case1 before escaped inductionHypothesis =>
      simpa using (inductionHypothesis gone).append (.escaped .nil)
  | case2 before closed => contradiction
  | case3 before notEscaped inductionHypothesis =>
      simpa using (inductionHypothesis gone).append (.slash .nil)
  | case4 reversed notEscaped noSlash =>
      subst gone
      exact .nil

theorem trimSlashes_eq_nil_iff : trimSlashes text = [] ↔ IsSlashes text := by
  rw [trimSlashes, List.reverse_eq_nil_iff]
  constructor
  · intro gone
    simpa using isSlashes_of_dropSlashes_eq_nil gone
  · intro slashes
    induction slashes with
    | nil => rfl
    | slash _ inductionHypothesis =>
        rw [List.reverse_cons, dropSlashes_append_slash, if_pos inductionHypothesis]
        rfl
    | escaped _ inductionHypothesis =>
        rw [List.reverse_cons, List.reverse_cons, List.append_assoc, List.singleton_append,
          dropSlashes_append_slash, if_pos inductionHypothesis]
        rfl

def IsMarkedSlashes (text : List Char) : Prop :=
  ∃ rest, (text = '!' :: rest ∨ text = rest) ∧ IsSlashes rest

theorem isMarkedSlashes_of_takeMark {taken : Bool} (negation : takeMark '!' text = (taken, rest)) :
    IsMarkedSlashes text ↔ IsSlashes rest := by
  obtain ⟨rfl, notTaken⟩ := takeMark_eq_iff.mp negation
  cases taken with
  | true =>
      constructor
      · rintro ⟨others, same | rfl, slashes⟩
        · obtain rfl : rest = others := by simpa using same
          exact slashes
        · nomatch slashes
      · exact fun slashes => ⟨rest, .inl rfl, slashes⟩
  | false =>
      constructor
      · rintro ⟨others, same | rfl, slashes⟩
        · rw [same] at notTaken
          exact absurd rfl (notTaken rfl)
        · exact slashes
      · exact fun slashes => ⟨rest, .inr rfl, slashes⟩

theorem isSlashes_of_takeMark {taken : Bool} (root : takeMark '/' text = (taken, rest)) :
    IsSlashes text ↔ IsSlashes rest := by
  obtain ⟨rfl, -⟩ := takeMark_eq_iff.mp root
  cases taken with
  | true => exact isSlashes_slash_cons_iff
  | false => rfl

theorem ofTrimmed?_eq_none_iff :
    ofTrimmed? text = none ↔ (text = [] ∨ text.head? = some '#') ∨ IsMarkedSlashes text := by
  by_cases skipped : text = [] ∨ text.head? = some '#'
  · refine iff_of_true ?_ (.inl skipped)
    rcases skipped with rfl | comment
    · rfl
    · obtain ⟨rest, rfl⟩ := List.head?_eq_some_iff.mp comment
      rfl
  · obtain ⟨nonempty, notComment⟩ := not_or.mp skipped
    rcases negation : takeMark '!' text with ⟨negated, afterNegation⟩
    rcases root : takeMark '/' afterNegation with ⟨rooted, rest⟩
    rw [ofTrimmed?_of_takeMark nonempty notComment negation root, or_iff_right skipped,
      isMarkedSlashes_of_takeMark negation, isSlashes_of_takeMark root, ← trimSlashes_eq_nil_iff]
    simp

/-! ### What trimming leaves -/

variable {line body kept : List Char}

/-- The body of a line stands before the newlines at its end, and before one carriage return if that
comes before these. -/
def HasBody (line body : List Char) : Prop :=
  ∃ newlines, (∀ character ∈ newlines, character = '\n') ∧
    (line = body ++ '\r' :: newlines ∨
      line = body ++ newlines ∧ body.getLast? ≠ some '\n' ∧ body.getLast? ≠ some '\r')

theorem dropEndWhile_newlines {newlines : List Char}
    (each : ∀ character ∈ newlines, character = '\n') :
    Text.dropEndWhile (· == '\n') newlines = [] := by
  rw [Text.dropEndWhile, List.reverse_eq_nil_iff, List.dropWhile_eq_nil_iff]
  simpa using each

theorem exists_newlines (line : List Char) :
    ∃ newlines, (∀ character ∈ newlines, character = '\n') ∧
      line = Text.dropEndWhile (· == '\n') line ++ newlines ∧
      (Text.dropEndWhile (· == '\n') line).getLast? ≠ some '\n' := by
  refine ⟨(line.reverse.takeWhile (· == '\n')).reverse, ?_, ?_, ?_⟩
  · intro character present
    simpa using List.mem_takeWhile_imp (List.mem_reverse.mp present)
  · rw [Text.dropEndWhile, ← List.reverse_append, List.takeWhile_append_dropWhile,
      List.reverse_reverse]
  · intro isNewline
    rw [Text.dropEndWhile, List.getLast?_reverse] at isNewline
    have stopped := List.head?_dropWhile_not (· == '\n') line.reverse
    rw [isNewline] at stopped
    contradiction

theorem withoutTerminator_eq_iff : withoutTerminator line = body ↔ HasBody line body := by
  constructor
  · rintro rfl
    obtain ⟨newlines, each, split, notNewline⟩ := exists_newlines line
    refine ⟨newlines, each, ?_⟩
    unfold withoutTerminator
    dsimp only
    split_ifs with isReturn
    · left
      obtain ⟨front, ends⟩ := List.getLast?_eq_some_iff.mp isReturn
      rw [ends, List.dropLast_concat, ← List.singleton_append, ← List.append_assoc, ← ends]
      exact split
    · exact .inr ⟨split, notNewline, isReturn⟩
  · rintro ⟨newlines, each, rfl | ⟨rfl, notNewline, notReturn⟩⟩
    · rw [withoutTerminator, Text.dropEndWhile_append_cons (by decide), dropEndWhile_newlines each]
      simp
    · rcases List.eq_nil_or_concat body with rfl | ⟨front, last, rfl⟩
      · rw [withoutTerminator, List.nil_append, dropEndWhile_newlines each]
        rfl
      · rw [List.concat_eq_append] at notNewline notReturn ⊢
        rw [withoutTerminator, List.append_assoc, List.singleton_append,
          Text.dropEndWhile_append_cons (by simpa using notNewline), dropEndWhile_newlines each]
        exact if_neg notReturn

/-- A space or a tab stands at a position, behind an even run of backslashes. -/
def IsBareBlankAt (text : List Char) (position : Nat) : Prop :=
  ∃ blank, text[position]? = some blank ∧ isTrimmed blank = true ∧
    runBefore text position % 2 = 0

theorem isBareBlankAt_append_iff {front ending : List Char} {position : Nat}
    (inFront : position < front.length) :
    IsBareBlankAt (front ++ ending) position ↔ IsBareBlankAt front position := by
  rw [IsBareBlankAt, IsBareBlankAt, runBefore, runBefore, List.getElem?_append_left inFront,
    List.take_append_of_le_length (Nat.le_of_lt inFront)]

theorem isBareBlankAt_concat_iff (front : List Char) (character : Char) :
    IsBareBlankAt (front ++ [character]) front.length ↔
      (isTrimmed character && !escapes front.reverse) = true := by
  have parity : runBefore (front ++ [character]) front.length % 2 = 0 ↔
      escapes front.reverse = false := by
    have odd := escapes_eq_true_iff front.reverse
    rw [runBefore, List.take_left, ← Bool.not_eq_true, odd]
    omega
  simp [IsBareBlankAt, parity]

/-- A text up to the longest ending of bare blanks. -/
def TrimsTo (text kept : List Char) : Prop :=
  kept <+: text ∧
    (∀ position, kept.length ≤ position → position < text.length → IsBareBlankAt text position) ∧
    ∀ position, position + 1 = kept.length → ¬IsBareBlankAt text position

theorem trimsTo_trimBlanks (text : List Char) : TrimsTo text (trimBlanks text) := by
  induction text using List.reverseRecOn with
  | nil => exact ⟨List.prefix_refl _, by simp, by simp [trimBlanks, dropBlanks]⟩
  | append_singleton front character inductionHypothesis =>
      obtain ⟨inFront, bare, stops⟩ := inductionHypothesis
      have last := isBareBlankAt_concat_iff front character
      rw [trimBlanks_concat]
      split_ifs with isBare
      · refine ⟨inFront.trans (List.prefix_append _ _), fun position behind inside => ?_,
          fun position isLast => ?_⟩
        · rw [List.length_append, List.length_singleton] at inside
          by_cases atEnd : position = front.length
          · rw [atEnd]
            exact last.mpr isBare
          · have inside : position < front.length := by omega
            exact (isBareBlankAt_append_iff inside).mpr (bare position behind inside)
        · have inside : position < front.length := by
            have := inFront.length_le
            omega
          rw [isBareBlankAt_append_iff inside]
          exact stops position isLast
      · refine ⟨List.prefix_refl _, fun position behind inside => by omega, ?_⟩
        intro position isLast
        obtain rfl : position = front.length := by simpa using isLast
        exact mt last.mp isBare

theorem TrimsTo.length_le {first second : List Char} (trims : TrimsTo text first)
    (trimsToo : TrimsTo text second) : first.length ≤ second.length := by
  obtain ⟨inFront, -, stops⟩ := trims
  obtain ⟨-, bare, -⟩ := trimsToo
  by_contra longer
  have inside := inFront.length_le
  exact stops (first.length - 1) (by omega) (bare _ (by omega) (by omega))

theorem trimBlanks_eq_iff : trimBlanks text = kept ↔ TrimsTo text kept := by
  constructor
  · rintro rfl
    exact trimsTo_trimBlanks text
  · intro trims
    have own := trimsTo_trimBlanks text
    rw [List.prefix_iff_eq_take.mp own.1, List.prefix_iff_eq_take.mp trims.1,
      Nat.le_antisymm (own.length_le trims) (trims.length_le own)]

/-- What is left of a line to be read is what stands before its terminator, up to the spaces and
tabs at the end that are not escaped. -/
theorem trimmed_eq_iff : trimmed line = kept ↔ ∃ body, HasBody line body ∧ TrimsTo body kept := by
  simp only [trimmed, trimBlanks_eq_iff, ← withoutTerminator_eq_iff, exists_eq_left']

end Line

namespace Glob

/-- A set of the glob, as it is scanned, holds a range from a higher code point to a lower one. -/
def HasBackwardRange (glob : List Char) : Prop :=
  ∃ pieces negated body low high, scan? glob = some pieces ∧ .bracket negated body ∈ pieces ∧
    .range low high ∈ Member.readAll body ∧ high < low

variable {glob : List Char} {piece : Piece} {pieces : List Piece}

theorem Piece.isForward_expression_iff :
    piece.expression.IsForward ↔
      ∀ negated body, piece = .bracket negated body →
        ∀ member ∈ Member.readAll body, member.isBackward = false := by
  cases piece with
  | bracket negated body =>
      simp only [Expression.IsForward, Piece.expression, Expression.backwardRange?,
        CharSet.backwardRange?, Member.backwardRange?_eq_none_iff, forall_const,
        Piece.bracket.injEq]
      constructor
      · rintro forward _ _ ⟨rfl, rfl⟩
        exact forward
      · exact fun forward => forward negated body ⟨rfl, rfl⟩
  | literal => exact iff_of_true (fun _ => rfl) (by simp)
  | star => exact iff_of_true (fun _ => rfl) (by simp)
  | question => exact iff_of_true (fun _ => rfl) (by simp)

theorem isForward_sequenceAll_iff {expressions : List Expression} :
    (sequenceAll expressions).IsForward ↔ ∀ expression ∈ expressions, expression.IsForward := by
  induction expressions with
  | nil => exact iff_of_true (fun _ => rfl) (by simp)
  | cons expression expressions inductionHypothesis =>
      have unfolded : sequenceAll (expression :: expressions) =
          .sequence expression (sequenceAll expressions) := rfl
      rw [unfolded, Expression.isForward_sequence_iff, inductionHypothesis, List.forall_mem_cons]

theorem not_hasBackwardRange_iff (scanned : scan? glob = some pieces) :
    ¬HasBackwardRange glob ↔ ∀ piece ∈ pieces, piece.expression.IsForward := by
  simp only [Piece.isForward_expression_iff]
  constructor
  · rintro none piece present negated body rfl (_ | ⟨low, high⟩) inBody
    · rfl
    · rw [Member.isBackward, decide_eq_false_iff_not]
      exact fun backward =>
        none ⟨pieces, negated, body, low, high, scanned, present, inBody, backward⟩
  · rintro forward ⟨others, negated, body, low, high, scannedOthers, present, inBody, backward⟩
    obtain rfl : pieces = others := Option.some.inj (scanned.symm.trans scannedOthers)
    have notBackward := forward _ present negated body rfl _ inBody
    rw [Member.isBackward, decide_eq_false_iff_not] at notBackward
    exact notBackward backward

/-- A glob that can be read has an expression, which holds a backward range where the glob does. -/
theorem exists_segment?_of_scan? (scanned : scan? glob = some pieces) :
    ∃ expression, segment? glob = some expression ∧
      (expression.IsForward ↔ ¬HasBackwardRange glob) := by
  rw [not_hasBackwardRange_iff scanned]
  by_cases star : glob = ['*']
  · subst star
    obtain rfl : [.star] = pieces := Option.some.inj scanned
    refine ⟨_, if_pos rfl, iff_of_true (fun _ => rfl) ?_⟩
    rw [List.forall_mem_singleton]
    exact fun _ => rfl
  · refine ⟨.sequence (sequenceAll (pieces.map Piece.expression)) segmentEnd, ?_, ?_⟩
    · rw [segment?, if_neg star, body?, scanned]
      rfl
    · have forwardEnd : segmentEnd.IsForward := fun _ => rfl
      rw [Expression.isForward_sequence_iff, and_iff_left forwardEnd, isForward_sequenceAll_iff,
        List.forall_mem_map]

end Glob

namespace Segment

variable {glob : List Char} {part pattern : List Mark}

theorem ofGlob_cases (scanned : ∃ pieces, Glob.scan? glob = some pieces) :
    ¬Glob.HasBackwardRange glob ∧ (∃ segment, ofGlob glob = .ok segment) ∨
      Glob.HasBackwardRange glob ∧ ∃ range, ofGlob glob = .error (.backward range) := by
  obtain ⟨pieces, scanned⟩ := scanned
  obtain ⟨expression, written, forward⟩ := Glob.exists_segment?_of_scan? scanned
  rw [ofGlob, written]
  dsimp only
  split
  next range backward =>
    refine .inr ⟨?_, range, rfl⟩
    rw [← not_not (a := Glob.HasBackwardRange glob), ← forward]
    intro isForward
    rw [isForward 1] at backward
    contradiction
  next isForward =>
    exact .inl ⟨forward.mp (Expression.isForward_of_eq_none isForward), _, rfl⟩

theorem ofPart_cases (faithful : Mark.AreFaithful part) :
    ¬Glob.HasBackwardRange (Segment.glob part) ∧ (∃ segment, ofPart part = .ok segment) ∨
      Glob.HasBackwardRange (Segment.glob part) ∧
        ∃ range, ofPart part = .error (.backward range) := by
  by_cases stars : isGlobstar part = true
  · rw [ofPart, if_pos stars]
    obtain rfl : part = [⟨'*', false⟩, ⟨'*', false⟩] := by simpa [isGlobstar] using stars
    refine .inl ⟨?_, _, rfl⟩
    have scanned : Glob.scan? (Segment.glob [⟨'*', false⟩, ⟨'*', false⟩]) =
        some [.star, .star] := rfl
    rw [Glob.not_hasBackwardRange_iff scanned]
    simp [Glob.Piece.isForward_expression_iff]
  · rw [ofPart, if_neg stars]
    exact ofGlob_cases (exists_scan?_glob faithful)

theorem trimEnd_glob (part : List Mark) : Text.trimEnd (Segment.glob part) = Segment.glob part := by
  refine Text.dropEndWhile_eq_self ?_
  induction part with
  | nil => simp [Segment.glob]
  | cons mark rest inductionHypothesis =>
      intro character isLast
      by_cases more : rest = []
      · subst more
        by_cases blank : Text.isBlank mark.character = true
        · obtain rfl : ']' = character := by simpa [glob_blank blank] using isLast
          rfl
        · rw [Bool.not_eq_true] at blank
          have written : (Segment.glob [mark]).getLast? = some mark.character := by
            rw [glob_cons (.inr blank), Mark.written]
            split <;> rfl
          obtain rfl : mark.character = character := Option.some.inj (written.symm.trans isLast)
          exact blank
      · rw [glob_cons (.inl more), List.getLast?_append_of_ne_nil _ (glob_ne_nil more)] at isLast
        exact inductionHypothesis character isLast

theorem parts_ne_nil {mark : Mark} (present : mark ∈ pattern) (notSlash : mark.character ≠ '/') :
    parts pattern ≠ [] := by
  have inPiece : ∃ piece ∈ Text.pieces (·.character == '/') pattern, mark ∈ piece :=
    Text.exists_mem_pieces present (by simpa using notSlash)
  obtain ⟨part, isPiece, inPart⟩ := inPiece
  have isPart : part ∈ parts pattern := by
    refine List.mem_filter.mpr ⟨isPiece, ?_⟩
    simpa using List.ne_nil_of_mem inPart
  exact List.ne_nil_of_mem isPart

end Segment

namespace Line

variable {line : List Char} {read : Line}

def HasBackwardRange (line : Line) : Prop :=
  ∃ part ∈ Segment.parts line.pattern, Glob.HasBackwardRange (Segment.glob part)

theorem parts_ne_nil_of_read? (isRead : read? line = some read) :
    Segment.parts read.pattern ≠ [] := by
  obtain ⟨rest, -, -, -, -, kept, -, pattern⟩ := ofTrimmed?_eq_some_iff.mp isRead
  have noSlash := getLast?_trimSlashes rest
  obtain ⟨last, isLast⟩ := Option.ne_none_iff_exists'.mp
    (mt List.getLast?_eq_none_iff.mp kept)
  rw [isLast, ne_eq, Option.some.injEq] at noSlash
  rw [← Mark.getLast?_readAll] at isLast
  obtain ⟨mark, isLastMark, rfl⟩ := Option.map_eq_some_iff.mp isLast
  rw [pattern]
  exact Segment.parts_ne_nil (List.mem_of_getLast? isLastMark) noSlash

end Line

namespace Rule

variable {line : List Char} {read : Line}

theorem compile_cases (isRead : Line.read? line = some read) :
    ¬read.HasBackwardRange ∧ (∃ rule, compile line = .ok (some rule)) ∨
      read.HasBackwardRange ∧ ∃ range, compile line = .error (.backward range) := by
  have onParts {part : List Mark} (isPart : part ∈ Segment.parts read.pattern) :=
    Segment.ofPart_cases (Line.areFaithful_of_mem_parts isRead isPart)
  rw [compile, isRead]
  dsimp only
  rw [Segment.ofPattern]
  cases each : (Segment.parts read.pattern).mapM Segment.ofPart with
  | error error =>
      obtain ⟨part, isPart, failed⟩ := exists_of_mapM_eq_error each
      rcases onParts isPart with ⟨-, segment, made⟩ | ⟨backward, range, failedAgain⟩
      · rw [failed] at made
        contradiction
      · obtain rfl : error = .backward range :=
          Except.error.inj (failed.symm.trans failedAgain)
        exact .inr ⟨⟨part, isPart, backward⟩, range, rfl⟩
  | ok segments =>
      refine .inl ⟨?_, ?_⟩
      · rintro ⟨part, isPart, backward⟩
        rcases onParts isPart with ⟨forward, -⟩ | ⟨-, range, failed⟩
        · exact forward backward
        · obtain ⟨segment, made⟩ := exists_of_mapM_eq_ok each isPart
          rw [failed] at made
          contradiction
      · have nonempty : segments ≠ [] := by
          rintro rfl
          exact Line.parts_ne_nil_of_read? isRead
            (List.forall₂_nil_right_iff.mp (mapM_eq_ok_iff.mp each))
        dsimp only [Except.map]
        rw [if_neg (Segment.mergeGlobstars_ne_nil nonempty)]
        exact ⟨_, rfl⟩

theorem exists_warning_iff :
    (∃ record ∈ compileRecords line, record.level = .warning) ↔
      ∃ error, compile line = .error error := by
  unfold compileRecords
  split
  next compiled => simp [compiled]
  next compiled => simp [compiled, Level.trace, Level.warning]
  next error compiled => simp [compiled]

/-- A line makes no rule exactly when it is empty or a comment once it is trimmed, which
`Line.trimmed_eq_iff` describes, or slashes alone, or a set in the glob of one of its parts holds a
range that runs backwards.  Only the last is warned about, and nothing else goes wrong: no part has
an empty glob, or one that has no expression. -/
theorem dropped_iff (line : List Char) :
    (ofLine? line = none ↔
      (Line.trimmed line = [] ∨ (Line.trimmed line).head? = some '#') ∨
        Line.IsMarkedSlashes (Line.trimmed line) ∨
        ∃ read, Line.read? line = some read ∧ read.HasBackwardRange) ∧
    ((∃ record ∈ compileRecords line, record.level = .warning) ↔
      ∃ read, Line.read? line = some read ∧ read.HasBackwardRange) ∧
    (∀ error, compile line = .error error → ∃ range, error = .backward range) ∧
    (∀ read, Line.read? line = some read →
      ∀ part ∈ Segment.parts read.pattern,
        Segment.glob part ≠ [] ∧ Text.trimEnd (Segment.glob part) = Segment.glob part ∧
          ∃ expression, Glob.segment? (Segment.glob part) = some expression) := by
  have onParts (read : Line) (isRead : Line.read? line = some read) :
      ∀ part ∈ Segment.parts read.pattern,
        Segment.glob part ≠ [] ∧ Text.trimEnd (Segment.glob part) = Segment.glob part ∧
          ∃ expression, Glob.segment? (Segment.glob part) = some expression := by
    intro part isPart
    refine ⟨Segment.glob_ne_nil (Segment.ne_nil_of_mem_parts isPart),
      Segment.trimEnd_glob part, ?_⟩
    obtain ⟨pieces, scanned⟩ :=
      Segment.exists_scan?_glob (Line.areFaithful_of_mem_parts isRead isPart)
    obtain ⟨expression, written, -⟩ := Glob.exists_segment?_of_scan? scanned
    exact ⟨expression, written⟩
  rw [exists_warning_iff, ← or_assoc, ← Line.ofTrimmed?_eq_none_iff]
  cases isRead : Line.read? line with
  | none =>
      have compiled : compile line = .ok none := by rw [compile, isRead]
      have trimmedNone : Line.ofTrimmed? (Line.trimmed line) = none := isRead
      simp [ofLine?, compiled, trimmedNone]
  | some read =>
      have trimmedSome : Line.ofTrimmed? (Line.trimmed line) ≠ none := by
        rw [show Line.ofTrimmed? (Line.trimmed line) = some read from isRead]
        exact Option.some_ne_none read
      rw [isRead] at onParts
      rcases compile_cases isRead with ⟨forward, rule, compiled⟩ | ⟨backward, range, compiled⟩
      · refine ⟨?_, ?_, ?_, onParts⟩
        · simp [ofLine?, compiled, trimmedSome, forward]
        · simp [compiled, forward]
        · simp [compiled]
      · refine ⟨?_, ?_, ?_, onParts⟩
        · simp [ofLine?, compiled, backward]
        · simp [compiled, backward]
        · rintro error failed
          rw [compiled] at failed
          exact ⟨range, (Except.error.inj failed).symm⟩

/-- In a set a backslash escapes nothing, so it can be the lower end of a range. -/
theorem dropped_range_to_backslash :
    let line := "x/[z-\\a]*\u00a0".toList
    let part : List Mark := [⟨'[', false⟩, ⟨'z', false⟩, ⟨'-', false⟩, ⟨'a', true⟩, ⟨']', false⟩,
      ⟨'*', false⟩, ⟨'\u00a0', false⟩]
    ∃ read, Line.read? line = some read ∧ part ∈ Segment.parts read.pattern ∧
      read.HasBackwardRange ∧ ofLine? line = none ∧
      (∃ record ∈ compileRecords line, record.level = .warning) ∧
      (∃ error, compile line = .error error ∧ ∃ range, error = .backward range) ∧
      Segment.glob part ≠ [] ∧ Text.trimEnd (Segment.glob part) = Segment.glob part ∧
      ∃ expression, Glob.segment? (Segment.glob part) = some expression := by
  intro line part
  have isRead : Line.read? line = some ((Line.read? line).get (by decide +kernel)) :=
    (Option.some_get _).symm
  have isPart : part ∈ Segment.parts ((Line.read? line).get (by decide +kernel)).pattern := by
    decide +kernel
  have backward : ((Line.read? line).get (by decide +kernel)).HasBackwardRange :=
    ⟨part, isPart, [.bracket false "z-\\a".toList, .star, .bracket false ['\u00a0']], false,
      "z-\\a".toList, 'z', '\\', by decide +kernel, by decide, by decide, by decide⟩
  obtain ⟨dropped, warned, onlyBackward, onParts⟩ := dropped_iff line
  have warning := warned.mpr ⟨_, isRead, backward⟩
  obtain ⟨error, failed⟩ := exists_warning_iff.mp warning
  exact ⟨_, isRead, isPart, backward, dropped.mpr (.inr (.inr ⟨_, isRead, backward⟩)), warning,
    ⟨error, failed, onlyBackward error failed⟩, onParts _ isRead part isPart⟩

end Rule

end IgnoreRules
