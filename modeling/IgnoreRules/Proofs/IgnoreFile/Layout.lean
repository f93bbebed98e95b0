import IgnoreRules.Proofs.IgnoreFile.Scan
import IgnoreRules.Proofs.Rule.Canonical

/-!
The layout of an ignore file.  Byte order marks in front of a text, carriage returns before its
newlines, blanks at the ends of its lines, and lines that are blank or comments say nothing: with or
without them the rules are the same, up to the lines that they come from.
-/

namespace IgnoreRules

namespace Line

def IsBlank (text : List Char) : Prop :=
  ∀ character ∈ text, isTrimmed character = true

instance : DecidablePred IsBlank := fun text =>
  List.decidableBAll (isTrimmed · = true) text

theorem IsBlank.not_mem {text : List Char} {character : Char} (blank : IsBlank text)
    (other : isTrimmed character = false) : character ∉ text := by
  intro present
  rw [blank character present] at other
  contradiction

inductive IsEnding : List Char → Prop where
  | plain : IsEnding []
  | returned : IsEnding ['\r']

theorem IsEnding.not_mem {ending : List Char} {character : Char} (isEnding : IsEnding ending)
    (other : character ≠ '\r') : character ∉ ending := by
  cases isEnding <;> simp [other]

theorem withoutTerminator_append_ending {text ending : List Char} (noNewline : '\n' ∉ text)
    (noReturn : '\r' ∉ text) (isEnding : IsEnding ending) :
    withoutTerminator (text ++ ending) = text := by
  have undropped (line : List Char) (absent : '\n' ∉ line) :
      Text.dropEndWhile (· == '\n') line = line := by
    refine Text.dropEndWhile_eq_self fun character isLast => ?_
    rw [beq_eq_false_iff_ne]
    rintro rfl
    exact absent (List.mem_of_getLast? isLast)
  unfold withoutTerminator
  cases isEnding with
  | plain =>
      have otherLast : text.getLast? ≠ some '\r' := by
        intro isLast
        exact noReturn (List.mem_of_getLast? isLast)
      rw [List.append_nil, undropped text noNewline]
      simp [otherLast]
  | returned =>
      rw [undropped _ (by simp [noNewline])]
      simp

theorem escapes_of_isBlank {blanks : List Char} (blank : IsBlank blanks) :
    escapes blanks = false := by
  cases blanks with
  | nil => rfl
  | cons character rest =>
      refine escapes_cons_of_ne ?_ rest
      rintro rfl
      exact blank.not_mem (by decide) (List.mem_cons_self )

theorem dropBlanks_append {blanks reversed : List Char} (blank : IsBlank blanks)
    (closed : escapes reversed = false) :
    dropBlanks (blanks ++ reversed) = dropBlanks reversed := by
  induction blanks with
  | nil => rfl
  | cons character blanks inductionHypothesis =>
      have trimmed : isTrimmed character = true := blank character (by simp)
      have others : IsBlank blanks := by
        intro other present
        exact blank other (by simp [present])
      have unescaped : escapes (blanks ++ reversed) = false := by
        rw [escapes_append_of_not_escapes closed, escapes_of_isBlank others]
      rw [isTrimmed] at trimmed
      rw [List.cons_append, dropBlanks, trimmed, unescaped]
      exact inductionHypothesis others

theorem trimBlanks_append {text blanks : List Char} (blank : IsBlank blanks)
    (closed : blanks = [] ∨ escapes text.reverse = false) :
    trimBlanks (text ++ blanks) = trimBlanks text := by
  rcases closed with rfl | closed
  · rw [List.append_nil]
  · have blankReversed : IsBlank blanks.reverse := by
      intro character present
      exact blank character (List.mem_reverse.mp present)
    rw [trimBlanks, trimBlanks, List.reverse_append, dropBlanks_append blankReversed closed]

theorem read?_append {text blanks ending : List Char} (noNewline : '\n' ∉ text)
    (noReturn : '\r' ∉ text) (blank : IsBlank blanks)
    (closed : blanks = [] ∨ escapes text.reverse = false) (isEnding : IsEnding ending) :
    read? (text ++ blanks ++ ending) = read? text := by
  have noNewlineBlank : '\n' ∉ blanks := blank.not_mem (by decide)
  have noReturnBlank : '\r' ∉ blanks := blank.not_mem (by decide)
  have bare : withoutTerminator text = text := by
    simpa using withoutTerminator_append_ending noNewline noReturn .plain
  rw [read?, read?, withoutTerminator_append_ending (by simp [noNewline, noNewlineBlank])
    (by simp [noReturn, noReturnBlank]) isEnding, bare, trimBlanks_append blank closed]

theorem read?_comment (text : List Char) : read? ('#' :: text) = none := by
  have comment : trimBlanks (withoutTerminator ('#' :: text)) = '#' :: trimmed text :=
    trimmed_append_solid (by decide) [] text
  rw [read?, comment, ofTrimmed?]

/-- A line that is blank or a comment. -/
inductive IsIdle : List Char → Prop where
  | blank {text : List Char} : IsBlank text → IsIdle text
  | comment {text : List Char} : '\n' ∉ text → IsIdle ('#' :: text)

theorem IsIdle.noNewline {text : List Char} (idle : IsIdle text) : '\n' ∉ text := by
  cases idle with
  | blank blank => exact blank.not_mem (by decide)
  | comment absent => simpa using absent

theorem IsIdle.read?_eq_none {text ending : List Char} (idle : IsIdle text)
    (isEnding : IsEnding ending) : read? (text ++ ending) = none := by
  cases idle with
  | blank blank =>
      have nothing := @read?_append [] text ending (by simp) (by simp) blank (.inr rfl) isEnding
      rw [List.nil_append] at nothing
      rw [nothing]
      rfl
  | comment => exact read?_comment _

end Line

namespace Rule

/-- What a rule says, whatever line it comes from. -/
def unsourced (rule : Rule) : Rule :=
  { rule with source := [] }

theorem unsourced_eq_of_read?_eq {line other : List Char}
    (same : Line.read? line = Line.read? other) :
    (ofLine? line).map unsourced = (ofLine? other).map unsourced := by
  unfold ofLine? compile
  rw [same]
  cases Line.read? other with
  | none => rfl
  | some marks =>
      cases compiled : Segment.ofPattern marks.pattern with
      | error error => simp [compiled, Except.map]
      | ok segments =>
          simp only [compiled, Except.map]
          split <;> rfl

theorem ofLine?_eq_none {line : List Char} (unread : Line.read? line = none) :
    ofLine? line = none := by
  simp [ofLine?, compile, unread]

end Rule

namespace IgnoreFile

/-- Lines laid out anew: some have blanks or a carriage return at their end, and idle lines stand
between them. -/
inductive Relaid : List (List Char) → List (List Char) → Prop where
  | nil : Relaid [] []
  | insert {line ending : List Char} {lines relaid : List (List Char)} :
      Line.IsIdle line → Line.IsEnding ending → Relaid lines relaid →
      Relaid lines ((line ++ ending) :: relaid)
  | keep {line blanks ending : List Char} {lines relaid : List (List Char)} :
      Line.IsBlank blanks → (blanks = [] ∨ Line.escapes line.reverse = false) →
      Line.IsEnding ending → Relaid lines relaid →
      Relaid (line :: lines) ((line ++ blanks ++ ending) :: relaid)

/-- The second text is the first one laid out anew, with marks in front. -/
def IsLayoutOf (text other : List Char) : Prop :=
  ∃ marks relaid, (∀ mark ∈ marks, mark = '\uFEFF') ∧
    Relaid (Text.pieces (· == '\n') text) relaid ∧ other = marks ++ Text.unpieces '\n' relaid

namespace Relaid

variable {lines relaid : List (List Char)}

theorem noNewline (laid : Relaid lines relaid) (absent : ∀ line ∈ lines, '\n' ∉ line) :
    ∀ line ∈ relaid, '\n' ∉ line := by
  induction laid with
  | nil => exact absent
  | insert idle isEnding _ inductionHypothesis =>
      rw [List.forall_mem_cons]
      refine ⟨?_, inductionHypothesis absent⟩
      simp [idle.noNewline, isEnding.not_mem]
  | keep blank _ isEnding _ inductionHypothesis =>
      rw [List.forall_mem_cons] at absent ⊢
      have notInBlanks : '\n' ∉ _ := blank.not_mem (by decide)
      exact ⟨by simp [absent.1, notInBlanks, isEnding.not_mem], inductionHypothesis absent.2⟩

theorem ne_nil (laid : Relaid lines relaid) (nonempty : lines ≠ []) : relaid ≠ [] := by
  cases laid <;> simp_all

theorem rules_eq (laid : Relaid lines relaid)
    (absent : ∀ line ∈ lines, '\n' ∉ line ∧ '\r' ∉ line) :
    (relaid.filterMap Rule.ofLine?).map Rule.unsourced =
      (lines.filterMap Rule.ofLine?).map Rule.unsourced := by
  rw [List.map_filterMap, List.map_filterMap]
  induction laid with
  | nil => rfl
  | insert idle isEnding _ inductionHypothesis =>
      rw [List.filterMap_cons, Rule.ofLine?_eq_none (idle.read?_eq_none isEnding)]
      exact inductionHypothesis absent
  | keep blank closed isEnding _ inductionHypothesis =>
      rw [List.forall_mem_cons] at absent
      have same := Rule.unsourced_eq_of_read?_eq
        (Line.read?_append absent.1.1 absent.1.2 blank closed isEnding)
      rw [List.filterMap_cons, List.filterMap_cons, same, inductionHypothesis absent.2]

theorem head?_ne_mark {first : List Char} {others : List (List Char)}
    (laid : Relaid lines (first :: others)) (absent : ∀ line ∈ lines, '\uFEFF' ∉ line) :
    first.head? ≠ some '\uFEFF' := by
  cases laid with
  | insert idle isEnding _ =>
      cases idle with
      | blank blank =>
          intro isHead
          have notInBlanks : '\uFEFF' ∉ _ := blank.not_mem (by decide)
          have present := List.mem_of_head? isHead
          simp [notInBlanks, isEnding.not_mem] at present
      | comment => simp
  | keep blank _ isEnding _ =>
      rw [List.forall_mem_cons] at absent
      intro isHead
      have notInBlanks : '\uFEFF' ∉ _ := blank.not_mem (by decide)
      have present := List.mem_of_head? isHead
      simp [absent.1, notInBlanks, isEnding.not_mem] at present

end Relaid

theorem linesOf_eq_self {text : List Char} (unmarked : '\uFEFF' ∉ text) :
    linesOf text = Text.pieces (· == '\n') text := by
  unfold linesOf
  cases text with
  | nil => rfl
  | cons character rest =>
      rw [List.mem_cons, not_or] at unmarked
      rw [List.dropWhile_cons_of_neg (by simpa using Ne.symm unmarked.1)]

theorem linesOf_marked {marks text : List Char} (allMarks : ∀ mark ∈ marks, mark = '\uFEFF')
    (unmarked : text.head? ≠ some '\uFEFF') :
    linesOf (marks ++ text) = Text.pieces (· == '\n') text := by
  unfold linesOf
  rw [List.dropWhile_append_of_pos fun mark present => by simpa using allMarks mark present]
  cases text with
  | nil => rfl
  | cons character rest =>
      rw [List.dropWhile_cons_of_neg (by simpa using unmarked)]

theorem linesOf_layout {text marks : List Char} {relaid : List (List Char)}
    (unmarked : '\uFEFF' ∉ text) (allMarks : ∀ mark ∈ marks, mark = '\uFEFF')
    (laid : Relaid (Text.pieces (· == '\n') text) relaid) :
    linesOf (marks ++ Text.unpieces '\n' relaid) = relaid := by
  have absent : ∀ line ∈ Text.pieces (· == '\n') text, '\uFEFF' ∉ line := by
    intro line isLine present
    exact unmarked (Text.mem_of_mem_pieces isLine present)
  have nonempty := laid.ne_nil (Text.pieces_ne_nil _ _)
  have noNewline := laid.noNewline fun line isLine => Text.not_mem_of_mem_pieces isLine
  rw [linesOf_marked allMarks, Text.pieces_unpieces nonempty noNewline]
  intro isHead
  obtain ⟨first, others, rfl⟩ := List.exists_cons_of_ne_nil nonempty
  rcases Text.head?_unpieces_cons isHead with inFirst | isNewline
  · exact laid.head?_ne_mark absent inFirst
  · contradiction

theorem scanVerdict_unsourced (platform : Platform) (rules : List Rule) (path : List Char)
    (isDir : Bool) :
    scanVerdict platform (rules.map Rule.unsourced) path isDir =
      scanVerdict platform rules path isDir := by
  have sameApplies : ((·.applies platform path isDir) ∘ Rule.unsourced) =
      (·.applies platform path isDir) := rfl
  unfold scanVerdict
  rw [Rule.scan_eq_find?_reverse, Rule.scan_eq_find?_reverse, ← List.map_reverse,
    List.find?_map, sameApplies]
  cases rules.reverse.find? (·.applies platform path isDir) <;> rfl

/-- A text that is laid out anew has the same rules in the same order, up to the lines that they
come from, and so it says the same about every entry. -/
theorem layout_says_nothing {text other : List Char} (noReturn : '\r' ∉ text)
    (unmarked : '\uFEFF' ∉ text) (laidOut : IsLayoutOf text other) (directory : Path)
    (location : List Char) :
    (ofText other directory location).rules.map Rule.unsourced =
        (ofText text directory location).rules.map Rule.unsourced ∧
      ∀ (platform : Platform) (path : List Char) (isDir : Bool),
        (ofText other directory location).verdict platform path isDir =
          (ofText text directory location).verdict platform path isDir := by
  obtain ⟨marks, relaid, allMarks, laid, rfl⟩ := laidOut
  have sameRules : (ofText (marks ++ Text.unpieces '\n' relaid) directory location).rules.map
        Rule.unsourced = (ofText text directory location).rules.map Rule.unsourced := by
    unfold ofText ofLines
    dsimp only
    rw [linesOf_layout unmarked allMarks laid, linesOf_eq_self unmarked]
    apply laid.rules_eq
    intro line isLine
    refine ⟨Text.not_mem_of_mem_pieces isLine, fun present => ?_⟩
    exact noReturn (Text.mem_of_mem_pieces isLine present)
  refine ⟨sameRules, ?_⟩
  intro platform path isDir
  rw [verdict_eq_scanVerdict, verdict_eq_scanVerdict, ← scanVerdict_unsourced, sameRules,
    scanVerdict_unsourced]

/-- An escaped blank and two backslashes at the ends of lines, laid out in every way. -/
theorem layout_of_escaped_ends :
    let text := "!a\\ \nb\\\\".toList
    let other := "\uFEFF\uFEFF# a\\\r\n!a\\  \t\r\n \t\nb\\\\ \n\n".toList
    '\r' ∉ text ∧ '\uFEFF' ∉ text ∧ IsLayoutOf text other ∧
      (ofText text ⟨.root, []⟩ []).rules.map Rule.patternText = ["a ".toList, "b\\".toList] ∧
      (ofText other ⟨.root, []⟩ []).rules.map Rule.unsourced =
        (ofText text ⟨.root, []⟩ []).rules.map Rule.unsourced := by
  have noReturn : '\r' ∉ "!a\\ \nb\\\\".toList := by decide
  have unmarked : '\uFEFF' ∉ "!a\\ \nb\\\\".toList := by decide
  have laidOut : IsLayoutOf "!a\\ \nb\\\\".toList
      "\uFEFF\uFEFF# a\\\r\n!a\\  \t\r\n \t\nb\\\\ \n\n".toList := by
    have cut : Text.pieces (· == '\n') "!a\\ \nb\\\\".toList =
        ["!a\\ ".toList, "b\\\\".toList] := by decide
    refine ⟨['\uFEFF', '\uFEFF'],
      [('#' :: " a\\".toList) ++ ['\r'], "!a\\ ".toList ++ " \t".toList ++ ['\r'],
        " \t".toList ++ [], "b\\\\".toList ++ " ".toList ++ [], [] ++ [], [] ++ []],
      by simp, ?_, by decide⟩
    rw [cut]
    apply Relaid.insert (.comment (by decide)) .returned
    apply Relaid.keep (by decide) (.inr (by decide)) .returned
    apply Relaid.insert (.blank (by decide)) .plain
    apply Relaid.keep (by decide) (.inr (by decide)) .plain
    apply Relaid.insert (.blank (by decide)) .plain
    exact Relaid.insert (.blank (by decide)) .plain .nil
  exact ⟨noReturn, unmarked, laidOut, by decide +kernel,
    (layout_says_nothing noReturn unmarked laidOut _ _).1⟩

end IgnoreFile

end IgnoreRules
