import IgnoreRules.Proofs.Rule.Canonical
import Mathlib.Data.List.DropRight

/-!
Escapes read backwards and forwards.  Looking back, a character is escaped when an odd number of
backslashes stands right before it; reading from the left, when the step that labels it has passed a
backslash.  The two agree at every place of every text.  Trimming a line looks back, labelling its
characters reads forward, and so the ends that are trimmed off are those that the labels of the
whole line tell to trim.
-/

namespace IgnoreRules

namespace Mark

/-- One step of reading: the label, where the step begins, and where the labelled character stands,
which is one further on when the step passes a backslash. -/
structure Step where
  label : Mark
  start : Nat
  position : Nat
deriving DecidableEq, Repr

def steps (start : Nat) : List Char → List Step
  | [] => []
  | ['\\'] => [⟨⟨'\\', true⟩, start, start⟩]
  | '\\' :: character :: rest => ⟨⟨character, true⟩, start, start + 1⟩ :: steps (start + 2) rest
  | character :: rest => ⟨⟨character, false⟩, start, start⟩ :: steps (start + 1) rest

/-- Reading labels the character at a position, and labels it as escaped. -/
def isLiteralAt (text : List Char) (position : Nat) : Bool :=
  (steps 0 text).any fun step => step.position == position && step.label.escaped

def isBareBlank (mark : Mark) : Bool :=
  Line.isTrimmed mark.character && !mark.escaped

def isSlash (mark : Mark) : Bool :=
  mark.character == '/'

theorem steps_cons_of_ne {character : Char} (other : character ≠ '\\') (start : Nat)
    (rest : List Char) :
    steps start (character :: rest) =
      ⟨⟨character, false⟩, start, start⟩ :: steps (start + 1) rest := by
  rw [steps] <;> simp [other]

theorem map_label_steps (start : Nat) (text : List Char) :
    (steps start text).map Step.label = readAll text := by
  fun_induction steps start text with
  | case1 => rfl
  | case2 => rfl
  | case3 start character rest inductionHypothesis =>
      simp [inductionHypothesis]
  | case4 start character rest notAlone notFirst inductionHypothesis =>
      have other := ne_backslash_of_unescaped notAlone notFirst
      simp [readAll_cons_of_ne other, inductionHypothesis]

theorem within_of_mem_steps {start : Nat} {text : List Char} {step : Step}
    (taken : step ∈ steps start text) :
    start ≤ step.start ∧ step.start ≤ step.position ∧ step.position < start + text.length := by
  fun_induction steps start text with
  | case1 => contradiction
  | case2 =>
      obtain rfl := List.mem_singleton.mp taken
      simp
  | case3 start character rest inductionHypothesis =>
      rw [List.length_cons, List.length_cons]
      rcases List.mem_cons.mp taken with rfl | later
      · dsimp only
        omega
      · have := inductionHypothesis later
        omega
  | case4 start character rest notAlone notFirst inductionHypothesis =>
      rw [List.length_cons]
      rcases List.mem_cons.mp taken with rfl | later
      · dsimp only
        omega
      · have := inductionHypothesis later
        omega

theorem steps_append {front : List Char} (closed : Line.escapes front.reverse = false)
    (start : Nat) (rest : List Char) :
    steps start (front ++ rest) = steps start front ++ steps (start + front.length) rest := by
  fun_induction steps start front with
  | case1 => rfl
  | case2 => contradiction
  | case3 start character front inductionHypothesis =>
      have closedRest : Line.escapes front.reverse = false := by
        rwa [List.reverse_cons, List.reverse_cons, List.append_assoc, List.singleton_append,
          Line.escapes_append_of_not_escapes (Line.escapes_pair character)] at closed
      have further : start + (front.length + 1 + 1) = start + 2 + front.length := by omega
      rw [List.cons_append, List.cons_append, steps, inductionHypothesis closedRest,
        List.cons_append, List.length_cons, List.length_cons, further]
  | case4 start character front notAlone notFirst inductionHypothesis =>
      have other := ne_backslash_of_unescaped notAlone notFirst
      have closedRest : Line.escapes front.reverse = false := by
        rwa [List.reverse_cons, Line.escapes_append_of_not_escapes
          (Line.escapes_cons_of_ne other [])] at closed
      have further : start + (front.length + 1) = start + 1 + front.length := by omega
      rw [List.cons_append, steps_cons_of_ne other, inductionHypothesis closedRest,
        List.cons_append, List.length_cons, further]

theorem readAll_append {front : List Char} (closed : Line.escapes front.reverse = false)
    (rest : List Char) : readAll (front ++ rest) = readAll front ++ readAll rest := by
  rw [← map_label_steps 0, steps_append closed, List.map_append, map_label_steps, map_label_steps]

end Mark

namespace Line

variable {front : List Char}

theorem exists_of_open (isOpen : escapes front.reverse = true) :
    ∃ before, front = before ++ ['\\'] ∧ escapes before.reverse = false := by
  obtain ⟨reversed, split, closed⟩ := exists_of_escapes isOpen
  refine ⟨reversed.reverse, ?_, by rwa [List.reverse_reverse]⟩
  rw [← List.reverse_reverse front, split, List.reverse_cons]

@[simp]
theorem isEscapedAt_append (front rest : List Char) :
    isEscapedAt (front ++ rest) front.length = escapes front.reverse := by
  rw [isEscapedAt, List.take_left]

end Line

namespace Mark

variable {front : List Char}

/-- Behind an open backslash, the step that begins at it labels the next character as escaped. -/
theorem steps_of_open {before : List Char} (closed : Line.escapes before.reverse = false)
    (character : Char) (rest : List Char) :
    steps 0 (before ++ ['\\'] ++ character :: rest) =
      steps 0 before ++ ⟨⟨character, true⟩, before.length, before.length + 1⟩ ::
        steps (before.length + 2) rest := by
  rw [List.append_assoc, List.singleton_append, steps_append closed, Nat.zero_add, steps]

theorem isEscapedAt_iff_mem_steps (front : List Char) (character : Char) (rest : List Char) :
    Line.isEscapedAt (front ++ character :: rest) front.length = true ↔
      ∃ start, start + 1 = front.length ∧ (front ++ character :: rest)[start]? = some '\\' ∧
        ⟨⟨character, true⟩, start, front.length⟩ ∈ steps 0 (front ++ character :: rest) := by
  rw [Line.isEscapedAt_append]
  constructor
  · intro isOpen
    obtain ⟨before, rfl, closed⟩ := Line.exists_of_open isOpen
    refine ⟨before.length, by simp, by simp, ?_⟩
    rw [steps_of_open closed]
    simp
  · rintro ⟨start, next, -, taken⟩
    -- If no backslash were open, a step would begin at the character, and not one before it.
    rw [← Bool.not_eq_false]
    intro closed
    rw [steps_append closed, Nat.zero_add] at taken
    rcases List.mem_append.mp taken with earlier | later
    · have := (within_of_mem_steps earlier).2.2
      dsimp only at this
      omega
    · have := (within_of_mem_steps later).1
      dsimp only at this
      omega

theorem any_steps_eq_false {start : Nat} {text : List Char} {position : Nat}
    (outside : position < start ∨ start + text.length ≤ position) :
    ((steps start text).any fun step => step.position == position && step.label.escaped) =
      false := by
  rw [List.any_eq_false]
  intro step taken
  have within := within_of_mem_steps taken
  have elsewhere : step.position ≠ position := by omega
  simp [elsewhere]

/-- Every character but a backslash has a label, and it tells what looking back tells. -/
theorem isLiteralAt_append {character : Char} (other : character ≠ '\\') (front rest : List Char) :
    isLiteralAt (front ++ character :: rest) front.length = Line.escapes front.reverse := by
  rw [isLiteralAt]
  cases isOpen : Line.escapes front.reverse with
  | true =>
      obtain ⟨before, rfl, closed⟩ := Line.exists_of_open isOpen
      rw [steps_of_open closed]
      simp
  | false =>
      rw [steps_append isOpen, Nat.zero_add, steps_cons_of_ne other, List.any_append,
        List.any_cons, any_steps_eq_false (.inr (by simp)), any_steps_eq_false (.inl (by simp))]
      simp

theorem readAll_concat (front : List Char) (character : Char) :
    readAll (front ++ [character]) =
      readAll (if Line.escapes front.reverse then front.dropLast else front) ++
        [⟨character, Line.escapes front.reverse || character == '\\'⟩] := by
  cases isOpen : Line.escapes front.reverse with
  | true =>
      obtain ⟨before, rfl, closed⟩ := Line.exists_of_open isOpen
      rw [List.append_assoc, readAll_append closed, if_pos rfl, List.dropLast_concat]
      rfl
  | false =>
      rw [readAll_append isOpen, if_neg Bool.false_ne_true]
      by_cases backslash : character = '\\'
      · subst backslash
        rfl
      · simp [readAll_cons_of_ne backslash, readAll, backslash]

end Mark

namespace Line

theorem trimSlashes_concat_slash (front : List Char) :
    trimSlashes (front ++ ['/']) =
      trimSlashes (if escapes front.reverse then front.dropLast else front) := by
  rw [trimSlashes, List.reverse_append, List.reverse_singleton, List.singleton_append]
  cases isOpen : escapes front.reverse with
  | true =>
      obtain ⟨before, rfl, closed⟩ := exists_of_open isOpen
      rw [List.reverse_append, List.reverse_singleton, List.singleton_append] at isOpen ⊢
      rw [dropSlashes, if_pos isOpen, if_pos rfl, List.dropLast_concat, trimSlashes]
  | false => rw [dropSlashes_slash_cons isOpen, if_neg Bool.false_ne_true, trimSlashes]

theorem isBareBlank_last (character : Char) (escaped : Bool) :
    Mark.isBareBlank ⟨character, escaped || character == '\\'⟩ =
      (isTrimmed character && !escaped) := by
  by_cases backslash : character = '\\'
  · subst backslash
    rfl
  · have other : (character == '\\') = false := by simpa using backslash
    rw [Mark.isBareBlank, other, Bool.or_false]

theorem readAll_trimBlanks (text : List Char) :
    Mark.readAll (trimBlanks text) = (Mark.readAll text).rdropWhile Mark.isBareBlank := by
  induction text using List.reverseRecOn with
  | nil => rfl
  | append_singleton front character inductionHypothesis =>
      rw [trimBlanks_concat, Mark.readAll_concat, List.rdropWhile_concat, isBareBlank_last]
      split
      next bare =>
        have closed : escapes front.reverse = false := by simp_all
        rw [inductionHypothesis, if_neg (by simp [closed])]
      next => exact Mark.readAll_concat front character

/-- What is left after the slashes are taken off is labelled like the whole text up to its slashes
at the end: an escaped one goes with its backslash, and any other alone. -/
theorem readAll_trimSlashes (text : List Char) :
    Mark.readAll (trimSlashes text) = (Mark.readAll text).rdropWhile Mark.isSlash := by
  induction length : text.length using Nat.strong_induction_on generalizing text with
  | h size inductionHypothesis =>
      cases text using List.reverseRecOn with
      | nil => rfl
      | append_singleton front character =>
          rw [Mark.readAll_concat]
          by_cases slash : character = '/'
          · subst slash
            rw [trimSlashes_concat_slash, List.rdropWhile_concat_pos _ _ _ rfl]
            refine inductionHypothesis _ ?_ _ rfl
            rw [← length, List.length_append, List.length_singleton]
            split
            next => rw [List.length_dropLast]; omega
            next => omega
          · rw [List.rdropWhile_concat_neg _ _ _ (by simpa [Mark.isSlash] using slash),
              ← Mark.readAll_concat, trimSlashes_eq_self (by simpa using slash)]

theorem closed_opening (negated rooted : Bool) :
    escapes (opening negated rooted).reverse = false := by
  cases negated <;> cases rooted <;> rfl

theorem exists_split {text : List Char} {position : Nat} (inside : position < text.length) :
    ∃ front character rest, text = front ++ character :: rest ∧ front.length = position := by
  refine ⟨text.take position, text[position], text.drop (position + 1), ?_, ?_⟩
  · rw [List.getElem_cons_drop, List.take_append_drop]
  · rw [List.length_take]
    omega

theorem pattern_of_read? {line : List Char} {read : Line} (isRead : read? line = some read) :
    read.pattern =
      (((Mark.readAll (withoutTerminator line)).rdropWhile Mark.isBareBlank).drop
        (opening read.negated read.rooted).length).rdropWhile Mark.isSlash := by
  obtain ⟨rest, split, -, -, -, -, -, pattern⟩ := ofTrimmed?_eq_some_iff.mp isRead
  have inFront : (Mark.readAll (opening read.negated read.rooted)).length =
      (opening read.negated read.rooted).length := by
    cases read.negated <;> cases read.rooted <;> rfl
  rw [pattern, ← readAll_trimBlanks, split, Mark.readAll_append (closed_opening _ _), ← inFront,
    List.drop_left, readAll_trimSlashes]

/-- Looking back and reading forward see the same escapes.  At every position of a text, the run of
backslashes right before it is odd exactly when the step that labels its character has begun at a
backslash one position earlier.  Cutting marks off the front, or anything off the end, changes this
for no character but a backslash.  So trimming keeps a blank, and takes a backslash away with a
slash, exactly when reading labels them as escaped, and the pattern of a line has the labels that
reading the whole line gives. -/
theorem isEscapedAt_agrees_with_reading :
    (∀ (text : List Char) (position : Nat) (inside : position < text.length),
      (isEscapedAt text position = true ↔ runBefore text position % 2 = 1) ∧
      (isEscapedAt text position = true ↔
        ∃ start, start + 1 = position ∧ text[start]? = some '\\' ∧
          ⟨⟨text[position], true⟩, start, position⟩ ∈ Mark.steps 0 text)) ∧
    (∀ (negated rooted : Bool) (text ending : List Char) (position : Nat)
      (inside : position < text.length), text[position] ≠ '\\' →
      let whole := opening negated rooted ++ (text ++ ending)
      let shifted := (opening negated rooted).length + position
      isEscapedAt whole shifted = Mark.isLiteralAt text position ∧
        Mark.isLiteralAt whole shifted = Mark.isLiteralAt text position) ∧
    (∀ (front ending : List Char) (blank : Char), isTrimmed blank = true →
      trimBlanks (front ++ [blank]) =
        if Mark.isLiteralAt (front ++ blank :: ending) front.length then front ++ [blank]
        else trimBlanks front) ∧
    (∀ front ending : List Char,
      trimSlashes (front ++ ['/']) =
        trimSlashes
          (if Mark.isLiteralAt (front ++ '/' :: ending) front.length then front.dropLast
          else front)) ∧
    (∀ (line : List Char) (read : Line), read? line = some read →
      read.pattern =
        (((Mark.readAll (withoutTerminator line)).rdropWhile Mark.isBareBlank).drop
          (opening read.negated read.rooted).length).rdropWhile Mark.isSlash) := by
  refine ⟨fun text position inside => ⟨escapes_eq_true_iff _, ?_⟩, ?_, ?_, ?_,
    fun line read => pattern_of_read?⟩
  · obtain ⟨front, character, rest, rfl, rfl⟩ := exists_split inside
    have here : (front ++ character :: rest)[front.length] = character := by simp
    rw [here]
    exact Mark.isEscapedAt_iff_mem_steps front character rest
  · intro negated rooted text ending position inside other whole shifted
    obtain ⟨front, character, rest, rfl, rfl⟩ := exists_split inside
    have here : (front ++ character :: rest)[front.length] = character := by simp
    rw [here] at other
    have regrouped : whole =
        (opening negated rooted ++ front) ++ character :: (rest ++ ending) := by
      simp [whole]
    have moved : shifted = (opening negated rooted ++ front).length := List.length_append.symm
    have sameRun : escapes (opening negated rooted ++ front).reverse = escapes front.reverse := by
      rw [List.reverse_append, escapes_append_of_not_escapes (closed_opening negated rooted)]
    rw [regrouped, moved, isEscapedAt_append, Mark.isLiteralAt_append other,
      Mark.isLiteralAt_append other, sameRun]
    exact ⟨rfl, rfl⟩
  · intro front ending blank trimmed
    have other : blank ≠ '\\' := by
      rintro rfl
      contradiction
    rw [Mark.isLiteralAt_append other, trimBlanks_concat, trimmed]
    cases escapes front.reverse <;> rfl
  · intro front ending
    rw [Mark.isLiteralAt_append (by decide), trimSlashes_concat_slash]

/-- A blank behind three backslashes and a slash behind one, in a line that begins with two marks
and ends in two blanks and a newline. -/
theorem escaped_blank_and_slash_agree :
    let whole := "!/a\\\\\\ \\/ \t\n".toList
    let text := "a\\\\\\ \\/".toList
    ((isEscapedAt whole 6 = true ↔ runBefore whole 6 % 2 = 1) ∧ isEscapedAt whole 6 = true ∧
      ∃ start, start + 1 = 6 ∧ whole[start]? = some '\\' ∧
        ⟨⟨' ', true⟩, start, 6⟩ ∈ Mark.steps 0 whole) ∧
    (isEscapedAt whole 8 = Mark.isLiteralAt text 6 ∧
      Mark.isLiteralAt whole 8 = Mark.isLiteralAt text 6 ∧ Mark.isLiteralAt text 6 = true) ∧
    trimBlanks "!/a\\\\\\ ".toList = "!/a\\\\\\ ".toList ∧
    trimSlashes text = trimSlashes "a\\\\\\ ".toList ∧
    ∃ read, read? whole = some read ∧
      read.pattern = [⟨'a', false⟩, ⟨'\\', true⟩, ⟨' ', true⟩] ∧
      read.pattern =
        (((Mark.readAll (withoutTerminator whole)).rdropWhile Mark.isBareBlank).drop
          (opening read.negated read.rooted).length).rdropWhile Mark.isSlash := by
  intro whole text
  obtain ⟨atPosition, afterCuts, blanks, slashes, labels⟩ := isEscapedAt_agrees_with_reading
  obtain ⟨parity, forwards⟩ := atPosition whole 6 (by decide)
  have open6 : isEscapedAt whole 6 = true := by decide
  refine ⟨⟨parity, open6, forwards.mp open6⟩, ?_, ?_, ?_, ?_⟩
  · obtain ⟨same, sameRead⟩ := afterCuts true true text " \t\n".toList 6 (by decide) (by decide)
    exact ⟨same, sameRead, by decide⟩
  · rw [show "!/a\\\\\\ ".toList = "!/a\\\\\\".toList ++ [' '] by decide,
      blanks "!/a\\\\\\".toList "\\/".toList ' ' rfl]
    rfl
  · rw [show text = "a\\\\\\ \\".toList ++ ['/'] by decide, slashes "a\\\\\\ \\".toList []]
    rfl
  · refine ⟨(read? whole).get (by decide), (Option.some_get _).symm, by decide, ?_⟩
    exact labels whole _ (Option.some_get _).symm

end Line

end IgnoreRules
