import IgnoreRules.Rule.Line

/-!
How the pieces of a written rule are told apart.  Writing labelled characters back gives the text
they were read from, except that a lone backslash at the end comes out doubled; what is left after
trimming is told by what stands at its end.
-/

namespace IgnoreRules

theorem Text.dropEndWhile_append_cons {test : Char → Bool} {stop : Char} (stays : test stop = false)
    (front text : List Char) :
    dropEndWhile test (front ++ stop :: text) = front ++ stop :: dropEndWhile test text := by
  simp only [dropEndWhile, List.reverse_append, List.reverse_cons, List.append_assoc,
    List.singleton_append, List.dropWhile_append]
  cases dropped : text.reverse.dropWhile test with
  | nil => simp [stays]
  | cons character rest => simp

theorem Text.dropEndWhile_eq_self {test : Char → Bool} {text : List Char}
    (kept : ∀ character, text.getLast? = some character → test character = false) :
    dropEndWhile test text = text := by
  rw [dropEndWhile]
  cases reversed : text.reverse with
  | nil => simpa using reversed.symm
  | cons character before =>
      have isLast : text.getLast? = some character := by
        rw [← List.head?_reverse, reversed, List.head?_cons]
      rw [List.dropWhile_cons_of_neg (by simp [kept character isLast]), ← reversed,
        List.reverse_reverse]

namespace Line

@[simp]
theorem escapes_nil : escapes [] = false := rfl

@[simp]
theorem escapes_backslash_cons (before : List Char) :
    escapes ('\\' :: before) = !escapes before := rfl

theorem escapes_cons_of_ne {character : Char} (other : character ≠ '\\') (before : List Char) :
    escapes (character :: before) = false := by
  simp [escapes, other]

theorem exists_of_escapes {before : List Char} (escaping : escapes before = true) :
    ∃ rest, before = '\\' :: rest ∧ escapes rest = false := by
  cases before with
  | nil => contradiction
  | cons character rest =>
      by_cases backslash : character = '\\'
      · subst backslash
        exact ⟨rest, rfl, by simpa using escaping⟩
      · rw [escapes_cons_of_ne backslash] at escaping
        contradiction

theorem escapes_append_of_not_escapes {after : List Char} (closed : escapes after = false)
    (before : List Char) : escapes (before ++ after) = escapes before := by
  induction before with
  | nil => exact closed
  | cons character before inductionHypothesis =>
      by_cases backslash : character = '\\'
      · subst backslash
        simpa using inductionHypothesis
      · simp [escapes_cons_of_ne backslash]

theorem escapes_pair (character : Char) : escapes [character, '\\'] = false := by
  by_cases backslash : character = '\\'
  · subst backslash
    rfl
  · exact escapes_cons_of_ne backslash _

/-- How many backslashes stand right before a position. -/
def runBefore (text : List Char) (position : Nat) : Nat :=
  ((text.take position).reverse.takeWhile (· == '\\')).length

theorem escapes_eq_true_iff (before : List Char) :
    escapes before = true ↔ (before.takeWhile (· == '\\')).length % 2 = 1 := by
  induction before with
  | nil => simp
  | cons character before inductionHypothesis =>
      by_cases backslash : character = '\\'
      · subst backslash
        rw [escapes_backslash_cons, Bool.not_eq_true', ← Bool.not_eq_true, inductionHypothesis,
          List.takeWhile_cons_of_pos rfl, List.length_cons]
        omega
      · rw [escapes_cons_of_ne backslash, List.takeWhile_cons_of_neg (by simpa using backslash)]
        simp

end Line

namespace Mark

def written (mark : Mark) : List Char :=
  if mark.escaped then ['\\', mark.character] else [mark.character]

def writeAll (marks : List Mark) : List Char :=
  marks.flatMap written

@[simp]
theorem writeAll_nil : writeAll [] = [] := rfl

@[simp]
theorem writeAll_cons (mark : Mark) (marks : List Mark) :
    writeAll (mark :: marks) = mark.written ++ writeAll marks := rfl

@[simp]
theorem readAll_escaped_cons (character : Char) (rest : List Char) :
    readAll ('\\' :: character :: rest) = ⟨character, true⟩ :: readAll rest := rfl

theorem readAll_cons_of_ne {character : Char} (other : character ≠ '\\') (rest : List Char) :
    readAll (character :: rest) = ⟨character, false⟩ :: readAll rest := by
  rw [readAll] <;> simp [other]

theorem ne_backslash_of_unescaped {character : Char} {rest : List Char}
    (notAlone : character = '\\' → rest = [] → False)
    (notFirst : ∀ next others, character = '\\' → rest = next :: others → False) :
    character ≠ '\\' := by
  rintro rfl
  cases rest with
  | nil => exact notAlone rfl rfl
  | cons next others => exact notFirst next others rfl rfl

/-- What is read and written again is the text; a backslash left alone at its end is doubled. -/
theorem writeAll_readAll (text : List Char) :
    writeAll (readAll text) = if Line.escapes text.reverse then text ++ ['\\'] else text := by
  fun_induction readAll text with
  | case1 => rfl
  | case2 => rfl
  | case3 character rest inductionHypothesis =>
      have closed := Line.escapes_append_of_not_escapes (Line.escapes_pair character) rest.reverse
      simp only [writeAll_cons, inductionHypothesis, List.reverse_cons, List.append_assoc,
        List.cons_append, List.nil_append, closed]
      split <;> simp [written]
  | case4 character rest notAlone notFirst inductionHypothesis =>
      have other := ne_backslash_of_unescaped notAlone notFirst
      have closed := Line.escapes_append_of_not_escapes
        (Line.escapes_cons_of_ne other []) rest.reverse
      simp only [writeAll_cons, inductionHypothesis, List.reverse_cons, closed]
      split <;> simp [written]

theorem readAll_writeAll_readAll (text : List Char) :
    readAll (writeAll (readAll text)) = readAll text := by
  fun_induction readAll text with
  | case1 => rfl
  | case2 => rfl
  | case3 character rest inductionHypothesis =>
      simpa [written] using inductionHypothesis
  | case4 character rest notAlone notFirst inductionHypothesis =>
      have other := ne_backslash_of_unescaped notAlone notFirst
      simpa [written, readAll_cons_of_ne other] using inductionHypothesis

theorem escapes_writeAll_readAll (text : List Char) :
    Line.escapes (writeAll (readAll text)).reverse = false := by
  rw [writeAll_readAll]
  split
  next lone => simp [lone]
  next closed => simpa using closed

theorem head?_writeAll_readAll (text : List Char) :
    (writeAll (readAll text)).head? = text.head? := by
  rw [writeAll_readAll]
  split
  next lone =>
    obtain ⟨rest, reversed, -⟩ := Line.exists_of_escapes lone
    cases text with
    | nil => simp at reversed
    | cons character text => rfl
  next => rfl

theorem writeAll_readAll_ne_nil {text : List Char} (nonempty : text ≠ []) :
    writeAll (readAll text) ≠ [] := by
  intro empty
  have sameHead := head?_writeAll_readAll text
  rw [empty] at sameHead
  exact nonempty (List.head?_eq_none_iff.mp sameHead.symm)

theorem getLast?_writeAll_readAll (text : List Char) :
    (writeAll (readAll text)).getLast? = text.getLast? := by
  rw [writeAll_readAll]
  split
  next lone =>
    obtain ⟨rest, reversed, -⟩ := Line.exists_of_escapes lone
    rw [← List.head?_reverse, ← List.head?_reverse, reversed]
    simp
  next => rfl

theorem getLast?_writeAll (marks : List Mark) :
    (writeAll marks).getLast? = marks.getLast?.map Mark.character := by
  induction marks with
  | nil => rfl
  | cons mark marks inductionHypothesis =>
      cases marks with
      | nil =>
          rw [writeAll_cons, written]
          split <;> rfl
      | cons next others =>
          rw [writeAll_cons, List.getLast?_append, inductionHypothesis, List.getLast?_cons_cons,
            List.getLast?_cons]
          rfl

theorem getLast?_readAll (text : List Char) :
    (readAll text).getLast?.map Mark.character = text.getLast? := by
  rw [← getLast?_writeAll, getLast?_writeAll_readAll]

end Mark

namespace Line

def isTrimmed (character : Char) : Bool :=
  character == ' ' || character == '\t'

theorem dropBlanks_eq_self {reversed : List Char}
    (kept : ∀ character, reversed.head? = some character → isTrimmed character = false) :
    dropBlanks reversed = reversed := by
  cases reversed with
  | nil => rfl
  | cons character before =>
      have notTrimmed := kept character rfl
      rw [isTrimmed] at notTrimmed
      simp [dropBlanks, notTrimmed]

theorem trimBlanks_concat (front : List Char) (character : Char) :
    trimBlanks (front ++ [character]) =
      if isTrimmed character && !escapes front.reverse then trimBlanks front
      else front ++ [character] := by
  rw [trimBlanks, List.reverse_append, List.reverse_singleton, List.singleton_append, dropBlanks,
    ← isTrimmed]
  split
  next => rfl
  next => simp

theorem dropBlanks_dropBlanks (reversed : List Char) :
    dropBlanks (dropBlanks reversed) = dropBlanks reversed := by
  induction reversed with
  | nil => rfl
  | cons character before inductionHypothesis =>
      rw [dropBlanks]
      split
      next => exact inductionHypothesis
      next kept => simp only [dropBlanks, if_neg kept]

theorem trimBlanks_trimBlanks (text : List Char) :
    trimBlanks (trimBlanks text) = trimBlanks text := by
  simp [trimBlanks, dropBlanks_dropBlanks]

theorem trimBlanks_eq_self {text : List Char}
    (kept : ∀ character, text.getLast? = some character → isTrimmed character = false) :
    trimBlanks text = text := by
  rw [trimBlanks, dropBlanks_eq_self (by simpa using kept), List.reverse_reverse]

/-- A character that trimming stops at and that escapes nothing. -/
def isSolid (character : Char) : Bool :=
  !"\n\r \t\\".toList.contains character

theorem isSolid_iff {character : Char} :
    isSolid character = true ↔
      character ≠ '\n' ∧ character ≠ '\r' ∧ isTrimmed character = false ∧ character ≠ '\\' := by
  simp [isSolid, isTrimmed, and_assoc]

theorem withoutTerminator_append_solid {stop : Char} (solid : isSolid stop = true)
    (front text : List Char) :
    withoutTerminator (front ++ stop :: text) = front ++ stop :: withoutTerminator text := by
  obtain ⟨notNewline, notReturn, -⟩ := isSolid_iff.mp solid
  unfold withoutTerminator
  rw [Text.dropEndWhile_append_cons (by simpa using notNewline)]
  dsimp only
  cases Text.dropEndWhile (· == '\n') text with
  | nil => simp [notReturn]
  | cons character rest =>
      have sameLast : (front ++ stop :: character :: rest).getLast? =
          (character :: rest).getLast? := by
        simp [List.getLast?_append, List.getLast?_cons]
      rw [sameLast]
      split
      next => rw [List.dropLast_append_of_ne_nil (by simp), List.dropLast_cons_cons]
      next => rfl

theorem escapes_append_solid {stop : Char} (solid : isSolid stop = true)
    (before after : List Char) : escapes (before ++ stop :: after) = escapes before :=
  escapes_append_of_not_escapes (escapes_cons_of_ne (isSolid_iff.mp solid).2.2.2 after) before

theorem dropBlanks_append_solid {stop : Char} (solid : isSolid stop = true)
    (reversed front : List Char) :
    dropBlanks (reversed ++ stop :: front) = dropBlanks reversed ++ stop :: front := by
  induction reversed with
  | nil =>
      refine dropBlanks_eq_self fun character isFirst => ?_
      obtain rfl : stop = character := by simpa using isFirst
      exact (isSolid_iff.mp solid).2.2.1
  | cons character before inductionHypothesis =>
      rw [List.cons_append, dropBlanks, dropBlanks, escapes_append_solid solid]
      split
      next => exact inductionHypothesis
      next => rfl

theorem trimBlanks_append_solid {stop : Char} (solid : isSolid stop = true)
    (front text : List Char) :
    trimBlanks (front ++ stop :: text) = front ++ stop :: trimBlanks text := by
  simp [trimBlanks, dropBlanks_append_solid solid]

def trimmed (line : List Char) : List Char :=
  trimBlanks (withoutTerminator line)

theorem trimmed_append_solid {stop : Char} (solid : isSolid stop = true)
    (front line : List Char) :
    trimmed (front ++ stop :: line) = front ++ stop :: trimmed line := by
  rw [trimmed, withoutTerminator_append_solid solid, trimBlanks_append_solid solid, trimmed]

theorem dropBlanks_suffix (reversed : List Char) : dropBlanks reversed <:+ reversed := by
  induction reversed with
  | nil => exact List.suffix_refl _
  | cons character before inductionHypothesis =>
      rw [dropBlanks]
      split
      next => exact inductionHypothesis.trans (List.suffix_cons character before)
      next => exact List.suffix_refl _

theorem prefix_withoutTerminator (line : List Char) : withoutTerminator line <+: line := by
  have fewer : Text.dropEndWhile (· == '\n') line <+: line := by
    rw [← List.reverse_suffix, Text.dropEndWhile, List.reverse_reverse]
    exact List.dropWhile_suffix _
  unfold withoutTerminator
  dsimp only
  split
  next => exact (List.dropLast_prefix _).trans fewer
  next => exact fewer

theorem prefix_trimmed (line : List Char) : trimmed line <+: line := by
  have fewer : trimBlanks (withoutTerminator line) <+: withoutTerminator line := by
    rw [← List.reverse_suffix, trimBlanks, List.reverse_reverse]
    exact dropBlanks_suffix _
  exact fewer.trans (prefix_withoutTerminator line)

theorem dropSlashes_eq_self {reversed : List Char} (noSlash : reversed.head? ≠ some '/') :
    dropSlashes reversed = reversed := by
  cases reversed with
  | nil => rfl
  | cons character before =>
      have other : character ≠ '/' := by simpa using noSlash
      rw [dropSlashes] <;> simp [other]

theorem dropSlashes_slash_cons {reversed : List Char} (closed : escapes reversed = false) :
    dropSlashes ('/' :: reversed) = dropSlashes reversed := by
  cases reversed with
  | nil => rfl
  | cons character before =>
      by_cases backslash : character = '\\'
      · subst backslash
        rw [dropSlashes, if_neg (by simp [closed]), dropSlashes_eq_self (by simp)]
      · rw [dropSlashes]
        simp [backslash]

theorem head?_dropSlashes (reversed : List Char) : (dropSlashes reversed).head? ≠ some '/' := by
  fun_induction dropSlashes reversed with
  | case1 before escaped inductionHypothesis => exact inductionHypothesis
  | case2 before closed => simp
  | case3 before notEscaped inductionHypothesis => exact inductionHypothesis
  | case4 reversed notEscaped noSlash =>
      cases reversed with
      | nil => simp
      | cons character before =>
          intro slash
          exact noSlash before (by simpa using slash)

theorem dropSlashes_suffix (reversed : List Char) : dropSlashes reversed <:+ reversed := by
  fun_induction dropSlashes reversed with
  | case1 before escaped inductionHypothesis =>
      exact inductionHypothesis.trans ((List.suffix_cons _ _).trans (List.suffix_cons _ _))
  | case2 before closed => exact List.suffix_cons _ _
  | case3 before notEscaped inductionHypothesis =>
      exact inductionHypothesis.trans (List.suffix_cons _ _)
  | case4 reversed notEscaped noSlash => exact List.suffix_refl _

def opening (negated rooted : Bool) : List Char :=
  (if negated then ['!'] else []) ++ (if rooted then ['/'] else [])

theorem takeMark_eq_iff {mark : Char} {text rest : List Char} {taken : Bool} :
    takeMark mark text = (taken, rest) ↔
      text = (if taken then [mark] else []) ++ rest ∧
        (taken = false → text.head? ≠ some mark) := by
  cases text with
  | nil => cases taken <;> simp [takeMark, eq_comm]
  | cons character others =>
      by_cases same : character = mark
      · subst same
        cases taken <;> simp [takeMark]
      · cases taken <;> simp [takeMark, same]

theorem ofTrimmed?_of_takeMark {text afterNegation rest : List Char} {negated rooted : Bool}
    (nonempty : text ≠ []) (notComment : text.head? ≠ some '#')
    (negation : takeMark '!' text = (negated, afterNegation))
    (root : takeMark '/' afterNegation = (rooted, rest)) :
    ofTrimmed? text =
      if trimSlashes rest = [] then none
      else some ⟨negated, rooted, rest.getLast? == some '/', Mark.readAll (trimSlashes rest)⟩ := by
  rw [ofTrimmed?]
  · simp [negation, root]
  · exact nonempty
  · rintro others rfl
    exact notComment rfl

theorem not_comment_of_ofTrimmed? {text : List Char} {line : Line}
    (read : ofTrimmed? text = some line) : text ≠ [] ∧ text.head? ≠ some '#' := by
  cases text with
  | nil => simp [ofTrimmed?] at read
  | cons character others =>
      refine ⟨by simp, fun comment => ?_⟩
      obtain rfl : character = '#' := by simpa using comment
      simp [ofTrimmed?] at read

theorem ofTrimmed?_eq_some_iff {text : List Char} {line : Line} :
    ofTrimmed? text = some line ↔
      ∃ rest, text = opening line.negated line.rooted ++ rest ∧
        text.head? ≠ some '#' ∧
        (line.negated = false → text.head? ≠ some '!') ∧
        (line.rooted = false → rest.head? ≠ some '/') ∧
        trimSlashes rest ≠ [] ∧
        line.dirOnly = (rest.getLast? == some '/') ∧
        line.pattern = Mark.readAll (trimSlashes rest) := by
  constructor
  · intro read
    obtain ⟨nonempty, notComment⟩ := not_comment_of_ofTrimmed? read
    rcases negation : takeMark '!' text with ⟨negated, afterNegation⟩
    rcases root : takeMark '/' afterNegation with ⟨rooted, rest⟩
    rw [ofTrimmed?_of_takeMark nonempty notComment negation root] at read
    obtain ⟨textSplit, notNegated⟩ := takeMark_eq_iff.mp negation
    obtain ⟨restSplit, notRooted⟩ := takeMark_eq_iff.mp root
    split at read
    next => contradiction
    next kept =>
      cases read
      refine ⟨rest, ?_, notComment, notNegated, ?_, kept, rfl, rfl⟩
      · rw [textSplit, restSplit, opening, List.append_assoc]
      · rintro rfl
        rw [restSplit] at notRooted
        simpa using notRooted
  · rintro ⟨rest, textSplit, notComment, notNegated, notRooted, kept, dirOnly, pattern⟩
    have nonempty : text ≠ [] := by
      rintro rfl
      obtain ⟨-, rfl⟩ := List.append_eq_nil_iff.mp textSplit.symm
      exact kept rfl
    have negation : takeMark '!' text =
        (line.negated, (if line.rooted then ['/'] else []) ++ rest) := by
      rw [takeMark_eq_iff]
      exact ⟨by rw [textSplit, opening, List.append_assoc], notNegated⟩
    have root : takeMark '/' ((if line.rooted then ['/'] else []) ++ rest) =
        (line.rooted, rest) := by
      rw [takeMark_eq_iff]
      refine ⟨rfl, fun unrooted => ?_⟩
      simpa [unrooted] using notRooted unrooted
    rw [ofTrimmed?_of_takeMark nonempty notComment negation root, if_neg kept, ← dirOnly,
      ← pattern]

end Line

end IgnoreRules
