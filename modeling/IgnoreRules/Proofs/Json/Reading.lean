import IgnoreRules.Proofs.Json.Token

/-!
The reader of JSON follows the grammar.  What it returns is spelled in front of what it leaves, if
the text is made of characters, and every text of the grammar is read: a value goes at most as deep
as it is long, so the length of the text is fuel enough.
-/

namespace IgnoreRules

namespace Json

variable {fuel room : Nat} {rest : List Char}

theorem ReadError.expected_eq_ok_iff {Alpha : Type} {found? : Option Alpha} {found : Alpha} :
    expected found? = .ok found ↔ found? = some found := by
  cases found? <;> simp [expected]

/-! ### Blanks -/

theorem skipSpaces_append {blanks : List Char} (areSpaces : AreSpaces blanks) (text : List Char) :
    skipSpaces (blanks ++ text) = skipSpaces text :=
  List.dropWhile_append_of_pos areSpaces

theorem skipSpaces_cons {first : Char} (solid : isSpace first = false) (others : List Char) :
    skipSpaces (first :: others) = first :: others :=
  List.dropWhile_cons_of_neg (by simp [solid])

theorem exists_spaces (text : List Char) :
    ∃ blanks, AreSpaces blanks ∧ text = blanks ++ skipSpaces text :=
  ⟨text.takeWhile isSpace, fun _ => List.mem_takeWhile_imp,
    List.takeWhile_append_dropWhile.symm⟩

theorem endsNumber_cons {first : Char} (others : List Char)
    (ends : first.isDigit = false ∧ first ≠ '.' ∧ first ≠ 'e' ∧ first ≠ 'E') :
    EndsNumber (first :: others) := by
  intro character isFirst
  cases isFirst
  exact ends

theorem endsNumber_append {blanks : List Char} (areSpaces : AreSpaces blanks)
    (ends : EndsNumber rest) : EndsNumber (blanks ++ rest) := by
  cases blanks with
  | nil => exact ends
  | cons first others =>
      have isSpace := areSpaces first List.mem_cons_self
      simp only [Json.isSpace, Bool.or_eq_true, beq_iff_eq] at isSpace
      rcases isSpace with ((rfl | rfl) | rfl) | rfl <;> exact endsNumber_cons _ (by decide)

theorem PairsHalves.of_suffix {text behind : List Char} (paired : PairsHalves text)
    (suffix : behind <:+ text) : PairsHalves behind := by
  obtain ⟨front, rfl⟩ := suffix
  intro before body units after same
  refine paired (front ++ before) body units after ?_
  rw [same, List.append_assoc]

theorem PairsHalves.isContent {body : List Char} {units : List Nat}
    (paired : PairsHalves ('"' :: (body ++ '"' :: rest))) (isBody : IsBody body units) :
    IsContent body units :=
  ⟨isBody, paired [] body units rest rfl isBody⟩

theorem PairsHalves.skipSpaces_tail {first : Char} {others : List Char}
    (paired : PairsHalves (first :: others)) : PairsHalves (skipSpaces others) :=
  paired.of_suffix ((List.dropWhile_suffix _).trans (List.suffix_cons _ _))

theorem PairsHalves.after_separator {text more : List Char} {separator : Char}
    (paired : PairsHalves text) (separated : skipSpaces text = separator :: more) :
    PairsHalves (skipSpaces more) := by
  have pairedBehind : PairsHalves (skipSpaces text) := paired.of_suffix (List.dropWhile_suffix _)
  rw [separated] at pairedBehind
  exact pairedBehind.skipSpaces_tail

/-! ### What is read is spelled -/

def ListsElements (room : Nat) (text rest : List Char) (values : List Json) : Prop :=
  ∃ (first : Element) (others : List Element),
    (∀ element ∈ first :: others, Spells room element.own element.value) ∧
    text = Text.unpieces ',' ((first :: others).map Element.text) ++ ']' :: rest ∧
    values = (first :: others).map Element.value

def ListsFields (room : Nat) (text rest : List Char) (written : List (String × Json)) : Prop :=
  ∃ (first : Field) (others : List Field),
    (∀ field ∈ first :: others, Spells room field.element.own field.element.value) ∧
    text = Text.unpieces ',' ((first :: others).map Field.text) ++ '\x7d' :: rest ∧
    written = (first :: others).map Field.entry

theorem ListsElements.spells {text rest : List Char} {values : List Json}
    (lists : ListsElements room text rest values) :
    ∃ own, Spells (room + 1) own (array values) ∧ '[' :: text = own ++ rest := by
  obtain ⟨first, others, each, rfl, rfl⟩ := lists
  exact ⟨_, @Spells.array _ _ (first :: others) (.parts (by simp)) each, by simp⟩

theorem ListsFields.spells {text rest : List Char} {written : List (String × Json)}
    (lists : ListsFields room text rest written) :
    ∃ own, Spells (room + 1) own (ofFields written) ∧ '\x7b' :: text = own ++ rest := by
  obtain ⟨first, others, each, rfl, rfl⟩ := lists
  exact ⟨_, @Spells.object _ _ (first :: others) (.parts (by simp)) each, by simp⟩

theorem ListsElements.cons {element : Element} (spelled : Spells room element.own element.value)
    {text rest : List Char} {values : List Json} (lists : ListsElements room text rest values) :
    ListsElements room (element.text ++ ',' :: text) rest (element.value :: values) := by
  obtain ⟨first, others, each, rfl, rfl⟩ := lists
  exact ⟨element, first :: others, List.forall_mem_cons.mpr ⟨spelled, each⟩,
    by simp [Text.unpieces], rfl⟩

theorem ListsFields.cons {field : Field}
    (spelled : Spells room field.element.own field.element.value)
    {text rest : List Char} {written : List (String × Json)}
    (lists : ListsFields room text rest written) :
    ListsFields room (field.text ++ ',' :: text) rest (field.entry :: written) := by
  obtain ⟨first, others, each, rfl, rfl⟩ := lists
  exact ⟨field, first :: others, List.forall_mem_cons.mpr ⟨spelled, each⟩,
    by simp [Text.unpieces], rfl⟩

/-- With this fuel, the three readers return what the grammar says. -/
structure IsSound (fuel : Nat) : Prop where
  value : ∀ {room : Nat} {text rest : List Char} {value : Json}, PairsHalves text →
    readValue fuel room text = .ok (value, rest) →
    ∃ own, Spells room own value ∧ text = own ++ rest
  elements : ∀ {room : Nat} {done : List Json} {before text rest : List Char} {value : Json},
    PairsHalves text → AreSpaces before →
    readElements fuel room done text = .ok (value, rest) →
    ∃ values, ListsElements room (before ++ text) rest values ∧
      value = array (done.reverse ++ values)
  fields : ∀ {room : Nat} {done : List (String × Json)} {before text rest : List Char}
    {value : Json}, PairsHalves text → AreSpaces before →
    readFields fuel room done text = .ok (value, rest) →
    ∃ written, ListsFields room (before ++ text) rest written ∧
      value = ofFields (done.reverse ++ written)

theorem spells_of_readUnquoted {text : List Char} {value : Json}
    (read : readUnquoted room text = .ok (value, rest)) :
    ∃ own, Spells room own value ∧ text = own ++ rest := by
  unfold readUnquoted at read
  split at read
  next found isConstant =>
    split at read
    next => contradiction
    next someRoom =>
      cases read
      obtain ⟨inner, rfl⟩ := Nat.exists_eq_succ_of_ne_zero someRoom
      obtain ⟨word, isListed, written⟩ := isListed_of_readListed isConstant
      exact ⟨word, .constant isListed, written⟩
  next =>
    rcases Option.or_eq_some_iff.mp (ReadError.expected_eq_ok_iff.mp read) with
      isWord | ⟨-, isNumber⟩
    · obtain ⟨word, isListed, written⟩ := isListed_of_readListed isWord
      exact ⟨word, .word isListed, written⟩
    · obtain ⟨own, isNumber, written⟩ := isNumber_of_readNumber isNumber
      exact ⟨own, .number isNumber, written⟩

theorem IsSound.value_succ (sound : IsSound fuel) {text : List Char} {value : Json}
    (paired : PairsHalves text) (read : readValue (fuel + 1) room text = .ok (value, rest)) :
    ∃ own, Spells room own value ∧ text = own ++ rest := by
  unfold readValue at read
  split at read
  next => contradiction
  next less none behindQuote same =>
    cases same
    split at read
    next => contradiction
    next content behind readText =>
      cases read
      obtain ⟨body, units, isBody, rfl, rfl⟩ := exists_body_of_readText readText
      exact ⟨_, .text (paired.isContent isBody), by simp⟩
  next => contradiction
  next less inner behindBracket same =>
    cases same
    obtain ⟨blanks, areSpaces, opened⟩ := exists_spaces behindBracket
    split at read
    next closed =>
      cases read
      rw [closed] at opened
      exact ⟨_, @Spells.array _ blanks [] (.blank areSpaces) (by simp), by simp [opened]⟩
    next =>
      obtain ⟨values, lists, rfl⟩ := sound.elements paired.skipSpaces_tail areSpaces read
      rw [opened]
      exact lists.spells
  next => contradiction
  next less inner behindBrace same =>
    cases same
    obtain ⟨blanks, areSpaces, opened⟩ := exists_spaces behindBrace
    split at read
    next closed =>
      cases read
      rw [closed] at opened
      exact ⟨_, @Spells.object _ blanks [] (.blank areSpaces) (by simp), by simp [opened]⟩
    next =>
      obtain ⟨written, lists, rfl⟩ := sound.fields paired.skipSpaces_tail areSpaces read
      rw [opened]
      exact lists.spells
  next => exact spells_of_readUnquoted read

theorem IsSound.exists_element (sound : IsSound fuel) {before text behind : List Char}
    {value : Json} (paired : PairsHalves text) (areSpaces : AreSpaces before)
    (read : readValue fuel room text = .ok (value, behind)) :
    ∃ element : Element, Spells room element.own element.value ∧ element.value = value ∧
      before ++ text = element.text ++ skipSpaces behind ∧ PairsHalves behind := by
  obtain ⟨own, spelled, rfl⟩ := sound.value paired read
  obtain ⟨after, areSpacesAfter, followed⟩ := exists_spaces behind
  refine ⟨⟨before, own, after, value, areSpaces, areSpacesAfter⟩, spelled, rfl, ?_,
    paired.of_suffix (List.suffix_append own behind)⟩
  conv_lhs => rw [followed]
  simp [Element.text]

theorem IsSound.elements_succ (sound : IsSound fuel) {done : List Json} {before text : List Char}
    {value : Json} (paired : PairsHalves text) (areSpaces : AreSpaces before)
    (read : readElements (fuel + 1) room done text = .ok (value, rest)) :
    ∃ values, ListsElements room (before ++ text) rest values ∧
      value = array (done.reverse ++ values) := by
  rw [readElements] at read
  split at read
  next => contradiction
  next content behind readValue =>
    obtain ⟨element, spelled, rfl, written, pairedBehind⟩ :=
      sound.exists_element paired areSpaces readValue
    rw [written]
    split at read
    next more comma =>
      obtain ⟨blanks, areSpacesBehind, opened⟩ := exists_spaces more
      obtain ⟨values, lists, rfl⟩ :=
        sound.elements (pairedBehind.after_separator comma) areSpacesBehind read
      rw [← opened] at lists
      rw [comma]
      exact ⟨_, .cons spelled lists, by simp⟩
    next closed =>
      cases read
      refine ⟨[element.value], ⟨element, [], by simpa using spelled, ?_, rfl⟩, by simp⟩
      rw [closed]
      rfl
    next => contradiction

theorem IsSound.exists_field (sound : IsSound fuel)
    {before text behindKey behindColon behind : List Char} {key : String} {value : Json}
    (paired : PairsHalves ('"' :: text)) (areSpaces : AreSpaces before)
    (named : readText text = some (key, behindKey))
    (colon : skipSpaces behindKey = ':' :: behindColon)
    (read : readValue fuel room (skipSpaces behindColon) = .ok (value, behind)) :
    ∃ field : Field, Spells room field.element.own field.element.value ∧
      field.entry = (key, value) ∧ before ++ '"' :: text = field.text ++ skipSpaces behind ∧
      PairsHalves behind := by
  obtain ⟨body, units, isBody, rfl, rfl⟩ := exists_body_of_readText named
  have pairedBehindKey : PairsHalves behindKey :=
    paired.of_suffix ⟨'"' :: (body ++ ['"']), by simp⟩
  obtain ⟨after, areSpacesAfter, followed⟩ := exists_spaces behindKey
  obtain ⟨lead, areSpacesLead, led⟩ := exists_spaces behindColon
  obtain ⟨element, spelled, rfl, written, pairedBehind⟩ :=
    sound.exists_element (pairedBehindKey.after_separator colon) areSpacesLead read
  let field : Field :=
    ⟨before, body, units, after, element, areSpaces, paired.isContent isBody, areSpacesAfter⟩
  refine ⟨field, spelled, rfl, ?_, pairedBehind⟩
  have continued : behindKey = after ++ ':' :: (element.text ++ skipSpaces behind) := by
    rw [followed, colon, led, written]
  simp [continued, field, Field.text]

theorem IsSound.fields_succ (sound : IsSound fuel) {done : List (String × Json)}
    {before text : List Char} {value : Json} (paired : PairsHalves text)
    (areSpaces : AreSpaces before)
    (read : readFields (fuel + 1) room done text = .ok (value, rest)) :
    ∃ written, ListsFields room (before ++ text) rest written ∧
      value = ofFields (done.reverse ++ written) := by
  unfold readFields at read
  split at read
  next => contradiction
  next behindQuote same =>
    cases same
    split at read
    next => contradiction
    next key behindKey named =>
      split at read
      next behindColon colon =>
        split at read
        next => contradiction
        next content behind readValue =>
          obtain ⟨field, spelled, entry, written, pairedBehind⟩ :=
            sound.exists_field paired areSpaces named colon readValue
          rw [written]
          split at read
          next more comma =>
            obtain ⟨blanks, areSpacesBehind, opened⟩ := exists_spaces more
            obtain ⟨others, lists, rfl⟩ :=
              sound.fields (pairedBehind.after_separator comma) areSpacesBehind read
            rw [← opened] at lists
            rw [comma]
            exact ⟨_, .cons spelled lists, by simp [entry]⟩
          next closed =>
            cases read
            refine ⟨[field.entry], ⟨field, [], by simpa using spelled, ?_, rfl⟩, by simp [entry]⟩
            rw [closed]
            rfl
          next => contradiction
      next => contradiction
  next => contradiction

theorem isSound (fuel : Nat) : IsSound fuel := by
  induction fuel with
  | zero =>
      constructor
      · intro room text rest value _ read
        rw [readValue] at read
        contradiction
      · intro room done before text rest value _ _ read
        rw [readElements] at read
        contradiction
      · intro room done before text rest value _ _ read
        rw [readFields] at read
        contradiction
  | succ fuel sound => exact ⟨sound.value_succ, sound.elements_succ, sound.fields_succ⟩

/-! ### What is spelled is read -/

/-- The reader takes the value from its text and leaves what stands behind it. -/
structure IsRead (room : Nat) (own : List Char) (value : Json) : Prop where
  starts : ∃ first others, own = first :: others ∧ isSpace first = false ∧ first ≠ ']'
  reads : ∀ fuel rest, own.length ≤ fuel → EndsNumber rest →
    readValue fuel room (own ++ rest) = .ok (value, rest)

variable {own : List Char} {value : Json}

theorem IsRead.skipSpaces (isRead : IsRead room own value) {before : List Char}
    (areSpaces : AreSpaces before) (rest : List Char) :
    skipSpaces (before ++ (own ++ rest)) = own ++ rest := by
  obtain ⟨first, others, rfl, solid, -⟩ := isRead.starts
  rw [skipSpaces_append areSpaces, List.cons_append, skipSpaces_cons solid]

theorem IsRead.length_pos (isRead : IsRead room own value) : 0 < own.length := by
  obtain ⟨first, others, rfl, -⟩ := isRead.starts
  exact Nat.succ_pos _

theorem readValue_cons {first : Char} (notText : first ≠ '"') (notArray : first ≠ '[')
    (notObject : first ≠ '\x7b') (fuel room : Nat) (others : List Char) :
    readValue (fuel + 1) room (first :: others) = readUnquoted room (first :: others) := by
  rw [readValue] <;> simp [notText, notArray, notObject]

theorem isRead_of_first {first : Char} {others : List Char} {value : Json}
    (solid : isSpace first = false)
    (notEnclosed : first ≠ '"' ∧ first ≠ '[' ∧ first ≠ ']' ∧ first ≠ '\x7b')
    (reads : ∀ rest, EndsNumber rest →
      readUnquoted room (first :: others ++ rest) = .ok (value, rest)) :
    IsRead room (first :: others) value where
  starts := ⟨first, others, rfl, solid, notEnclosed.2.2.1⟩
  reads := by
    intro fuel rest enough ends
    obtain ⟨less, rfl⟩ : ∃ less, fuel = less + 1 := ⟨fuel - 1, by simp at enough; omega⟩
    rw [List.cons_append, readValue_cons notEnclosed.1 notEnclosed.2.1 notEnclosed.2.2.2]
    exact reads rest ends

theorem isRead_word (isWord : (own, value) ∈ words) : IsRead room own value := by
  have reads (rest : List Char) : readUnquoted room (own ++ rest) = .ok (value, rest) := by
    rw [readUnquoted, readListed_constants_of_word isWord, readListed_append (.inl rfl) isWord]
    rfl
  simp only [words, List.mem_cons, List.not_mem_nil, or_false, Prod.mk.injEq] at isWord
  rcases isWord with ⟨rfl, rfl⟩ | ⟨rfl, rfl⟩ | ⟨rfl, rfl⟩
  all_goals exact isRead_of_first (by decide) (by decide) fun rest _ => reads rest

theorem isRead_constant (isConstant : (own, value) ∈ constants) : IsRead (room + 1) own value := by
  have reads (rest : List Char) : readUnquoted (room + 1) (own ++ rest) = .ok (value, rest) := by
    rw [readUnquoted, readListed_append (.inr rfl) isConstant]
    rfl
  simp only [constants, List.mem_cons, List.not_mem_nil, or_false, Prod.mk.injEq] at isConstant
  rcases isConstant with ⟨rfl, rfl⟩ | ⟨rfl, rfl⟩ | ⟨rfl, rfl⟩
  all_goals exact isRead_of_first (by decide) (by decide) fun rest _ => reads rest

theorem isRead_number (isNumber : IsNumber own value) : IsRead room own value := by
  have reads (rest : List Char) (ends : EndsNumber rest) :
      readUnquoted room (own ++ rest) = .ok (value, rest) := by
    obtain ⟨noWord, noConstant⟩ := @readListed_of_isNumber rest _ _ isNumber
    rw [readUnquoted, noConstant, noWord, readNumber_append isNumber ends]
    rfl
  obtain ⟨negative, first, others, rfl, isDigit⟩ := isNumber.exists_digit
  cases negative with
  | true => exact isRead_of_first (by decide) (by decide) reads
  | false =>
      have differs {letter : Char} (noDigit : letter.isDigit = false) : first ≠ letter :=
        (ne_of_isDigit isDigit noDigit).symm
      refine isRead_of_first ?_ ⟨differs rfl, differs rfl, differs rfl, differs rfl⟩ reads
      simp [isSpace, @differs ' ' rfl, @differs '\t' rfl, @differs '\n' rfl, @differs '\r' rfl]

theorem isRead_text {body : List Char} {units : List Nat} (isBody : IsBody body units) :
    IsRead room ('"' :: (body ++ ['"'])) (string (textOfUnits units)) where
  starts := ⟨'"', _, rfl, by decide, by decide⟩
  reads := by
    intro fuel rest enough _
    obtain ⟨less, rfl⟩ : ∃ less, fuel = less + 1 := ⟨fuel - 1, by simp at enough; omega⟩
    rw [List.cons_append, List.append_assoc, readValue, List.singleton_append,
      readText_append isBody]

theorem Element.skipSpaces_after (element : Element) {separator : Char}
    (separates : separator = ',' ∨ separator = ']' ∨ separator = '\x7d') (behind : List Char) :
    EndsNumber (element.after ++ separator :: behind) ∧
      skipSpaces (element.after ++ separator :: behind) = separator :: behind := by
  rw [skipSpaces_append element.areSpacesAfter]
  rcases separates with rfl | rfl | rfl <;>
    exact ⟨endsNumber_append element.areSpacesAfter (endsNumber_cons _ (by decide)),
      skipSpaces_cons (by decide) _⟩

theorem readElements_element {element : Element} (isRead : IsRead room element.own element.value)
    (done : List Json) (enough : element.own.length ≤ fuel) {separator : Char}
    (separates : separator = ',' ∨ separator = ']') (behind : List Char) :
    readElements (fuel + 1) room done (skipSpaces (element.text ++ separator :: behind)) =
      if separator = ',' then readElements fuel room (element.value :: done) (skipSpaces behind)
      else .ok (array (element.value :: done).reverse, behind) := by
  obtain ⟨ends, skipped⟩ := element.skipSpaces_after (separates.imp_right .inl) behind
  rw [Element.text, List.append_assoc, List.append_assoc,
    isRead.skipSpaces element.areSpacesBefore, readElements, isRead.reads fuel _ enough ends]
  dsimp only
  rw [skipped]
  rcases separates with rfl | rfl <;> rfl

theorem readElements_listing {first : Element} {others : List Element}
    (each : ∀ element ∈ first :: others, IsRead room element.own element.value) (done : List Json)
    (enough : (Text.unpieces ',' ((first :: others).map Element.text)).length < fuel) :
    readElements fuel room done
        (skipSpaces (Text.unpieces ',' ((first :: others).map Element.text) ++ ']' :: rest)) =
      .ok (array (done.reverse ++ (first :: others).map Element.value), rest) := by
  -- Each element takes one unit more than its own text, and the comma behind it pays for that.
  induction others generalizing first done fuel with
  | nil =>
      obtain ⟨less, rfl⟩ : ∃ less, fuel = less + 1 := ⟨fuel - 1, by omega⟩
      have enoughOwn : first.own.length ≤ less := by
        simp only [List.map_cons, List.map_nil, Text.unpieces, Element.text, List.length_append]
          at enough
        omega
      have read :=
        readElements_element (each first List.mem_cons_self) done enoughOwn (.inr rfl) rest
      rw [if_neg (by decide), List.reverse_cons] at read
      exact read
  | cons second others inductionHypothesis =>
      obtain ⟨less, rfl⟩ : ∃ less, fuel = less + 1 := ⟨fuel - 1, by omega⟩
      rw [List.forall_mem_cons] at each
      have positive := each.1.length_pos
      rw [List.map_cons, Text.unpieces_cons ',' _ (by simp)] at enough ⊢
      rw [List.length_append, List.length_cons, Element.text, List.length_append,
        List.length_append] at enough
      have enoughOwn : first.own.length ≤ less := by omega
      rw [List.append_assoc, List.cons_append,
        readElements_element each.1 done enoughOwn (.inl rfl), if_pos rfl,
        inductionHypothesis each.2 (first.value :: done) (by omega)]
      simp

theorem readFields_field {field : Field}
    (isRead : IsRead room field.element.own field.element.value)
    (done : List (String × Json)) (enough : field.element.own.length ≤ fuel) {separator : Char}
    (separates : separator = ',' ∨ separator = '\x7d') (behind : List Char) :
    readFields (fuel + 1) room done (skipSpaces (field.text ++ separator :: behind)) =
      if separator = ',' then readFields fuel room (field.entry :: done) (skipSpaces behind)
      else .ok (ofFields (field.entry :: done).reverse, behind) := by
  obtain ⟨ends, skipped⟩ := field.element.skipSpaces_after (separates.imp_right .inr) behind
  have skippedKey (more : List Char) : skipSpaces (field.after ++ ':' :: more) = ':' :: more := by
    rw [skipSpaces_append field.areSpacesAfter]
    exact skipSpaces_cons (by decide) _
  simp only [Field.text, Element.text, List.append_assoc, List.cons_append]
  rw [skipSpaces_append field.areSpacesBefore, skipSpaces_cons (by decide), readFields,
    readText_append field.isContent.isBody]
  dsimp only
  rw [skippedKey]
  split
  next behindColon same =>
    cases same
    rw [isRead.skipSpaces field.element.areSpacesBefore, isRead.reads fuel _ enough ends]
    dsimp only
    rw [skipped]
    rcases separates with rfl | rfl <;> rfl
  next noColon => exact absurd rfl (noColon _)

theorem readFields_listing {first : Field} {others : List Field}
    (each : ∀ field ∈ first :: others, IsRead room field.element.own field.element.value)
    (done : List (String × Json))
    (enough : (Text.unpieces ',' ((first :: others).map Field.text)).length < fuel) :
    readFields fuel room done
        (skipSpaces (Text.unpieces ',' ((first :: others).map Field.text) ++ '\x7d' :: rest)) =
      .ok (ofFields (done.reverse ++ (first :: others).map Field.entry), rest) := by
  induction others generalizing first done fuel with
  | nil =>
      obtain ⟨less, rfl⟩ : ∃ less, fuel = less + 1 := ⟨fuel - 1, by omega⟩
      have enoughOwn : first.element.own.length ≤ less := by
        simp only [List.map_cons, List.map_nil, Text.unpieces, Field.text, Element.text,
          List.length_append, List.length_cons] at enough
        omega
      have read := readFields_field (each first List.mem_cons_self) done enoughOwn (.inr rfl) rest
      rw [if_neg (by decide), List.reverse_cons] at read
      exact read
  | cons second others inductionHypothesis =>
      obtain ⟨less, rfl⟩ : ∃ less, fuel = less + 1 := ⟨fuel - 1, by omega⟩
      rw [List.forall_mem_cons] at each
      rw [List.map_cons, Text.unpieces_cons ',' _ (by simp)] at enough ⊢
      simp only [List.length_append, List.length_cons, Field.text, Element.text] at enough
      have enoughOwn : first.element.own.length ≤ less := by omega
      rw [List.append_assoc, List.cons_append,
        readFields_field each.1 done enoughOwn (.inl rfl), if_pos rfl,
        inductionHypothesis each.2 (first.entry :: done) (by omega)]
      simp

theorem exists_unpieces_eq_append (first : List Char) (others : List (List Char)) :
    ∃ more, Text.unpieces ',' (first :: others) = first ++ more := by
  cases others with
  | nil => exact ⟨[], (List.append_nil _).symm⟩
  | cons second others => exact ⟨_, rfl⟩

theorem IsListing.cases_parts {Part : Type} {text : Part → List Char} {inside : List Char}
    {parts : List Part} (listing : IsListing inside (parts.map text)) :
    parts = [] ∧ AreSpaces inside ∨
      ∃ first others, parts = first :: others ∧
        inside = Text.unpieces ',' ((first :: others).map text) := by
  generalize isMapped : parts.map text = mapped at listing
  cases listing with
  | blank areSpaces => exact .inl ⟨List.map_eq_nil_iff.mp isMapped, areSpaces⟩
  | parts someParts =>
      rw [← isMapped, ne_eq, List.map_eq_nil_iff] at someParts
      obtain ⟨first, others, rfl⟩ := List.exists_cons_of_ne_nil someParts
      exact .inr ⟨first, others, rfl, by rw [isMapped]⟩

theorem readValue_array {inside others : List Char} {first : Char}
    (filled : skipSpaces inside = first :: others) (notClosed : first ≠ ']') (fuel room : Nat) :
    readValue (fuel + 1) (room + 1) ('[' :: inside) =
      readElements fuel room [] (skipSpaces inside) := by
  rw [readValue, filled]
  split
  next closed => exact absurd (List.cons.inj closed).1 notClosed
  next => rfl

theorem readValue_object {inside others : List Char} {first : Char}
    (filled : skipSpaces inside = first :: others) (notClosed : first ≠ '\x7d')
    (fuel room : Nat) :
    readValue (fuel + 1) (room + 1) ('\x7b' :: inside) =
      readFields fuel room [] (skipSpaces inside) := by
  rw [readValue, filled]
  split
  next closed => exact absurd (List.cons.inj closed).1 notClosed
  next => rfl

theorem Element.exists_opening {element : Element} (isRead : IsRead room element.own element.value)
    (more : List Char) :
    ∃ first others, skipSpaces (element.text ++ more) = first :: others ∧ first ≠ ']' := by
  obtain ⟨first, others, written, -, notClosed⟩ := isRead.starts
  rw [Element.text, List.append_assoc, List.append_assoc,
    isRead.skipSpaces element.areSpacesBefore, written]
  exact ⟨first, _, rfl, notClosed⟩

theorem Field.exists_opening (field : Field) (more : List Char) :
    ∃ others, skipSpaces (field.text ++ more) = '"' :: others := by
  rw [Field.text, List.append_assoc, skipSpaces_append field.areSpacesBefore, List.cons_append,
    skipSpaces_cons (by decide)]
  exact ⟨_, rfl⟩

theorem isRead_array {inside : List Char} {elements : List Element}
    (listing : IsListing inside (elements.map Element.text))
    (each : ∀ element ∈ elements, IsRead room element.own element.value) :
    IsRead (room + 1) ('[' :: (inside ++ [']'])) (array (elements.map Element.value)) where
  starts := ⟨'[', _, rfl, by decide, by decide⟩
  reads := by
    intro fuel rest enough _
    rw [List.length_cons, List.length_append] at enough
    obtain ⟨less, rfl⟩ : ∃ less, fuel = less + 1 := ⟨fuel - 1, by omega⟩
    rw [List.cons_append, List.append_assoc, List.singleton_append]
    obtain ⟨rfl, areSpaces⟩ | ⟨first, others, rfl, rfl⟩ := listing.cases_parts
    · rw [readValue, skipSpaces_append areSpaces, skipSpaces_cons (by decide)]
      rfl
    · obtain ⟨more, opened⟩ := exists_unpieces_eq_append first.text (others.map Element.text)
      obtain ⟨opening, _, filled, notClosed⟩ :=
        Element.exists_opening (each first List.mem_cons_self) (more ++ ']' :: rest)
      rw [← List.append_assoc, ← opened, ← List.map_cons] at filled
      rw [readValue_array filled notClosed]
      exact readElements_listing each [] (by simp at enough ⊢; omega)

theorem isRead_object {inside : List Char} {fields : List Field}
    (listing : IsListing inside (fields.map Field.text))
    (each : ∀ field ∈ fields, IsRead room field.element.own field.element.value) :
    IsRead (room + 1) ('\x7b' :: (inside ++ ['\x7d'])) (ofFields (fields.map Field.entry)) where
  starts := ⟨'\x7b', _, rfl, by decide, by decide⟩
  reads := by
    intro fuel rest enough _
    rw [List.length_cons, List.length_append] at enough
    obtain ⟨less, rfl⟩ : ∃ less, fuel = less + 1 := ⟨fuel - 1, by omega⟩
    rw [List.cons_append, List.append_assoc, List.singleton_append]
    obtain ⟨rfl, areSpaces⟩ | ⟨first, others, rfl, rfl⟩ := listing.cases_parts
    · rw [readValue, skipSpaces_append areSpaces, skipSpaces_cons (by decide)]
      rfl
    · obtain ⟨more, opened⟩ := exists_unpieces_eq_append first.text (others.map Field.text)
      obtain ⟨_, filled⟩ := first.exists_opening (more ++ '\x7d' :: rest)
      rw [← List.append_assoc, ← opened, ← List.map_cons] at filled
      rw [readValue_object filled (by decide)]
      exact readFields_listing each [] (by simp at enough ⊢; omega)

theorem Spells.isRead (spelled : Spells room own value) : IsRead room own value := by
  induction spelled with
  | word isWord => exact isRead_word isWord
  | constant isConstant => exact isRead_constant isConstant
  | number isNumber => exact isRead_number isNumber
  | text isContent => exact isRead_text isContent.isBody
  | array listing _ inductionHypothesis => exact isRead_array listing inductionHypothesis
  | object listing _ inductionHypothesis => exact isRead_object listing inductionHypothesis

/-! ### Whole texts -/

theorem IsText.read_eq {text : List Char} (holds : IsText room text value) :
    read room text = .ok value := by
  obtain ⟨before, own, after, areSpaces, areSpacesAfter, spelled, rfl⟩ := holds
  have isRead := spelled.isRead
  have atEnd : EndsNumber [] := fun character isFirst => by contradiction
  have ends := endsNumber_append areSpacesAfter atEnd
  rw [List.append_nil] at ends
  have skipped := skipSpaces_append areSpacesAfter []
  rw [List.append_nil] at skipped
  rw [read, isRead.skipSpaces areSpaces, isRead.reads _ _ (by simp; omega) ends]
  dsimp only
  rw [skipped]
  rfl

end Json

end IgnoreRules
