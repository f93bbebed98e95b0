import IgnoreRules.Proofs.Json.Reading

/-!
Texts that are nested too deep.  The reader gives up at a level that it has no room for exactly
where the grammar says that the text overflows: whatever is complete before it has been read by then,
and what stands behind it is not looked at.
-/

namespace IgnoreRules

namespace Json

variable {fuel room : Nat} {innermost : Nesting}

/-! ### What is given up overflows -/

def OverflowsBehindElements (room : Nat) (innermost : Nesting) (text : List Char) : Prop :=
  ∃ (elements : List Element) (before rest : List Char),
    (∀ element ∈ elements, Spells room element.own element.value) ∧ AreSpaces before ∧
    Overflows room innermost rest ∧
    text = elements.flatMap (fun element => element.text ++ [',']) ++ (before ++ rest)

def OverflowsBehindFields (room : Nat) (innermost : Nesting) (text : List Char) : Prop :=
  ∃ (fields : List Field) (before body after lead rest : List Char) (units : List Nat),
    (∀ field ∈ fields, Spells room field.element.own field.element.value) ∧
    AreSpaces before ∧ IsContent body units ∧ AreSpaces after ∧ AreSpaces lead ∧
    Overflows room innermost rest ∧
    text = fields.flatMap (fun field => field.text ++ [',']) ++
      (before ++ '"' :: (body ++ '"' :: (after ++ ':' :: (lead ++ rest))))

theorem OverflowsBehindElements.cons {element : Element}
    (spelled : Spells room element.own element.value) {text : List Char}
    (overflows : OverflowsBehindElements room innermost text) :
    OverflowsBehindElements room innermost (element.text ++ ',' :: text) := by
  obtain ⟨elements, before, rest, each, areSpaces, inside, rfl⟩ := overflows
  exact ⟨element :: elements, before, rest, List.forall_mem_cons.mpr ⟨spelled, each⟩, areSpaces,
    inside, by simp⟩

theorem OverflowsBehindFields.cons {field : Field}
    (spelled : Spells room field.element.own field.element.value) {text : List Char}
    (overflows : OverflowsBehindFields room innermost text) :
    OverflowsBehindFields room innermost (field.text ++ ',' :: text) := by
  obtain ⟨fields, before, body, after, lead, rest, units, each, others⟩ := overflows
  obtain ⟨areSpacesBefore, isContent, areSpacesAfter, areSpacesLead, inside, rfl⟩ := others
  exact ⟨field :: fields, before, body, after, lead, rest, units,
    List.forall_mem_cons.mpr ⟨spelled, each⟩, areSpacesBefore, isContent, areSpacesAfter,
    areSpacesLead, inside, by simp⟩

/-- With this fuel, the three readers give up only where the text overflows. -/
structure LocatesOverflow (fuel : Nat) : Prop where
  value : ∀ {room : Nat} {innermost : Nesting} {text : List Char}, PairsHalves text →
    readValue fuel room text = .error (.tooDeep innermost) → Overflows room innermost text
  elements : ∀ {room : Nat} {innermost : Nesting} {done : List Json} {before text : List Char},
    PairsHalves text → AreSpaces before →
    readElements fuel room done text = .error (.tooDeep innermost) →
    OverflowsBehindElements room innermost (before ++ text)
  fields : ∀ {room : Nat} {innermost : Nesting} {done : List (String × Json)}
    {before text : List Char}, PairsHalves text → AreSpaces before →
    readFields fuel room done text = .error (.tooDeep innermost) →
    OverflowsBehindFields room innermost (before ++ text)

theorem ReadError.reported_ne_tooDeep (room : Nat) : reported room ≠ .tooDeep innermost := by
  unfold reported
  split <;> simp

theorem ReadError.expected_ne_tooDeep {Alpha : Type} (found? : Option Alpha) :
    expected found? ≠ .error (.tooDeep innermost) := by
  cases found? <;> simp [expected]

theorem overflows_of_readUnquoted {text : List Char}
    (gaveUp : readUnquoted room text = .error (.tooDeep innermost)) :
    Overflows room innermost text := by
  unfold readUnquoted at gaveUp
  split at gaveUp
  next found isConstant =>
    split at gaveUp
    next noRoom =>
      cases gaveUp
      obtain ⟨word, isListed, written⟩ := isListed_of_readListed isConstant
      rw [noRoom, written]
      exact .constant isListed
    next => contradiction
  next => exact absurd gaveUp (ReadError.expected_ne_tooDeep _)

theorem LocatesOverflow.value_succ (locates : LocatesOverflow fuel) {text : List Char}
    (paired : PairsHalves text)
    (gaveUp : readValue (fuel + 1) room text = .error (.tooDeep innermost)) :
    Overflows room innermost text := by
  unfold readValue at gaveUp
  split at gaveUp
  next => contradiction
  next =>
    split at gaveUp
    next => exact absurd (Except.error.inj gaveUp) (ReadError.reported_ne_tooDeep _)
    next => contradiction
  next same =>
    cases gaveUp
    exact .array
  next less inner behindBracket same =>
    cases same
    obtain ⟨blanks, areSpaces, opened⟩ := exists_spaces behindBracket
    split at gaveUp
    next => contradiction
    next =>
      obtain ⟨elements, before, rest, each, areSpacesBefore, inside, written⟩ :=
        locates.elements paired.skipSpaces_tail areSpaces gaveUp
      rw [opened, written]
      exact .element each areSpacesBefore inside
  next same =>
    cases gaveUp
    exact .object
  next less inner behindBrace same =>
    cases same
    obtain ⟨blanks, areSpaces, opened⟩ := exists_spaces behindBrace
    split at gaveUp
    next => contradiction
    next =>
      obtain ⟨fields, before, body, after, lead, rest, units, each, others⟩ :=
        locates.fields paired.skipSpaces_tail areSpaces gaveUp
      obtain ⟨areSpacesBefore, isContent, areSpacesAfter, areSpacesLead, inside, written⟩ := others
      rw [opened, written]
      exact .field each areSpacesBefore isContent areSpacesAfter areSpacesLead inside
  next => exact overflows_of_readUnquoted gaveUp

theorem LocatesOverflow.elements_succ (locates : LocatesOverflow fuel) {done : List Json}
    {before text : List Char} (paired : PairsHalves text) (areSpaces : AreSpaces before)
    (gaveUp : readElements (fuel + 1) room done text = .error (.tooDeep innermost)) :
    OverflowsBehindElements room innermost (before ++ text) := by
  rw [readElements] at gaveUp
  split at gaveUp
  next failed =>
    cases gaveUp
    exact ⟨[], before, text, by simp, areSpaces, locates.value paired failed, rfl⟩
  next content behind readValue =>
    obtain ⟨element, spelled, rfl, written, pairedBehind⟩ :=
      (isSound fuel).exists_element paired areSpaces readValue
    rw [written]
    split at gaveUp
    next more comma =>
      obtain ⟨blanks, areSpacesBehind, opened⟩ := exists_spaces more
      have overflows :=
        locates.elements (pairedBehind.after_separator comma) areSpacesBehind gaveUp
      rw [← opened] at overflows
      rw [comma]
      exact overflows.cons spelled
    next => contradiction
    next => exact absurd (Except.error.inj gaveUp) (ReadError.reported_ne_tooDeep _)

theorem LocatesOverflow.fields_succ (locates : LocatesOverflow fuel)
    {done : List (String × Json)} {before text : List Char} (paired : PairsHalves text)
    (areSpaces : AreSpaces before)
    (gaveUp : readFields (fuel + 1) room done text = .error (.tooDeep innermost)) :
    OverflowsBehindFields room innermost (before ++ text) := by
  unfold readFields at gaveUp
  split at gaveUp
  next => contradiction
  next behindQuote same =>
    cases same
    split at gaveUp
    next => exact absurd (Except.error.inj gaveUp) (ReadError.reported_ne_tooDeep _)
    next key behindKey named =>
      split at gaveUp
      next behindColon colon =>
        split at gaveUp
        next failed =>
          cases gaveUp
          obtain ⟨body, units, isBody, rfl, rfl⟩ := exists_body_of_readText named
          have pairedBehindKey : PairsHalves behindKey :=
            paired.of_suffix ⟨'"' :: (body ++ ['"']), by simp⟩
          obtain ⟨after, areSpacesAfter, followed⟩ := exists_spaces behindKey
          obtain ⟨lead, areSpacesLead, led⟩ := exists_spaces behindColon
          have inside := locates.value (pairedBehindKey.after_separator colon) failed
          have continued : behindKey = after ++ ':' :: (lead ++ skipSpaces behindColon) := by
            rw [← led, ← colon, ← followed]
          exact ⟨[], before, body, after, lead, _, units, by simp, areSpaces,
            paired.isContent isBody, areSpacesAfter, areSpacesLead, inside, by simp [← continued]⟩
        next content behind readValue =>
          obtain ⟨field, spelled, -, written, pairedBehind⟩ :=
            (isSound fuel).exists_field paired areSpaces named colon readValue
          rw [written]
          split at gaveUp
          next more comma =>
            obtain ⟨blanks, areSpacesBehind, opened⟩ := exists_spaces more
            have overflows :=
              locates.fields (pairedBehind.after_separator comma) areSpacesBehind gaveUp
            rw [← opened] at overflows
            rw [comma]
            exact overflows.cons spelled
          next => contradiction
          next => exact absurd (Except.error.inj gaveUp) (ReadError.reported_ne_tooDeep _)
      next => exact absurd (Except.error.inj gaveUp) (ReadError.reported_ne_tooDeep _)
  next => exact absurd (Except.error.inj gaveUp) (ReadError.reported_ne_tooDeep _)

/-- The reader gives up on a text, however much fuel it has. -/
structure IsGivenUp (room : Nat) (innermost : Nesting) (text : List Char) : Prop where
  starts : ∃ first others, text = first :: others ∧ isSpace first = false ∧ first ≠ ']'
  fails : ∀ fuel, 2 * text.length ≤ fuel → readValue fuel room text = .error (.tooDeep innermost)

variable {rest : List Char}

theorem IsGivenUp.skipSpaces_append (givenUp : IsGivenUp room innermost rest)
    {before : List Char} (areSpaces : AreSpaces before) :
    skipSpaces (before ++ rest) = rest := by
  obtain ⟨first, others, rfl, solid, -⟩ := givenUp.starts
  rw [Json.skipSpaces_append areSpaces, skipSpaces_cons solid]

theorem IsGivenUp.readElements_eq (givenUp : IsGivenUp room innermost rest)
    {elements : List Element} (each : ∀ element ∈ elements, IsRead room element.own element.value)
    {before : List Char} (areSpaces : AreSpaces before) (done : List Json)
    (enough : 2 * (elements.flatMap (fun element => element.text ++ [',']) ++
      (before ++ rest)).length < fuel) :
    readElements fuel room done
        (skipSpaces (elements.flatMap (fun element => element.text ++ [',']) ++
          (before ++ rest))) = .error (.tooDeep innermost) := by
  induction elements generalizing done fuel with
  | nil =>
      obtain ⟨less, rfl⟩ : ∃ less, fuel = less + 1 := ⟨fuel - 1, by omega⟩
      simp only [List.flatMap_nil, List.nil_append, List.length_append] at enough ⊢
      rw [givenUp.skipSpaces_append areSpaces, readElements, givenUp.fails less (by omega)]
  | cons element elements inductionHypothesis =>
      obtain ⟨less, rfl⟩ : ∃ less, fuel = less + 1 := ⟨fuel - 1, by omega⟩
      rw [List.forall_mem_cons] at each
      simp only [List.flatMap_cons, List.append_assoc, List.cons_append, List.nil_append]
        at enough ⊢
      rw [List.length_append, Element.text, List.length_append, List.length_append,
        List.length_cons] at enough
      rw [readElements_element each.1 done (by omega) (.inl rfl), if_pos rfl]
      exact inductionHypothesis each.2 _ (by omega)

theorem IsGivenUp.readFields_value (givenUp : IsGivenUp room innermost rest)
    {before body after lead : List Char} {units : List Nat} (areSpaces : AreSpaces before)
    (isBody : IsBody body units) (areSpacesAfter : AreSpaces after)
    (areSpacesLead : AreSpaces lead) (done : List (String × Json))
    (enough : 2 * rest.length ≤ fuel) :
    readFields (fuel + 1) room done
        (skipSpaces (before ++ '"' :: (body ++ '"' :: (after ++ ':' :: (lead ++ rest))))) =
      .error (.tooDeep innermost) := by
  rw [Json.skipSpaces_append areSpaces, skipSpaces_cons (by decide), readFields,
    readText_append isBody]
  dsimp only
  rw [Json.skipSpaces_append areSpacesAfter, skipSpaces_cons (by decide)]
  split
  next behindColon same =>
    cases same
    rw [givenUp.skipSpaces_append areSpacesLead, givenUp.fails fuel enough]
  next noColon => exact absurd rfl (noColon _)

theorem IsGivenUp.readFields_eq (givenUp : IsGivenUp room innermost rest)
    {fields : List Field}
    (each : ∀ field ∈ fields, IsRead room field.element.own field.element.value)
    {before body after lead : List Char} {units : List Nat} (areSpaces : AreSpaces before)
    (isBody : IsBody body units) (areSpacesAfter : AreSpaces after)
    (areSpacesLead : AreSpaces lead) (done : List (String × Json))
    (enough : 2 * (fields.flatMap (fun field => field.text ++ [',']) ++
      (before ++ '"' :: (body ++ '"' :: (after ++ ':' :: (lead ++ rest))))).length < fuel) :
    readFields fuel room done
        (skipSpaces (fields.flatMap (fun field => field.text ++ [',']) ++
          (before ++ '"' :: (body ++ '"' :: (after ++ ':' :: (lead ++ rest)))))) =
      .error (.tooDeep innermost) := by
  induction fields generalizing done fuel with
  | nil =>
      obtain ⟨less, rfl⟩ : ∃ less, fuel = less + 1 := ⟨fuel - 1, by omega⟩
      simp only [List.flatMap_nil, List.nil_append, List.length_append, List.length_cons] at enough
      exact givenUp.readFields_value areSpaces isBody areSpacesAfter areSpacesLead done (by omega)
  | cons field fields inductionHypothesis =>
      obtain ⟨less, rfl⟩ : ∃ less, fuel = less + 1 := ⟨fuel - 1, by omega⟩
      rw [List.forall_mem_cons] at each
      simp only [List.flatMap_cons, List.append_assoc, List.cons_append, List.nil_append]
        at enough ⊢
      have shorter : field.element.own.length ≤ field.text.length := by
        simp only [Field.text, Element.text, List.length_append, List.length_cons]
        omega
      rw [List.length_append, List.length_cons] at enough
      rw [readFields_field each.1 done (by omega) (.inl rfl), if_pos rfl]
      exact inductionHypothesis each.2 _ (by omega)

theorem isGivenUp_array {elements : List Element}
    (each : ∀ element ∈ elements, IsRead room element.own element.value) {before : List Char}
    (areSpaces : AreSpaces before) (givenUp : IsGivenUp room innermost rest) :
    IsGivenUp (room + 1) innermost
      ('[' :: (elements.flatMap (fun element => element.text ++ [',']) ++ (before ++ rest))) where
  starts := ⟨'[', _, rfl, by decide, by decide⟩
  fails := by
    intro fuel enough
    rw [List.length_cons] at enough
    obtain ⟨less, rfl⟩ : ∃ less, fuel = less + 1 := ⟨fuel - 1, by omega⟩
    have opening : ∃ first others,
        skipSpaces (elements.flatMap (fun element => element.text ++ [',']) ++ (before ++ rest)) =
          first :: others ∧ first ≠ ']' := by
      cases elements with
      | nil =>
          obtain ⟨first, others, written, -, notClosed⟩ := givenUp.starts
          exact ⟨first, others, (givenUp.skipSpaces_append areSpaces).trans written, notClosed⟩
      | cons element elements =>
          rw [List.flatMap_cons, List.append_assoc, List.append_assoc]
          exact Element.exists_opening (each element List.mem_cons_self) _
    obtain ⟨first, others, filled, notClosed⟩ := opening
    rw [readValue_array filled notClosed]
    exact givenUp.readElements_eq each areSpaces [] (by omega)

theorem isGivenUp_object {fields : List Field}
    (each : ∀ field ∈ fields, IsRead room field.element.own field.element.value)
    {before body after lead : List Char} {units : List Nat} (areSpaces : AreSpaces before)
    (isBody : IsBody body units) (areSpacesAfter : AreSpaces after)
    (areSpacesLead : AreSpaces lead) (givenUp : IsGivenUp room innermost rest) :
    IsGivenUp (room + 1) innermost
      ('\x7b' :: (fields.flatMap (fun field => field.text ++ [',']) ++
        (before ++ '"' :: (body ++ '"' :: (after ++ ':' :: (lead ++ rest)))))) where
  starts := ⟨'\x7b', _, rfl, by decide, by decide⟩
  fails := by
    intro fuel enough
    rw [List.length_cons] at enough
    obtain ⟨less, rfl⟩ : ∃ less, fuel = less + 1 := ⟨fuel - 1, by omega⟩
    have opening : ∃ others,
        skipSpaces (fields.flatMap (fun field => field.text ++ [',']) ++
          (before ++ '"' :: (body ++ '"' :: (after ++ ':' :: (lead ++ rest))))) =
            '"' :: others := by
      cases fields with
      | nil =>
          rw [List.flatMap_nil, List.nil_append, Json.skipSpaces_append areSpaces,
            skipSpaces_cons (by decide)]
          exact ⟨_, rfl⟩
      | cons field fields =>
          rw [List.flatMap_cons, List.append_assoc, List.append_assoc]
          exact field.exists_opening _
    obtain ⟨others, filled⟩ := opening
    rw [readValue_object filled (by decide)]
    exact givenUp.readFields_eq each areSpaces isBody areSpacesAfter areSpacesLead [] (by omega)

theorem isGivenUp_without_room {first : Char} (others : List Char)
    (opens : (first, innermost) ∈ [('[', Nesting.array), ('\x7b', .object)]) :
    IsGivenUp 0 innermost (first :: others) where
  starts := by
    simp only [List.mem_cons, Prod.mk.injEq, List.not_mem_nil, or_false] at opens
    rcases opens with ⟨rfl, -⟩ | ⟨rfl, -⟩ <;> exact ⟨_, others, rfl, by decide, by decide⟩
  fails := by
    intro fuel enough
    obtain ⟨less, rfl⟩ : ∃ less, fuel = less + 1 := ⟨fuel - 1, by simp at enough; omega⟩
    simp only [List.mem_cons, Prod.mk.injEq, List.not_mem_nil, or_false] at opens
    rcases opens with ⟨rfl, rfl⟩ | ⟨rfl, rfl⟩ <;> rw [readValue]

theorem isGivenUp_constant {own : List Char} {value : Json} (isConstant : (own, value) ∈ constants)
    (rest : List Char) : IsGivenUp 0 .constant (own ++ rest) := by
  have fails : readUnquoted 0 (own ++ rest) = .error (.tooDeep .constant) := by
    rw [readUnquoted, readListed_append (.inr rfl) isConstant]
    rfl
  suffices ∃ first others, own ++ rest = first :: others ∧ isSpace first = false ∧ first ≠ ']' ∧
      first ≠ '"' ∧ first ≠ '[' ∧ first ≠ '\x7b' by
    obtain ⟨first, others, written, solid, notClosed, notText, notArray, notObject⟩ := this
    refine ⟨⟨first, others, written, solid, notClosed⟩, fun fuel enough => ?_⟩
    rw [written] at enough fails ⊢
    obtain ⟨less, rfl⟩ : ∃ less, fuel = less + 1 := ⟨fuel - 1, by simp at enough; omega⟩
    rw [readValue_cons notText notArray notObject, fails]
  simp only [constants, List.mem_cons, List.not_mem_nil, or_false, Prod.mk.injEq] at isConstant
  rcases isConstant with ⟨rfl, -⟩ | ⟨rfl, -⟩ | ⟨rfl, -⟩ <;> exact ⟨_, _, rfl, by decide⟩

theorem Overflows.isGivenUp {text : List Char} (overflows : Overflows room innermost text) :
    IsGivenUp room innermost text := by
  induction overflows with
  | array => exact isGivenUp_without_room _ (by simp)
  | object => exact isGivenUp_without_room _ (by simp)
  | constant isConstant => exact isGivenUp_constant isConstant _
  | element each areSpaces _ givenUp =>
      exact isGivenUp_array (fun element present => (each element present).isRead) areSpaces givenUp
  | field each areSpaces isContent areSpacesAfter areSpacesLead _ givenUp =>
      exact isGivenUp_object (fun field present => (each field present).isRead) areSpaces
        isContent.isBody areSpacesAfter areSpacesLead givenUp

/-! ### Whole texts -/

theorem Overflows.read_eq (overflows : Overflows room innermost rest) {before : List Char}
    (areSpaces : AreSpaces before) : read room (before ++ rest) = .error (.tooDeep innermost) := by
  have givenUp := overflows.isGivenUp
  rw [read, givenUp.skipSpaces_append areSpaces, givenUp.fails _ (by simp; omega)]

end Json

end IgnoreRules
