import IgnoreRules.Json.Writer
import IgnoreRules.Proofs.Json.Fields
import IgnoreRules.Proofs.Json.Reading
import Mathlib.Tactic.SplitIfs

/-!
A written value is read back where there is room for its arrays and objects, since what is written
follows the grammar.
-/

namespace IgnoreRules

namespace Json

/-- A value whose text gives it back: no floating-point number is in it, and no object has a key
twice. -/
inductive IsExact : Json → Prop where
  | null : IsExact null
  | boolean (value : Bool) : IsExact (boolean value)
  | integer (value : Int) : IsExact (integer value)
  | string (value : String) : IsExact (string value)
  | array {elements : List Json} : (∀ element ∈ elements, IsExact element) →
      IsExact (array elements)
  | object {fields : List (String × Json)} : (fields.map Prod.fst).Nodup →
      (∀ field ∈ fields, IsExact field.2) → IsExact (object fields)

mutual

def depth : Json → Nat
  | array elements => greatestDepth elements + 1
  | object fields => greatestFieldDepth fields + 1
  | _ => 0

def greatestDepth : List Json → Nat
  | [] => 0
  | element :: others => max (depth element) (greatestDepth others)

def greatestFieldDepth : List (String × Json) → Nat
  | [] => 0
  | (_, value) :: others => max (depth value) (greatestFieldDepth others)

end

variable {room : Nat}

/-! ### Texts -/

theorem hexNumber?_of_lt {code : Nat} (control : code < 32) :
    hexNumber? ['0', '0', hexDigit (code / 16), hexDigit (code % 16)] = some code := by
  revert code
  decide

theorem isBody_escapedCharacter (character : Char) {body : List Char} {units : List Nat}
    (isBody : IsBody body units) :
    IsBody (escapedCharacter character ++ body) (character.toNat :: units) := by
  unfold escapedCharacter
  split_ifs with isQuote isBackslash isNewline isReturn isTab isFeed isBackspace isControl
  · rw [isQuote]
    exact .escape rfl isBody
  · rw [isBackslash]
    exact .escape rfl isBody
  · rw [isNewline]
    exact .escape rfl isBody
  · rw [isReturn]
    exact .escape rfl isBody
  · rw [isTab]
    exact .escape rfl isBody
  · rw [isFeed]
    exact .escape rfl isBody
  · rw [isBackspace]
    exact .escape rfl isBody
  · exact .code (hexNumber?_of_lt isControl) isBody
  · exact .plain isQuote isBackslash isControl isBody

theorem isBody_escaped (characters : List Char) :
    IsBody (characters.flatMap escapedCharacter) (characters.map Char.toNat) := by
  induction characters with
  | nil => exact .nil
  | cons character characters inductionHypothesis =>
      exact isBody_escapedCharacter character inductionHypothesis

theorem isUnit_toNat (character : Char) :
    isHighUnit character.toNat = false ∧ isLowUnit character.toNat = false := by
  have valid : character.toNat < 0xD800 ∨ 0xDFFF < character.toNat ∧ character.toNat < 0x110000 :=
    character.valid
  simp only [isHighUnit, isLowUnit, Bool.and_eq_false_iff, decide_eq_false_iff_not]
  omega

theorem unitCharacter_toNat (character : Char) : unitCharacter character.toNat = character := by
  unfold unitCharacter
  rw [(isUnit_toNat character).1, (isUnit_toNat character).2, Bool.or_false,
    if_neg Bool.false_ne_true]
  exact Char.ofNat_toNat character

theorem joinUnits_map_toNat (characters done : List Char) :
    joinUnits done (characters.map Char.toNat) = done.reverse ++ characters := by
  induction characters generalizing done with
  | nil => simp [joinUnits]
  | cons character characters inductionHypothesis =>
      cases characters with
      | nil => simp [joinUnits, unitCharacter_toNat]
      | cons next others =>
          rw [List.map_cons, List.map_cons, joinUnits, (isUnit_toNat character).1, Bool.false_and,
            if_neg Bool.false_ne_true, ← List.map_cons, inductionHypothesis, unitCharacter_toNat]
          simp

theorem arePaired_map_toNat (characters : List Char) :
    arePaired (characters.map Char.toNat) = true := by
  induction characters with
  | nil => rfl
  | cons character characters inductionHypothesis =>
      obtain ⟨notHigh, notLow⟩ := isUnit_toNat character
      cases characters with
      | nil => simp [arePaired, notHigh, notLow]
      | cons next others =>
          rw [List.map_cons, List.map_cons, arePaired, notHigh, notLow, ← List.map_cons]
          simpa using inductionHypothesis

theorem isContent_escaped (characters : List Char) :
    IsContent (characters.flatMap escapedCharacter) (characters.map Char.toNat) :=
  ⟨isBody_escaped characters, arePaired_map_toNat characters⟩

theorem textOfUnits_map_toNat (value : String) :
    textOfUnits (value.toList.map Char.toNat) = value := by
  rw [textOfUnits, joinUnits_map_toNat, List.reverse_nil, List.nil_append, String.ofList_toList]

theorem spells_writeText (value : String) : Spells room (writeText value) (string value) := by
  have spelled := @Spells.text room _ _ (isContent_escaped value.toList)
  rwa [textOfUnits_map_toNat] at spelled

/-! ### Whole numbers -/

theorem digitsNumber_toDigits (number : Nat) : digitsNumber (Nat.toDigits 10 number) = number := by
  rw [digitsNumber, ← Nat.ofDigitChars_eq_foldl]
  exact Nat.ofDigitChars_ten_toDigits

theorem areDigits_toDigits (number : Nat) : AreDigits (Nat.toDigits 10 number) where
  ne_nil := Nat.toDigits_ne_nil
  each := fun _ => Nat.isDigit_of_mem_toDigits (by decide) (by decide)

theorem exists_cons_toDigits {number : Nat} (positive : 0 < number) :
    ∃ first others, Nat.toDigits 10 number = first :: others ∧ first ≠ '0' := by
  induction number using Nat.strongRecOn with
  | ind number inductionHypothesis =>
      rw [Nat.toDigits_eq_if (by decide)]
      split
      next small =>
        refine ⟨_, [], rfl, fun isZero => ?_⟩
        rw [Nat.digitChar_eq_zero] at isZero
        omega
      next =>
        obtain ⟨first, others, digits, notZero⟩ :=
          inductionHypothesis (number / 10) (by omega) (by omega)
        exact ⟨first, _, by rw [digits, List.cons_append], notZero⟩

theorem isWhole_toDigits (number : Nat) : IsWhole (Nat.toDigits 10 number) := by
  rcases Nat.eq_zero_or_pos number with rfl | positive
  · exact .zero
  · obtain ⟨first, others, digits, notZero⟩ := exists_cons_toDigits positive
    have areDigits := areDigits_toDigits number
    rw [digits] at areDigits ⊢
    exact .digits notZero areDigits

theorem isNumber_writeInteger {value : Int}
    (few : (Nat.toDigits 10 value.natAbs).length ≤ greatestDigitCount) :
    IsNumber (writeInteger value) (integer value) := by
  cases value with
  | ofNat number =>
      have isNumber := @IsNumber.integer false _ (isWhole_toDigits number) few
      rw [signed, digitsNumber_toDigits] at isNumber
      exact isNumber
  | negSucc number =>
      have isNumber := @IsNumber.integer true _ (isWhole_toDigits (number + 1)) few
      rw [signed, digitsNumber_toDigits] at isNumber
      exact isNumber

/-! ### Arrays and objects -/

theorem areSpaces_newLine (depth : Nat) : AreSpaces (newLine depth) := by
  intro character present
  rcases List.mem_cons.mp present with rfl | present
  · rfl
  · rw [List.eq_of_mem_replicate present]
    rfl

theorem areSpaces_nil : AreSpaces [] := by
  simp [AreSpaces]

theorem exists_elements_write {depth outer : Nat} {first : Json} {others : List Json}
    (each : ∀ element ∈ first :: others, Spells room (write depth element) element) :
    ∃ (head : Element) (tail : List Element),
      newLine depth ++ write depth first ++ writeElements depth others ++ newLine outer =
        Text.unpieces ',' ((head :: tail).map Element.text) ∧
      (∀ element ∈ head :: tail, Spells room element.own element.value) ∧
      (head :: tail).map Element.value = first :: others := by
  induction others generalizing first with
  | nil =>
      let last : Element := ⟨newLine depth, write depth first, newLine outer, first,
        areSpaces_newLine depth, areSpaces_newLine outer⟩
      exact ⟨last, [], by simp [last, writeElements, Text.unpieces, Element.text],
        by simpa [last] using each, rfl⟩
  | cons second others inductionHypothesis =>
      rw [List.forall_mem_cons] at each
      obtain ⟨head, tail, written, spelled, values⟩ := inductionHypothesis each.2
      let element : Element :=
        ⟨newLine depth, write depth first, [], first, areSpaces_newLine depth, areSpaces_nil⟩
      refine ⟨element, head :: tail, ?_, List.forall_mem_cons.mpr ⟨each.1, spelled⟩, ?_⟩
      · rw [List.map_cons, Text.unpieces_cons ',' _ (by simp), ← written]
        simp [element, Element.text, writeElements]
      · rw [List.map_cons, values]

def Field.ofKey (before : List Char) (key : String) (own after : List Char) (value : Json)
    (areSpacesBefore : AreSpaces before) (areSpacesAfter : AreSpaces after) : Field where
  before := before
  body := key.toList.flatMap escapedCharacter
  units := key.toList.map Char.toNat
  after := []
  element := ⟨[' '], own, after, value, by simp [AreSpaces, isSpace], areSpacesAfter⟩
  areSpacesBefore := areSpacesBefore
  isContent := isContent_escaped _
  areSpacesAfter := areSpaces_nil

@[simp]
theorem Field.text_ofKey {before own after : List Char} {key : String} {value : Json}
    (areSpacesBefore : AreSpaces before) (areSpacesAfter : AreSpaces after) :
    (Field.ofKey before key own after value areSpacesBefore areSpacesAfter).text =
      before ++ (writeText key ++ [':', ' '] ++ (own ++ after)) := by
  simp [Field.text, Field.ofKey, Element.text, writeText]

@[simp]
theorem Field.entry_ofKey {before own after : List Char} {key : String} {value : Json}
    (areSpacesBefore : AreSpaces before) (areSpacesAfter : AreSpaces after) :
    (Field.ofKey before key own after value areSpacesBefore areSpacesAfter).entry = (key, value) :=
  congrArg (·, value) (textOfUnits_map_toNat key)

theorem exists_fields_write {depth outer : Nat} {key : String} {value : Json}
    {others : List (String × Json)}
    (each : ∀ field ∈ (key, value) :: others, Spells room (write depth field.2) field.2) :
    ∃ (head : Field) (tail : List Field),
      newLine depth ++ writeText key ++ [':', ' '] ++ write depth value ++
          writeFields depth others ++ newLine outer =
        Text.unpieces ',' ((head :: tail).map Field.text) ∧
      (∀ field ∈ head :: tail, Spells room field.element.own field.element.value) ∧
      (head :: tail).map Field.entry = (key, value) :: others := by
  induction others generalizing key value with
  | nil =>
      let last := Field.ofKey (newLine depth) key (write depth value) (newLine outer) value
        (areSpaces_newLine depth) (areSpaces_newLine outer)
      exact ⟨last, [], by simp [last, writeFields, Text.unpieces],
        by simpa [last, Field.ofKey] using each, by simp [last]⟩
  | cons second others inductionHypothesis =>
      obtain ⟨keyNext, valueNext⟩ := second
      rw [List.forall_mem_cons] at each
      obtain ⟨head, tail, written, spelled, entries⟩ := inductionHypothesis each.2
      let field := Field.ofKey (newLine depth) key (write depth value) [] value
        (areSpaces_newLine depth) areSpaces_nil
      refine ⟨field, head :: tail, ?_, List.forall_mem_cons.mpr ⟨each.1, spelled⟩, ?_⟩
      · rw [List.map_cons, Text.unpieces_cons ',' _ (by simp), ← written]
        simp [field, writeFields]
      · rw [List.map_cons, entries]
        simp [field]

theorem spells_write_array {depth : Nat} {elements : List Json}
    (each : ∀ element ∈ elements, Spells room (write (depth + 1) element) element) :
    Spells (room + 1) (write depth (array elements)) (array elements) := by
  cases elements with
  | nil => exact @Spells.array _ [] [] (.blank areSpaces_nil) (by simp)
  | cons first others =>
      obtain ⟨head, tail, written, spelled, values⟩ := @exists_elements_write room _ depth _ _ each
      have isArray := @Spells.array _ _ (head :: tail) (.parts (by simp)) spelled
      rw [values, ← written] at isArray
      simpa [write] using isArray

theorem spells_write_object {depth : Nat} {fields : List (String × Json)}
    (distinct : (fields.map Prod.fst).Nodup)
    (each : ∀ field ∈ fields, Spells room (write (depth + 1) field.2) field.2) :
    Spells (room + 1) (write depth (object fields)) (object fields) := by
  cases fields with
  | nil => exact @Spells.object _ [] [] (.blank areSpaces_nil) (by simp)
  | cons first others =>
      obtain ⟨key, value⟩ := first
      obtain ⟨head, tail, written, spelled, entries⟩ := @exists_fields_write room _ depth _ _ _ each
      have isObject := @Spells.object _ _ (head :: tail) (.parts (by simp)) spelled
      rw [entries, ← written, ofFields_eq_object, entries_of_distinct distinct] at isObject
      simpa [write] using isObject

/-! ### Whole texts -/

theorem isWritable_of_mem {elements : List Json} (writable : areWritable elements = true) :
    ∀ element ∈ elements, element.isWritable = true := by
  induction elements with
  | nil => simp
  | cons first others inductionHypothesis =>
      rw [areWritable, Bool.and_eq_true] at writable
      exact List.forall_mem_cons.mpr ⟨writable.1, inductionHypothesis writable.2⟩

theorem isWritable_of_mem_fields {fields : List (String × Json)}
    (writable : areFieldsWritable fields = true) :
    ∀ field ∈ fields, field.2.isWritable = true := by
  induction fields with
  | nil => simp
  | cons first others inductionHypothesis =>
      obtain ⟨key, value⟩ := first
      rw [areFieldsWritable, Bool.and_eq_true] at writable
      exact List.forall_mem_cons.mpr ⟨writable.1, inductionHypothesis writable.2⟩

theorem depth_le_of_mem {elements : List Json} :
    ∀ element ∈ elements, element.depth ≤ greatestDepth elements := by
  induction elements with
  | nil => simp
  | cons first others inductionHypothesis =>
      rw [greatestDepth]
      refine List.forall_mem_cons.mpr ⟨le_max_left _ _, fun element present => ?_⟩
      exact (inductionHypothesis element present).trans (le_max_right _ _)

theorem depth_le_of_mem_fields {fields : List (String × Json)} :
    ∀ field ∈ fields, field.2.depth ≤ greatestFieldDepth fields := by
  induction fields with
  | nil => simp
  | cons first others inductionHypothesis =>
      obtain ⟨key, value⟩ := first
      rw [greatestFieldDepth]
      refine List.forall_mem_cons.mpr ⟨le_max_left _ _, fun field present => ?_⟩
      exact (inductionHypothesis field present).trans (le_max_right _ _)

/-- At every indentation, an exact value is written as the grammar has it, unless a whole number in
it is too long to be written. -/
theorem IsExact.spells_write {value : Json} (exact : IsExact value)
    (writable : value.isWritable = true) (fits : value.depth ≤ room) (indentation : Nat) :
    Spells room (write indentation value) value := by
  induction exact generalizing room indentation with
  | null => exact .word (by simp [words, write])
  | boolean value => cases value <;> exact .word (by simp [words, write])
  | integer value =>
      rw [isWritable, decide_eq_true_eq] at writable
      exact .number (isNumber_writeInteger writable)
  | string value => exact spells_writeText value
  | array _ inductionHypothesis =>
      rw [isWritable] at writable
      rw [depth] at fits
      obtain ⟨inner, rfl⟩ : ∃ inner, room = inner + 1 := ⟨room - 1, by omega⟩
      refine spells_write_array fun element present => ?_
      have shallow := depth_le_of_mem element present
      exact inductionHypothesis element present (isWritable_of_mem writable element present)
        (by omega) _
  | object distinct _ inductionHypothesis =>
      rw [isWritable] at writable
      rw [depth] at fits
      obtain ⟨inner, rfl⟩ : ∃ inner, room = inner + 1 := ⟨room - 1, by omega⟩
      refine spells_write_object distinct fun field present => ?_
      have shallow := depth_le_of_mem_fields field present
      exact inductionHypothesis field present (isWritable_of_mem_fields writable field present)
        (by omega) _

theorem read_write {value : Json} (exact : IsExact value) (writable : value.isWritable = true)
    (fits : value.depth ≤ room) : read room (write 0 value) = .ok value := by
  have spelled := exact.spells_write writable fits 0
  exact IsText.read_eq ⟨[], _, [], areSpaces_nil, areSpaces_nil, spelled, by simp⟩

end Json

end IgnoreRules
