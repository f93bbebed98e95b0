import IgnoreRules.IgnoreFile
import IgnoreRules.Text.Encoding
import Mathlib.Data.List.Basic
import Mathlib.Tactic.Ring

/-!
Texts in their Unicode encodings.  What is written in UTF-8, UTF-16 or UTF-32 is read back, and
bytes with a mark of the latter two are never UTF-8, so the rules of an ignore file do not depend on
the encoding that it was saved in.
-/

namespace IgnoreRules

theorem fromUTF8?_toUTF8 (text : String) : String.fromUTF8? text.toUTF8 = some text := by
  unfold String.fromUTF8?
  rw [String.toUTF8_eq_toByteArray, dif_pos text.isValidUTF8]
  rfl

theorem toUTF8_of_fromUTF8? {content : ByteArray} {text : String}
    (decoded : String.fromUTF8? content = some text) : content = text.toUTF8 := by
  unfold String.fromUTF8? at decoded
  split at decoded
  next =>
    cases decoded
    rfl
  next => contradiction

namespace Text

variable {text : List Char} {units : List Nat}

/-! ### Bytes -/

theorem toList_loop (bytes : ByteArray) (position : Nat) (done : List UInt8) :
    ByteArray.toList.loop bytes position done =
      done.reverse ++ bytes.data.toList.drop position := by
  fun_induction ByteArray.toList.loop bytes position done with
  | case1 position done inside inductionHypothesis =>
      have inArray : position < bytes.data.toList.length := inside
      rw [inductionHypothesis, List.drop_eq_getElem_cons inArray]
      simp [ByteArray.get!, getElem!_pos, inside]
  | case2 position done outside =>
      have outArray : bytes.data.toList.length ≤ position := Nat.le_of_not_lt outside
      rw [List.drop_eq_nil_of_le outArray, List.append_nil]

theorem toList_toByteArray (bytes : List UInt8) : bytes.toByteArray.toList = bytes := by
  rw [ByteArray.toList, toList_loop, List.toList_data_toByteArray]
  rfl

@[simp]
theorem arrange_arrange (order : ByteOrder) (bytes : List UInt8) :
    order.arrange (order.arrange bytes) = bytes := by
  cases order <;> simp [ByteOrder.arrange]

theorem length_arrange (order : ByteOrder) (bytes : List UInt8) :
    (order.arrange bytes).length = bytes.length := by
  cases order <;> simp [ByteOrder.arrange]

theorem bytesNumber_cons (first : UInt8) (rest : List UInt8) :
    bytesNumber (first :: rest) = first.toNat * 256 ^ rest.length + bytesNumber rest := by
  have further (start : Nat) : rest.foldl (fun number byte => 256 * number + byte.toNat) start =
      start * 256 ^ rest.length + bytesNumber rest := by
    unfold bytesNumber
    induction rest generalizing start with
    | nil => simp
    | cons next rest inductionHypothesis =>
        rw [List.foldl_cons, List.foldl_cons, inductionHypothesis,
          inductionHypothesis (256 * 0 + _), List.length_cons, Nat.pow_succ]
        ring
  rw [bytesNumber, List.foldl_cons, further, Nat.mul_zero, Nat.zero_add]

theorem unitBytes_succ (width unit : Nat) :
    unitBytes (width + 1) unit = UInt8.ofNat (unit >>> (8 * width)) :: unitBytes width unit := by
  simp [unitBytes, List.range_succ]

theorem length_unitBytes (width unit : Nat) : (unitBytes width unit).length = width := by
  simp [unitBytes]

theorem bytesNumber_unitBytes (width unit : Nat) :
    bytesNumber (unitBytes width unit) = unit % 256 ^ width := by
  induction width with
  | zero => simp [unitBytes, bytesNumber, Nat.mod_one]
  | succ width inductionHypothesis =>
      rw [unitBytes_succ, bytesNumber_cons, inductionHypothesis, length_unitBytes, Nat.mod_pow_succ,
        Nat.shiftRight_eq_div_pow, Nat.pow_mul]
      simp
      ring

/-! ### Units -/

theorem units16?_written (order : ByteOrder) (small : ∀ unit ∈ units, unit < 0x10000) :
    units16? order (units.flatMap fun unit => order.arrange (unitBytes 2 unit)) = some units := by
  induction units with
  | nil => rfl
  | cons unit units inductionHypothesis =>
      rw [List.forall_mem_cons] at small
      obtain ⟨first, second, pair⟩ := List.length_eq_two.mp
        ((length_arrange order _).trans (length_unitBytes 2 unit))
      rw [List.flatMap_cons, pair, List.cons_append, List.cons_append, List.nil_append, units16?,
        inductionHypothesis small.2, ← pair, arrange_arrange, bytesNumber_unitBytes]
      exact congrArg some (congrArg (· :: units) (Nat.mod_eq_of_lt small.1))

theorem exists_of_length_eq_four {Alpha : Type} {values : List Alpha} (four : values.length = 4) :
    ∃ first second third fourth, values = [first, second, third, fourth] := by
  match values, four with
  | [first, second, third, fourth], _ => exact ⟨first, second, third, fourth, rfl⟩

theorem units32?_written (order : ByteOrder) (small : ∀ unit ∈ units, unit < 0x100000000) :
    units32? order (units.flatMap fun unit => order.arrange (unitBytes 4 unit)) = some units := by
  induction units with
  | nil => rfl
  | cons unit units inductionHypothesis =>
      rw [List.forall_mem_cons] at small
      obtain ⟨first, second, third, fourth, four⟩ := exists_of_length_eq_four
        ((length_arrange order _).trans (length_unitBytes 4 unit))
      rw [List.flatMap_cons, four, List.cons_append, List.cons_append, List.cons_append,
        List.cons_append, List.nil_append, units32?, inductionHypothesis small.2, ← four,
        arrange_arrange, bytesNumber_unitBytes]
      exact congrArg some (congrArg (· :: units) (Nat.mod_eq_of_lt small.1))

/-! ### Characters -/

theorem scalar?_toNat (character : Char) : scalar? character.toNat = some character := by
  have valid : character.toNat.isValidChar := character.valid
  rw [scalar?, if_pos valid]
  exact congrArg some (Char.ofNat_toNat character)

theorem toNat_bounds (character : Char) :
    character.toNat < 0xD800 ∨ 0xDFFF < character.toNat ∧ character.toNat < 0x110000 :=
  character.valid

theorem characters16?_cons {unit : Nat} (single : ∀ low, isPair unit low = false)
    (units : List Nat) :
    characters16? (unit :: units) =
      (scalar? unit).bind fun character => (characters16? units).map (character :: ·) := by
  cases units with
  | nil => cases found : scalar? unit <;> simp [characters16?, found]
  | cons next units =>
      rw [characters16?, single next, if_neg Bool.false_ne_true]

theorem characters16?_unitsOf (character : Char) (units : List Nat) :
    characters16? (unitsOf character ++ units) = (characters16? units).map (character :: ·) := by
  have bounds := toNat_bounds character
  unfold unitsOf
  dsimp only
  split
  next =>
    have single (low : Nat) : isPair character.toNat low = false := by
      rw [isPair, decide_eq_false_iff_not]
      omega
    rw [List.singleton_append, characters16?_cons single, scalar?_toNat]
    rfl
  next =>
    have pair : isPair (0xD800 + (character.toNat - 0x10000) / 0x400)
        (0xDC00 + (character.toNat - 0x10000) % 0x400) = true := by
      rw [isPair, decide_eq_true_iff]
      omega
    have whole : pairCode (0xD800 + (character.toNat - 0x10000) / 0x400)
        (0xDC00 + (character.toNat - 0x10000) % 0x400) = character.toNat := by
      unfold pairCode
      omega
    rw [List.cons_append, List.cons_append, List.nil_append, characters16?, pair, if_pos rfl,
      whole, scalar?_toNat]
    rfl

theorem characters16?_written (text : List Char) :
    characters16? (text.flatMap unitsOf) = some text := by
  induction text with
  | nil => rfl
  | cons character text inductionHypothesis =>
      rw [List.flatMap_cons, characters16?_unitsOf, inductionHypothesis]
      rfl

theorem characters32?_written (text : List Char) :
    characters32? (text.map Char.toNat) = some text := by
  unfold characters32?
  induction text with
  | nil => rfl
  | cons character text inductionHypothesis =>
      rw [List.map_cons, List.mapM_cons, scalar?_toNat, inductionHypothesis]
      rfl

theorem unit_lt_of_mem_unitsOf {character : Char} {unit : Nat}
    (present : unit ∈ unitsOf character) : unit < 0x10000 := by
  have bounds := toNat_bounds character
  unfold unitsOf at present
  dsimp only at present
  split at present
  next single => rwa [List.mem_singleton.mp present]
  next =>
    simp only [List.mem_cons, List.not_mem_nil, or_false] at present
    omega

theorem units16?_encode16 (order : ByteOrder) (text : List Char) :
    (units16? order (encode16 order text)).bind characters16? = some text := by
  rw [encode16, units16?_written, Option.bind_some, characters16?_written]
  intro unit present
  obtain ⟨character, -, isUnit⟩ := List.mem_flatMap.mp present
  exact unit_lt_of_mem_unitsOf isUnit

theorem units32?_encode32 (order : ByteOrder) (text : List Char) :
    (units32? order (encode32 order text)).bind characters32? = some text := by
  have asUnits : encode32 order text =
      (text.map Char.toNat).flatMap fun unit => order.arrange (unitBytes 4 unit) := by
    rw [encode32, List.flatMap_map]
  rw [asUnits, units32?_written, Option.bind_some, characters32?_written]
  intro unit present
  obtain ⟨character, -, rfl⟩ := List.mem_map.mp present
  have bounds := toNat_bounds character
  omega

/-! ### UTF-8 with nothing to replace -/

theorem opening_of_one : ∀ bits < 0x80,
    opening (UInt8.ofNat bits) = ([Char.ofNat bits], none) := by
  decide +kernel

theorem opening_of_two : ∀ bits < 32, 2 ≤ bits →
    opening (UInt8.ofNat (bits + 192)) = ([], some ⟨0x80, 0xBF, 0, bits⟩) := by
  decide +kernel

theorem opening_of_three : ∀ bits < 16, opening (UInt8.ofNat (bits + 224)) =
    ([], some ⟨if bits = 0 then 0xA0 else 0x80, if bits = 13 then 0x9F else 0xBF, 1, bits⟩) := by
  decide +kernel

theorem opening_of_four : ∀ bits < 5, opening (UInt8.ofNat (bits + 240)) =
    ([], some ⟨if bits = 0 then 0x90 else 0x80, if bits = 4 then 0x8F else 0xBF, 2, bits⟩) := by
  decide +kernel

theorem toNat_followingByte {least greatest : UInt8} {bits : Nat} (above : least.toNat ≤ bits + 128)
    (below : bits + 128 ≤ greatest.toNat) :
    (UInt8.ofNat (bits + 128)).toNat = bits + 128 ∧
      least ≤ UInt8.ofNat (bits + 128) ∧ UInt8.ofNat (bits + 128) ≤ greatest := by
  have inByte := greatest.toNat_lt
  have number : (UInt8.ofNat (bits + 128)).toNat = bits + 128 := by
    rw [UInt8.toNat_ofNat']
    exact Nat.mod_eq_of_lt (by omega)
  rw [UInt8.le_iff_toNat_le, UInt8.le_iff_toNat_le, number]
  exact ⟨rfl, above, below⟩

variable {least greatest : UInt8} {number bits : Nat}

theorem replacing_last (above : least.toNat ≤ bits + 128) (below : bits + 128 ≤ greatest.toNat)
    (rest : List UInt8) :
    replacing (some ⟨least, greatest, 0, number⟩) (UInt8.ofNat (bits + 128) :: rest) =
      Char.ofNat (64 * number + bits) :: replacing none rest := by
  obtain ⟨byteNumber, inside⟩ := toNat_followingByte above below
  rw [replacing, if_pos inside, byteNumber, Nat.add_sub_cancel]
  exact if_pos rfl

theorem replacing_middle {following : Nat} (above : least.toNat ≤ bits + 128)
    (below : bits + 128 ≤ greatest.toNat) (rest : List UInt8) :
    replacing (some ⟨least, greatest, following + 1, number⟩) (UInt8.ofNat (bits + 128) :: rest) =
      replacing (some ⟨0x80, 0xBF, following, 64 * number + bits⟩) rest := by
  obtain ⟨byteNumber, inside⟩ := toNat_followingByte above below
  rw [replacing, if_pos inside, byteNumber, Nat.add_sub_cancel]
  exact if_neg (Nat.succ_ne_zero following)

theorem followingByte_bounds (bits : Nat) :
    (0x80 : UInt8).toNat ≤ bits % 64 + 128 ∧ bits % 64 + 128 ≤ (0xBF : UInt8).toNat := by
  have least : (0x80 : UInt8).toNat = 128 := rfl
  have greatest : (0xBF : UInt8).toNat = 191 := rfl
  omega

theorem replacing_utf8EncodeChar (character : Char) (rest : List UInt8) :
    replacing none (String.utf8EncodeChar character ++ rest) =
      character :: replacing none rest := by
  have bounds := toNat_bounds character
  obtain ⟨code, isCode⟩ : ∃ code, character.toNat = code := ⟨_, rfl⟩
  have same : Char.ofNat code = character := by rw [← isCode, Char.ofNat_toNat]
  have value : character.val.toNat = code := isCode
  rw [isCode] at bounds
  unfold String.utf8EncodeChar
  rw [value]
  dsimp only
  split_ifs with one two three
  · rw [List.singleton_append, replacing, opening_of_one code (by omega), same]
    rfl
  · have whole : 64 * (code / 64 % 32) + code % 64 = code := by omega
    obtain ⟨above, below⟩ := followingByte_bounds code
    rw [List.cons_append, replacing, opening_of_two _ (by omega) (by omega)]
    dsimp only [List.cons_append, List.nil_append]
    rw [replacing_last above below, whole, same]
  · have whole : 64 * (64 * (code / 4096 % 16) + code / 64 % 64) + code % 64 = code := by omega
    obtain ⟨above, below⟩ := followingByte_bounds code
    rw [List.cons_append, replacing, opening_of_three _ (by omega)]
    dsimp only [List.cons_append, List.nil_append]
    rw [replacing_middle, replacing_last above below, whole, same]
    · split_ifs <;> simp
      omega
    · split_ifs <;> simp <;> omega
  · have whole : 64 * (64 * (64 * (code / 262144 % 8) + code / 4096 % 64) + code / 64 % 64) +
        code % 64 = code := by omega
    obtain ⟨above, below⟩ := followingByte_bounds code
    obtain ⟨aboveNext, belowNext⟩ := followingByte_bounds (code / 64)
    rw [List.cons_append, replacing, opening_of_four _ (by omega)]
    dsimp only [List.cons_append, List.nil_append]
    rw [replacing_middle, replacing_middle aboveNext belowNext, replacing_last above below, whole,
      same]
    · split_ifs <;> simp
      omega
    · split_ifs <;> simp <;> omega

theorem replaced_flatMap_utf8EncodeChar (text : List Char) :
    replaced (text.flatMap String.utf8EncodeChar) = text := by
  rw [replaced]
  induction text with
  | nil => rfl
  | cons character text inductionHypothesis =>
      rw [List.flatMap_cons, replacing_utf8EncodeChar, inductionHypothesis]

/-! ### Marks -/

inductive Form where
  | utf8
  | markedUtf8
  | utf16 (order : ByteOrder)
  | utf32 (order : ByteOrder)
deriving DecidableEq, Repr

def Form.bytes (text : List Char) : Form → List UInt8
  | utf8 => text.flatMap String.utf8EncodeChar
  | markedUtf8 => [0xEF, 0xBB, 0xBF] ++ text.flatMap String.utf8EncodeChar
  | utf16 order => order.arrange [0xFE, 0xFF] ++ encode16 order text
  | utf32 order => order.arrange [0x00, 0x00, 0xFE, 0xFF] ++ encode32 order text

/-- A detector reads marked bytes by their mark, and drops it, when there is a text behind.  What
looks like a mark of UTF-32 is not taken for one of UTF-16. -/
structure FollowsMarks (detector : Detector) : Prop where
  utf16 : ∀ bytes text, ¬[0xFF, 0xFE, 0x00, 0x00] <+: bytes → text ≠ [] →
    decodeMarked16? bytes = some text → (detector bytes).map Prod.snd = some text
  utf32 : ∀ bytes text, text ≠ [] → decodeMarked32? bytes = some text →
    (detector bytes).map Prod.snd = some text

theorem followsMarks_detectMarked : FollowsMarks detectMarked where
  utf16 := by
    intro bytes text notLonger _ marked
    have unmarked : decodeMarked32? bytes = none := by
      unfold decodeMarked32?
      split
      next rest => exact absurd ⟨rest, rfl⟩ notLonger
      next => simp [decodeMarked16?] at marked
      next => rfl
    rw [detectMarked, unmarked, marked]
    rfl
  utf32 := by
    intro bytes text _ marked
    rw [detectMarked, marked]
    rfl

theorem decodeMarked16?_form (order : ByteOrder) (text : List Char) :
    decodeMarked16? ((Form.utf16 order).bytes text) = some text := by
  have written := units16?_encode16 order text
  cases order <;> exact written

theorem decodeMarked32?_form (order : ByteOrder) (text : List Char) :
    decodeMarked32? ((Form.utf32 order).bytes text) = some text := by
  have written := units32?_encode32 order text
  cases order <;> exact written

theorem exists_unit_of_ne_null {character : Char} (notNull : character ≠ '\x00') :
    ∃ unit more, unitsOf character = unit :: more ∧ unit ≠ 0 := by
  unfold unitsOf
  dsimp only
  split
  next =>
    refine ⟨_, _, rfl, fun isZero => notNull ?_⟩
    rw [← Char.ofNat_toNat character, isZero]
  next => exact ⟨_, _, rfl, by omega⟩

/-- A text that does not start with a null character does not make its mark look longer. -/
theorem not_longer_mark {first : Char} (notNull : first ≠ '\x00') (order : ByteOrder)
    (rest : List Char) :
    ¬[0xFF, 0xFE, 0x00, 0x00] <+: (Form.utf16 order).bytes (first :: rest) := by
  obtain ⟨unit, more, units, nonzero⟩ := exists_unit_of_ne_null notNull
  have small : unit < 0x10000 :=
    @unit_lt_of_mem_unitsOf first unit (by rw [units]; exact List.mem_cons_self)
  obtain ⟨low, high, pair⟩ := List.length_eq_two.mp
    ((length_arrange order _).trans (length_unitBytes 2 unit))
  obtain ⟨behind, written⟩ : ∃ behind, encode16 order (first :: rest) = low :: high :: behind := by
    refine ⟨(more ++ rest.flatMap unitsOf).flatMap fun unit => order.arrange (unitBytes 2 unit), ?_⟩
    rw [encode16, List.flatMap_cons, units, List.cons_append, List.flatMap_cons, pair]
    rfl
  intro longer
  cases order with
  | bigEndian => simp [Form.bytes, ByteOrder.arrange] at longer
  | littleEndian =>
      obtain ⟨rfl, rfl⟩ : 0 = low ∧ 0 = high := by
        simpa [Form.bytes, ByteOrder.arrange, written] using longer
      have isZero : unit % 256 ^ 2 = bytesNumber [0, 0] := by
        rw [← bytesNumber_unitBytes, ← arrange_arrange .littleEndian (unitBytes 2 unit), pair]
        rfl
      exact nonzero ((Nat.mod_eq_of_lt small).symm.trans isZero)

/-! ### Nothing marked is UTF-8 -/

theorem fromUTF8?_of_not_first {first : UInt8} (notFirst : ¬first.IsUTF8FirstByte)
    (rest : List UInt8) : String.fromUTF8? (first :: rest).toByteArray = none := by
  refine dif_neg fun valid => notFirst ?_
  have isFirst := valid.isUTF8FirstByte_getElem_zero (by simp [List.size_toByteArray])
  simpa [List.getElem_toByteArray] using isFirst

theorem fromUTF8?_null_cons {rest : List UInt8}
    (invalid : String.fromUTF8? rest.toByteArray = none) :
    String.fromUTF8? (0x00 :: rest).toByteArray = none := by
  refine dif_neg fun valid => ?_
  have apart : (0x00 :: rest).toByteArray = ['\x00'].utf8Encode ++ rest.toByteArray := by
    rw [← List.singleton_append, List.toByteArray_append]
    rfl
  rw [apart, ByteArray.isValidUTF8_utf8Encode_singleton_append_iff] at valid
  rw [String.fromUTF8?, dif_pos valid] at invalid
  contradiction

theorem fromUTF8?_utf16 (order : ByteOrder) (text : List Char) :
    String.fromUTF8? ((Form.utf16 order).bytes text).toByteArray = none := by
  cases order with
  | littleEndian => exact fromUTF8?_of_not_first (by decide) _
  | bigEndian => exact fromUTF8?_of_not_first (by decide) _

theorem fromUTF8?_utf32 (order : ByteOrder) (text : List Char) :
    String.fromUTF8? ((Form.utf32 order).bytes text).toByteArray = none := by
  cases order with
  | littleEndian => exact fromUTF8?_of_not_first (by decide) _
  | bigEndian =>
      exact fromUTF8?_null_cons (fromUTF8?_null_cons (fromUTF8?_of_not_first (by decide) _))

/-! ### Reading every form -/

variable {detector : Detector}

theorem toUTF8_ofList (text : List Char) :
    (String.ofList text).toUTF8 = (text.flatMap String.utf8EncodeChar).toByteArray := by
  rw [String.toUTF8_eq_toByteArray, String.toByteArray_ofList]
  rfl

theorem decodeBy_utf8 (detector : Detector) (text : List Char) :
    decodeBy detector (Form.utf8.bytes text).toByteArray = (none, text) := by
  rw [decodeBy, Form.bytes, ← toUTF8_ofList, fromUTF8?_toUTF8]
  simp

theorem decodeBy_markedUtf8 (detector : Detector) (text : List Char) :
    decodeBy detector (Form.markedUtf8.bytes text).toByteArray = (none, '\uFEFF' :: text) :=
  decodeBy_utf8 detector ('\uFEFF' :: text)

theorem decodeBy_of_detected {bytes : List UInt8} {text : List Char}
    (invalid : String.fromUTF8? bytes.toByteArray = none)
    (detected : (detector bytes).map Prod.snd = some text) :
    (decodeBy detector bytes.toByteArray).2 = text := by
  obtain ⟨⟨encoding, found⟩, answer, rfl⟩ := Option.map_eq_some_iff.mp detected
  rw [decodeBy, invalid, toList_toByteArray]
  dsimp only
  rw [answer]

theorem decodeBy_utf16 (follows : FollowsMarks detector) {first : Char}
    (notNull : first ≠ '\x00') (order : ByteOrder) (rest : List Char) :
    (decodeBy detector ((Form.utf16 order).bytes (first :: rest)).toByteArray).2 =
      first :: rest := by
  apply decodeBy_of_detected (fromUTF8?_utf16 order _)
  exact follows.utf16 _ _ (not_longer_mark notNull order rest) (by simp)
    (decodeMarked16?_form order _)

theorem decodeBy_utf32 (follows : FollowsMarks detector) (order : ByteOrder) {text : List Char}
    (nonempty : text ≠ []) :
    (decodeBy detector ((Form.utf32 order).bytes text).toByteArray).2 = text := by
  apply decodeBy_of_detected (fromUTF8?_utf32 order _)
  exact follows.utf32 _ _ nonempty (decodeMarked32?_form order text)

/-- Where nothing is ever detected, all bytes are read in one way, since UTF-8 has nothing that is
replaced. -/
theorem decodeBy_none (bytes : ByteArray) :
    decodeBy (fun _ => none) bytes = (none, replaced bytes.toList) := by
  rw [decodeBy]
  split
  next text decoded =>
    rw [toUTF8_of_fromUTF8? decoded, ← String.ofList_toList (s := text), toUTF8_ofList,
      toList_toByteArray, replaced_flatMap_utf8EncodeChar]
    simp
  next => rfl

end Text

namespace IgnoreFile

theorem ofText_mark_cons (text : List Char) (directory : Path) (location : List Char) :
    ofText ('\uFEFF' :: text) directory location = ofText text directory location := by
  simp [ofText, linesOf]

/-- UTF-8 is read back with everything in it.  A text that starts with no null character makes the
same ignore file from its bytes in every form. -/
theorem ofText_same_in_every_form {detector : Text.Detector} (follows : Text.FollowsMarks detector)
    (text : List Char) :
    Text.decodeBy detector (Text.Form.utf8.bytes text).toByteArray = (none, text) ∧
    ∀ first rest, text = first :: rest → first ≠ '\x00' →
      ∀ (form : Text.Form) (directory : Path) (location : List Char),
        ofText (Text.decodeBy detector (form.bytes text).toByteArray).2 directory location =
          ofText text directory location := by
  refine ⟨Text.decodeBy_utf8 detector text, ?_⟩
  rintro first rest rfl notNull form directory location
  cases form with
  | utf8 => rw [Text.decodeBy_utf8]
  | markedUtf8 => rw [Text.decodeBy_markedUtf8, ofText_mark_cons]
  | utf16 order => rw [Text.decodeBy_utf16 follows notNull]
  | utf32 order => rw [Text.decodeBy_utf32 follows order (by simp)]

/-- A character of two units in each line, and one of two bytes. -/
theorem ofText_same_of_pair :
    let text := "😀*\n!😀é".toList
    let bytes : List UInt8 :=
      [0xFF, 0xFE, 0x3D, 0xD8, 0x00, 0xDE, 0x2A, 0x00, 0x0A, 0x00, 0x21, 0x00,
        0x3D, 0xD8, 0x00, 0xDE, 0xE9, 0x00]
    Text.FollowsMarks Text.detectMarked ∧
      (Text.Form.utf16 .littleEndian).bytes text = bytes ∧
      ofText (Text.decodeBy Text.detectMarked bytes.toByteArray).2 ⟨.root, []⟩ [] =
        ofText text ⟨.root, []⟩ [] ∧
      (ofText text ⟨.root, []⟩ []).rules.length = 2 := by
  intro text bytes
  have isWritten : (Text.Form.utf16 .littleEndian).bytes text = bytes := by decide +kernel
  obtain ⟨-, same⟩ := ofText_same_in_every_form Text.followsMarks_detectMarked text
  refine ⟨Text.followsMarks_detectMarked, isWritten, ?_, by decide +kernel⟩
  rw [← isWritten]
  exact same '😀' _ rfl (by decide) _ _ _

end IgnoreFile

end IgnoreRules
