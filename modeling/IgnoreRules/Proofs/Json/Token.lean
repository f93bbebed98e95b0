import IgnoreRules.Proofs.Json.Grammar
import Mathlib.Data.List.TakeDrop
import Mathlib.Data.List.TakeWhile

/-!
The tokens of JSON.  A reader returns what the grammar says, and it takes every token of the
grammar, whatever stands behind it; only what stands behind a number must not go on with it.
-/

namespace IgnoreRules

namespace Json

variable {rest : List Char}

/-! ### Texts -/

theorem readUnits_cons_of_plain {character : Char} (notQuote : character ≠ '"')
    (notBackslash : character ≠ '\\') (notControl : ¬character < ' ') (done : List Nat) :
    readUnits done (character :: rest) = readUnits (character.toNat :: done) rest := by
  have raw : (character < ' ' || character == '\\') = false := by simp [notControl, notBackslash]
  rw [readUnits.eq_5 done character rest notQuote, raw, if_neg Bool.false_ne_true]
  · rintro _ _ _ _ _ isBackslash
    exact absurd isBackslash notBackslash
  · rintro _ _ isBackslash
    exact absurd isBackslash notBackslash

theorem readUnits_cons_of_escape {mark character : Char}
    (escapes : unescaped? mark = some character) (done : List Nat) :
    readUnits done ('\\' :: mark :: rest) = readUnits (character.toNat :: done) rest := by
  rw [readUnits.eq_4 done mark rest, escapes]
  rintro _ _ _ _ _ rfl
  contradiction

theorem readUnits_append {body : List Char} {units : List Nat} (isBody : IsBody body units)
    (done : List Nat) :
    readUnits done (body ++ '"' :: rest) = some (done.reverse ++ units, rest) := by
  induction isBody generalizing done with
  | nil => simp [readUnits]
  | plain notQuote notBackslash notControl _ inductionHypothesis =>
      rw [List.cons_append, readUnits_cons_of_plain notQuote notBackslash notControl,
        inductionHypothesis]
      simp
  | escape escapes _ inductionHypothesis =>
      rw [List.cons_append, List.cons_append, readUnits_cons_of_escape escapes,
        inductionHypothesis]
      simp
  | code isCode _ inductionHypothesis =>
      simp only [List.cons_append, readUnits, isCode]
      rw [inductionHypothesis]
      simp

theorem exists_body_of_readUnits {done units : List Nat} {text : List Char}
    (read : readUnits done text = some (units, rest)) :
    ∃ body own, IsBody body own ∧ text = body ++ '"' :: rest ∧ units = done.reverse ++ own := by
  fun_induction readUnits done text with
  | case1 => contradiction
  | case2 done after =>
      cases read
      exact ⟨[], [], .nil, rfl, (List.append_nil _).symm⟩
  | case3 done first second third fourth after unit isCode inductionHypothesis =>
      obtain ⟨body, own, isBody, rfl, rfl⟩ := inductionHypothesis read
      exact ⟨_, _, .code isCode isBody, rfl, by simp⟩
  | case4 => contradiction
  | case5 done mark after _ character escapes inductionHypothesis =>
      obtain ⟨body, own, isBody, rfl, rfl⟩ := inductionHypothesis read
      exact ⟨_, _, .escape escapes isBody, rfl, by simp⟩
  | case6 => contradiction
  | case7 => contradiction
  | case8 done character after notQuote _ _ plain inductionHypothesis =>
      obtain ⟨body, own, isBody, rfl, rfl⟩ := inductionHypothesis read
      simp only [Bool.or_eq_true, decide_eq_true_eq, beq_iff_eq, not_or] at plain
      exact ⟨_, _, .plain notQuote plain.2 plain.1 isBody, rfl, by simp⟩

/-- A text is read to its closing quote; its opening quote has been read before. -/
theorem readText_append {body : List Char} {units : List Nat} (isBody : IsBody body units) :
    readText (body ++ '"' :: rest) = some (textOfUnits units, rest) := by
  rw [readText, readUnits_append isBody]
  rfl

theorem exists_body_of_readText {value : String} {text : List Char}
    (read : readText text = some (value, rest)) :
    ∃ body units, IsBody body units ∧ text = body ++ '"' :: rest ∧ value = textOfUnits units := by
  obtain ⟨⟨units, after⟩, readUnits, same⟩ := Option.map_eq_some_iff.mp read
  cases same
  obtain ⟨body, _, isBody, written, rfl⟩ := exists_body_of_readUnits readUnits
  exact ⟨body, _, isBody, written, rfl⟩

/-! ### Digits -/

def EndsDigits (rest : List Char) : Prop :=
  ∀ character ∈ rest.head?, character.isDigit = false

/-- What stands behind a number and does not go on with it. -/
def EndsNumber (rest : List Char) : Prop :=
  ∀ character ∈ rest.head?,
    character.isDigit = false ∧ character ≠ '.' ∧ character ≠ 'e' ∧ character ≠ 'E'

theorem EndsNumber.endsDigits (ends : EndsNumber rest) : EndsDigits rest :=
  fun character isFirst => (ends character isFirst).1

theorem ne_of_isDigit {character letter : Char} (isDigit : character.isDigit = true)
    (noDigit : letter.isDigit = false) : letter ≠ character := by
  rintro rfl
  rw [noDigit] at isDigit
  contradiction

theorem spanDigits_append {digits : List Char} (areDigits : AreDigits digits)
    (ends : EndsDigits rest) : spanDigits (digits ++ rest) = (digits, rest) := by
  rw [spanDigits, List.span_eq_takeWhile_dropWhile, List.takeWhile_append_of_pos areDigits.each,
    List.dropWhile_append_of_pos areDigits.each]
  cases rest with
  | nil => simp
  | cons character rest =>
      have notDigit := ends character rfl
      simp [notDigit]

theorem areDigits_of_spanDigits {text : List Char} {first : Char} {others : List Char}
    (spanned : spanDigits text = (first :: others, rest)) :
    AreDigits (first :: others) ∧ text = first :: others ++ rest := by
  rw [spanDigits, List.span_eq_takeWhile_dropWhile, Prod.mk.injEq] at spanned
  refine ⟨⟨List.cons_ne_nil _ _, fun digit present => ?_⟩, ?_⟩
  · rw [← spanned.1] at present
    exact List.mem_takeWhile_imp present
  · rw [← spanned.1, ← spanned.2, List.takeWhile_append_dropWhile]

/-! ### Numbers -/

theorem IsWhole.areDigits {whole : List Char} (isWhole : IsWhole whole) : AreDigits whole := by
  cases isWhole with
  | zero => exact ⟨List.cons_ne_nil _ _, List.forall_mem_singleton.mpr rfl⟩
  | digits _ areDigits => exact areDigits

theorem readWhole_append {whole : List Char} (isWhole : IsWhole whole) (ends : EndsDigits rest) :
    readWhole (whole ++ rest) = some (whole, rest) := by
  cases isWhole with
  | zero => rfl
  | digits notZero areDigits =>
      unfold readWhole
      split
      next startsZero => exact absurd (List.cons.inj startsZero).1 notZero
      next => rw [spanDigits_append areDigits ends]

theorem isWhole_of_readWhole {text whole : List Char}
    (read : readWhole text = some (whole, rest)) : IsWhole whole ∧ text = whole ++ rest := by
  unfold readWhole at read
  split at read
  next =>
    cases read
    exact ⟨.zero, rfl⟩
  next notZero =>
    split at read
    next => contradiction
    next digits after someDigits spanned =>
      cases read
      obtain ⟨first, others, rfl⟩ := List.exists_cons_of_ne_nil someDigits
      obtain ⟨areDigits, rfl⟩ := areDigits_of_spanDigits spanned
      refine ⟨.digits ?_ areDigits, rfl⟩
      rintro rfl
      exact notZero _ rfl

theorem readFraction_append {point fraction : List Char} (isFraction : IsFraction point fraction)
    (ends : EndsDigits rest) (noPoint : '.' ∉ rest.head?) :
    readFraction (point ++ rest) = (fraction, rest) := by
  cases isFraction with
  | none =>
      unfold readFraction
      split
      next isPoint =>
        rw [List.nil_append] at isPoint
        rw [isPoint] at noPoint
        exact absurd rfl noPoint
      next => rfl
  | point areDigits =>
      obtain ⟨first, others, rfl⟩ := List.exists_cons_of_ne_nil areDigits.ne_nil
      rw [List.cons_append, readFraction, spanDigits_append areDigits ends]

theorem isFraction_of_readFraction {text fraction : List Char}
    (read : readFraction text = (fraction, rest)) :
    ∃ point, IsFraction point fraction ∧ text = point ++ rest := by
  unfold readFraction at read
  split at read
  next =>
    split at read
    next =>
      cases read
      exact ⟨[], .none, rfl⟩
    next digits after someDigits spanned =>
      cases read
      obtain ⟨first, others, rfl⟩ := List.exists_cons_of_ne_nil someDigits
      obtain ⟨areDigits, rfl⟩ := areDigits_of_spanDigits spanned
      exact ⟨_, .point areDigits, rfl⟩
  next =>
    cases read
    exact ⟨[], .none, rfl⟩

theorem takeSign_append {sign digits : List Char} {negative : Bool}
    (isSign : (sign, negative) ∈ signs) (areDigits : AreDigits digits) :
    takeSign (sign ++ (digits ++ rest)) = (negative, digits ++ rest) := by
  obtain ⟨first, others, rfl⟩ := List.exists_cons_of_ne_nil areDigits.ne_nil
  have isDigit := areDigits.each first List.mem_cons_self
  simp only [signs, List.mem_cons, List.not_mem_nil, or_false, Prod.mk.injEq] at isSign
  rcases isSign with ⟨rfl, rfl⟩ | ⟨rfl, rfl⟩ | ⟨rfl, rfl⟩
  · unfold takeSign
    split
    next isMinus => exact absurd (List.cons.inj isMinus).1.symm (ne_of_isDigit isDigit rfl)
    next isPlus => exact absurd (List.cons.inj isPlus).1.symm (ne_of_isDigit isDigit rfl)
    next => rfl
  · rfl
  · rfl

theorem isSign_of_takeSign {text : List Char} {negative : Bool}
    (taken : takeSign text = (negative, rest)) :
    ∃ sign, (sign, negative) ∈ signs ∧ text = sign ++ rest := by
  unfold takeSign at taken
  split at taken
  next =>
    cases taken
    exact ⟨['-'], by decide, rfl⟩
  next =>
    cases taken
    exact ⟨['+'], by decide, rfl⟩
  next =>
    cases taken
    exact ⟨[], by decide, rfl⟩

theorem readPower_append {mark : List Char} {power? : Option Int} (isPower : IsPower mark power?)
    (ends : EndsNumber rest) : readPower (mark ++ rest) = (power?, rest) := by
  cases isPower with
  | none =>
      cases rest with
      | nil => rfl
      | cons first others =>
          obtain ⟨-, -, noSmall, noCapital⟩ := ends first rfl
          simp [readPower, noSmall, noCapital]
  | mark isMark isSign areDigits =>
      have spanned := spanDigits_append areDigits ends.endsDigits
      obtain ⟨first, others, rfl⟩ := List.exists_cons_of_ne_nil areDigits.ne_nil
      rw [List.cons_append, readPower, if_pos isMark, List.append_assoc,
        takeSign_append isSign areDigits]
      dsimp only
      rw [spanned]
      rfl

theorem isPower_of_readPower {text : List Char} {power? : Option Int}
    (read : readPower text = (power?, rest)) :
    ∃ mark, IsPower mark power? ∧ text = mark ++ rest := by
  unfold readPower at read
  split at read
  next mark after =>
    split at read
    next isMark =>
      obtain ⟨⟨negative, digitsText⟩, taken⟩ : ∃ taken, takeSign after = taken := ⟨_, rfl⟩
      rw [taken] at read
      obtain ⟨sign, isSign, rfl⟩ := isSign_of_takeSign taken
      dsimp only at read
      split at read
      next =>
        cases read
        exact ⟨[], .none, rfl⟩
      next digits behind someDigits spanned =>
        cases read
        obtain ⟨first, others, rfl⟩ := List.exists_cons_of_ne_nil someDigits
        obtain ⟨areDigits, rfl⟩ := areDigits_of_spanDigits spanned
        exact ⟨_, .mark isMark isSign areDigits, by simp⟩
    next =>
      cases read
      exact ⟨[], .none, rfl⟩
  next =>
    cases read
    exact ⟨[], .none, rfl⟩

/-! A number starts with a digit, or with a minus sign and a digit. -/

theorem takeMinus_append {text : List Char} (negative : Bool) (noMinus : '-' ∉ text.head?) :
    takeMinus (minus negative ++ text) = (negative, text) := by
  cases negative with
  | true => rfl
  | false =>
      change takeMinus text = _
      unfold takeMinus
      split
      next => exact absurd rfl noMinus
      next => rfl

theorem minus_of_takeMinus {text : List Char} {negative : Bool}
    (taken : takeMinus text = (negative, rest)) : text = minus negative ++ rest := by
  unfold takeMinus at taken
  split at taken
  next =>
    cases taken
    rfl
  next =>
    cases taken
    rfl

theorem IsPower.endsFraction {mark : List Char} {power? : Option Int}
    (isPower : IsPower mark power?) (ends : EndsNumber rest) :
    EndsDigits (mark ++ rest) ∧ '.' ∉ (mark ++ rest).head? := by
  cases isPower with
  | none => exact ⟨ends.endsDigits, fun isPoint => (ends '.' isPoint).2.1 rfl⟩
  | mark isMark =>
      rcases isMark with rfl | rfl
      · simp [EndsDigits]
      · simp [EndsDigits]

theorem IsFraction.endsDigits {point fraction : List Char} (isFraction : IsFraction point fraction)
    (ends : EndsDigits rest) : EndsDigits (point ++ rest) := by
  cases isFraction with
  | none => exact ends
  | point => simp [EndsDigits]

theorem IsWhole.noMinus {whole : List Char} (isWhole : IsWhole whole) :
    '-' ∉ (whole ++ rest).head? := by
  obtain ⟨first, others, rfl⟩ := List.exists_cons_of_ne_nil isWhole.areDigits.ne_nil
  have isDigit := isWhole.areDigits.each first List.mem_cons_self
  have differs : '-' ≠ first := ne_of_isDigit isDigit rfl
  simpa using differs.symm

theorem readNumber_parts {whole point fraction mark : List Char} {power? : Option Int}
    (negative : Bool) (isWhole : IsWhole whole) (isFraction : IsFraction point fraction)
    (isPower : IsPower mark power?) (ends : EndsNumber rest) :
    readNumber (minus negative ++ (whole ++ (point ++ (mark ++ rest)))) =
      if fraction = [] ∧ power? = none then
        if greatestDigitCount < whole.length then none
        else some (integer (signed negative whole), rest)
      else
        some (float (Binary64.nearest negative (digitsNumber (whole ++ fraction))
          (power?.getD 0 - fraction.length)), rest) := by
  have endsFraction := isPower.endsFraction ends
  rw [readNumber, takeMinus_append negative isWhole.noMinus]
  dsimp only
  rw [readWhole_append isWhole (isFraction.endsDigits endsFraction.1)]
  dsimp only
  rw [readFraction_append isFraction endsFraction.1 endsFraction.2]
  dsimp only
  rw [readPower_append isPower ends]
  rfl

theorem readNumber_append {own : List Char} {value : Json} (isNumber : IsNumber own value)
    (ends : EndsNumber rest) : readNumber (own ++ rest) = some (value, rest) := by
  cases isNumber with
  | @integer negative whole isWhole few =>
      have read := readNumber_parts negative isWhole .none .none ends
      rw [if_pos ⟨rfl, rfl⟩, if_neg (Nat.not_lt.mpr few)] at read
      rw [List.append_assoc]
      exact read
  | @float negative whole point fraction mark power? isWhole isFraction isPower notWhole =>
      rw [List.append_assoc, List.append_assoc, List.append_assoc,
        readNumber_parts negative isWhole isFraction isPower ends, if_neg notWhole]

theorem isNumber_of_readNumber {text : List Char} {value : Json}
    (read : readNumber text = some (value, rest)) :
    ∃ own, IsNumber own value ∧ text = own ++ rest := by
  rw [readNumber] at read
  obtain ⟨⟨negative, unsigned⟩, taken⟩ : ∃ taken, takeMinus text = taken := ⟨_, rfl⟩
  rw [taken] at read
  dsimp only at read
  cases readWhole? : readWhole unsigned with
  | none =>
      rw [readWhole?] at read
      contradiction
  | some wholeAnd =>
      obtain ⟨whole, behindWhole⟩ := wholeAnd
      rw [readWhole?] at read
      obtain ⟨⟨fraction, behindFraction⟩, readFraction⟩ :
        ∃ taken, readFraction behindWhole = taken := ⟨_, rfl⟩
      obtain ⟨⟨power?, behind⟩, readPower⟩ : ∃ taken, readPower behindFraction = taken := ⟨_, rfl⟩
      dsimp only at read
      rw [readFraction] at read
      dsimp only at read
      rw [readPower] at read
      dsimp only at read
      obtain ⟨isWhole, rfl⟩ := isWhole_of_readWhole readWhole?
      obtain ⟨point, isFraction, rfl⟩ := isFraction_of_readFraction readFraction
      obtain ⟨mark, isPower, rfl⟩ := isPower_of_readPower readPower
      have written := minus_of_takeMinus taken
      split at read
      next noFraction =>
        obtain ⟨rfl, rfl⟩ := noFraction
        split at read
        next => contradiction
        next few =>
          cases read
          cases isFraction with
          | none =>
              cases isPower
              exact ⟨_, .integer isWhole (Nat.not_lt.mp few), by simp [written]⟩
          | point areDigits => exact absurd rfl areDigits.ne_nil
      next notWhole =>
        cases read
        exact ⟨_, .float isWhole isFraction isPower notWhole, by simp [written]⟩

/-! ### Words -/

theorem eq_append_of_dropWord? {word text : List Char} (dropped : dropWord? word text = some rest) :
    text = word ++ rest := by
  fun_induction dropWord? word text with
  | case1 => exact Option.some.inj dropped
  | case2 => contradiction
  | case3 first word text inductionHypothesis => rw [inductionHypothesis dropped, List.cons_append]
  | case4 => contradiction

theorem readListed_append {listed : List (List Char × Json)}
    (among : listed = words ∨ listed = constants) {word : List Char} {value : Json}
    (isListed : (word, value) ∈ listed) :
    readListed listed (word ++ rest) = some (value, rest) := by
  rcases among with rfl | rfl
  · simp only [words, List.mem_cons, List.not_mem_nil, or_false, Prod.mk.injEq] at isListed
    rcases isListed with ⟨rfl, rfl⟩ | ⟨rfl, rfl⟩ | ⟨rfl, rfl⟩ <;> rfl
  · simp only [constants, List.mem_cons, List.not_mem_nil, or_false, Prod.mk.injEq] at isListed
    rcases isListed with ⟨rfl, rfl⟩ | ⟨rfl, rfl⟩ | ⟨rfl, rfl⟩ <;> rfl

theorem isListed_of_readListed {listed : List (List Char × Json)} {text : List Char} {value : Json}
    (read : readListed listed text = some (value, rest)) :
    ∃ word, (word, value) ∈ listed ∧ text = word ++ rest := by
  obtain ⟨⟨word, ofWord⟩, isListed, found⟩ := List.exists_of_findSome?_eq_some read
  obtain ⟨behind, dropped, same⟩ := Option.map_eq_some_iff.mp found
  cases same
  exact ⟨word, isListed, eq_append_of_dropWord? dropped⟩

theorem readListed_constants_of_word {word : List Char} {value : Json}
    (isWord : (word, value) ∈ words) : readListed constants (word ++ rest) = none := by
  simp only [words, List.mem_cons, List.not_mem_nil, or_false, Prod.mk.injEq] at isWord
  rcases isWord with ⟨rfl, -⟩ | ⟨rfl, -⟩ | ⟨rfl, -⟩ <;> rfl

theorem dropWord?_of_ne {expected character : Char} (differs : expected ≠ character)
    (word others : List Char) : dropWord? (expected :: word) (character :: others) = none := by
  rw [dropWord?, if_neg differs]

theorem IsNumber.exists_digit {own : List Char} {value : Json} (isNumber : IsNumber own value) :
    ∃ negative first others, own = minus negative ++ first :: others ∧ first.isDigit = true := by
  cases isNumber with
  | @integer negative whole isWhole =>
      obtain ⟨first, others, rfl⟩ := List.exists_cons_of_ne_nil isWhole.areDigits.ne_nil
      exact ⟨negative, first, others, rfl, isWhole.areDigits.each first List.mem_cons_self⟩
  | @float negative whole _ _ _ _ isWhole =>
      obtain ⟨first, others, rfl⟩ := List.exists_cons_of_ne_nil isWhole.areDigits.ne_nil
      exact ⟨negative, first, _, rfl, isWhole.areDigits.each first List.mem_cons_self⟩

theorem readListed_of_isNumber {own : List Char} {value : Json} (isNumber : IsNumber own value) :
    readListed words (own ++ rest) = none ∧ readListed constants (own ++ rest) = none := by
  obtain ⟨negative, first, others, rfl, isDigit⟩ := isNumber.exists_digit
  have differs {letter : Char} (noDigit : letter.isDigit = false) (word more : List Char) :
      dropWord? (letter :: word) (first :: more) = none :=
    dropWord?_of_ne (ne_of_isDigit isDigit noDigit) word more
  cases negative with
  | false => simp [readListed, words, constants, minus, differs]
  | true =>
      have noInfinity : 'I' ≠ first := ne_of_isDigit isDigit rfl
      simp [readListed, words, constants, minus, dropWord?, noInfinity]

end Json

end IgnoreRules
