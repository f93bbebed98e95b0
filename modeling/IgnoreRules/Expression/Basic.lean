import IgnoreRules.Expression.CharSet

/-!
A small language of expressions over characters.  `Matches` says which part of a text an
expression takes from its front; `run` decides it with the rest of the match as a continuation,
and `run_eq_true_iff` relates the two.
-/

namespace IgnoreRules

inductive Expression where
  | empty
  | one (set : CharSet)
  | many (set : CharSet)
  /-- One character of the set or more. -/
  | oneOrMore (set : CharSet)
  | sequence (first second : Expression)
  | either (left right : Expression)
  | optional (expression : Expression)
  /-- Nothing, at the end of the text or before a newline that ends it. -/
  | atEnd
deriving DecidableEq, Repr

namespace Expression

/-- `Matches expression text rest`: the expression takes `text` up to `rest`. -/
inductive Matches : Expression → List Char → List Char → Prop where
  | empty {text} : Matches empty text text
  | one {set character rest} :
      set.contains character = true → Matches (one set) (character :: rest) rest
  | manyStop {set text} : Matches (many set) text text
  | manyMore {set character text rest} :
      set.contains character = true → Matches (many set) text rest →
      Matches (many set) (character :: text) rest
  | oneOrMore {set character text rest} :
      set.contains character = true → Matches (many set) text rest →
      Matches (oneOrMore set) (character :: text) rest
  | sequence {first second text middle rest} :
      Matches first text middle → Matches second middle rest →
      Matches (sequence first second) text rest
  | left {left right text rest} : Matches left text rest → Matches (either left right) text rest
  | right {left right text rest} : Matches right text rest → Matches (either left right) text rest
  | without {expression text} : Matches (optional expression) text text
  | present {expression text rest} :
      Matches expression text rest → Matches (optional expression) text rest
  | atEnd : Matches atEnd [] []
  | atFinalNewline : Matches atEnd ['\n'] ['\n']

def runMany (set : CharSet) (next : List Char → Bool) : List Char → Bool
  | [] => next []
  | character :: rest =>
      next (character :: rest) || (set.contains character && runMany set next rest)

def runOne (set : CharSet) (next : List Char → Bool) : List Char → Bool
  | [] => false
  | character :: rest => set.contains character && next rest

/-- The expression takes some stretch from the front that lets `next` accept what is left. -/
def run : Expression → (next : List Char → Bool) → List Char → Bool
  | empty, next, text => next text
  | one set, next, text => runOne set next text
  | many set, next, text => runMany set next text
  | oneOrMore set, next, text => runOne set (runMany set next) text
  | sequence first second, next, text => run first (run second next) text
  | either left right, next, text => run left next text || run right next text
  | optional expression, next, text => next text || run expression next text
  | atEnd, next, text => (text == [] || text == ['\n']) && next text

theorem runMany_eq_true_iff {set : CharSet} {next : List Char → Bool} {text : List Char} :
    runMany set next text = true ↔ ∃ rest, Matches (many set) text rest ∧ next rest = true := by
  induction text with
  | nil =>
      refine ⟨fun accepted => ⟨[], .manyStop, accepted⟩, ?_⟩
      rintro ⟨rest, taken, accepted⟩
      cases taken
      exact accepted
  | cons character text inductionHypothesis =>
      simp only [runMany, Bool.or_eq_true, Bool.and_eq_true, inductionHypothesis]
      constructor
      · rintro (accepted | ⟨held, rest, taken, accepted⟩)
        · exact ⟨_, .manyStop, accepted⟩
        · exact ⟨rest, .manyMore held taken, accepted⟩
      · rintro ⟨rest, taken, accepted⟩
        cases taken with
        | manyStop => exact .inl accepted
        | manyMore held taken => exact .inr ⟨held, rest, taken, accepted⟩

theorem runOne_eq_true_iff {set : CharSet} {next : List Char → Bool} {text : List Char} :
    runOne set next text = true ↔
      ∃ character rest, text = character :: rest ∧ set.contains character = true ∧
        next rest = true := by
  constructor
  · intro accepted
    cases text with
    | nil => simp [runOne] at accepted
    | cons character rest =>
        simp only [runOne, Bool.and_eq_true] at accepted
        exact ⟨character, rest, rfl, accepted⟩
  · rintro ⟨character, rest, rfl, held, accepted⟩
    simp [runOne, held, accepted]

theorem run_eq_true_iff {expression : Expression} {next : List Char → Bool} {text : List Char} :
    run expression next text = true ↔
      ∃ rest, Matches expression text rest ∧ next rest = true := by
  induction expression generalizing next text with
  | empty =>
      refine ⟨fun accepted => ⟨text, .empty, accepted⟩, ?_⟩
      rintro ⟨rest, taken, accepted⟩
      cases taken
      exact accepted
  | one set =>
      simp only [run, runOne_eq_true_iff]
      constructor
      · rintro ⟨character, rest, rfl, held, accepted⟩
        exact ⟨rest, .one held, accepted⟩
      · rintro ⟨rest, taken, accepted⟩
        cases taken with
        | one held => exact ⟨_, _, rfl, held, accepted⟩
  | many set => exact runMany_eq_true_iff
  | oneOrMore set =>
      simp only [run, runOne_eq_true_iff, runMany_eq_true_iff]
      constructor
      · rintro ⟨character, text, rfl, held, rest, taken, accepted⟩
        exact ⟨rest, .oneOrMore held taken, accepted⟩
      · rintro ⟨rest, taken, accepted⟩
        cases taken with
        | oneOrMore held taken => exact ⟨_, _, rfl, held, rest, taken, accepted⟩
  | sequence first second firstHypothesis secondHypothesis =>
      simp only [run, firstHypothesis, secondHypothesis]
      constructor
      · rintro ⟨middle, takenFirst, rest, takenSecond, accepted⟩
        exact ⟨rest, .sequence takenFirst takenSecond, accepted⟩
      · rintro ⟨rest, taken, accepted⟩
        cases taken with
        | sequence takenFirst takenSecond =>
            exact ⟨_, takenFirst, rest, takenSecond, accepted⟩
  | either left right leftHypothesis rightHypothesis =>
      simp only [run, Bool.or_eq_true, leftHypothesis, rightHypothesis]
      constructor
      · rintro (⟨rest, taken, accepted⟩ | ⟨rest, taken, accepted⟩)
        · exact ⟨rest, .left taken, accepted⟩
        · exact ⟨rest, .right taken, accepted⟩
      · rintro ⟨rest, taken, accepted⟩
        cases taken with
        | left taken => exact .inl ⟨rest, taken, accepted⟩
        | right taken => exact .inr ⟨rest, taken, accepted⟩
  | optional expression inductionHypothesis =>
      simp only [run, Bool.or_eq_true, inductionHypothesis]
      constructor
      · rintro (accepted | ⟨rest, taken, accepted⟩)
        · exact ⟨text, .without, accepted⟩
        · exact ⟨rest, .present taken, accepted⟩
      · rintro ⟨rest, taken, accepted⟩
        cases taken with
        | without => exact .inl accepted
        | present taken => exact .inr ⟨rest, taken, accepted⟩
  | atEnd =>
      simp only [run, Bool.and_eq_true, Bool.or_eq_true, beq_iff_eq]
      constructor
      · rintro ⟨rfl | rfl, accepted⟩
        · exact ⟨[], .atEnd, accepted⟩
        · exact ⟨['\n'], .atFinalNewline, accepted⟩
      · rintro ⟨rest, taken, accepted⟩
        cases taken with
        | atEnd => exact ⟨.inl rfl, accepted⟩
        | atFinalNewline => exact ⟨.inr rfl, accepted⟩

def matchesAll (expression : Expression) (text : List Char) : Bool :=
  expression.run List.isEmpty text

def matchesFront (expression : Expression) (text : List Char) : Bool :=
  expression.run (fun _ => true) text

def occursIn (expression : Expression) : List Char → Bool
  | [] => expression.matchesFront []
  | character :: rest =>
      expression.matchesFront (character :: rest) || expression.occursIn rest

theorem matchesAll_eq_true_iff {expression : Expression} {text : List Char} :
    expression.matchesAll text = true ↔ Matches expression text [] := by
  simp [matchesAll, run_eq_true_iff]

theorem matchesFront_eq_true_iff {expression : Expression} {text : List Char} :
    expression.matchesFront text = true ↔ ∃ rest, Matches expression text rest := by
  simp [matchesFront, run_eq_true_iff]

end Expression

end IgnoreRules
