import IgnoreRules.Proofs.Json.Reading

/-!
Texts that are cut short.  Near the end of the room the reader may find something malformed and have
no room to report it.  Every reading that does not give up stays what it is with three more levels,
and three more levels are enough for the report.
-/

namespace IgnoreRules

namespace Json

variable {fuel room : Nat}

/-- What is read or malformed stays so with more room, and what is cut short is malformed. -/
inductive Settles {Alpha : Type} : (near far : Except ReadError Alpha) → Prop where
  | tooDeep {innermost : Nesting} {far : Except ReadError Alpha} :
      Settles (.error (.tooDeep innermost)) far
  | cutShort : Settles (.error .cutShort) (.error .malformed)
  | malformed : Settles (.error .malformed) (.error .malformed)
  | read {found : Alpha} : Settles (.ok found) (.ok found)

theorem settles_reported {Alpha : Type} (room : Nat) :
    Settles (.error (.reported room) : Except ReadError Alpha)
      (.error (.reported (room + 3))) := by
  rw [show ReadError.reported (room + 3) = .malformed from if_neg (by omega), ReadError.reported]
  split
  next => exact .cutShort
  next => exact .malformed

theorem settles_readUnquoted (room : Nat) (text : List Char) :
    Settles (readUnquoted room text) (readUnquoted (room + 3) text) := by
  unfold readUnquoted
  split
  next =>
    rw [if_neg (Nat.succ_ne_zero _)]
    split
    next => exact .tooDeep
    next => exact .read
  next =>
    unfold ReadError.expected
    split
    next => exact .read
    next => exact .malformed

/-- With this fuel, three more levels settle what the three readers return. -/
structure GainsRoom (fuel : Nat) : Prop where
  value : ∀ (room : Nat) (text : List Char),
    Settles (readValue fuel room text) (readValue fuel (room + 3) text)
  elements : ∀ (room : Nat) (done : List Json) (text : List Char),
    Settles (readElements fuel room done text) (readElements fuel (room + 3) done text)
  fields : ∀ (room : Nat) (done : List (String × Json)) (text : List Char),
    Settles (readFields fuel room done text) (readFields fuel (room + 3) done text)

theorem GainsRoom.array (gains : GainsRoom fuel) (room : Nat) (behindBracket : List Char) :
    Settles (readValue (fuel + 1) room ('[' :: behindBracket))
      (readValue (fuel + 1) (room + 3) ('[' :: behindBracket)) := by
  cases room with
  | zero =>
      rw [readValue]
      exact .tooDeep
  | succ inner =>
      rw [Nat.add_right_comm, readValue, readValue]
      split
      next => exact .read
      next => exact gains.elements inner [] _

theorem GainsRoom.object (gains : GainsRoom fuel) (room : Nat) (behindBrace : List Char) :
    Settles (readValue (fuel + 1) room ('\x7b' :: behindBrace))
      (readValue (fuel + 1) (room + 3) ('\x7b' :: behindBrace)) := by
  cases room with
  | zero =>
      rw [readValue]
      exact .tooDeep
  | succ inner =>
      rw [Nat.add_right_comm, readValue, readValue]
      split
      next => exact .read
      next => exact gains.fields inner [] _

theorem GainsRoom.value_succ (gains : GainsRoom fuel) (room : Nat) (text : List Char) :
    Settles (readValue (fuel + 1) room text) (readValue (fuel + 1) (room + 3) text) := by
  cases text with
  | nil =>
      simp only [readValue]
      exact settles_readUnquoted room []
  | cons first others =>
      by_cases isText : first = '"'
      · rw [isText, readValue, readValue]
        split
        next => exact settles_reported room
        next => exact .read
      by_cases isArray : first = '['
      · rw [isArray]
        exact gains.array room others
      by_cases isObject : first = '\x7b'
      · rw [isObject]
        exact gains.object room others
      rw [readValue_cons isText isArray isObject, readValue_cons isText isArray isObject]
      exact settles_readUnquoted room _

theorem GainsRoom.elements_succ (gains : GainsRoom fuel) (room : Nat) (done : List Json)
    (text : List Char) :
    Settles (readElements (fuel + 1) room done text)
      (readElements (fuel + 1) (room + 3) done text) := by
  rw [readElements, readElements]
  have settles := gains.value room text
  generalize readValue fuel room text = near, readValue fuel (room + 3) text = far at settles ⊢
  cases settles with
  | tooDeep => exact .tooDeep
  | cutShort => exact .cutShort
  | malformed => exact .malformed
  | read =>
      dsimp only
      split
      next => exact gains.elements room _ _
      next => exact .read
      next => exact settles_reported room

theorem GainsRoom.fields_succ (gains : GainsRoom fuel) (room : Nat)
    (done : List (String × Json)) (text : List Char) :
    Settles (readFields (fuel + 1) room done text)
      (readFields (fuel + 1) (room + 3) done text) := by
  by_cases quoted : ∃ behindQuote, text = '"' :: behindQuote
  · obtain ⟨behindQuote, rfl⟩ := quoted
    rw [readFields, readFields]
    split
    next => exact settles_reported room
    next key behindKey named =>
      split
      next behindColon colon =>
        have settles := gains.value room (skipSpaces behindColon)
        generalize readValue fuel room (skipSpaces behindColon) = near,
          readValue fuel (room + 3) (skipSpaces behindColon) = far at settles ⊢
        cases settles with
        | tooDeep => exact .tooDeep
        | cutShort => exact .cutShort
        | malformed => exact .malformed
        | read =>
            dsimp only
            split
            next => exact gains.fields room _ _
            next => exact .read
            next => exact settles_reported room
      next => exact settles_reported room
  · have unquoted (behindQuote : List Char) (same : text = '"' :: behindQuote) : False :=
      quoted ⟨behindQuote, same⟩
    rw [readFields, readFields]
    · exact settles_reported room
    · exact unquoted
    · exact unquoted

end Json

end IgnoreRules
