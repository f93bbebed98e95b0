import IgnoreRules.Proofs.Glob.Taken
import IgnoreRules.Proofs.Rule.Grammar
import IgnoreRules.Proofs.Rule.Rebuilt

/-!
Where the glob of a part says what its labelled characters say.  In a glob a set reaches to the next
closing bracket, whether or not a backslash stands before it, and holds the backslashes on the way.
So the two readings agree where escapes keep out of sets: nothing in a set is escaped, and behind a
bracket that opens none there is no bracket that only the glob would close it with.
-/

namespace IgnoreRules

namespace Mark

/-- Sets and escapes keep apart: the members of a set are not escaped, and behind a bracket without
a set there is neither an escaped closing bracket nor a blank at the end, which is given brackets.
-/
inductive KeepApart : List Mark → Prop where
  | nil : KeepApart []
  | other {mark : Mark} {marks : List Mark} :
      mark ≠ opening → KeepApart marks → KeepApart (mark :: marks)
  | set {following body rest : List Mark} {negated : Bool} :
      StartsSet following negated body rest → (∀ mark ∈ body, mark.escaped = false) →
      KeepApart rest → KeepApart (opening :: following)
  | loneOpening {marks : List Mark} :
      (∀ negated body rest, ¬StartsSet marks negated body rest) → ⟨']', true⟩ ∉ marks →
      EndsVisibly marks → KeepApart marks → KeepApart (opening :: marks)

/-- An opening bracket stands next to an escaped character or a blank at the end. -/
def Mixes (part : List Mark) : Prop :=
  opening ∈ part ∧ ((∃ mark ∈ part, mark.escaped = true) ∨ ¬EndsVisibly part)

instance : DecidablePred Mixes :=
  fun _ => inferInstanceAs (Decidable (_ ∧ _))

variable {marks following body rest part : List Mark} {negated : Bool} {name : Name}

theorem StartsSet.suffix (starts : StartsSet following negated body rest) : rest <:+ following := by
  cases starts with
  | plain => exact (List.suffix_cons _ _).trans (List.suffix_append _ _)
  | negated =>
      exact ((List.suffix_cons _ _).trans (List.suffix_append _ _)).trans (List.suffix_cons _ _)

theorem StartsSet.subset (starts : StartsSet following negated body rest) : body ⊆ following := by
  cases starts with
  | plain => exact List.subset_append_left _ _
  | negated => exact List.Subset.trans (List.subset_append_left _ _) (List.subset_cons_self _ _)

theorem keepApart_of_not_mem (noOpening : opening ∉ marks) : KeepApart marks := by
  induction marks with
  | nil => exact .nil
  | cons mark marks inductionHypothesis =>
      rw [List.mem_cons, not_or] at noOpening
      exact .other (Ne.symm noOpening.1) (inductionHypothesis noOpening.2)

theorem keepApart_of_plain (plain : ∀ mark ∈ marks, mark.escaped = false)
    (visible : EndsVisibly marks) : KeepApart marks := by
  induction size : marks.length using Nat.strongRecOn generalizing marks with
  | _ size shorter =>
      have further {others : List Mark} (isEnd : others <:+ marks)
          (less : others.length < marks.length) : KeepApart others :=
        shorter others.length (size ▸ less) (fun mark present => plain mark (isEnd.mem present))
          (visible.of_suffix isEnd) rfl
      cases marks with
      | nil => exact .nil
      | cons mark marks =>
          have apart := further (List.suffix_cons mark marks) (by simp)
          rw [List.forall_mem_cons] at plain
          by_cases isOpening : mark = opening
          · subst isOpening
            by_cases isSet : ∃ negated body rest, StartsSet marks negated body rest
            · obtain ⟨negated, body, rest, starts⟩ := isSet
              refine .set starts (fun mark present => plain.2 mark (starts.subset present)) ?_
              exact further (starts.suffix.trans (List.suffix_cons _ _))
                (Nat.lt_succ_of_le starts.suffix.length_le)
            · refine .loneOpening ?_ ?_ (visible.of_suffix (List.suffix_cons _ _)) apart
              · exact fun negated body rest starts => isSet ⟨negated, body, rest, starts⟩
              · exact fun escaped => by simpa using plain.2 _ escaped
          · exact .other isOpening apart

theorem keepApart_of_not_mixes (unmixed : ¬Mixes part) : KeepApart part := by
  by_cases isOpening : opening ∈ part
  · rw [Mixes, not_and, not_or, not_not] at unmixed
    obtain ⟨noEscape, visible⟩ := unmixed isOpening
    refine keepApart_of_plain (fun mark present => ?_) visible
    rw [Bool.eq_false_iff]
    exact fun escaped => noEscape ⟨mark, present, escaped⟩
  · exact keepApart_of_not_mem isOpening

theorem setHolds_iff_contains (plain : ∀ mark ∈ body, mark.escaped = false) (character : Char) :
    SetHolds negated body character ↔
      (CharSet.bracket negated (Member.readAll (body.map Mark.character))).contains character =
        true := by
  rw [SetHolds, members_eq_readAll plain, CharSet.contains, bne_iff_ne, ← List.any_eq_true]
  cases List.any _ _ <;> cases negated <;> simp

theorem exists_body_of_bracketBody? {text : List Char} (noEscaped : ⟨']', true⟩ ∉ marks)
    (closed : Glob.bracketBody? (writeAll marks) = some text) :
    ∃ body rest, marks = body ++ closing :: rest ∧ IsBody body := by
  obtain ⟨after, split, nonempty, -⟩ := Glob.bracketBody?_eq_some_iff.mp closed
  cases marks with
  | nil => simp at split
  | cons mark marks =>
      rw [List.mem_cons, not_or] at noEscaped
      -- The closing bracket stands behind the first character of the text, so it is written for a
      -- label behind the first.
      obtain ⟨first, others, rfl⟩ := List.exists_cons_of_ne_nil nonempty
      have behind : ']' ∈ writeAll marks := by
        have inTail : ']' ∈ (writeAll (mark :: marks)).tail := by
          rw [split]
          simp
        rw [writeAll_cons, written] at inTail
        split at inTail
        next escaped =>
          rcases List.mem_cons.mp inTail with own | behind
          · exact absurd (by rw [own, ← escaped]) noEscaped.1
          · exact behind
        next => exact inTail
      obtain ⟨other, present, inWritten⟩ := List.mem_flatMap.mp behind
      have isClosing : other = closing := by
        obtain ⟨character, escaped⟩ := other
        cases escaped with
        | true =>
            obtain rfl : ']' = character := by simpa [written] using inWritten
            exact absurd present noEscaped.2
        | false =>
            obtain rfl : ']' = character := by simpa [written] using inWritten
            rfl
      subst isClosing
      obtain ⟨front, back, rfl, absent⟩ := List.eq_append_cons_of_mem present
      exact ⟨mark :: front, back, rfl, ⟨List.cons_ne_nil _ _, absent⟩⟩

theorem exists_startsSet_of_bracketAfter? {text : List Char} (noEscaped : ⟨']', true⟩ ∉ marks)
    (closed : Glob.bracketAfter? (writeAll marks) = some (negated, text)) :
    ∃ negated body rest, StartsSet marks negated body rest := by
  rcases Glob.bracketAfter?_cases closed with
    ⟨sign, behind, split, negation, -, closedBody⟩ | ⟨notBang, notCaret, -, closedBody⟩
  · cases marks with
    | nil => simp at split
    | cons mark marks =>
        obtain ⟨character, escaped⟩ := mark
        cases escaped with
        | true =>
            obtain rfl : '\\' = sign := (List.cons_eq_cons.mp split).1
            simp at negation
        | false =>
            obtain ⟨rfl, rfl⟩ : character = sign ∧ writeAll marks = behind :=
              List.cons_eq_cons.mp split
            have isNegation : IsNegation ⟨character, false⟩ := by simpa [IsNegation] using negation
            have noneBehind : ⟨']', true⟩ ∉ marks :=
              fun present => noEscaped (List.mem_cons_of_mem _ present)
            obtain ⟨body, rest, rfl, isBody⟩ := exists_body_of_bracketBody? noneBehind closedBody
            exact ⟨true, body, rest, .negated isNegation isBody⟩
  · obtain ⟨body, rest, rfl, isBody⟩ := exists_body_of_bracketBody? noEscaped closedBody
    obtain ⟨first, others, rfl⟩ := List.exists_cons_of_ne_nil isBody.nonempty
    refine ⟨false, _, rest, .plain isBody ?_⟩
    rintro mark isFirst (rfl | rfl)
    · obtain rfl := Option.some.inj isFirst
      simp [written] at notBang
    · obtain rfl := Option.some.inj isFirst
      simp [written] at notCaret

end Mark

namespace Segment

open Mark

variable {following body rest part : List Mark} {negated : Bool} {name : Name}

theorem glob_opening_cons (marks : List Mark) : glob (opening :: marks) = '[' :: glob marks :=
  glob_cons (.inr (by decide))

theorem glob_closing_cons (marks : List Mark) : glob (closing :: marks) = ']' :: glob marks :=
  glob_cons (.inr (by decide))

theorem glob_append_of_plain {front back : List Mark} (plain : ∀ mark ∈ front, mark.escaped = false)
    (more : back ≠ []) : glob (front ++ back) = front.map Mark.character ++ glob back := by
  induction front with
  | nil => rfl
  | cons mark front inductionHypothesis =>
      rw [List.forall_mem_cons] at plain
      have further : front ++ back ≠ [] := List.append_ne_nil_of_right_ne_nil front more
      rw [List.cons_append, glob_cons (.inl further), written, plain.1,
        inductionHypothesis plain.2]
      rfl

theorem bracketAfter?_glob (starts : StartsSet following negated body rest)
    (plain : ∀ mark ∈ body, mark.escaped = false) :
    Glob.bracketAfter? (glob following) = some (negated, body.map Mark.character) ∧
      (glob following).drop (Glob.bracketWidth negated (body.map Mark.character)) = glob rest := by
  have closedBody (isBody : IsBody body) :
      Glob.bracketBody? (glob (body ++ closing :: rest)) = some (body.map Mark.character) := by
    rw [glob_append_of_plain plain (by simp), glob_closing_cons, Glob.bracketBody?_eq_some_iff]
    refine ⟨glob rest, rfl, by simpa using isBody.nonempty, ?_⟩
    rw [← List.map_tail, List.mem_map]
    rintro ⟨mark, inTail, isBracket⟩
    have isClosing : mark = closing := by
      obtain ⟨character, escaped⟩ := mark
      obtain rfl : escaped = false := plain _ (List.mem_of_mem_tail inTail)
      obtain rfl : character = ']' := isBracket
      rfl
    exact isBody.notClosed (isClosing ▸ inTail)
  have behind : (glob (body ++ closing :: rest)).drop (body.length + 1) = glob rest := by
    rw [glob_append_of_plain plain (by simp), glob_closing_cons, List.append_cons]
    exact List.drop_left' (by simp)
  cases starts with
  | plain isBody notNegation =>
      obtain ⟨first, others, rfl⟩ := List.exists_cons_of_ne_nil isBody.nonempty
      have unescaped : first.escaped = false := plain first List.mem_cons_self
      have isHead : (glob (first :: others ++ closing :: rest)).head? = some first.character := by
        rw [glob_append_of_plain plain (by simp)]
        rfl
      have notSign {sign : Char} (isSign : IsNegation ⟨sign, false⟩) :
          (glob (first :: others ++ closing :: rest)).head? ≠ some sign := by
        rw [isHead, ne_eq, Option.some.injEq]
        rintro rfl
        apply notNegation first rfl
        rwa [← unescaped] at isSign
      constructor
      · rw [Glob.bracketAfter?_of_plain (notSign (.inl rfl)) (notSign (.inr rfl)),
          closedBody isBody, Option.map_some]
      · simpa [Glob.bracketWidth] using behind
  | @negated sign _ _ isNegation isBody =>
      have unescaped : sign.escaped = false ∧ (sign.character = '!' ∨ sign.character = '^') := by
        rcases isNegation with rfl | rfl <;> simp
      have asWritten : glob (sign :: (body ++ closing :: rest)) =
          sign.character :: glob (body ++ closing :: rest) := by
        rw [glob_cons (.inl (by simp)), written, unescaped.1]
        rfl
      rw [asWritten]
      constructor
      · rw [Glob.bracketAfter?_negation_cons unescaped.2, closedBody isBody, Option.map_some]
      · have width : Glob.bracketWidth true (body.map Mark.character) = body.length + 1 + 1 := by
          simp [Glob.bracketWidth, Nat.add_comm]
        rw [width, List.drop_succ_cons, behind]

theorem bracketAfter?_glob_of_loneOpening {marks : List Mark}
    (noSet : ∀ negated body rest, ¬StartsSet marks negated body rest)
    (noEscaped : ⟨']', true⟩ ∉ marks) (visible : EndsVisibly marks) :
    Glob.bracketAfter? (glob marks) = none := by
  rw [glob_eq_writeAll visible, Option.eq_none_iff_forall_ne_some]
  rintro ⟨negated, text⟩ closed
  obtain ⟨negated, body, rest, starts⟩ := exists_startsSet_of_bracketAfter? noEscaped closed
  exact noSet negated body rest starts

theorem takes_glob_blank_iff {mark : Mark} {pieces : List Glob.Piece}
    (blank : Text.isBlank mark.character = true)
    (scanned : Glob.scan? (glob [mark]) = some pieces) :
    Glob.Takes pieces name ↔ Mark.Takes [mark] name := by
  rw [glob_blank blank, Glob.scan?_bracketed_blank blank] at scanned
  obtain rfl := Option.some.inj scanned
  have literal : mark.IsLiteral := by
    refine .inr ⟨?_, ?_, ?_⟩ <;>
    · intro same
      rw [same] at blank
      contradiction
  have holds (character : Char) :
      (CharSet.bracket false (Member.readAll [mark.character])).contains character = true ↔
        mark.character = character := by
    simp [Member.readAll, CharSet.contains, Member.holds]
  rw [Glob.takes_bracket_cons_iff, takes_literal_cons_iff literal]
  simp only [holds, Glob.takes_nil_iff, Mark.takes_nil_iff]
  constructor
  · rintro ⟨character, rest, rfl, rfl, rfl⟩
    exact ⟨[], rfl, rfl⟩
  · rintro ⟨rest, rfl, rfl⟩
    exact ⟨mark.character, [], rfl, rfl, rfl⟩

theorem takes_written_cons_iff {mark : Mark} {marks : List Mark} {glob : List Char}
    {pieces : List Glob.Piece} (notOpening : mark ≠ opening)
    (faithful : mark.escaped = false → mark.character ≠ '\\')
    (scanned : Glob.scan? (mark.written ++ glob) = some pieces) :
    ∃ others, Glob.scan? glob = some others ∧
      ((∀ rest, Glob.Takes others rest ↔ Mark.Takes marks rest) →
        (Glob.Takes pieces name ↔ Mark.Takes (mark :: marks) name)) := by
  obtain ⟨character, escaped⟩ := mark
  cases escaped with
  | true =>
      have literal : IsLiteral ⟨character, true⟩ := .inl rfl
      have asWritten : written ⟨character, true⟩ ++ glob = '\\' :: character :: glob := rfl
      rw [asWritten, Glob.scan?_escaped_cons] at scanned
      obtain ⟨others, scannedOthers, rfl⟩ := Option.map_eq_some_iff.mp scanned
      refine ⟨others, scannedOthers, fun same => ?_⟩
      simp only [Glob.takes_literal_cons_iff, takes_literal_cons_iff literal, same]
  | false =>
      have notBracket : character ≠ '[' := by
        rintro rfl
        exact notOpening rfl
      have asWritten : written ⟨character, false⟩ ++ glob = character :: glob := rfl
      rw [asWritten, Glob.scan?_single_cons (faithful rfl) (absurd · notBracket)] at scanned
      obtain ⟨others, scannedOthers, rfl⟩ := Option.map_eq_some_iff.mp scanned
      refine ⟨others, scannedOthers, fun same => ?_⟩
      by_cases star : character = '*'
      · subst star
        simp only [Glob.single, if_true, Glob.takes_star_cons_iff, Mark.takes_star_cons_iff, same]
      · by_cases question : character = '?'
        · subst question
          simp only [Glob.single, if_neg star, if_true, Glob.takes_question_cons_iff,
            Mark.takes_question_cons_iff, same]
        · have literal : IsLiteral ⟨character, false⟩ := .inr ⟨star, question, notBracket⟩
          rw [Glob.single, if_neg star, if_neg question, Glob.takes_literal_cons_iff,
            takes_literal_cons_iff literal]
          simp only [same]

/-- Where sets and escapes keep apart, the glob of a part takes the names that its labelled
characters take. -/
theorem takes_glob_iff {pieces : List Glob.Piece} (apart : KeepApart part)
    (faithful : AreFaithful part) (scanned : Glob.scan? (glob part) = some pieces) :
    Glob.Takes pieces name ↔ Mark.Takes part name := by
  induction apart generalizing pieces name with
  | nil =>
      obtain rfl : [] = pieces := Option.some.inj scanned
      rw [Glob.takes_nil_iff, Mark.takes_nil_iff]
  | @other mark marks notOpening _ inductionHypothesis =>
      rcases glob_cons_cases mark marks with ⟨rfl, blank⟩ | asWritten
      · exact takes_glob_blank_iff blank scanned
      · rw [asWritten] at scanned
        have faithfulOthers := faithful.of_subset (List.subset_cons_self mark marks)
        obtain ⟨others, scannedOthers, same⟩ :=
          takes_written_cons_iff notOpening (faithful mark List.mem_cons_self) scanned
        exact same fun _ => inductionHypothesis faithfulOthers scannedOthers
  | @set following body rest negated starts plain _ inductionHypothesis =>
      obtain ⟨closed, behind⟩ := bracketAfter?_glob starts plain
      rw [glob_opening_cons, Glob.scan?_set_cons closed, behind] at scanned
      obtain ⟨others, scannedRest, rfl⟩ := Option.map_eq_some_iff.mp scanned
      have faithfulRest := faithful.of_subset
        (starts.suffix.trans (List.suffix_cons opening following)).subset
      simp only [Glob.takes_bracket_cons_iff, takes_set_cons_iff starts,
        setHolds_iff_contains plain, inductionHypothesis faithfulRest scannedRest]
  | @loneOpening marks noSet noEscaped visible _ inductionHypothesis =>
      have noSetRead := bracketAfter?_glob_of_loneOpening noSet noEscaped visible
      rw [glob_opening_cons, Glob.scan?_single_cons (by decide) fun _ => noSetRead] at scanned
      obtain ⟨others, scannedOthers, rfl⟩ := Option.map_eq_some_iff.mp scanned
      have faithfulOthers := faithful.of_subset (List.subset_cons_self opening marks)
      have isLiteral : Glob.single '[' = .literal '[' := by decide
      simp only [isLiteral, Glob.takes_literal_cons_iff, takes_loneOpening_cons_iff noSet,
        inductionHypothesis faithfulOthers scannedOthers]

end Segment

end IgnoreRules
