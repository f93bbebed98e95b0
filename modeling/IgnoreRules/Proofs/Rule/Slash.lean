import IgnoreRules.Proofs.Path.Normal
import IgnoreRules.Proofs.Rule.Canonical

/-!
Lines with a slash in the middle.  A slash separates what stands before it from what stands after:
trimming never reaches over it, labels are read on either side on their own, and so are the segments
compiled.  A slash in front of a line ties its rule to the directory and changes nothing else.
-/

namespace IgnoreRules

namespace Mark

theorem readAll_writeAll_append {marks : List Mark}
    (faithful : ∀ mark ∈ marks, mark.escaped = false → mark.character ≠ '\\')
    (rest : List Char) : readAll (writeAll marks ++ rest) = marks ++ readAll rest := by
  induction marks with
  | nil => rfl
  | cons mark marks inductionHypothesis =>
      rw [List.forall_mem_cons] at faithful
      obtain ⟨character, escaped⟩ := mark
      cases escaped with
      | true => simp [written, inductionHypothesis faithful.2]
      | false =>
          have other : character ≠ '\\' := faithful.1 rfl
          simp [written, readAll_cons_of_ne other, inductionHypothesis faithful.2]

end Mark

namespace Line

/-- Slashes at the end are taken off without a slash further in front unless they reach down to
it. -/
theorem dropSlashes_append_slash (reversed front : List Char) :
    dropSlashes (reversed ++ '/' :: front) =
      if dropSlashes reversed = [] then dropSlashes ('/' :: front)
      else dropSlashes reversed ++ '/' :: front := by
  fun_induction dropSlashes reversed with
  | case1 before escaped inductionHypothesis =>
      have stillEscaped : escapes ('\\' :: (before ++ '/' :: front)) = true := by
        rwa [← List.cons_append, escapes_append_solid (by decide)]
      rw [List.cons_append, List.cons_append, dropSlashes, if_pos stillEscaped,
        inductionHypothesis]
  | case2 before closed =>
      have stillClosed : ¬escapes ('\\' :: (before ++ '/' :: front)) = true := by
        rwa [← List.cons_append, escapes_append_solid (by decide)]
      rw [List.cons_append, List.cons_append, dropSlashes, if_neg stillClosed, if_neg (by simp)]
  | case3 before notEscaped inductionHypothesis =>
      have closed : escapes (before ++ '/' :: front) = false := by
        rw [escapes_append_solid (by decide)]
        unfold escapes
        split
        next rest => exact absurd rfl (notEscaped rest)
        next => rfl
      rw [List.cons_append, dropSlashes_slash_cons closed, inductionHypothesis]
  | case4 reversed notEscaped noSlash =>
      cases reversed with
      | nil => rfl
      | cons first rest =>
          rw [if_neg (by simp)]
          refine dropSlashes_eq_self ?_
          rw [List.cons_append, List.head?_cons, ne_eq, Option.some.injEq]
          rintro rfl
          exact noSlash rest rfl

theorem trimSlashes_append_slash {text : List Char} (kept : trimSlashes text ≠ [])
    (front : List Char) :
    trimSlashes (front ++ '/' :: text) = front ++ '/' :: trimSlashes text := by
  have keptReversed : dropSlashes text.reverse ≠ [] := by simpa [trimSlashes] using kept
  simp [trimSlashes, dropSlashes_append_slash, keptReversed]

theorem read?_slash_cons (line : List Char) :
    read? ('/' :: line) =
      if trimSlashes (trimmed line) = [] then none
      else
        some ⟨false, true, (trimmed line).getLast? == some '/',
          Mark.readAll (trimSlashes (trimmed line))⟩ := by
  have slash : trimBlanks (withoutTerminator ('/' :: line)) = '/' :: trimmed line :=
    trimmed_append_solid (by decide) [] line
  rw [read?, slash]
  exact ofTrimmed?_of_takeMark (by simp) (by simp) rfl rfl

/-- Labels written between the slash in front of a line and the line come before its own. -/
theorem read?_below {text : List Char} {line : Line} {marks : List Mark}
    (faithful : ∀ mark ∈ marks, mark.escaped = false → mark.character ≠ '\\')
    (read : read? ('/' :: text) = some line) :
    read? ('/' :: (Mark.writeAll marks ++ '/' :: text)) =
      some { line with pattern := marks ++ ⟨'/', false⟩ :: line.pattern } := by
  rw [read?_slash_cons] at read ⊢
  split at read
  next => contradiction
  next kept =>
    cases read
    have more : trimmed text ≠ [] := by
      intro empty
      rw [empty] at kept
      exact kept rfl
    have sameLast : (Mark.writeAll marks ++ '/' :: trimmed text).getLast? =
        (trimmed text).getLast? := by
      rw [List.getLast?_append_of_ne_nil _ (by simp), List.getLast?_cons_of_ne_nil more]
    have unescapedSlash (rest : List Char) :
        Mark.readAll ('/' :: rest) = ⟨'/', false⟩ :: Mark.readAll rest :=
      Mark.readAll_cons_of_ne (by decide) rest
    rw [trimmed_append_solid (by decide), trimSlashes_append_slash kept, sameLast,
      Mark.readAll_writeAll_append faithful, unescapedSlash, if_neg (by simp)]

theorem read?_slash_cons_of_floating {text : List Char} {line : Line}
    (read : read? text = some line) (notNegated : line.negated = false)
    (notRooted : line.rooted = false) :
    read? ('/' :: text) = some { line with rooted := true } := by
  obtain ⟨rest, split, -, -, -, kept, dirOnly, pattern⟩ := ofTrimmed?_eq_some_iff.mp read
  obtain rfl : trimmed text = rest := by simpa [opening, notNegated, notRooted, trimmed] using split
  rw [read?_slash_cons, if_neg kept, ← dirOnly, ← pattern, ← notNegated]

end Line

namespace Segment

theorem parts_append_slash (front pattern : List Mark) (escaped : Bool) :
    parts (front ++ ⟨'/', escaped⟩ :: pattern) = parts front ++ parts pattern := by
  rw [parts, Text.pieces_append_cons (by simp), List.filter_append, parts, parts]

theorem mergeGlobstars_ne_nil {segments : List Segment} (nonempty : segments ≠ []) :
    mergeGlobstars segments ≠ [] := by
  induction segments with
  | nil => contradiction
  | cons segment segments inductionHypothesis =>
      rw [mergeGlobstars]
      split
      next run =>
        apply inductionHypothesis
        rintro rfl
        simp at run
      next => simp

theorem ofPattern_below {front pattern : List Mark} {first segments : List Segment}
    (compiledFront : (parts front).mapM ofPart = .ok first)
    (compiled : ofPattern pattern = .ok segments) :
    ∃ raw, segments = mergeGlobstars raw ∧
      ofPattern (front ++ ⟨'/', false⟩ :: pattern) = .ok (mergeGlobstars (first ++ raw)) := by
  unfold ofPattern at compiled
  cases each : (parts pattern).mapM ofPart with
  | error error =>
      rw [each] at compiled
      contradiction
  | ok raw =>
      rw [each] at compiled
      refine ⟨raw, (Except.ok.inj compiled).symm, ?_⟩
      rw [ofPattern, parts_append_slash, List.mapM_append, compiledFront, each]
      rfl

end Segment

namespace Rule

variable {rule : Rule} {line : List Char}

theorem ofLine?_slash_cons_of_floating (compiled : ofLine? line = some rule)
    (notNegated : rule.negated = false) (notRooted : rule.rooted = false) :
    ofLine? ('/' :: line) =
      some { rule with rooted := true, source := Line.withoutTerminator ('/' :: line) } := by
  obtain ⟨read, segments, nonempty, -⟩ := ofLine?_eq_some_iff.mp compiled
  exact ofLine?_eq_some_iff.mpr
    ⟨Line.read?_slash_cons_of_floating read notNegated notRooted, segments, nonempty, rfl⟩

theorem flags_of_slash_cons (compiled : ofLine? ('/' :: line) = some rule) :
    rule.negated = false ∧ rule.rooted = true := by
  obtain ⟨read, -⟩ := ofLine?_eq_some_iff.mp compiled
  rw [Line.read?_slash_cons] at read
  split at read
  next => contradiction
  next =>
    rw [← Option.some.inj read]
    exact ⟨rfl, rfl⟩

end Rule

end IgnoreRules
