import IgnoreRules.Proofs.Rule.Apart
import IgnoreRules.Proofs.Rule.Meaning
import IgnoreRules.Proofs.Text.Results

/-!
What the names of a rule accept.  The segments that are no stars stand, in order, for the parts of
the pattern that are none.  Each accepts what the pieces of its glob take, and what the grammar
says about its labelled characters wherever sets and escapes keep apart.
-/

namespace IgnoreRules

namespace Segment

theorem filter_mergeGlobstars (segments : List Segment) :
    (mergeGlobstars segments).filter (· != globstar) = segments.filter (· != globstar) := by
  induction segments with
  | nil => rfl
  | cons segment segments inductionHypothesis =>
      rw [mergeGlobstars]
      split
      next run =>
        obtain ⟨rfl, -⟩ := run
        rw [inductionHypothesis]
        rfl
      next => rw [List.filter_cons, List.filter_cons, inductionHypothesis]

theorem ne_globstar_of_ofGlob {glob : List Char} {segment : Segment}
    (compiled : ofGlob glob = .ok segment) : segment ≠ globstar := by
  unfold ofGlob at compiled
  split at compiled
  next => contradiction
  next =>
    split at compiled
    next => contradiction
    next =>
      cases compiled
      simp

theorem isGlobstar_iff {part : List Mark} {segment : Segment}
    (compiled : ofPart part = .ok segment) :
    (!isGlobstar part) = true ↔ (segment != globstar) = true := by
  rw [ofPart] at compiled
  split at compiled
  next stars =>
    cases compiled
    simp [stars]
  next notStars => simp [notStars, ne_globstar_of_ofGlob compiled]

end Segment

namespace Rule

def nameParts (rule : Rule) : List (List Mark) :=
  (Segment.parts rule.pattern).filter (!Segment.isGlobstar ·)

def nameSegments (rule : Rule) : List Segment :=
  rule.segments.filter (· != .globstar)

variable {line : List Char} {rule : Rule}

theorem forall₂_names (compiled : ofLine? line = some rule) :
    List.Forall₂
      (fun part segment =>
        Mark.AreFaithful part ∧ Segment.ofGlob (Segment.glob part) = .ok segment)
      rule.nameParts rule.nameSegments := by
  obtain ⟨read, -⟩ := ofLine?_eq_some_iff.mp compiled
  obtain ⟨segments, each, merged⟩ := exists_unmerged compiled
  have paired : List.Forall₂ (fun part segment => Segment.ofPart part = .ok segment)
      rule.nameParts rule.nameSegments := by
    rw [nameSegments, merged, Segment.filter_mergeGlobstars]
    refine List.rel_filter ?_ (mapM_eq_ok_iff.mp each)
    exact fun _ _ made => Segment.isGlobstar_iff made
  have ofName (part : List Mark) (isName : part ∈ rule.nameParts) :
      Mark.AreFaithful part ∧ Segment.isGlobstar part = false := by
    obtain ⟨isPart, notStars⟩ := List.mem_filter.mp isName
    exact ⟨Line.areFaithful_of_mem_parts read isPart, by simpa using notStars⟩
  refine ((List.forall₂_and_left _ _).mpr ⟨ofName, paired⟩).imp ?_
  rintro part segment ⟨⟨faithful, notStars⟩, made⟩
  rw [Segment.ofPart, notStars, if_neg Bool.false_ne_true] at made
  exact ⟨faithful, made⟩

/-- A segment that stands for a part without a mixture of brackets and escapes, or of brackets and a
blank at the end, accepts the names that the labelled characters of the part take. -/
theorem accepts_by_grammar (compiled : ofLine? line = some rule) :
    List.Forall₂
      (fun part segment =>
        ¬Mark.Mixes part → ∀ name : Name, name ≠ [] → '/' ∉ name →
          (segment.accepts name = true ↔ Mark.Takes part name))
      rule.nameParts rule.nameSegments := by
  apply (forall₂_names compiled).imp
  rintro part segment ⟨faithful, made⟩ unmixed name nonempty noSlash
  obtain ⟨pieces, scanned⟩ := Segment.exists_scan?_glob faithful
  rw [Segment.accepts_iff_takes made scanned nonempty noSlash]
  exact Segment.takes_glob_iff (Mark.keepApart_of_not_mixes unmixed) faithful scanned

/-- An escaped bracket, a star and a blank at the end, and behind two stars a set with a bracket as
its first member and a range, and a question mark. -/
theorem accepts_by_grammar_blank_and_set :
    let line := "\\[a]*\u00a0/**/[!]b-d]?".toList
    let blankPart : List Mark := [⟨'[', true⟩, ⟨'a', false⟩, ⟨']', false⟩, ⟨'*', false⟩,
      ⟨'\u00a0', false⟩]
    let setPart : List Mark := [⟨'[', false⟩, ⟨'!', false⟩, ⟨']', false⟩, ⟨'b', false⟩,
      ⟨'-', false⟩, ⟨'d', false⟩, ⟨']', false⟩, ⟨'?', false⟩]
    ∃ rule blankSegment setSegment, ofLine? line = some rule ∧
      rule.nameParts = [blankPart, setPart] ∧ rule.nameSegments = [blankSegment, setSegment] ∧
      ¬Mark.Mixes blankPart ∧ ¬Mark.Mixes setPart ∧
      (blankSegment.accepts "[a]\n\u00a0".toList = true ↔
        Mark.Takes blankPart "[a]\n\u00a0".toList) ∧
      (setSegment.accepts "ex".toList = true ↔ Mark.Takes setPart "ex".toList) ∧
      blankSegment.accepts "[a]\n\u00a0".toList = true ∧ Mark.Takes setPart "ex".toList := by
  intro line blankPart setPart
  have compiled : ofLine? line = some ((ofLine? line).get (by decide +kernel)) :=
    (Option.some_get _).symm
  have parts : ((ofLine? line).get (by decide +kernel)).nameParts = [blankPart, setPart] := by
    decide +kernel
  have accepted := accepts_by_grammar compiled
  rw [parts] at accepted
  obtain ⟨blankSegment, others, ofBlank, ofOthers, segments⟩ :=
    List.forall₂_cons_left_iff.mp accepted
  obtain ⟨setSegment, rest, ofSet, ofRest, rfl⟩ := List.forall₂_cons_left_iff.mp ofOthers
  obtain rfl := List.forall₂_nil_left_iff.mp ofRest
  have blankUnmixed : ¬Mark.Mixes blankPart := by decide
  have setUnmixed : ¬Mark.Mixes setPart := by decide
  have blankAccepts := ofBlank blankUnmixed "[a]\n\u00a0".toList (by decide) (by decide)
  have setAccepts := ofSet setUnmixed "ex".toList (by decide) (by decide)
  refine ⟨_, blankSegment, setSegment, compiled, parts, segments, blankUnmixed, setUnmixed,
    blankAccepts, setAccepts, ?_, ?_⟩
  · apply blankAccepts.mpr
    have letter (character : Char) (plain : Mark.IsLiteral ⟨character, false⟩) {marks name}
        (others : Mark.Takes marks name) :
        Mark.Takes (⟨character, false⟩ :: marks) (character :: name) :=
      .literal plain others
    exact .literal (.inl rfl) (letter 'a' (by decide) (letter ']' (by decide)
      (.star ['\n'] (letter '\u00a0' (by decide) .nil))))
  · have body : Mark.IsBody [⟨']', false⟩, ⟨'b', false⟩, ⟨'-', false⟩, ⟨'d', false⟩] :=
      ⟨by simp, by decide⟩
    have holds :
        Mark.SetHolds true [⟨']', false⟩, ⟨'b', false⟩, ⟨'-', false⟩, ⟨'d', false⟩] 'e' := by decide
    exact .set (.negated (.inl rfl) body) holds (.question 'x' .nil)

/-- A segment accepts the names that the pieces of its glob take.  Where sets and escapes keep
apart, these are the names that the labelled characters of its part take. -/
theorem accepts_by_pieces (compiled : ofLine? line = some rule) :
    List.Forall₂
      (fun part segment =>
        ∃ pieces, Glob.scan? (Segment.glob part) = some pieces ∧
          ∀ name : Name, name ≠ [] → '/' ∉ name →
            (segment.accepts name = true ↔ Glob.Takes pieces name) ∧
            (Mark.KeepApart part →
              (segment.accepts name = true ↔ Mark.Takes part name)))
      rule.nameParts rule.nameSegments := by
  apply (forall₂_names compiled).imp
  rintro part segment ⟨faithful, made⟩
  obtain ⟨pieces, scanned⟩ := Segment.exists_scan?_glob faithful
  refine ⟨pieces, scanned, fun name nonempty noSlash => ?_⟩
  have byPieces := Segment.accepts_iff_takes made scanned nonempty noSlash
  refine ⟨byPieces, fun apart => ?_⟩
  rw [byPieces]
  exact Segment.takes_glob_iff apart faithful scanned

/-- A set, an escaped star and an escaped blank at the end, which keep apart. -/
theorem accepts_by_pieces_star_and_blank :
    let line := "[ab]\\*\\ ".toList
    let part : List Mark := [⟨'[', false⟩, ⟨'a', false⟩, ⟨'b', false⟩, ⟨']', false⟩, ⟨'*', true⟩,
      ⟨' ', true⟩]
    ∃ rule segment pieces, ofLine? line = some rule ∧ rule.nameParts = [part] ∧
      rule.nameSegments = [segment] ∧ Mark.Mixes part ∧ Mark.KeepApart part ∧
      Glob.scan? (Segment.glob part) = some pieces ∧
      (segment.accepts "b* ".toList = true ↔ Glob.Takes pieces "b* ".toList) ∧
      (segment.accepts "b* ".toList = true ↔ Mark.Takes part "b* ".toList) ∧
      segment.accepts "b* ".toList = true := by
  intro line part
  have compiled : ofLine? line = some ((ofLine? line).get (by decide +kernel)) :=
    (Option.some_get _).symm
  have parts : ((ofLine? line).get (by decide +kernel)).nameParts = [part] := by decide +kernel
  have accepted := accepts_by_pieces compiled
  rw [parts] at accepted
  obtain ⟨segment, rest, ofSegment, ofRest, segments⟩ := List.forall₂_cons_left_iff.mp accepted
  obtain rfl := List.forall₂_nil_left_iff.mp ofRest
  obtain ⟨pieces, scanned, accepts⟩ := ofSegment
  obtain ⟨byPieces, byMarks⟩ := accepts "b* ".toList (by decide) (by decide)
  have body : Mark.IsBody [⟨'a', false⟩, ⟨'b', false⟩] := ⟨by simp, by decide⟩
  have starts : Mark.StartsSet part.tail false [⟨'a', false⟩, ⟨'b', false⟩]
      [⟨'*', true⟩, ⟨' ', true⟩] :=
    .plain body (by simp [Mark.IsNegation])
  have apart : Mark.KeepApart part :=
    .set starts (by simp) (.other (by decide) (.other (by decide) .nil))
  refine ⟨_, segment, pieces, compiled, parts, segments, by decide, apart, scanned, byPieces,
    byMarks apart, (byMarks apart).mpr ?_⟩
  have holds : Mark.SetHolds false [⟨'a', false⟩, ⟨'b', false⟩] 'b' := by decide
  exact .set starts holds (.literal (.inl rfl) (.literal (.inl rfl) .nil))

/-- Mixtures are not always read by the grammar: an escaped closing bracket closes a set, and the
backslash in front of it is a member. -/
theorem not_accepts_by_grammar_of_escaped_closing :
    ¬∀ (line : List Char) (rule : Rule), ofLine? line = some rule →
      List.Forall₂
        (fun part segment =>
          Mark.Mixes part → ∀ name : Name, name ≠ [] → '/' ∉ name →
            (segment.accepts name = true ↔ Mark.Takes part name))
        rule.nameParts rule.nameSegments := by
  intro always
  let line := "[a\\]]".toList
  let part : List Mark := [⟨'[', false⟩, ⟨'a', false⟩, ⟨']', true⟩, ⟨']', false⟩]
  have compiled : ofLine? line = some ((ofLine? line).get (by decide +kernel)) :=
    (Option.some_get _).symm
  have parts : ((ofLine? line).get (by decide +kernel)).nameParts = [part] := by decide +kernel
  have refused : ((ofLine? line).get (by decide +kernel)).nameSegments.all
      (!·.accepts ['a']) = true := by
    decide +kernel
  have accepted := always line _ compiled
  rw [parts] at accepted
  obtain ⟨segment, rest, ofSegment, -, segments⟩ := List.forall₂_cons_left_iff.mp accepted
  rw [segments, List.all_cons, Bool.and_eq_true, Bool.not_eq_true'] at refused
  have accepts := ofSegment (by decide) ['a'] (by decide) (by decide)
  have body : Mark.IsBody [⟨'a', false⟩, ⟨']', true⟩] := ⟨by simp, by decide⟩
  have starts : Mark.StartsSet part.tail false [⟨'a', false⟩, ⟨']', true⟩] [] :=
    .plain body (by simp [Mark.IsNegation])
  have taken : Mark.Takes part ['a'] := .set starts (by decide) .nil
  rw [accepts.mpr taken] at refused
  exact absurd refused.1 Bool.true_eq_false.mp

end Rule

end IgnoreRules
