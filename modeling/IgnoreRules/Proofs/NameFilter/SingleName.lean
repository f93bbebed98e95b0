import IgnoreRules.NameFilter
import IgnoreRules.Proofs.Expression.Stretch
import IgnoreRules.Proofs.Glob.Scan
import IgnoreRules.Proofs.IgnoreFile.Layout
import IgnoreRules.Proofs.Rule.Covering
import IgnoreRules.Proofs.Rule.Platforms
import IgnoreRules.Proofs.Rule.Rebuilt

/-!
Patterns of a single name.  A name filter and an ignore file compile such a pattern in different
ways, the one to an expression that is searched for, the other to a segment that takes a whole
component.  About the name of a file both say the same.
-/

namespace IgnoreRules

structure Name.Solid (name : Name) : Prop where
  nonempty : name ≠ []
  noSlash : '/' ∉ name
  noBlank : ∀ character ∈ name, Text.isBlank character = false

theorem Name.solid_iff_all (name : Name) :
    (name ≠ [] ∧ '/' ∉ name ∧ name.all (!Text.isBlank ·) = true) ↔ name.Solid := by
  simp only [List.all_eq_true, Bool.not_eq_true']
  exact ⟨fun ⟨nonempty, noSlash, noBlank⟩ => ⟨nonempty, noSlash, noBlank⟩,
    fun solid => ⟨solid.nonempty, solid.noSlash, solid.noBlank⟩⟩

instance : DecidablePred Name.Solid :=
  fun name => decidable_of_iff _ name.solid_iff_all

namespace Glob

theorem exists_matches_segment_iff {body : Expression} {name : Name} (noSlash : '/' ∉ name)
    (noNewline : '\n' ∉ name) :
    (∃ rest, Expression.Matches (.sequence body (.sequence segmentEnd .empty)) name rest) ↔
      Expression.Matches body name [] := by
  constructor
  · rintro ⟨rest, found⟩
    obtain ⟨middle, isEnd, taken, ends⟩ := Expression.matches_sequence_iff_suffix.mp found
    cases Expression.matches_sequence_empty_iff.mp ends with
    | left slash => exact absurd (isEnd.mem (Expression.Needs.exactly '/' _ _ slash)) noSlash
    | right ends =>
        cases ends with
        | atEnd => exact taken
        | atFinalNewline => exact absurd (isEnd.mem List.mem_cons_self) noNewline
  · intro taken
    refine ⟨[], .sequence taken ?_⟩
    exact Expression.matches_sequence_empty_iff.mpr (.right .atEnd)

end Glob

namespace Mark

theorem mem_of_mem_readAll {text : List Char} {mark : Mark} (read : mark ∈ readAll text) :
    mark.character ∈ text := by
  fun_induction readAll text with
  | case1 => contradiction
  | case2 =>
      obtain rfl := List.mem_singleton.mp read
      exact List.mem_singleton_self _
  | case3 character rest inductionHypothesis =>
      rcases List.mem_cons.mp read with rfl | inRest
      · simp
      · simp [inductionHypothesis inRest]
  | case4 character rest notAlone notFirst inductionHypothesis =>
      rcases List.mem_cons.mp read with rfl | inRest
      · simp
      · simp [inductionHypothesis inRest]

end Mark

namespace Segment

/-- A solid name is compiled as it is written, unless its last backslash escapes nothing. -/
theorem ofPart_readAll {body : Name} (solid : body.Solid)
    (closed : Line.escapes body.reverse = false) :
    ofPart (Mark.readAll body) =
      if body = NamePattern.globstar then .ok .globstar else ofGlob body := by
  have writtenBack : Mark.writeAll (Mark.readAll body) = body := by
    rw [Mark.writeAll_readAll, closed]
    rfl
  have sameGlob : glob (Mark.readAll body) = body := by
    rw [glob_eq_writeAll, writtenBack]
    intro last isLast
    exact solid.noBlank _ (Mark.mem_of_mem_readAll (List.mem_of_getLast? isLast))
  have starsTogether : isGlobstar (Mark.readAll body) = true ↔ body = NamePattern.globstar := by
    rw [isGlobstar, beq_iff_eq]
    constructor
    · intro stars
      rw [← writtenBack, stars]
      rfl
    · rintro rfl
      rfl
  simp only [ofPart, starsTogether, sameGlob]

theorem parts_readAll {body : Name} (solid : body.Solid) :
    parts (Mark.readAll body) = [Mark.readAll body] := by
  have noSlash : ∀ mark ∈ Mark.readAll body, (mark.character == '/') = false := by
    intro mark read
    rw [beq_eq_false_iff_ne]
    intro slash
    exact solid.noSlash (slash ▸ Mark.mem_of_mem_readAll read)
  have kept : Mark.readAll body ≠ [] := by
    intro nothing
    apply Mark.writeAll_readAll_ne_nil solid.nonempty
    rw [nothing, Mark.writeAll_nil]
  rw [parts, Text.pieces_of_forall_not noSlash]
  simp [kept]

theorem ofGlob_of_body? {glob : List Char} {body : Expression} (notStar : glob ≠ ['*'])
    (compiled : Glob.body? glob = some body) (forward : body.IsForward) :
    ofGlob glob = .ok (.name (.sequence body Glob.segmentEnd)) := by
  have forwardSegment : (Expression.sequence body Glob.segmentEnd).IsForward :=
    Expression.isForward_sequence_iff.mpr ⟨forward, fun _ => rfl⟩
  rw [ofGlob, Glob.segment?, if_neg notStar, compiled]
  dsimp only [Option.map_some]
  rw [forwardSegment 1]

end Segment

namespace Line

theorem trimmed_eq_self {text : List Char}
    (kept : ∀ character, text.getLast? = some character → Text.isBlank character = false) :
    trimmed text = text := by
  have notLast {blank : Char} (isBlank : Text.isBlank blank = true) :
      text.getLast? ≠ some blank := by
    intro last
    rw [kept blank last] at isBlank
    contradiction
  have unterminated : withoutTerminator text = text := by
    rw [withoutTerminator, Text.dropEndWhile_eq_self]
    · exact if_neg (notLast (by decide))
    · intro character last
      rw [beq_eq_false_iff_ne]
      rintro rfl
      exact notLast (by decide) last
  rw [trimmed, unterminated]
  apply trimBlanks_eq_self
  intro character last
  have visible := kept character last
  rw [isTrimmed, Bool.or_eq_false_iff, beq_eq_false_iff_ne, beq_eq_false_iff_ne]
  constructor
  · rintro rfl
    contradiction
  · rintro rfl
    contradiction

end Line

namespace Rule

theorem applies_of_single {rule : Rule} {segment : Segment} (single : rule.segments = [segment])
    (notDirOnly : rule.dirOnly = false) {name : Name} (proper : name.Proper) (platform : Platform) :
    rule.applies platform name false = true ↔
      segment = .globstar ∨ segment.accepts name = true := by
  have components : Path.significant (Path.components name) = [name] := by
    rw [Path.components, Text.pieces_of_not_mem proper.noSlash]
    apply Path.significant_eq_self
    intro other isName
    obtain rfl := List.mem_singleton.mp isName
    exact proper
  have atLast : rule.matchesParts [name] = true ↔ Segment.Covers [segment] [name] := by
    cases rooted : rule.rooted with
    | true =>
        rw [matchesParts_of_rooted rooted, single]
        exact and_iff_right (List.cons_ne_nil name [])
    | false =>
        rw [matchesParts_of_floating rooted, single, and_iff_right (List.cons_ne_nil name []),
          Segment.covers_globstar_iff]
        constructor
        · rintro ⟨count, covers⟩
          cases count with
          | zero => exact covers
          | succ count =>
              rw [List.drop_succ_cons, List.drop_nil] at covers
              cases covers with
              | globstarStop => exact Segment.covers_globstar_self _
        · intro covers
          exact ⟨0, covers⟩
  rw [applies_eq_matchesText, notDirOnly, matchesText, components, Bool.not_false, Bool.or_true,
    Bool.true_and, atLast]
  cases segment with
  | globstar => simp [Segment.covers_globstar_self]
  | name expression => simp [Segment.covers_name_cons_iff]

theorem dirOnly_of_slash {text : List Char} {rule : Rule}
    (compiled : ofLine? (text ++ ['/']) = some rule) : rule.dirOnly = true := by
  obtain ⟨read, -⟩ := ofLine?_eq_some_iff.mp compiled
  have untrimmed : Line.trimmed (text ++ ['/']) = text ++ ['/'] := by
    apply Line.trimmed_eq_self
    intro character last
    obtain rfl : '/' = character := by simpa using last
    rfl
  rw [Line.read?, ← Line.trimmed, untrimmed] at read
  obtain ⟨rest, split, -, -, -, kept, dirOnly, -⟩ := Line.ofTrimmed?_eq_some_iff.mp read
  have restKept : rest ≠ [] := by
    rintro rfl
    exact kept rfl
  have sameLast : rest.getLast? = some '/' := by
    rw [← List.getLast?_append_of_ne_nil (Line.opening rule.negated rule.rooted) restKept, ← split]
    simp
  rw [dirOnly, sameLast]
  rfl

theorem filter_applies_of_slash (text : List Char) (platform : Platform) (path : List Char) :
    (ofLine? (text ++ ['/'])).filter (·.applies platform path false) = none := by
  rw [Option.filter_eq_none_iff]
  intro rule isRule
  simp [applies, dirOnly_of_slash isRule]

theorem ofLine?_of_solid {negated rooted : Bool} {body : Name} (solid : body.Solid)
    (notComment : (Line.opening negated rooted ++ body).head? ≠ some '#')
    (notNegated : negated = false → (Line.opening negated rooted ++ body).head? ≠ some '!')
    {segment : Segment} (compiled : Segment.ofPart (Mark.readAll body) = .ok segment) :
    ∃ rule, ofLine? (Line.opening negated rooted ++ body) = some rule ∧
      rule.negated = negated ∧ rule.dirOnly = false ∧ rule.segments = [segment] := by
  have noSlashAtEnd : body.getLast? ≠ some '/' := by
    intro last
    exact solid.noSlash (List.mem_of_getLast? last)
  have untrimmed : Line.trimmed (Line.opening negated rooted ++ body) =
      Line.opening negated rooted ++ body := by
    apply Line.trimmed_eq_self
    intro character last
    rw [List.getLast?_append_of_ne_nil _ solid.nonempty] at last
    exact solid.noBlank character (List.mem_of_getLast? last)
  have read : Line.read? (Line.opening negated rooted ++ body) =
      some ⟨negated, rooted, false, Mark.readAll body⟩ := by
    rw [Line.read?, ← Line.trimmed, untrimmed, Line.ofTrimmed?_eq_some_iff]
    refine ⟨body, rfl, notComment, notNegated, ?_, ?_, ?_, ?_⟩
    · intro _ first
      exact solid.noSlash (List.mem_of_head? first)
    · rw [Line.trimSlashes_eq_self noSlashAtEnd]
      exact solid.nonempty
    · simpa using noSlashAtEnd
    · rw [Line.trimSlashes_eq_self noSlashAtEnd]
  refine ⟨⟨⟨negated, rooted, false, Mark.readAll body⟩,
    Line.withoutTerminator (Line.opening negated rooted ++ body), [segment]⟩, ?_, rfl, rfl, rfl⟩
  apply ofLine?_eq_some_iff.mpr
  refine ⟨read, ?_, by simp, rfl⟩
  rw [Segment.ofPattern, Segment.parts_readAll solid, List.mapM_cons, compiled]
  cases segment <;> rfl

end Rule

end IgnoreRules
