import IgnoreRules.Proofs.Glob.Scan
import IgnoreRules.Proofs.Path.Normal
import IgnoreRules.Rule.Basic

/-!
The glob of a part is written from its labelled characters and read again.  However far a set
reaches in it, the set ends where a labelled character ends, so what is read after it is the glob
of the remaining characters, and no backslash is ever left open.
-/

namespace IgnoreRules

namespace Mark

/-- The labels can come from reading: a backslash is always escaped, if only by itself. -/
def AreFaithful (marks : List Mark) : Prop :=
  ∀ mark ∈ marks, mark.escaped = false → mark.character ≠ '\\'

theorem areFaithful_readAll (text : List Char) : AreFaithful (readAll text) := by
  fun_induction readAll text with
  | case1 => simp [AreFaithful]
  | case2 => simp [AreFaithful]
  | case3 character rest inductionHypothesis =>
      exact List.forall_mem_cons.mpr ⟨by simp, inductionHypothesis⟩
  | case4 character rest notAlone notFirst inductionHypothesis =>
      refine List.forall_mem_cons.mpr ⟨?_, inductionHypothesis⟩
      exact fun _ => ne_backslash_of_unescaped notAlone notFirst

theorem AreFaithful.of_subset {marks others : List Mark} (faithful : AreFaithful marks)
    (subset : others ⊆ marks) : AreFaithful others :=
  fun mark present => faithful mark (subset present)

def EndsVisibly (marks : List Mark) : Prop :=
  ∀ last ∈ marks.getLast?, Text.isBlank last.character = false

instance : DecidablePred EndsVisibly :=
  fun marks => inferInstanceAs (Decidable (∀ last ∈ marks.getLast?, _))

theorem EndsVisibly.of_suffix {marks others : List Mark} (visible : EndsVisibly marks)
    (isEnd : others <:+ marks) : EndsVisibly others := by
  intro last isLast
  obtain ⟨front, rfl⟩ := isEnd
  have nonempty : others ≠ [] := by
    rintro rfl
    contradiction
  apply visible
  rwa [List.getLast?_append_of_ne_nil _ nonempty]

end Mark

namespace Segment

variable {mark : Mark} {marks rest part : List Mark}

theorem mem_of_mem_parts {pattern : List Mark} (isPart : part ∈ parts pattern) :
    part ⊆ pattern := by
  intro mark present
  exact Text.mem_of_mem_pieces (List.mem_filter.mp isPart).1 present

theorem ne_nil_of_mem_parts {pattern : List Mark} (isPart : part ∈ parts pattern) : part ≠ [] := by
  simpa using (List.mem_filter.mp isPart).2

theorem glob_cons (asWritten : rest ≠ [] ∨ Text.isBlank mark.character = false) :
    glob (mark :: rest) = mark.written ++ glob rest := by
  cases rest with
  | nil =>
      have visible : Text.isBlank mark.character = false := by simpa using asWritten
      simp [glob, visible, Mark.written]
  | cons next others => simp [glob, Mark.written]

theorem glob_blank (blank : Text.isBlank mark.character = true) :
    glob [mark] = ['[', mark.character, ']'] := by
  simp [glob, blank]

/-- A blank at the end stands in brackets, every other character is as it was written. -/
theorem glob_cons_cases (mark : Mark) (rest : List Mark) :
    (rest = [] ∧ Text.isBlank mark.character = true) ∨
      glob (mark :: rest) = mark.written ++ glob rest := by
  by_cases last : rest = [] ∧ Text.isBlank mark.character = true
  · exact .inl last
  · refine .inr (glob_cons ?_)
    rw [← Bool.not_eq_true]
    exact Decidable.not_and_iff_or_not.mp last

theorem glob_ne_nil (nonempty : marks ≠ []) : glob marks ≠ [] := by
  obtain ⟨mark, rest, rfl⟩ := List.exists_cons_of_ne_nil nonempty
  rcases glob_cons_cases mark rest with ⟨rfl, blank⟩ | asWritten
  · simp [glob_blank blank]
  · rw [asWritten, Mark.written]
    split <;> simp

theorem glob_eq_writeAll (visible : Mark.EndsVisibly marks) : glob marks = Mark.writeAll marks := by
  induction marks with
  | nil => rfl
  | cons mark others inductionHypothesis =>
      have asWritten : others ≠ [] ∨ Text.isBlank mark.character = false := by
        cases others with
        | nil => exact .inr (visible mark rfl)
        | cons next others => exact .inl (List.cons_ne_nil next others)
      rw [glob_cons asWritten, Mark.writeAll_cons,
        inductionHypothesis (visible.of_suffix (List.suffix_cons mark others))]

theorem split_of_cons_split {first : Char} {others front back : List Char}
    (split : first :: others = front ++ ']' :: back) :
    first = ']' ∧ others = back ∨ ∃ further, others = further ++ ']' :: back := by
  rcases List.cons_eq_append_iff.mp split with ⟨-, same⟩ | ⟨further, -, same⟩
  · exact .inl (List.cons_eq_cons.mp same.symm)
  · exact .inr ⟨further, same⟩

theorem exists_suffix_of_glob {front back : List Char} (split : glob marks = front ++ ']' :: back) :
    ∃ rest, rest <:+ marks ∧ back = glob rest := by
  induction marks generalizing front with
  | nil => simp [glob] at split
  | cons mark others inductionHypothesis =>
      rcases glob_cons_cases mark others with ⟨rfl, blank⟩ | asWritten
      · rw [glob_blank blank] at split
        have notClosing : mark.character ≠ ']' := by
          intro closing
          rw [closing] at blank
          contradiction
        obtain ⟨_, behindOpening⟩ := (split_of_cons_split split).resolve_left (by simp)
        obtain ⟨_, behindBlank⟩ :=
          (split_of_cons_split behindOpening).resolve_left (by simp [notClosing])
        rcases split_of_cons_split behindBlank with ⟨-, rfl⟩ | ⟨_, none⟩
        · exact ⟨[], List.nil_suffix, rfl⟩
        · simp at none
      · have behind {front : List Char}
            (further : mark.character :: glob others = front ++ ']' :: back) :
            ∃ rest, rest <:+ mark :: others ∧ back = glob rest := by
          rcases split_of_cons_split further with ⟨-, rfl⟩ | ⟨_, further⟩
          · exact ⟨others, List.suffix_cons _ _, rfl⟩
          · obtain ⟨rest, isEnd, same⟩ := inductionHypothesis further
            exact ⟨rest, isEnd.trans (List.suffix_cons _ _), same⟩
        rw [asWritten, Mark.written] at split
        split at split
        next =>
          obtain ⟨_, behindBackslash⟩ := (split_of_cons_split split).resolve_left (by simp)
          exact behind behindBackslash
        next => exact behind split

/-- After a set the glob of the characters that remain is read. -/
theorem exists_suffix_of_bracketAfter? {negated : Bool} {body : List Char}
    (closed : Glob.bracketAfter? (glob marks) = some (negated, body)) :
    ∃ rest, rest <:+ marks ∧
      (glob marks).drop (Glob.bracketWidth negated body) = glob rest := by
  obtain ⟨inside, split⟩ := Glob.exists_inside_of_bracketAfter? closed
  exact exists_suffix_of_glob split

theorem exists_scan?_glob (faithful : Mark.AreFaithful marks) :
    ∃ pieces, Glob.scan? (glob marks) = some pieces := by
  induction size : marks.length using Nat.strongRecOn generalizing marks with
  | _ size shorter =>
      have further {others : List Mark} (isEnd : others <:+ marks)
          (less : others.length < marks.length) :
          ∃ pieces, Glob.scan? (glob others) = some pieces :=
        shorter others.length (size ▸ less) (faithful.of_subset isEnd.subset) rfl
      cases marks with
      | nil => exact ⟨[], rfl⟩
      | cons mark rest =>
          obtain ⟨pieces, scanned⟩ := further (List.suffix_cons mark rest) (by simp)
          rcases glob_cons_cases mark rest with ⟨rfl, blank⟩ | asWritten
          · exact ⟨_, by rw [glob_blank blank, Glob.scan?_bracketed_blank blank]⟩
          · rw [asWritten, Mark.written]
            split
            next =>
              exact ⟨_, by rw [List.cons_append, List.singleton_append, Glob.scan?_escaped_cons,
                scanned, Option.map_some]⟩
            next unescaped =>
              have notBackslash := faithful mark List.mem_cons_self (by simpa using unescaped)
              rw [List.singleton_append]
              by_cases noSet : mark.character = '[' → Glob.bracketAfter? (glob rest) = none
              · exact ⟨_, by rw [Glob.scan?_single_cons notBackslash noSet, scanned,
                  Option.map_some]⟩
              · obtain ⟨opening, isSet⟩ := Classical.not_imp.mp noSet
                obtain ⟨⟨negated, body⟩, closed⟩ := Option.ne_none_iff_exists'.mp isSet
                obtain ⟨others, isEnd, remains⟩ := exists_suffix_of_bracketAfter? closed
                obtain ⟨behind, scannedBehind⟩ :=
                  further (isEnd.trans (List.suffix_cons mark rest))
                    (Nat.lt_succ_of_le isEnd.length_le)
                exact ⟨_, by rw [opening, Glob.scan?_set_cons closed, remains, scannedBehind,
                  Option.map_some]⟩

end Segment

theorem Line.areFaithful_of_mem_parts {line : List Char} {read : Line} {part : List Mark}
    (isRead : read? line = some read) (isPart : part ∈ Segment.parts read.pattern) :
    Mark.AreFaithful part := by
  obtain ⟨rest, -, -, -, -, -, -, pattern⟩ := ofTrimmed?_eq_some_iff.mp isRead
  have faithful : Mark.AreFaithful read.pattern := by
    rw [pattern]
    exact Mark.areFaithful_readAll _
  exact faithful.of_subset (Segment.mem_of_mem_parts isPart)

end IgnoreRules
