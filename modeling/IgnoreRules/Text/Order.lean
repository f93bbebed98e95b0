/-!
The order of texts: by the first character in which they differ, and a text before those it
starts.
-/

namespace IgnoreRules.Text

def isAtMost : List Char → List Char → Bool
  | [], _ => true
  | _ :: _, [] => false
  | low :: lows, high :: highs => decide (low < high) || (low == high && isAtMost lows highs)

def sorted (texts : List (List Char)) : List (List Char) :=
  texts.mergeSort isAtMost

theorem isAtMost_trans (first second third : List Char) (below : isAtMost first second = true)
    (above : isAtMost second third = true) : isAtMost first third = true := by
  induction first generalizing second third with
  | nil => rfl
  | cons low lows inductionHypothesis =>
      cases second with
      | nil => simp [isAtMost] at below
      | cons middle middles =>
          cases third with
          | nil => simp [isAtMost] at above
          | cons high highs =>
              simp only [isAtMost, Bool.or_eq_true, Bool.and_eq_true, decide_eq_true_eq,
                beq_iff_eq] at below above ⊢
              rcases below with less | ⟨rfl, below⟩
              · rcases above with lessAbove | ⟨rfl, _⟩
                · exact .inl (Char.lt_trans less lessAbove)
                · exact .inl less
              · rcases above with lessAbove | ⟨rfl, above⟩
                · exact .inl lessAbove
                · exact .inr ⟨rfl, inductionHypothesis middles highs below above⟩

theorem isAtMost_total (first second : List Char) :
    (isAtMost first second || isAtMost second first) = true := by
  induction first generalizing second with
  | nil => rfl
  | cons low lows inductionHypothesis =>
      cases second with
      | nil => rfl
      | cons high highs =>
          have rest := inductionHypothesis highs
          simp only [isAtMost, Bool.or_eq_true, Bool.and_eq_true, decide_eq_true_eq,
            beq_iff_eq] at rest ⊢
          by_cases same : low = high
          · subst same
            rcases rest with below | above
            · exact .inl (.inr ⟨rfl, below⟩)
            · exact .inr (.inr ⟨rfl, above⟩)
          · by_cases less : low < high
            · exact .inl (.inl less)
            · have notLess : high ≤ low := Char.not_lt.1 less
              refine .inr (.inl (Char.not_le.1 fun reached => same ?_))
              exact Char.le_antisymm reached notLess

theorem pairwise_sorted (texts : List (List Char)) :
    (sorted texts).Pairwise fun first second => isAtMost first second = true :=
  List.pairwise_mergeSort isAtMost_trans isAtMost_total texts

end IgnoreRules.Text
