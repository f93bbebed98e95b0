/-!
Cutting a list at every element of a class.  `unpieces_pieces` says that nothing is lost.
-/

namespace IgnoreRules.Text

variable {Alpha : Type}

/-- The stretches between the elements that separate; there is always at least one. -/
def pieces (separates : Alpha → Bool) (values : List Alpha) : List (List Alpha) :=
  values.foldr
    (fun value done =>
      if separates value then [] :: done
      else
        match done with
        | [] => [[value]]
        | first :: others => (value :: first) :: others)
    [[]]

def unpieces (separator : Alpha) : List (List Alpha) → List Alpha
  | [] => []
  | [last] => last
  | first :: others => first ++ separator :: unpieces separator others

@[simp]
theorem pieces_nil (separates : Alpha → Bool) : pieces separates [] = [[]] := rfl

theorem pieces_cons_separator {separates : Alpha → Bool} {value : Alpha}
    (separator : separates value = true) (rest : List Alpha) :
    pieces separates (value :: rest) = [] :: pieces separates rest := by
  simp [pieces, separator]

theorem pieces_ne_nil (separates : Alpha → Bool) (values : List Alpha) :
    pieces separates values ≠ [] := by
  cases values with
  | nil => simp
  | cons value rest =>
      simp only [pieces, List.foldr_cons]
      split
      · simp
      · split <;> simp

theorem pieces_cons {separates : Alpha → Bool} {value : Alpha}
    (inside : separates value = false) {rest first : List Alpha} {others : List (List Alpha)}
    (cut : pieces separates rest = first :: others) :
    pieces separates (value :: rest) = (value :: first) :: others := by
  simp only [pieces] at cut
  simp [pieces, inside, cut]

theorem unpieces_cons (separator : Alpha) (first : List Alpha) {others : List (List Alpha)}
    (more : others ≠ []) :
    unpieces separator (first :: others) = first ++ separator :: unpieces separator others := by
  cases others with
  | nil => contradiction
  | cons second others => rfl

theorem unpieces_pieces [DecidableEq Alpha] (separator : Alpha) (values : List Alpha) :
    unpieces separator (pieces (· == separator) values) = values := by
  induction values with
  | nil => rfl
  | cons value rest inductionHypothesis =>
      by_cases same : value = separator
      · subst same
        rw [pieces_cons_separator (by simp), unpieces_cons _ _ (pieces_ne_nil _ _),
          inductionHypothesis]
        rfl
      · cases cut : pieces (· == separator) rest with
        | nil => exact absurd cut (pieces_ne_nil _ _)
        | cons first others =>
            rw [pieces_cons (by simp [same]) cut]
            rw [cut] at inductionHypothesis
            cases others with
            | nil => simpa [unpieces] using inductionHypothesis
            | cons second others => simpa [unpieces] using inductionHypothesis

end IgnoreRules.Text
