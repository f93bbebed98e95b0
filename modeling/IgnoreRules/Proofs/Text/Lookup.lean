import Mathlib.Data.List.Basic

/-!
Looking a key up in a list of entries, of which the first with the key counts, and looking for the
first element of which something is said.
-/

namespace IgnoreRules

variable {Key Value : Type} [BEq Key] [LawfulBEq Key]

theorem lookup_filter_key (entries : List (Key × Value)) (stays : Key → Bool) (key : Key) :
    (entries.filter fun entry => stays entry.1).lookup key =
      if stays key then entries.lookup key else none := by
  induction entries with
  | nil => simp
  | cons entry entries inductionHypothesis =>
      obtain ⟨own, value⟩ := entry
      rw [List.filter_cons, List.lookup_cons]
      dsimp only
      by_cases same : key = own
      · subst same
        cases kept : stays key with
        | true => simp
        | false => simpa [kept] using inductionHypothesis
      · rw [beq_eq_false_iff_ne.mpr same]
        cases stays own with
        | true =>
            rw [if_pos rfl, List.lookup_cons, beq_eq_false_iff_ne.mpr same]
            exact inductionHypothesis
        | false => exact inductionHypothesis

theorem lookup_of_mem {entries : List (Key × Value)} {key : Key} {value : Value}
    (distinct : (entries.map Prod.fst).Nodup) (present : (key, value) ∈ entries) :
    entries.lookup key = some value := by
  induction entries with
  | nil => contradiction
  | cons entry entries inductionHypothesis =>
      obtain ⟨first, found⟩ := entry
      rw [List.map_cons, List.nodup_cons] at distinct
      rcases List.mem_cons.mp present with isFirst | later
      · cases isFirst
        rw [List.lookup_cons, beq_self_eq_true]
      · have notFirst : key ≠ first := by
          rintro rfl
          exact distinct.1 (List.mem_map.mpr ⟨_, later, rfl⟩)
        rw [List.lookup_cons, beq_eq_false_iff_ne.mpr notFirst]
        exact inductionHypothesis distinct.2 later

end IgnoreRules
