import Mathlib.Data.List.Forall2

/-!
Lists of results, each made from one value by work that can fail or give nothing.
-/

namespace IgnoreRules

variable {Alpha Beta Gamma Error : Type}

theorem mapM_eq_ok_iff {make : Alpha → Except Error Beta} {values : List Alpha}
    {results : List Beta} :
    values.mapM make = .ok results ↔
      List.Forall₂ (fun value result => make value = .ok result) values results := by
  induction values generalizing results with
  | nil => cases results <;> simp [pure, Except.pure]
  | cons value values inductionHypothesis =>
      rw [List.mapM_cons]
      cases first : make value with
      | error error => cases results <;> simp [first, bind, Except.bind]
      | ok result =>
          cases others : values.mapM make with
          | error error =>
              cases results <;>
                simp [first, bind, Except.bind, ← inductionHypothesis, others]
          | ok rest =>
              cases results <;>
                simp [first, bind, Except.bind, pure, Except.pure, ← inductionHypothesis, others]

theorem mem_of_mapM {make : Alpha → Except Error Beta} {values : List Alpha}
    {results : List Beta} (made : values.mapM make = .ok results) (result : Beta) :
    result ∈ results ↔ ∃ value ∈ values, make value = .ok result := by
  have paired := mapM_eq_ok_iff.mp made
  clear made
  induction paired with
  | nil => simp
  | cons first others inductionHypothesis =>
      simp [inductionHypothesis, first, eq_comm]

theorem exists_of_mapM_eq_ok {make : Alpha → Except Error Beta} {values : List Alpha}
    {results : List Beta} {value : Alpha} (made : values.mapM make = .ok results)
    (present : value ∈ values) : ∃ result, make value = .ok result := by
  have paired := mapM_eq_ok_iff.mp made
  clear made
  induction paired with
  | nil => contradiction
  | cons first _ inductionHypothesis =>
      rcases List.mem_cons.mp present with rfl | behind
      · exact ⟨_, first⟩
      · exact inductionHypothesis behind

theorem exists_of_mapM_eq_error {make : Alpha → Except Error Beta} {values : List Alpha}
    {error : Error} (failed : values.mapM make = .error error) :
    ∃ value ∈ values, make value = .error error := by
  induction values with
  | nil => contradiction
  | cons value values inductionHypothesis =>
      rw [List.mapM_cons] at failed
      cases first : make value with
      | error other =>
          rw [first] at failed
          cases failed
          exact ⟨value, List.mem_cons_self, first⟩
      | ok result =>
          cases others : values.mapM make with
          | error other =>
              rw [first, others] at failed
              cases failed
              obtain ⟨found, present, same⟩ := inductionHypothesis others
              exact ⟨found, List.mem_cons_of_mem value present, same⟩
          | ok results =>
              rw [first, others] at failed
              contradiction

theorem map_of_mapM {make : Alpha → Except Error Beta} {values : List Alpha}
    {results : List Beta} (made : values.mapM make = .ok results) {ofResult : Beta → Gamma}
    {ofValue : Alpha → Gamma}
    (same : ∀ value ∈ values, ∀ result, make value = .ok result →
      ofResult result = ofValue value) :
    results.map ofResult = values.map ofValue := by
  have paired := mapM_eq_ok_iff.mp made
  clear made
  induction paired with
  | nil => rfl
  | cons first others inductionHypothesis =>
      rw [List.forall_mem_cons] at same
      rw [List.map_cons, List.map_cons, same.1 _ first, inductionHypothesis same.2]

/-- The last value that passes a test, seen through what every value says for itself. -/
theorem map_find?_reverse_filterMap (make : Alpha → Option Beta) (test : Beta → Bool)
    (mark : Beta → Gamma) (values : List Alpha) :
    ((values.filterMap make).reverse.find? test).map mark =
      (values.map fun value => ((make value).filter test).map mark).reverse.findSome? id := by
  induction values with
  | nil => rfl
  | cons value values inductionHypothesis =>
      rw [List.map_cons, List.reverse_cons, List.findSome?_append, ← inductionHypothesis]
      cases made : make value with
      | none => simp [made]
      | some result =>
          rw [List.filterMap_cons_some made, List.reverse_cons, List.find?_append]
          cases (values.filterMap make).reverse.find? test with
          | some found => rfl
          | none => cases passed : test result <;> simp [passed, Option.filter]

end IgnoreRules
