import IgnoreRules.Json.Basic
import IgnoreRules.Proofs.Text.Lookup
import Mathlib.Data.List.Induction
import Mathlib.Data.List.Nodup

/-!
The fields of an object.  A key that is written twice keeps its first place and its last value.
-/

namespace IgnoreRules

namespace Json

variable {fields : List (String × Json)}

theorem putField_of_not_mem {key : String} (absent : key ∉ fields.map Prod.fst) (value : Json) :
    putField key value fields = fields ++ [(key, value)] := by
  induction fields with
  | nil => rfl
  | cons field fields inductionHypothesis =>
      rw [List.map_cons, List.mem_cons, not_or] at absent
      rw [putField, if_neg (Ne.symm absent.1), inductionHypothesis absent.2, List.cons_append]

/-- The entries that an object keeps of the fields it is written with. -/
def entries (written : List (String × Json)) : List (String × Json) :=
  written.foldl (fun done field => putField field.1 field.2 done) []

theorem ofFields_eq_object (written : List (String × Json)) :
    ofFields written = object (entries written) :=
  rfl

theorem entries_of_distinct {written : List (String × Json)}
    (distinct : (written.map Prod.fst).Nodup) : entries written = written := by
  unfold entries
  induction written using List.reverseRecOn with
  | nil => rfl
  | append_singleton written field inductionHypothesis =>
      rw [List.map_append, List.nodup_append] at distinct
      -- A key that came before would have kept its place.
      have absent : field.1 ∉ written.map Prod.fst :=
        fun present => distinct.2.2 _ present _ List.mem_cons_self rfl
      rw [List.foldl_append, inductionHypothesis distinct.1]
      exact putField_of_not_mem absent field.2

end Json

end IgnoreRules
