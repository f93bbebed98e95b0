/-!
Ascending tables of code-point ranges and membership in them.
-/

namespace IgnoreRules.Text

abbrev CodeRange := Nat × Nat

/-- Membership in an ascending table; the scan stops at the first range beyond the code point. -/
def CodeRange.covers : List CodeRange → Nat → Bool
  | [], _ => false
  | (first, last) :: rest, code =>
      if code < first then false
      else if code ≤ last then true
      else covers rest code

end IgnoreRules.Text
