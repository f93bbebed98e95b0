import IgnoreRules.Proofs.Json.CutShort
import IgnoreRules.Proofs.Json.Fields
import IgnoreRules.Proofs.Json.Overflow
import IgnoreRules.Proofs.Json.RoundTrip
import IgnoreRules.Proofs.Text.Encoded
import IgnoreRules.Settings

/-!
What is loaded from any file.  Either all known fields of an object replace the defaults, or none
does.  Four things are not answered at all: a value that is no object, a level for which there is no
room, something malformed that there is no room to report, and a field with a name that settings
carry but that cannot be set.
-/

namespace IgnoreRules

namespace Settings

/-! ### What a file holds -/

variable {room : Nat}

/-- The file goes beyond the room before anything is wrong with it. -/
def Stored.Overflows (room : Nat) (stored : Stored) (innermost : Json.Nesting) : Prop :=
  ∃ text : String, stored = .file text.toUTF8 ∧ ∃ before rest,
    Json.AreSpaces before ∧ Json.Overflows room innermost rest ∧ text.toList = before ++ rest

def Stored.PairsHalves (stored : Stored) : Prop :=
  ∀ text : String, stored = .file text.toUTF8 → Json.PairsHalves text.toList

variable {fields : List (String × Json)}

def warning (place : Path) (fault : Error) : Record where
  level := .warning
  topic := .settings
  message :=
    let shown := String.ofList place.text
    let cause := fault.message place
    s!"Cannot load settings from {shown}: {cause}. Using defaults."

variable {stored : Stored}

end Settings

end IgnoreRules
