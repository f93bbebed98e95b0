import IgnoreRules.Text.Case

/-!
Levels of importance.  A level is a number; seven of them have names, and two of these a second
one.  Levels are looked up by name in a table that holds two other things as well.
-/

namespace IgnoreRules

structure Level where
  rank : Int
deriving DecidableEq, Repr

namespace Level

def unset : Level := ⟨0⟩

def trace : Level := ⟨5⟩

def debug : Level := ⟨10⟩

def info : Level := ⟨20⟩

def warning : Level := ⟨30⟩

def error : Level := ⟨40⟩

def critical : Level := ⟨50⟩

instance : LE Level where
  le low high := low.rank ≤ high.rank

instance (low high : Level) : Decidable (low ≤ high) :=
  inferInstanceAs (Decidable (low.rank ≤ high.rank))

def name (level : Level) : String :=
  if level = critical then "CRITICAL"
  else if level = error then "ERROR"
  else if level = warning then "WARNING"
  else if level = info then "INFO"
  else if level = debug then "DEBUG"
  else if level = trace then "TRACE"
  else if level = unset then "NOTSET"
  else s!"Level {level.rank}"

def named? (name : String) : Option Level :=
  match name with
  | "CRITICAL" | "FATAL" => some critical
  | "ERROR" => some error
  | "WARNING" | "WARN" => some warning
  | "INFO" => some info
  | "DEBUG" => some debug
  | "TRACE" => some trace
  | "NOTSET" => some unset
  | _ => none

/-- What stands in the table of names without being a level. -/
inductive Stray where
  /-- The layout of lines for which no other is given. -/
  | layout
  /-- The styles in which a layout can be written. -/
  | styles
deriving DecidableEq, Repr

namespace Stray

def message : Stray → String
  | layout => "Unknown level: '%(levelname)s:%(name)s:%(message)s'"
  | styles =>
      "Level not an integer or a valid string: " ++
        "\x7b'%': (<class 'logging.PercentStyle'>, '%(levelname)s:%(name)s:%(message)s'), " ++
        "'\x7b': (<class 'logging.StrFormatStyle'>, " ++
        "'\x7blevelname\x7d:\x7bname\x7d:\x7bmessage\x7d'), " ++
        "'$': (<class 'logging.StringTemplateStyle'>, " ++
        "'$\x7blevelname\x7d:$\x7bname\x7d:$\x7bmessage\x7d')\x7d"

end Stray

def stray? (name : String) : Option Stray :=
  match name with
  | "BASIC_FORMAT" => some .layout
  | "_STYLES" => some .styles
  | _ => none

/-- The level that a name in any case asks for; an unknown name asks for `info`. -/
def ofName (name : String) : Except Stray Level :=
  let upper := String.ofList (Text.upper name.toList)
  match stray? upper with
  | some stray => .error stray
  | none => .ok ((named? upper).getD info)

end Level

end IgnoreRules
