import IgnoreRules.Json.Reader
import IgnoreRules.Json.Writer
import IgnoreRules.Log.Record
import IgnoreRules.Tree.Error

/-!
The settings of an export, kept in one JSON file.  A stored file is laid over the defaults: known
fields replace them whatever kind of value they hold, and others are passed over, unless they have
the name of something else that settings carry and that cannot be set.  How deep a value can be
nested is asked where it is read; what is saved is taken to be within the limits of writing.
-/

namespace IgnoreRules

structure Settings where
  ignoreFilename : Json
  respectGitignore : Json
  ignoredNames : List Json
  logLevel : Json
deriving Repr

namespace Settings

def defaultIgnoredNames : List String :=
  [ ".git/", ".hg/", ".svn/", ".idea/", ".vscode/", "__pycache__/", "node_modules/", ".venv/",
    ".mypy_cache/", ".pytest_cache/", ".DS_Store", "*.pyc", "*.pyo", "*.class" ]

def default : Settings where
  ignoreFilename := .string ".gitignore"
  respectGitignore := .boolean true
  ignoredNames := defaultIgnoredNames.map .string
  logLevel := .string "INFO"

inductive Error where
  | unknownField (name : String)
  | readOnly (name : String)
  /-- Only another class can take the place of the one that settings belong to. -/
  | notClass (value : Json)
  | notIterable (value : Json)
  /-- The value at the top of the file has no fields. -/
  | notFields (value : Json)
  /-- A directory stands where the file should. -/
  | isDirectory
  | notText
  | notJson
  | tooDeep (innermost : Json.Nesting)
  | cutShort
  /-- A whole number has too many digits to be written. -/
  | tooManyDigits

def Error.message (place : Path) : Error → String
  | unknownField name => s!"'Config' object has no attribute '{name}'"
  | readOnly name => s!"'Config' object attribute '{name}' is read-only"
  | notClass value => s!"__class__ must be set to a class, not '{value.kindName}' object"
  | notIterable value => s!"'{value.kindName}' object is not iterable"
  | notFields value => s!"'{value.kindName}' object has no attribute 'items'"
  | isDirectory => TreeError.isDirectory.message place
  | notText => "the bytes are not UTF-8"
  | notJson => "the text is not JSON"
  | tooDeep innermost => "maximum recursion depth exceeded" ++ innermost.activity
  | cutShort => "maximum recursion depth exceeded"
  | tooManyDigits =>
      s!"Exceeds the limit ({Json.greatestDigitCount} digits) for integer string conversion; " ++
        "use sys.set_int_max_str_digits() to increase the limit"

def fieldNames : List String :=
  ["ignore_filename", "respect_gitignore", "ignored_names", "log_level"]

/-- What settings carry besides their fields and their class. -/
def fixedNames : List String :=
  [ "__annotations__", "__dataclass_fields__", "__dataclass_params__", "__delattr__", "__dir__",
    "__doc__", "__eq__", "__format__", "__ge__", "__getattribute__", "__getstate__", "__gt__",
    "__hash__", "__init__", "__init_subclass__", "__le__", "__lt__", "__match_args__", "__module__",
    "__ne__", "__new__", "__reduce__", "__reduce_ex__", "__repr__", "__setattr__", "__sizeof__",
    "__slots__", "__str__", "__subclasshook__" ]

/-- Every name under which settings carry something. -/
def carriedNames : List String :=
  fieldNames ++ "__class__" :: fixedNames

def assign (settings : Settings) (name : String) (value : Json) : Except Error Settings :=
  match name with
  | "ignore_filename" => .ok { settings with ignoreFilename := value }
  | "respect_gitignore" => .ok { settings with respectGitignore := value }
  | "ignored_names" =>
      match value.elements? with
      | some names => .ok { settings with ignoredNames := names }
      | none => .error (.notIterable value)
  | "log_level" => .ok { settings with logLevel := value }
  | "__class__" => .error (.notClass value)
  | _ => .error (if fixedNames.contains name then .readOnly name else .unknownField name)

def assignAll (settings : Settings) (fields : List (String × Json)) : Except Error Settings :=
  fields.foldlM (fun settings field => settings.assign field.1 field.2) settings

def toJson (settings : Settings) : Json :=
  .object
    [ ("ignore_filename", settings.ignoreFilename),
      ("respect_gitignore", settings.respectGitignore),
      ("ignored_names", .array settings.ignoredNames),
      ("log_level", settings.logLevel) ]

inductive Stored where
  | missing
  | directory
  | file (content : ByteArray)

def ofJson (value : Json) : Except Error Settings :=
  match value with
  | .object fields => default.assignAll (fields.filter fun field => carriedNames.contains field.1)
  | other => .error (.notFields other)

def ofReading : Except Json.ReadError Json → Except Error Settings
  | .error .malformed => .error .notJson
  | .error (.tooDeep innermost) => .error (.tooDeep innermost)
  | .error .cutShort => .error .cutShort
  | .ok value => ofJson value

def ofStored (room : Nat) : Stored → Except Error Settings
  | .missing => .ok default
  | .directory => .error .isDirectory
  | .file content =>
      match String.fromUTF8? content with
      | none => .error .notText
      | some text => ofReading (Json.read room text.toList)

def Error.isForgiven : Error → Bool
  | notClass _ | notIterable _ | isDirectory | notText | notJson | tooManyDigits => true
  | unknownField _ | readOnly _ | notFields _ | tooDeep _ | cutShort => false

def load (place : Path) (room : Nat) (stored : Stored) : Except Error (Settings × List Record) :=
  match ofStored room stored with
  | .ok settings => .ok (settings, [])
  | .error error =>
      if error.isForgiven then
        let shown := String.ofList place.text
        let cause := error.message place
        .ok (default,
          [⟨.warning, .settings, s!"Cannot load settings from {shown}: {cause}. Using defaults."⟩])
      else .error error

def toText (settings : Settings) : String :=
  settings.toJson.toText

/-- The text is made before the file is opened. -/
def save (settings : Settings) (stored : Stored) : Except Error Stored :=
  if settings.toJson.isWritable then
    match stored with
    | .directory => .error .isDirectory
    | _ => .ok (.file settings.toText.toUTF8)
  else .error .tooManyDigits

end Settings

end IgnoreRules
