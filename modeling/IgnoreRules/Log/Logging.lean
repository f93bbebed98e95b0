import IgnoreRules.Log.Level
import IgnoreRules.Log.RotatingFile

/-!
Logging of a package: one level for all of its loggers, and handlers that write lines to the
console and to a file.  Configuring replaces the handlers of earlier configurations, also when it
fails half-way.
-/

namespace IgnoreRules

inductive Handler.Target where
  | console
  | file (file : RotatingFile)
deriving DecidableEq, Repr

/-- A handler, and the number of the configuration that made it. -/
structure Handler where
  madeBy : Nat
  target : Handler.Target
deriving DecidableEq, Repr

inductive Logging.Output where
  | line (text : String)
  /-- The report on a handler that could not write a message. -/
  | report (message : String)
deriving DecidableEq, Repr

/-- The text of an output; that of a report leaves out the calls that have led there. -/
def Logging.Output.text : Output → String
  | line text => text
  | report message =>
      let shown := Text.quoted message.toList
      s!"--- Logging error ---\nMessage: {shown}\nArguments: ()\n"

structure Logging where
  /-- The name of the package's own logger, with which the names of the others start. -/
  package : String
  level : Level
  handlers : List Handler
  /-- How often logging has been configured. -/
  configured : Nat
  console : List Logging.Output
  disk : Disk

structure Logging.Request where
  /-- The level asked for by the caller. -/
  level? : Option String
  /-- The level that the environment sets for this package. -/
  packageLevel? : Option String
  /-- The level that the environment sets for everything. -/
  commonLevel? : Option String
  file? : Option RotatingFile

inductive Logging.Error where
  /-- The log file cannot be made. -/
  | file (fault : Fault)
  /-- What is asked for as a level is none. -/
  | level (stray : Level.Stray)
deriving DecidableEq, Repr

def Logging.Error.message : Error → String
  | file fault => fault.message
  | level stray => stray.message

namespace Logging

def unconfigured (package : String) (disk : Disk) : Logging where
  package
  level := .unset
  handlers := []
  configured := 0
  console := []
  disk

def fallbackLevel : Level := .warning

/-- The loggers above one, nearest first, all names written backwards: those named by what stands
before a dot, where of two dots side by side the first does not count. -/
def enclosing : List Char → List (List Char)
  | '.' :: last :: before => (last :: before) :: enclosing before
  | _ :: before => enclosing before
  | [] => []

def owns (logging : Logging) (name : String) : Bool :=
  name == logging.package ||
    (enclosing name.toList.reverse).contains logging.package.toList.reverse

def effectiveLevel (logging : Logging) (name : String) : Level :=
  if logging.owns name && logging.level != .unset then logging.level else fallbackLevel

def isEnabled (logging : Logging) (name : String) (level : Level) : Bool :=
  decide (0 < level.rank) && decide (logging.effectiveLevel name ≤ level)

def print (logging : Logging) (output : Output) : Logging :=
  { logging with console := logging.console ++ [output] }

def emit (logging : Logging) (line message : String) (handler : Handler) : Logging :=
  match handler.target with
  | .console => logging.print (.line line)
  | .file file =>
      match file.write line logging.disk with
      | .ok disk => { logging with disk }
      | .error disk => { logging with disk }.print (.report message)

def lineOf (time name : String) (level : Level) (message : String) : String :=
  let levelName := level.name
  s!"{time} - {name} - {levelName} - {message}\n"

def handlersOf (logging : Logging) (name : String) : List Handler :=
  if logging.owns name then logging.handlers else []

/-- Logs a message at the time given.  What no handler takes goes to the console as it is, if it
is a warning at least. -/
def log (logging : Logging) (time name : String) (level : Level) (message : String) : Logging :=
  if logging.isEnabled name level then
    if logging.handlersOf name = [] then
      if fallbackLevel ≤ level then logging.print (.line (message ++ "\n")) else logging
    else
      let line := lineOf time name level message
      (logging.handlersOf name).foldl (fun logging handler => logging.emit line message handler)
        logging
  else logging

/-- The text that names the level of a request: of the texts that are not empty, that of the caller
counts before that of the package and that of the package before the common one. -/
def Request.levelText (request : Request) : String :=
  let given := [request.level?, request.packageLevel?].filterMap fun text? =>
    text?.filter (· != "")
  given.head?.getD (request.commonLevel?.getD "INFO")

def Request.createFile (request : Request) (disk : Disk) : Disk × Option Fault :=
  match request.file? with
  | none => (disk, none)
  | some file => file.create disk

/-- Configures logging at the time given.  When the log file cannot be made, the new console handler
and what has been made of the way to the file stay, and the level stays as it was.  When what is
asked for as a level is none, that is noticed last, and both new handlers stay. -/
def configure (logging : Logging) (time : String) (request : Request) :
    Except Error Level × Logging :=
  let call := logging.configured + 1
  let console : Handler := ⟨call, .console⟩
  let (disk, fault?) := request.createFile logging.disk
  let begun := { logging with configured := call, handlers := [console], disk }
  match fault? with
  | some fault => (.error (.file fault), begun)
  | none =>
      let files := request.file?.toList.map fun file => ⟨call, .file file⟩
      let ready := { begun with handlers := console :: files }
      match Level.ofName request.levelText with
      | .error stray => (.error (.level stray), ready)
      | .ok level =>
          let levelName := level.name
          (.ok level, { ready with level }.log time logging.package .debug
            s!"Logging configured - Level: {levelName}")

end Logging

end IgnoreRules
