import IgnoreRules.Log.Logging

/-!
Logging over time.  Between configurations records are written, and files change.  The last
configuration alone decides which handlers there are, whether or not it has succeeded, and the last
one that has succeeded decides the level; so each record that a logger of the package takes is one
line on the console.
-/

namespace IgnoreRules

def Handler.isConsole (handler : Handler) : Bool :=
  match handler.target with
  | .console => true
  | .file _ => false

namespace Logging

def Output.isLine : Output → Bool
  | .line _ => true
  | .report _ => false

structure Call where
  request : Request
  found : Disk
  result : Except Error Level

namespace Call

def level? (call : Call) : Option Level :=
  match call.result with
  | .ok level => some level
  | .error _ => none

/-- The log file, if the call has got as far as to open it. -/
def opened? (call : Call) : Option RotatingFile :=
  match call.result with
  | .error (.file _) => none
  | _ => call.request.file?

def handlers (call : Call) (number : Nat) : List Handler :=
  ⟨number, .console⟩ :: call.opened?.toList.map fun file => ⟨number, .file file⟩

theorem filter_isConsole (call : Call) (number : Nat) :
    (call.handlers number).filter Handler.isConsole = [⟨number, .console⟩] := by
  rw [handlers]
  cases call.opened? <;> rfl

theorem filter_not_isConsole (call : Call) (number : Nat) :
    (call.handlers number).filter (!·.isConsole) =
      call.opened?.toList.map fun file => ⟨number, .file file⟩ := by
  rw [handlers]
  cases call.opened? <;> rfl

/-- A call that has opened its log file succeeds unless what it asks for is no level. -/
theorem returned_or_stray_of_mem (call : Call) {number : Nat} {handler : Handler}
    (present : handler ∈ call.handlers number) (noConsole : handler.isConsole = false) :
    (∃ level, call.result = .ok level) ∨ ∃ stray, call.result = .error (.level stray) := by
  obtain ⟨request, found, result⟩ := call
  cases result with
  | ok level => exact .inl ⟨level, rfl⟩
  | error error =>
      cases error with
      | level stray => exact .inr ⟨stray, rfl⟩
      | file fault =>
          obtain rfl : handler = ⟨number, .console⟩ := by simpa [handlers, opened?] using present
          contradiction

end Call

def settings (logging : Logging) : String × Level × List Handler × Nat :=
  (logging.package, logging.level, logging.handlers, logging.configured)

variable {logging : Logging}

theorem settings_eq_iff {first second : Logging} :
    first.settings = second.settings ↔
      first.package = second.package ∧ first.level = second.level ∧
        first.handlers = second.handlers ∧ first.configured = second.configured := by
  simp [settings]

theorem settings_emit (line message : String) (handler : Handler) :
    (logging.emit line message handler).settings = logging.settings := by
  obtain ⟨madeBy, target⟩ := handler
  cases target with
  | console => rfl
  | file file =>
      dsimp only [emit]
      split <;> rfl

theorem settings_foldl_emit (line message : String) (handlers : List Handler) :
    (handlers.foldl (fun logging handler => logging.emit line message handler) logging).settings =
      logging.settings := by
  induction handlers generalizing logging with
  | nil => rfl
  | cons handler handlers inductionHypothesis =>
      rw [List.foldl_cons, inductionHypothesis, settings_emit]

theorem settings_log (time name : String) (level : Level) (message : String) :
    (logging.log time name level message).settings = logging.settings := by
  unfold log
  split
  next =>
    dsimp only
    split
    next => split <;> rfl
    next => exact settings_foldl_emit _ _ _
  next => rfl

/-- How a configuration ends that finds a disk: it fails on its log file first, and otherwise on
what it asks for as a level. -/
def Request.outcome (request : Request) (disk : Disk) : Except Error Level :=
  match (request.createFile disk).2 with
  | some fault => .error (.file fault)
  | none => (Level.ofName request.levelText).mapError .level

theorem result_configure (time : String) (request : Request) :
    (logging.configure time request).1 = request.outcome logging.disk := by
  rcases created : request.createFile logging.disk with ⟨disk, fault?⟩
  cases fault? with
  | some fault => simp [configure, Request.outcome, created]
  | none =>
      simp only [configure, Request.outcome, created]
      cases Level.ofName request.levelText <;> rfl

theorem settings_configure (logging : Logging) (time : String) (request : Request) :
    let (result, after) := logging.configure time request
    let call : Call := ⟨request, logging.disk, result⟩
    after.settings =
      (logging.package, call.level?.getD logging.level, call.handlers (logging.configured + 1),
        logging.configured + 1) := by
  unfold configure
  rcases request.createFile logging.disk with ⟨disk, fault?⟩
  cases fault? with
  | some fault => rfl
  | none =>
      cases Level.ofName request.levelText with
      | error stray => rfl
      | ok level => exact settings_log _ _ _ _

theorem upper_of_ofName_eq_error {name : String} {stray : Level.Stray}
    (found : Level.ofName name = .error stray) :
    String.ofList (Text.upper name.toList) ∈ ["BASIC_FORMAT", "_STYLES"] := by
  simp only [Level.ofName] at found
  split at found
  next other isStray =>
    unfold Level.stray? at isStray
    split at isStray
    next layout => simp [layout]
    next styles => simp [styles]
    next => cases isStray
  next => cases found

theorem upper_of_outcome {request : Request} {disk : Disk} {stray : Level.Stray}
    (failed : request.outcome disk = .error (.level stray)) :
    String.ofList (Text.upper request.levelText.toList) ∈ ["BASIC_FORMAT", "_STYLES"] := by
  unfold Request.outcome at failed
  split at failed
  next => cases failed
  next =>
    cases named : Level.ofName request.levelText with
    | error other => exact upper_of_ofName_eq_error named
    | ok level =>
        rw [named] at failed
        cases failed

/-- A console handler writes the line of a message, and a file at most reports that it has not. -/
theorem console_emit (logging : Logging) (line message : String) (handler : Handler) :
    ∃ outputs, (logging.emit line message handler).console = logging.console ++ outputs ∧
      outputs.filter Output.isLine = (if handler.isConsole then [.line line] else []) ∧
      ∀ output ∈ outputs, output = .line line ∨ output = .report message := by
  obtain ⟨madeBy, target⟩ := handler
  cases target with
  | console => exact ⟨[.line line], rfl, rfl, by simp⟩
  | file file =>
      dsimp only [emit]
      split
      next => exact ⟨[], (List.append_nil _).symm, rfl, by simp⟩
      next => exact ⟨[.report message], rfl, rfl, by simp⟩

theorem console_foldl_emit (logging : Logging) (line message : String) (handlers : List Handler) :
    ∃ outputs,
      (handlers.foldl (fun logging handler => logging.emit line message handler) logging).console =
        logging.console ++ outputs ∧
      outputs.filter Output.isLine =
        List.replicate (handlers.countP Handler.isConsole) (.line line) ∧
      ∀ output ∈ outputs, output = .line line ∨ output = .report message := by
  induction handlers generalizing logging with
  | nil => exact ⟨[], (List.append_nil _).symm, rfl, by simp⟩
  | cons handler handlers inductionHypothesis =>
      obtain ⟨first, written, lines, known⟩ := console_emit logging line message handler
      obtain ⟨others, writtenLater, linesLater, knownLater⟩ :=
        inductionHypothesis (logging.emit line message handler)
      refine ⟨first ++ others, ?_, ?_, ?_⟩
      · rw [List.foldl_cons, writtenLater, written, List.append_assoc]
      · rw [List.filter_append, lines, linesLater, List.countP_cons]
        cases handler.isConsole with
        | true => exact (List.replicate_succ).symm
        | false => rfl
      · intro output isOutput
        rcases List.mem_append.mp isOutput with early | late
        · exact known output early
        · exact knownLater output late

end Logging

inductive Logging.Act where
  | configure (time : String) (request : Request)
  | log (time name : String) (level : Level) (message : String)
  /-- The files are changed by others. -/
  | edit (tree : Tree)

structure Logging.Usage where
  logging : Logging
  calls : List Call

namespace Logging.Usage

def begun (package : String) (disk : Disk) : Usage :=
  ⟨unconfigured package disk, []⟩

def step (usage : Usage) : Act → Usage
  | .configure time request =>
      let (result, logging) := usage.logging.configure time request
      ⟨logging, usage.calls ++ [⟨request, usage.logging.disk, result⟩]⟩
  | .log time name level message =>
      { usage with logging := usage.logging.log time name level message }
  | .edit tree =>
      { usage with logging := { usage.logging with disk := usage.logging.disk.withTree tree } }

def run (usage : Usage) (acts : List Act) : Usage :=
  acts.foldl step usage

/-- What holds at every point of a usage. -/
structure IsSettled (usage : Usage) : Prop where
  counted : usage.logging.configured = usage.calls.length
  level : usage.logging.level = ((usage.calls.filterMap Call.level?).getLast?).getD .unset
  handlers : usage.logging.handlers =
    usage.calls.getLast?.elim [] fun call => call.handlers usage.calls.length
  outcomes : ∀ call ∈ usage.calls, call.result = call.request.outcome call.found

variable {usage : Usage}

theorem isSettled_begun (package : String) (disk : Disk) : (begun package disk).IsSettled where
  counted := rfl
  level := rfl
  handlers := rfl
  outcomes := by
    intro call called
    contradiction

namespace IsSettled

theorem of_settings {logging : Logging} (settled : usage.IsSettled)
    (same : logging.settings = usage.logging.settings) :
    ({ usage with logging } : Usage).IsSettled := by
  obtain ⟨-, sameLevel, sameHandlers, sameCount⟩ := settings_eq_iff.mp same
  exact ⟨sameCount.trans settled.counted, sameLevel.trans settled.level,
    sameHandlers.trans settled.handlers, settled.outcomes⟩

theorem configure (settled : usage.IsSettled) (time : String) (request : Request) :
    (usage.step (.configure time request)).IsSettled := by
  have set := settings_configure usage.logging time request
  simp only [settings, Prod.mk.injEq] at set
  obtain ⟨-, level, handlers, configured⟩ := set
  refine ⟨?_, ?_, ?_, ?_⟩ <;> dsimp only [Usage.step]
  · rw [configured, settled.counted, List.length_append, List.length_singleton]
  · rw [level, settled.level, List.filterMap_append, List.filterMap_cons]
    cases Call.level? ⟨request, usage.logging.disk, (usage.logging.configure time request).1⟩ with
    | none => simp
    | some level => simp
  · rw [handlers, settled.counted, List.getLast?_concat, Option.elim_some, List.length_append,
      List.length_singleton]
  · intro call called
    rcases List.mem_append.mp called with earlier | now
    · exact settled.outcomes call earlier
    · obtain rfl := List.mem_singleton.mp now
      exact result_configure time request

theorem step (settled : usage.IsSettled) (act : Act) : (usage.step act).IsSettled := by
  cases act with
  | configure time request => exact settled.configure time request
  | log time name level message => exact settled.of_settings (settings_log time name level message)
  | edit tree => exact settled.of_settings rfl

theorem run (settled : usage.IsSettled) (acts : List Act) : (usage.run acts).IsSettled := by
  induction acts generalizing usage with
  | nil => exact settled
  | cons act acts inductionHypothesis => exact inductionHypothesis (settled.step act)

end IsSettled

/-- After any configurations, with records between them and files that change, there is one console
handler, made by the last configuration, and besides it exactly its log file, unless that could not
be made on the disk that the configuration has found.  So a log file is there only if the last
configuration has succeeded, or else has asked by one of two names for what is no level.  The level
is that of the last configuration that has succeeded; and a record that a logger of the package
takes comes to the console as one line, next to which there can only be a report that the log file
could not take it. -/
theorem settled_by_last_calls (package : String) (disk : Disk) (acts : List Act)
    {last : Call} (reached : (begun package disk).run acts = usage)
    (called : usage.calls.getLast? = some last) :
    let logging := usage.logging
    let number := usage.calls.length
    logging.handlers.filter Handler.isConsole = [⟨number, .console⟩] ∧
    logging.handlers.filter (!·.isConsole) =
      (last.opened?.toList.map fun file => ⟨number, .file file⟩) ∧
    last.result = last.request.outcome last.found ∧
    ((∃ handler ∈ logging.handlers, handler.isConsole = false) →
      (∃ level, last.result = .ok level) ∨
        String.ofList (Text.upper last.request.levelText.toList) ∈ ["BASIC_FORMAT", "_STYLES"]) ∧
    logging.level = ((usage.calls.filterMap Call.level?).getLast?).getD .unset ∧
    ∀ (time name : String) (level : Level) (message : String), logging.owns name = true →
      logging.isEnabled name level = true →
      ∃ outputs, (logging.log time name level message).console = logging.console ++ outputs ∧
        outputs.filter Output.isLine = [.line (lineOf time name level message)] ∧
        ∀ output ∈ outputs,
          output = .line (lineOf time name level message) ∨ output = .report message := by
  intro logging number
  have settled : usage.IsSettled := reached ▸ (isSettled_begun package disk).run acts
  have handlers : logging.handlers = last.handlers number := by
    rw [settled.handlers, called, Option.elim_some]
  rw [handlers]
  have ended := settled.outcomes last (List.mem_of_getLast? called)
  refine ⟨last.filter_isConsole number, last.filter_not_isConsole number, ended, ?_,
    settled.level, ?_⟩
  · rintro ⟨handler, present, noConsole⟩
    rcases last.returned_or_stray_of_mem present noConsole with returned | ⟨stray, failed⟩
    · exact .inl returned
    · exact .inr (upper_of_outcome (ended.symm.trans failed))
  · intro time name level message owned enabled
    have one : (logging.handlersOf name).countP Handler.isConsole = 1 := by
      rw [handlersOf, if_pos owned, handlers, List.countP_eq_length_filter,
        last.filter_isConsole, List.length_singleton]
    have handled : logging.handlersOf name ≠ [] := by
      intro empty
      rw [empty] at one
      contradiction
    have printed := console_foldl_emit logging (lineOf time name level message) message
      (logging.handlersOf name)
    rw [log, if_pos enabled, if_neg handled]
    rwa [one] at printed

def linked : Disk :=
  ⟨⟨[(["d".toList], .directory), (["k".toList], .link "d".toList)]⟩, ⟨.root, []⟩⟩

def narrow : RotatingFile :=
  ⟨.ofText "k/l".toList, 1, 1⟩

/-- Logging is configured twice, with a record between; the second time, the log file is asked for
where the first one stands in the way of its directory. -/
def stumbling : List Act :=
  [.configure "T" ⟨some "Debug", none, some "error", some narrow⟩,
    .log "T" "tool.part" .info "m",
    .configure "T" ⟨none, some "", some "error", some ⟨.ofText "/d/l/x".toList, 0, 0⟩⟩]

/-- The console handler of the second configuration is left, with the level of the first. -/
theorem stumbling_settled :
    let usage := (begun "tool" linked).run stumbling
    let line := lineOf "T" "tool.part" .debug "m"
    usage.calls.map Call.level? = [some .debug, none] ∧
    usage.logging.handlers.filter Handler.isConsole = [⟨2, .console⟩] ∧
    usage.logging.handlers.filter (!·.isConsole) = [] ∧
    usage.logging.level = .debug ∧
    ∃ outputs,
      (usage.logging.log "T" "tool.part" .debug "m").console = usage.logging.console ++ outputs ∧
      outputs.filter Output.isLine = [.line line] ∧
      ∀ output ∈ outputs, output = .line line ∨ output = .report "m" := by
  intro usage line
  have reached : (begun "tool" linked).run stumbling = usage := rfl
  have levels : usage.calls.map Call.level? = [some .debug, none] := by decide +kernel
  have two : usage.calls.length = 2 := by decide +kernel
  have unopened : usage.calls.getLast?.bind Call.opened? = none := by decide +kernel
  have nonempty : usage.calls.getLast?.isSome = true := by decide +kernel
  have lastLevel : (usage.calls.filterMap Call.level?).getLast? = some .debug := by decide +kernel
  have owned : usage.logging.owns "tool.part" = true := by decide +kernel
  have enabled : usage.logging.isEnabled "tool.part" .debug = true := by decide +kernel
  clear_value usage
  obtain ⟨last, called⟩ := Option.isSome_iff_exists.mp nonempty
  rw [called, Option.bind_some] at unopened
  obtain ⟨consoles, files, -, -, level, printed⟩ :=
    settled_by_last_calls "tool" linked stumbling reached called
  rw [two] at consoles
  rw [unopened] at files
  rw [lastLevel] at level
  exact ⟨levels, consoles, files, level, printed "T" "tool.part" .debug "m" owned enabled⟩

/-- A configuration that opens its log file and then finds that what it asks for is no level leaves
the log file in use. -/
theorem log_file_of_stray_level :
    let request : Request := ⟨some "basic_format", none, none, some narrow⟩
    let usage := (begun "tool" linked).run [.configure "T" request]
    usage.calls.map Call.level? = [none] ∧
      usage.logging.handlers = [⟨1, .console⟩, ⟨1, .file narrow⟩] := by
  decide +kernel

end Logging.Usage

end IgnoreRules
