import IgnoreRules.Session

/-!
Work whose answer does not depend on what is kept, as long as what is kept meets a condition that
the work itself preserves.
-/

namespace IgnoreRules

@[simp]
theorem ok_bind {Alpha Beta : Type} (value : Alpha) (next : Alpha → Except Fault Beta) :
    (Except.ok value >>= next) = next value := rfl

@[simp]
theorem error_bind {Alpha Beta : Type} (fault : Fault) (next : Alpha → Except Fault Beta) :
    (Except.error fault >>= next) = .error fault := rfl

@[simp]
theorem pure_eq_ok {Alpha : Type} (value : Alpha) :
    (pure value : Except Fault Alpha) = .ok value := rfl

theorem bind_eq_ok_iff {Alpha Beta : Type} {result : Except Fault Alpha}
    {next : Alpha → Except Fault Beta} {answer : Beta} :
    (result >>= next) = .ok answer ↔ ∃ value, result = .ok value ∧ next value = .ok answer := by
  cases result <;> simp

theorem bind_eq_error_iff {Alpha Beta : Type} {result : Except Fault Alpha}
    {next : Alpha → Except Fault Beta} {fault : Fault} :
    (result >>= next) = .error fault ↔
      result = .error fault ∨ ∃ value, result = .ok value ∧ next value = .error fault := by
  cases result <;> simp

/-- Something else in place of a fault of a class. -/
def forgive {Alpha : Type} (forgiven : Fault → Bool) (instead : Alpha)
    (result : Except Fault Alpha) : Except Fault Alpha :=
  match result with
  | .ok value => .ok value
  | .error fault => if forgiven fault then .ok instead else .error fault

theorem eq_of_forgive {Alpha : Type} {forgiven : Fault → Bool} {instead answer : Alpha}
    {result : Except Fault Alpha} (other : answer ≠ instead)
    (given : forgive forgiven instead result = .ok answer) : result = .ok answer := by
  cases result with
  | ok value => exact given
  | error fault =>
      dsimp only [forgive] at given
      split at given
      next => exact absurd (Except.ok.inj given).symm other
      next => contradiction

theorem eq_getD_of_forgive {Alpha : Type} {forgiven : Fault → Bool} {instead answer : Alpha}
    {result : Except Fault Alpha} (given : forgive forgiven instead result = .ok answer) :
    answer = result.toOption.getD instead := by
  cases result with
  | ok value => exact (Except.ok.inj given).symm
  | error fault =>
      dsimp only [forgive] at given
      split at given
      next => exact (Except.ok.inj given).symm
      next => contradiction

theorem forgive_eq_ok {Alpha : Type} {forgiven : Fault → Bool} {instead : Alpha}
    {result : Except Fault Alpha}
    (all : ∀ fault, result = .error fault → forgiven fault = true) :
    forgive forgiven instead result = .ok (result.toOption.getD instead) := by
  cases result with
  | ok value => rfl
  | error fault =>
      rw [forgive, if_pos (all fault rfl)]
      rfl

def OutageKind.unless {Alpha : Type} (outage? : Option OutageKind) (result : Except Fault Alpha) :
    Except Fault Alpha :=
  match outage? with
  | some kind => .error (.outage kind)
  | none => result

theorem eq_of_unless {Alpha : Type} {outage? : Option OutageKind} {result : Except Fault Alpha}
    {answer : Alpha} (given : OutageKind.unless outage? result = .ok answer) :
    result = .ok answer := by
  cases outage? with
  | none => exact given
  | some kind => contradiction

abbrev Kept := List (List Char × IgnoreFile)

namespace Action

variable {Alpha Beta : Type}

def outcome (action : Action Alpha) (session : Session) : Except Fault Alpha :=
  (action.run.run session).1

def after (action : Action Alpha) (session : Session) : Session :=
  (action.run.run session).2

theorem run_bind (action : Action Alpha) (next : Alpha → Action Beta) (session : Session) :
    (action >>= next).run.run session =
      match action.outcome session with
      | .ok value => (next value).run.run (action.after session)
      | .error fault => (.error fault, action.after session) := by
  unfold outcome after
  simp only [ExceptT.run_bind, StateT.run_bind]
  generalize action.run.run session = ended
  obtain ⟨_ | _, _⟩ := ended <;> rfl

theorem run_recover (forgiven : Fault → Bool) (action : Action Alpha)
    (instead : Fault → Action Alpha) (session : Session) :
    (recover forgiven action instead).run.run session =
      match action.outcome session with
      | .ok value => (.ok value, action.after session)
      | .error fault =>
          (if forgiven fault then instead fault else throw fault).run.run
            (action.after session) := by
  unfold outcome after
  simp only [recover, ExceptT.run_tryCatch, StateT.run_bind]
  generalize action.run.run session = ended
  obtain ⟨_ | _, _⟩ := ended <;> rfl

theorem outcome_perform (result : Except Fault Alpha) (session : Session) :
    (perform result).outcome session = result := by
  cases result <;> rfl

/-- From every session whose kept files are steady, the work ends in this result and leaves the
kept files steady. -/
def Gives (steady : Kept → Prop) (action : Action Alpha) (result : Except Fault Alpha) : Prop :=
  ∀ session : Session, steady session.kept →
    action.outcome session = result ∧ steady (action.after session).kept

namespace Gives

variable {steady : Kept → Prop} {action : Action Alpha} {result : Except Fault Alpha}

theorem eq_of_outcome {session : Session} {value : Alpha}
    (ended : action.outcome session = .ok value) (gives : Gives (fun _ => True) action result) :
    result = .ok value :=
  (gives session trivial).1.symm.trans ended

theorem pure (value : Alpha) : Gives steady (Pure.pure value) (.ok value) :=
  fun _ kept => ⟨rfl, kept⟩

theorem bind {next : Alpha → Action Beta} {nextResult : Alpha → Except Fault Beta}
    (first : Gives steady action result)
    (second : ∀ value, result = .ok value → Gives steady (next value) (nextResult value)) :
    Gives steady (action >>= next) (result >>= nextResult) := by
  intro session kept
  obtain ⟨answered, keptAfter⟩ := first session kept
  rw [outcome, after, run_bind, answered]
  cases result with
  | error fault => exact ⟨rfl, keptAfter⟩
  | ok value => exact second value rfl _ keptAfter

theorem andThen {value : Alpha} {next : Alpha → Action Beta} {nextResult : Except Fault Beta}
    (first : Gives steady action (.ok value)) (second : Gives steady (next value) nextResult) :
    Gives steady (action >>= next) nextResult := by
  have both := @bind _ _ _ _ _ next (fun _ => nextResult) first fun other same => by
    cases same
    exact second
  exact both

theorem fail {fault : Fault} {next : Alpha → Action Beta}
    (first : Gives steady action (.error fault)) :
    Gives steady (action >>= next) (.error fault) := by
  intro session kept
  obtain ⟨answered, keptAfter⟩ := first session kept
  rw [outcome, after, run_bind, answered]
  exact ⟨rfl, keptAfter⟩

theorem perform (result : Except Fault Alpha) : Gives steady (Action.perform result) result := by
  intro session kept
  cases result <;> exact ⟨rfl, kept⟩

theorem inspect {next : Session → Action Alpha}
    (each : ∀ session : Session, steady session.kept →
      (next session).outcome session = result ∧ steady ((next session).after session).kept) :
    Gives steady (get >>= next) result :=
  each

theorem map (change : Alpha → Beta) (first : Gives steady action result) :
    Gives steady (change <$> action) (result.map change) := by
  have mapped : result.map change = result >>= fun value => .ok (change value) := by
    cases result <;> rfl
  rw [map_eq_pure_bind, mapped]
  exact .bind first fun value _ => .pure (change value)

theorem keep {key : List Char} {file : IgnoreFile}
    (stays : ∀ kept, steady kept → steady (kept ++ [(key, file)])) :
    Gives steady (modify fun session => { session with kept := session.kept ++ [(key, file)] })
      (.ok ()) :=
  fun session kept => ⟨rfl, stays session.kept kept⟩

theorem logAll (records : List Record) : Gives steady (Action.logAll records) (.ok ()) :=
  fun _ kept => ⟨rfl, kept⟩

theorem log (level : Level) (topic : Topic) (message : String) :
    Gives steady (Action.log level topic message) (.ok ()) :=
  logAll _

theorem note (event : Event) : Gives steady (Action.note event) (.ok ()) :=
  fun _ kept => ⟨rfl, kept⟩

theorem ite {condition : Prop} [Decidable condition] {other : Action Alpha}
    {otherResult : Except Fault Alpha} (holds : Gives steady action result)
    (fails : Gives steady other otherResult) :
    Gives steady (if condition then action else other)
      (if condition then result else otherResult) := by
  split
  · exact holds
  · exact fails

theorem suffer (outage? : Option OutageKind) (otherwise : Gives steady action result) :
    Gives steady (do Action.suffer outage?; action) (OutageKind.unless outage? result) := by
  cases outage? with
  | none => exact otherwise
  | some kind => exact fun _ kept => ⟨rfl, kept⟩

theorem recover {forgiven : Fault → Bool} {instead : Fault → Action Alpha} {value : Alpha}
    (tried : Gives steady action result)
    (replaced : ∀ fault, Gives steady (instead fault) (.ok value)) :
    Gives steady (Action.recover forgiven action instead) (forgive forgiven value result) := by
  intro session kept
  obtain ⟨answered, keptAfter⟩ := tried session kept
  rw [outcome, after, run_recover, answered]
  cases result with
  | ok answer => exact ⟨rfl, keptAfter⟩
  | error fault =>
      dsimp only [forgive]
      split
      next => exact replaced fault _ keptAfter
      next => exact ⟨rfl, keptAfter⟩

end Gives

end Action

end IgnoreRules
