import IgnoreRules.Proofs.Cache.Uncached

/-!
Where work leads to from the session it starts in.  Looking for files and asking their rules adds
events and reads nothing, and having the text of a file adds one read to the events.
-/

namespace IgnoreRules

/-- Steps of one kind go on in the same direction as those of another. -/
def Follows (relation further : Session → Session → Prop) : Prop :=
  ∀ before between after, relation before between → further between after → relation before after

namespace Action

variable {Alpha Beta : Type} {relation further : Session → Session → Prop}
  {action : Action Alpha} {next : Alpha → Action Beta}

/-- From every session the work leads on to one that stands in a relation to it. -/
def Leads (relation : Session → Session → Prop) (action : Action Alpha) : Prop :=
  ∀ session, relation session (action.after session)

namespace Leads

theorem imp (weaker : ∀ before after, further before after → relation before after)
    (leads : Leads further action) : Leads relation action :=
  fun session => weaker _ _ (leads session)

theorem inspect {work : Session → Action Alpha}
    (each : ∀ session, relation session ((work session).after session)) :
    Leads relation (get >>= work) :=
  each

theorem pure (still : ∀ session, relation session session) (value : Alpha) :
    Leads relation (Pure.pure value) :=
  fun session => still session

theorem perform (still : ∀ session, relation session session) (result : Except Fault Alpha) :
    Leads relation (Action.perform result) := by
  intro session
  cases result <;> exact still session

theorem suffer (still : ∀ session, relation session session) (outage? : Option OutageKind) :
    Leads relation (Action.suffer outage?) := by
  intro session
  cases outage? <;> exact still session

theorem bind (follows : Follows relation further) (first : Leads relation action)
    (second : ∀ value session, action.outcome session = .ok value → Leads further (next value)) :
    Leads relation (action >>= next) := by
  intro session
  rw [after, run_bind]
  cases ended : action.outcome session with
  | error fault => exact first session
  | ok value => exact follows _ _ _ (first session) (second value session ended _)

theorem map (change : Alpha → Beta) (first : Leads relation action) :
    Leads relation (change <$> action) := by
  intro session
  rw [map_eq_pure_bind, after, run_bind]
  cases action.outcome session <;> exact first session

theorem ite {condition : Prop} [Decidable condition] {other : Action Alpha}
    (holds : Leads relation action) (fails : Leads relation other) :
    Leads relation (if condition then action else other) := by
  split
  · exact holds
  · exact fails

theorem recover (follows : Follows relation further) {forgiven : Fault → Bool}
    {instead : Fault → Action Alpha} (tried : Leads relation action)
    (replaced : ∀ fault, Leads further (instead fault)) :
    Leads relation (Action.recover forgiven action instead) := by
  intro session
  rw [after, run_recover]
  cases action.outcome session with
  | ok value => exact tried session
  | error fault =>
      dsimp only
      split
      next => exact follows _ _ _ (tried session) (replaced fault _)
      next => exact tried session

end Leads

end Action

def Silent (events : List Event) : Prop :=
  ∀ path, .read path ∉ events

namespace Silent

theorem nil : Silent [] :=
  fun _ => List.not_mem_nil

theorem append {news later : List Event} (silent : Silent news) (silentLater : Silent later) :
    Silent (news ++ later) := by
  intro path present
  rcases List.mem_append.mp present with early | late
  · exact silent path early
  · exact silentLater path late

theorem logged (records : List Record) : Silent (records.map .logged) := by
  simp [Silent]

end Silent

namespace Session

def Unread (before after : Session) : Prop :=
  ∃ news, Silent news ∧ after = { before with events := before.events ++ news }

def ReadsOnce (path : Path) (before after : Session) : Prop :=
  ∃ news, Silent news ∧ after = { before with events := before.events ++ .read path :: news }

def Keeps (key : List Char) (file : IgnoreFile) (before after : Session) : Prop :=
  ∃ news, Silent news ∧
    after = { kept := before.kept ++ [(key, file)], events := before.events ++ news }

end Session

namespace Session.Unread

theorem refl (session : Session) : session.Unread session :=
  ⟨[], .nil, by simp⟩

theorem follows : Follows Unread Unread := by
  rintro before _ _ ⟨news, silent, rfl⟩ ⟨later, silentLater, rfl⟩
  exact ⟨news ++ later, silent.append silentLater, by simp⟩

theorem follows_readsOnce (path : Path) : Follows (ReadsOnce path) Unread := by
  rintro before _ _ ⟨news, silent, rfl⟩ ⟨later, silentLater, rfl⟩
  exact ⟨news ++ later, silent.append silentLater, by simp⟩

theorem leads_logAll (records : List Record) : Action.Leads Unread (Action.logAll records) :=
  fun _ => ⟨records.map .logged, .logged records, rfl⟩

theorem leads_log (level : Level) (topic : Topic) (message : String) :
    Action.Leads Unread (Action.log level topic message) :=
  leads_logAll _

theorem leads_perform {Alpha : Type} (result : Except Fault Alpha) :
    Action.Leads Unread (Action.perform result) :=
  .perform refl result

theorem leads_listed (path : Path) : Action.Leads Unread (Action.note (.listed path)) :=
  fun _ => ⟨[.listed path], by simp [Silent], rfl⟩

end Session.Unread

namespace Workspace

open Session (Unread ReadsOnce)

variable {workspace : Workspace}

theorem leads_isDir (path : Path) : Action.Leads Unread (workspace.isDir path) :=
  .bind Unread.follows (.suffer Unread.refl _) fun _ _ _ => Unread.leads_perform _

theorem leads_findChild (directory : Path) (name : Name) :
    Action.Leads Unread (workspace.findChild directory name) := by
  refine .bind Unread.follows (.suffer Unread.refl _) fun _ _ _ => ?_
  refine .bind Unread.follows (Unread.leads_perform _) fun isThere _ _ => ?_
  refine .ite (.pure Unread.refl _) (.ite (.pure Unread.refl _) ?_)
  refine .bind Unread.follows (Unread.leads_perform _) fun twinIsThere _ _ => ?_
  refine .ite (.pure Unread.refl _) (.bind Unread.follows ?_ fun listed _ _ => .pure Unread.refl _)
  exact .bind Unread.follows (Unread.leads_listed directory) fun _ _ _ => Unread.leads_perform _

theorem leads_ignoreFileIn (directory : Path) :
    Action.Leads Unread (workspace.ignoreFileIn directory) := by
  refine .recover Unread.follows (.bind Unread.follows (leads_findChild directory _) ?_) ?_
  · intro found? _ _
    cases found? with
    | none => exact .pure Unread.refl none
    | some found =>
        exact .bind Unread.follows (leads_isDir found) fun _ _ _ => .pure Unread.refl _
  · intro fault
    exact .bind Unread.follows (Unread.leads_log _ _ _) fun _ _ _ => .pure Unread.refl none

theorem leads_judge (entry : Path) (shown : List Char) (isDir : Bool) (files : List IgnoreFile)
    (verdict : Verdict) :
    Action.Leads Unread (workspace.judge entry shown isDir verdict files) := by
  induction files generalizing verdict with
  | nil => exact .pure Unread.refl verdict
  | cons file others inductionHypothesis =>
      refine .bind Unread.follows (Unread.leads_perform _) fun path? _ _ => ?_
      rcases path? with _ | _ | ⟨first, rest⟩
      · exact inductionHypothesis verdict
      · exact inductionHypothesis verdict
      · refine .bind Unread.follows (Unread.leads_logAll _) fun _ _ _ => ?_
        dsimp only
        split
        next => exact inductionHypothesis verdict
        next =>
          exact .bind Unread.follows (Unread.leads_log _ _ _) fun _ _ _ => inductionHypothesis _

theorem leads_readText (path : Path) :
    Action.Leads (ReadsOnce path) (workspace.readText path) := by
  refine .bind (Unread.follows_readsOnce path) (fun _ => ⟨[], .nil, rfl⟩) fun _ _ _ => ?_
  refine .bind Unread.follows (.suffer Unread.refl _) fun _ _ _ => ?_
  refine .bind Unread.follows (Unread.leads_perform _) fun bytes _ _ => ?_
  obtain ⟨detected?, text⟩ := Text.decodeBy workspace.detector bytes
  cases detected? with
  | some encoding =>
      exact .bind Unread.follows (Unread.leads_log _ _ _) fun _ _ _ => .pure Unread.refl text
  | none => exact .pure Unread.refl text

end Workspace

end IgnoreRules
