import IgnoreRules.Proofs.Cache.Uncached
import IgnoreRules.Proofs.Text.Lookup
import IgnoreRules.Proofs.Tree.Spelled

/-!
Histories of calls on one cache.  Nothing that is asked, dropped or cleared changes an answer: a
question gets the answer that it would get from a new cache, wherever it stands in a history.
-/

namespace IgnoreRules

inductive CacheCall where
  | ask (text : List Char)
  | clear
  | invalidate (location : List Char)
deriving DecidableEq, Repr

namespace CacheCall

def question? : CacheCall → Option (List Char)
  | ask text => some text
  | _ => none

/-- The session that a call leaves behind, also when it ends in a fault. -/
def after (workspace : Workspace) : CacheCall → Session → Session
  | ask text, session => (workspace.isIgnored (Path.ofText text)).after session
  | clear, session => Action.dropAll.after session
  | invalidate location, session => (Action.drop location).after session

end CacheCall

namespace Workspace

def afterCalls (workspace : Workspace) (calls : List CacheCall) (session : Session) : Session :=
  calls.foldl (fun session call => call.after workspace session) session

theorem afterCalls_cons (workspace : Workspace) (call : CacheCall) (calls : List CacheCall)
    (session : Session) :
    workspace.afterCalls (call :: calls) session =
      workspace.afterCalls calls (call.after workspace session) := rfl

def answer (workspace : Workspace) (session : Session) (text : List Char) : Except Fault Bool :=
  (workspace.isIgnored (Path.ofText text)).outcome session

def answers (workspace : Workspace) : List CacheCall → Session → List (Except Fault Bool)
  | [], _ => []
  | call :: calls, session =>
      (call.question?.map (workspace.answer session)).toList ++
        workspace.answers calls (call.after workspace session)

/-- The root was resolved when the workspace was opened, on the tree of that time. -/
structure IsRooted (workspace : Workspace) : Prop where
  spelledCurrent : workspace.disk.current.IsSpelled
  resolvedRoot : ∀ root, workspace.root? = some root →
    ∃ tree start, Disk.resolve ⟨tree, workspace.disk.current⟩ start = .ok root

end Workspace

namespace Action

theorem after_dropAll (session : Session) :
    ∃ records : List Record,
      dropAll.after session = ⟨[], session.events ++ records.map .logged⟩ :=
  ⟨[_], rfl⟩

theorem after_drop (location : List Char) (session : Session) :
    ∃ records : List Record,
      (drop location).after session =
        ⟨session.kept.filter (·.1 != location), session.events ++ records.map .logged⟩ := by
  have opened : (drop location).after session =
      (if (session.kept.lookup location).isSome then do
        set { session with kept := session.kept.filter (·.1 != location) }
        let place := String.ofList location
        log .debug .cache s!"Invalidated cached ignore file {place}"
      else pure () : Action Unit).after session := rfl
  rw [opened]
  split
  next => exact ⟨[_], rfl⟩
  next absent =>
    rw [Option.not_isSome_iff_eq_none, List.lookup_eq_none_iff] at absent
    have unchanged : session.kept.filter (·.1 != location) = session.kept := by
      refine List.filter_eq_self.mpr fun entry isKept => ?_
      simpa [bne, Bool.beq_comm] using absent entry isKept
    refine ⟨[], ?_⟩
    rw [unchanged, List.map_nil, List.append_nil]
    rfl

theorem kept_after_drop (location : List Char) (session : Session) :
    ((drop location).after session).kept = session.kept.filter (·.1 != location) := by
  obtain ⟨records, dropped⟩ := after_drop location session
  rw [dropped]

theorem lookup_after_drop (location key : List Char) (session : Session) :
    ((drop location).after session).kept.lookup key =
      if key = location then none else session.kept.lookup key := by
  rw [kept_after_drop, lookup_filter_key session.kept (· != location)]
  by_cases same : key = location <;> simp [same]

end Action

namespace Workspace

variable {workspace : Workspace} {session : Session}

theorem IsRooted.spelledRoot (rooted : workspace.IsRooted) :
    ∀ root, workspace.root? = some root → root.IsSpelled := by
  intro root located
  obtain ⟨tree, start, resolved⟩ := rooted.resolvedRoot root located
  refine Disk.isSpelled_of_resolve ?_ resolved
  exact rooted.spelledCurrent

theorem IsRooted.spelled (rooted : workspace.IsRooted) (text : List Char) :
    ∀ root, workspace.root? = some root → (root.join (Path.ofText text)).IsSpelled :=
  fun root located => (rooted.spelledRoot root located).join_ofText text

theorem isRooted_of_isReal (realCurrent : workspace.disk.IsReal workspace.disk.current)
    (realRoot : ∀ root, workspace.root? = some root → workspace.disk.IsReal root) :
    workspace.IsRooted where
  spelledCurrent := realCurrent.isSpelled
  resolvedRoot := fun root located =>
    ⟨workspace.disk.tree, root, (realRoot root located).resolve_eq_self realCurrent⟩

theorem agrees_fresh : workspace.Agrees Session.fresh.kept := by
  intro location file present
  contradiction

theorem agrees_after (rooted : workspace.IsRooted) (call : CacheCall)
    (agrees : workspace.Agrees session.kept) :
    workspace.Agrees (call.after workspace session).kept := by
  cases call with
  | ask text => exact (gives_isIgnored _ (rooted.spelled text) session agrees).2
  | clear =>
      intro location file present
      contradiction
  | invalidate location =>
      intro key file present
      rw [CacheCall.after, Action.lookup_after_drop] at present
      split at present
      next => contradiction
      next => exact agrees key file present

theorem answer_of_agrees (rooted : workspace.IsRooted) (agrees : workspace.Agrees session.kept)
    (text : List Char) : workspace.answer session text = workspace.answer Session.fresh text := by
  have spelled := rooted.spelled text
  rw [answer, answer, outcome_isIgnored_fresh spelled]
  exact (gives_isIgnored _ spelled session agrees).1

/-- From kept files that agree with the disk, every question of a history is answered as by a new
cache. -/
theorem answers_of_agrees (rooted : workspace.IsRooted) (calls : List CacheCall)
    (agrees : workspace.Agrees session.kept) :
    workspace.answers calls session =
      (calls.filterMap CacheCall.question?).map (workspace.answer Session.fresh) := by
  induction calls generalizing session with
  | nil => rfl
  | cons call calls inductionHypothesis =>
      rw [answers, inductionHypothesis (agrees_after rooted call agrees)]
      cases call with
      | ask text => simp [CacheCall.question?, answer_of_agrees rooted agrees]
      | clear => rfl
      | invalidate location => rfl

end Workspace

end IgnoreRules
