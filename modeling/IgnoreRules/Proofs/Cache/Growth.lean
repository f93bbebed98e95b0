import IgnoreRules.Proofs.Cache.Unread
import IgnoreRules.Proofs.Text.Lookup

/-!
What a question leaves behind.  It adds to the kept files and to the events, and takes nothing away.
A location at which nothing was kept is read successfully at most once, and exactly then something
is kept there, compiled from the text that was read.
-/

namespace IgnoreRules

/-- What is kept for a location before and after texts have been read from it. -/
inductive Refilled (location : List Char) :
    Option IgnoreFile → List (List Char) → Option IgnoreFile → Prop where
  | kept (file : IgnoreFile) : Refilled location (some file) [] (some file)
  | absent : Refilled location none [] none
  | compiled (text : List Char) :
      Refilled location none [text]
        (some (IgnoreFile.ofText text (Path.ofText location).parent location))

namespace Refilled

variable {location : List Char} {before between after : Option IgnoreFile}
  {texts later : List (List Char)}

theorem unread (file? : Option IgnoreFile) : Refilled location file? [] file? := by
  cases file? with
  | none => exact .absent
  | some file => exact .kept file

theorem trans (first : Refilled location before texts between)
    (second : Refilled location between later after) :
    Refilled location before (texts ++ later) after := by
  cases first with
  | kept file =>
      cases second
      exact .kept file
  | absent => exact second
  | compiled text =>
      cases second
      exact .compiled text

theorem of_some {file : IgnoreFile} (refilled : Refilled location none texts (some file)) :
    ∃ text, texts = [text] ∧
      file = IgnoreFile.ofText text (Path.ofText location).parent location := by
  cases refilled with
  | compiled text => exact ⟨text, rfl, rfl⟩

theorem length_texts (refilled : Refilled location before texts after) : texts.length ≤ 1 := by
  cases refilled <;> simp

end Refilled

namespace Workspace

open Session (Unread ReadsOnce Keeps)

def textsRead (workspace : Workspace) (location : List Char) (events : List Event) :
    List (List Char) :=
  events.filterMap fun
    | .read path => if path.text = location then (workspace.textOf path).toOption else none
    | _ => none

/-- One session comes from another by adding files to those kept and events to those that have
happened. -/
structure Growth (workspace : Workspace) (mayKeep : Path → Prop) (before after : Session)
    (added : Kept) (news : List Event) : Prop where
  kept : after.kept = before.kept ++ added
  events : after.events = before.events ++ news
  /-- Files are kept for the texts read, and for nothing else. -/
  refilled : ∀ location, Refilled location (before.kept.lookup location)
    (workspace.textsRead location news) (after.kept.lookup location)
  allowed : ∀ entry ∈ added, ∃ path, mayKeep path ∧ entry.1 = path.text
  distinct : (before.kept.map Prod.fst).Nodup → (after.kept.map Prod.fst).Nodup

def Grows (workspace : Workspace) (mayKeep : Path → Prop) (before after : Session) : Prop :=
  ∃ added news, workspace.Growth mayKeep before after added news

variable {workspace : Workspace} {mayKeep : Path → Prop} {before between after : Session}

theorem textsRead_append (location : List Char) (events news : List Event) :
    workspace.textsRead location (events ++ news) =
      workspace.textsRead location events ++ workspace.textsRead location news :=
  List.filterMap_append

theorem textsRead_of_silent {news : List Event} (silent : Silent news) (location : List Char) :
    workspace.textsRead location news = [] := by
  refine List.filterMap_eq_nil_iff.mpr fun event present => ?_
  cases event with
  | read path => exact absurd present (silent path)
  | listed path => rfl
  | logged record => rfl

theorem textsRead_read_cons {news : List Event} (silent : Silent news) (path : Path)
    (location : List Char) :
    workspace.textsRead location (.read path :: news) =
      if path.text = location then (workspace.textOf path).toOption.toList else [] := by
  have nothing : workspace.textsRead location news = [] := textsRead_of_silent silent location
  unfold textsRead at nothing ⊢
  rw [List.filterMap_cons]
  by_cases same : path.text = location
  · cases given : (workspace.textOf path).toOption <;> simp [same, nothing, given]
  · simp [same, nothing]

namespace Growth

variable {added others : Kept} {news later : List Event}

theorem of_events (session : Session) {news : List Event}
    (nothing : ∀ location, workspace.textsRead location news = []) :
    workspace.Growth mayKeep session { session with events := session.events ++ news } [] news where
  kept := by simp
  events := rfl
  refilled := by
    intro location
    rw [nothing]
    exact .unread _
  allowed := by simp
  distinct := id

theorem trans (first : workspace.Growth mayKeep before between added news)
    (second : workspace.Growth mayKeep between after others later) :
    workspace.Growth mayKeep before after (added ++ others) (news ++ later) where
  kept := by rw [second.kept, first.kept, List.append_assoc]
  events := by rw [second.events, first.events, List.append_assoc]
  refilled := by
    intro location
    rw [textsRead_append]
    exact (first.refilled location).trans (second.refilled location)
  allowed := by
    intro entry present
    rcases List.mem_append.mp present with early | late
    · exact first.allowed entry early
    · exact second.allowed entry late
  distinct := fun once => second.distinct (first.distinct once)

theorem of_text {session : Session} {path : Path} {text : List Char} (spelled : path.IsSpelled)
    (allowed : mayKeep path) (absent : session.kept.lookup path.text = none)
    (isText : workspace.textOf path = .ok text) (silent : Silent news) :
    workspace.Growth mayKeep session
      { kept := session.kept ++ [(path.text, IgnoreFile.ofText text path.parent path.text)]
        events := session.events ++ .read path :: news }
      [(path.text, IgnoreFile.ofText text path.parent path.text)] (.read path :: news) where
  kept := rfl
  events := rfl
  refilled := by
    intro location
    rw [textsRead_read_cons silent, isText, List.lookup_append]
    by_cases same : path.text = location
    · subst same
      have compiled := @Refilled.compiled path.text text
      rw [spelled.ofText_text] at compiled
      simpa [absent, Except.toOption] using compiled
    · have other : (location == path.text) = false := beq_eq_false_iff_ne.mpr (Ne.symm same)
      simpa [same, other, List.lookup_cons] using Refilled.unread (session.kept.lookup location)
  allowed := by
    intro entry present
    exact ⟨path, allowed, by rw [List.mem_singleton.mp present]⟩
  distinct := by
    intro once
    rw [List.map_append, List.nodup_append]
    refine ⟨once, by simp, fun key isKept other isNew => ?_⟩
    obtain ⟨entry, isEntry, rfl⟩ := List.mem_map.mp isKept
    obtain rfl : other = path.text := by simpa using isNew
    exact (bne_iff_ne.mp (List.lookup_eq_none_iff.mp absent entry isEntry)).symm

theorem read_of_added (growth : workspace.Growth mayKeep before after added news)
    (distinct : (before.kept.map Prod.fst).Nodup) {entry : List Char × IgnoreFile}
    (isAdded : entry ∈ added) :
    ∃ text, workspace.textsRead entry.1 news = [text] ∧
      entry.2 = IgnoreFile.ofText text (Path.ofText entry.1).parent entry.1 := by
  have distinctAfter := growth.distinct distinct
  have refilled := growth.refilled entry.1
  have isKept : (entry.1, entry.2) ∈ after.kept := by simp [growth.kept, isAdded]
  rw [lookup_of_mem distinctAfter isKept] at refilled
  -- No key comes twice after the growth, so the added one was not there before.
  have absent : before.kept.lookup entry.1 = none := by
    rw [growth.kept, List.map_append, List.nodup_append] at distinctAfter
    refine List.lookup_eq_none_iff.mpr fun other isKept => bne_iff_ne.mpr (Ne.symm ?_)
    exact distinctAfter.2.2 _ (List.mem_map_of_mem isKept) _ (List.mem_map_of_mem isAdded)
  rw [absent] at refilled
  exact refilled.of_some

end Growth

namespace Grows

theorem of_unread (unread : before.Unread after) : workspace.Grows mayKeep before after := by
  obtain ⟨news, silent, rfl⟩ := unread
  exact ⟨_, _, .of_events before (textsRead_of_silent silent)⟩

theorem refl (session : Session) : workspace.Grows mayKeep session session :=
  of_unread (.refl session)

theorem follows : Follows (workspace.Grows mayKeep) (workspace.Grows mayKeep) := by
  rintro _ _ _ ⟨_, _, first⟩ ⟨_, _, second⟩
  exact ⟨_, _, first.trans second⟩

theorem leads_of_unread {Alpha : Type} {action : Action Alpha}
    (leads : Action.Leads Unread action) : Action.Leads (workspace.Grows mayKeep) action :=
  leads.imp fun _ _ => of_unread

end Grows

theorem grows_of_reading {path : Path} {session : Session} {tried : Action (Option (List Char))}
    {next : Option (List Char) → Action (Option IgnoreFile)} (spelled : path.IsSpelled)
    (allowed : mayKeep path) (absent : session.kept.lookup path.text = none)
    (reads : Action.Leads (ReadsOnce path) tried)
    (gives : Action.Gives (fun _ => True) tried
      (forgive Fault.isUnreadable none ((workspace.textOf path).map some)))
    (skips : Action.Leads Unread (next none))
    (keeps : ∀ text, Action.Leads
      (Keeps path.text (IgnoreFile.ofText text path.parent path.text)) (next (some text))) :
    workspace.Grows mayKeep session ((tried >>= next).after session) := by
  obtain ⟨news, silent, left⟩ := reads session
  have answered := (gives session trivial).1
  rw [Action.after, Action.run_bind, answered, left]
  cases had : workspace.textOf path with
  | ok text =>
      obtain ⟨later, silentLater, kept⟩ := keeps text
        { session with events := session.events ++ .read path :: news }
      have grown := Growth.of_text spelled allowed absent had (silent.append silentLater)
      rw [← List.cons_append, ← List.append_assoc, ← kept] at grown
      exact ⟨_, _, grown⟩
  | error fault =>
      have nothing (location : List Char) :
          workspace.textsRead location (.read path :: news) = [] := by
        simp [textsRead_read_cons silent, had, Except.toOption]
      have stays : workspace.Grows mayKeep session
          { session with events := session.events ++ .read path :: news } :=
        ⟨_, _, .of_events session nothing⟩
      -- A fault that is not forgiven ends the question, and leaves the same behind.
      dsimp only [Except.map, forgive]
      cases fault.isUnreadable with
      | true => exact Grows.follows _ _ _ stays (.of_unread (skips _))
      | false => exact stays

theorem leads_compiled {path : Path} (spelled : path.IsSpelled) (allowed : mayKeep path) :
    Action.Leads (workspace.Grows mayKeep) (workspace.compiled path) := by
  refine .inspect fun session => ?_
  dsimp only
  split
  next file present => exact Grows.refl session
  next absent =>
    refine grows_of_reading spelled allowed absent ?reads ?gives ?skips ?keeps
    case reads =>
      exact .recover (Unread.follows_readsOnce path) (.map some (leads_readText path)) fun fault =>
        .bind Unread.follows (Unread.leads_log _ _ _) fun _ _ _ => .pure Unread.refl none
    case gives =>
      exact .recover (.map some (gives_readText path)) fun fault =>
        .andThen (.log _ _ _) (.pure none)
    case skips => exact .pure Unread.refl none
    case keeps =>
      intro text session
      exact ⟨_, .logged (IgnoreFile.ofTextRecords text path.parent path.text), rfl⟩

theorem leads_compiledIn {directory : Path} (spelled : directory.IsSpelled)
    (allowed : mayKeep (directory.join (Path.ofText workspace.ignoreFilename))) :
    Action.Leads (workspace.Grows mayKeep) (workspace.compiledIn directory) := by
  refine .bind Grows.follows (Grows.leads_of_unread (leads_ignoreFileIn directory)) ?_
  intro found? session looked
  cases found? with
  | none => exact .pure Grows.refl none
  | some found =>
      have isThere := Action.Gives.eq_of_outcome looked (gives_ignoreFileOf directory)
      obtain rfl := eq_join_of_childOf (childOf_of_ignoreFileOf isThere)
      exact leads_compiled (spelled.join_ofText _) allowed

theorem leads_filesWithin (root : Path) {directories : List Path}
    (spelled : ∀ directory ∈ directories, directory.IsSpelled)
    (allowed : ∀ directory ∈ directories, workspace.disk.isAncestor root directory = .ok true →
      mayKeep (directory.join (Path.ofText workspace.ignoreFilename))) :
    Action.Leads (workspace.Grows mayKeep) (workspace.filesWithin root directories) := by
  induction directories with
  | nil => exact .pure Grows.refl []
  | cons directory above inductionHypothesis =>
      rw [List.forall_mem_cons] at spelled allowed
      refine .bind Grows.follows (.perform Grows.refl _) fun within session performed => ?_
      cases within with
      | false => exact .pure Grows.refl []
      | true =>
          rw [Action.outcome_perform] at performed
          refine .bind Grows.follows (leads_compiledIn spelled.1 (allowed.1 performed)) ?_
          intro file? _ _
          exact .bind Grows.follows (inductionHypothesis spelled.2 allowed.2) fun others _ _ =>
            .pure Grows.refl _

/-- What a question about a path may keep: the ignore files of the directories that belong to the
root, from the entry upwards. -/
def MayKeep (workspace : Workspace) (asked kept : Path) : Prop :=
  ∃ root isDir, workspace.root? = some root ∧
    forgive Fault.isSystem false (workspace.directoryFlag (root.join asked).normal) = .ok isDir ∧
    ∃ directory ∈ wayUp (root.join asked).normal isDir,
      workspace.disk.isAncestor root directory = .ok true ∧
        kept = directory.join (Path.ofText workspace.ignoreFilename)

theorem leads_filesAbout {root entry : Path} (isDir : Bool) (spelled : entry.IsSpelled)
    (allowed : ∀ directory ∈ wayUp entry isDir,
      workspace.disk.isAncestor root directory = .ok true →
        mayKeep (directory.join (Path.ofText workspace.ignoreFilename))) :
    Action.Leads (workspace.Grows mayKeep) (workspace.filesAbout root entry isDir) := by
  have leads := @leads_filesWithin workspace mayKeep root (wayUp entry isDir) ?_ allowed
  · exact .bind Grows.follows leads fun files _ _ => .pure Grows.refl _
  · exact fun directory onWay =>
      spelled.cons_ancestors directory (mem_cons_ancestors_of_mem_wayUp onWay)

theorem leads_isIgnored (path : Path)
    (spelled : ∀ root, workspace.root? = some root → (root.join path).IsSpelled) :
    Action.Leads (workspace.Grows (workspace.MayKeep path)) (workspace.isIgnored path) := by
  unfold isIgnored
  cases located : workspace.root? with
  | none =>
      exact Grows.leads_of_unread
        (.bind Unread.follows (Unread.leads_log _ _ _) fun _ _ _ => .pure Unread.refl false)
  | some root =>
      have spelledEntry := (spelled root located).normal
      refine .bind Grows.follows (.perform Grows.refl _) fun shown? _ _ => ?_
      rcases shown? with _ | _ | ⟨first, rest⟩
      · exact .pure Grows.refl false
      · exact .pure Grows.refl false
      · refine .bind Grows.follows (Grows.leads_of_unread ?_) fun isDir _ looked => ?_
        · exact .recover Unread.follows (leads_isDir _) fun fault =>
            .bind Unread.follows (Unread.leads_log _ _ _) fun _ _ _ => .pure Unread.refl false
        · have flag := Action.Gives.eq_of_outcome looked
            (.recover (gives_directoryFlag _) fun fault => .andThen (.log _ _ _) (.pure false))
          refine .bind Grows.follows (leads_filesAbout isDir spelledEntry ?_) fun files _ _ => ?_
          · exact fun directory onWay within =>
              ⟨root, isDir, located, flag, directory, onWay, within, rfl⟩
          · refine Grows.leads_of_unread ?_
            refine .bind Unread.follows (leads_judge _ _ _ _ _) fun verdict _ _ => ?_
            exact .bind Unread.follows (Unread.leads_log _ _ _) fun _ _ _ => .pure Unread.refl _

end Workspace

end IgnoreRules
