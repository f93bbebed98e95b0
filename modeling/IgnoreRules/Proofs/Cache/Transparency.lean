import IgnoreRules.Proofs.Cache.Calls
import IgnoreRules.Proofs.Cache.Heard

/-!
The cache is not seen in the answers.  A question ends as it would with a new cache, in the same
answer or the same fault, whatever was asked, dropped or cleared before it.
-/

namespace IgnoreRules

namespace Workspace

variable {workspace : Workspace} {session : Session}

theorem agrees_afterCalls (rooted : workspace.IsRooted) (calls : List CacheCall)
    (agrees : workspace.Agrees session.kept) :
    workspace.Agrees (workspace.afterCalls calls session).kept := by
  induction calls generalizing session with
  | nil => exact agrees
  | cons call calls inductionHypothesis =>
      exact inductionHypothesis (agrees_after rooted call agrees)

/-- After any history a question ends as with a new cache, and the questions of a history end one by
one as each would alone. -/
theorem answers_independent_of_history (rooted : workspace.IsRooted) :
    (∀ (history : List CacheCall) (text : List Char),
      workspace.answer (workspace.afterCalls history Session.fresh) text =
        workspace.answer Session.fresh text) ∧
    (∀ history : List CacheCall,
      workspace.answers history Session.fresh =
        (history.filterMap CacheCall.question?).map (workspace.answer Session.fresh)) :=
  ⟨fun history text => answer_of_agrees rooted (agrees_afterCalls rooted history agrees_fresh) text,
    fun history => answers_of_agrees rooted history agrees_fresh⟩

theorem isReal_ofEntries (ignoreFilename : String) (entries : List (String × Entry)) :
    (ofEntries ignoreFilename entries).disk.IsReal ⟨.root, ["r".toList]⟩ := by
  refine ⟨rfl, by decide, by decide, fun front inFront => ?_⟩
  have cases : front = [] ∨ front = ["r".toList] := by
    simpa using (List.mem_inits front ["r".toList]).mpr inFront
  rcases cases with rfl | rfl
  · simp [Tree.link?]
  · rfl

theorem isRooted_ofEntries (ignoreFilename : String) (entries : List (String × Entry)) :
    (ofEntries ignoreFilename entries).IsRooted := by
  refine isRooted_of_isReal (isReal_ofEntries _ _) fun root located => ?_
  rw [← Option.some.inj located]
  exact isReal_ofEntries _ _

/-- An ignore file in the root, and a link that leads to itself. -/
def circled : Workspace :=
  ofEntries ".gitignore" [(".gitignore", .file "x\n".toUTF8), ("o", .link "o".toList)]

/-- A history in which the ignore file is dropped and a question ends in a fault. -/
theorem circled_answers :
    ∃ fault,
      circled.answers [.ask "x".toList, .invalidate "/r/.gitignore".toList, .ask "o/x".toList,
          .ask "a/../x".toList, .clear, .ask "y".toList] Session.fresh =
        [.ok true, .error fault, .ok true, .ok false] := by
  have rooted : circled.IsRooted := isRooted_ofEntries _ _
  refine ⟨.linkLoop ⟨.root, ["r".toList, "o".toList]⟩, ?_⟩
  rw [(answers_independent_of_history rooted).2]
  decide +kernel

end Workspace

end IgnoreRules
