import IgnoreRules.Proofs.Json.RoundTrip
import IgnoreRules.Proofs.Text.Encoded
import IgnoreRules.Settings

/-!
Settings that are saved and loaded.  Each field is written whatever kind of value it holds, and
reading it back replaces the default.
-/

namespace IgnoreRules

namespace Settings

structure IsExact (settings : Settings) : Prop where
  ignoreFilename : settings.ignoreFilename.IsExact
  respectGitignore : settings.respectGitignore.IsExact
  ignoredNames : ∀ name ∈ settings.ignoredNames, name.IsExact
  logLevel : settings.logLevel.IsExact

variable {settings : Settings}

theorem IsExact.toJson (exact : settings.IsExact) : settings.toJson.IsExact := by
  have distinct : fieldNames.Nodup := by decide
  refine .object distinct ?_
  simpa using ⟨exact.ignoreFilename, exact.respectGitignore, .array exact.ignoredNames,
    exact.logLevel⟩

theorem ofJson_toJson (settings : Settings) : ofJson settings.toJson = .ok settings :=
  rfl

/-- Settings can be saved unless a directory is in the way or a whole number is too long, and what
was saved loads as the same settings, with nothing to warn about, where there is room for what they
hold. -/
theorem load_of_save (exact : settings.IsExact) {room : Nat} (fits : settings.toJson.depth ≤ room)
    (place : Path) (before : Stored) :
    ((∃ saved, settings.save before = .ok saved) ↔
      before ≠ .directory ∧ settings.toJson.isWritable = true) ∧
    ∀ saved, settings.save before = .ok saved → load place room saved = .ok (settings, []) := by
  have saves : (∃ saved, settings.save before = .ok saved) ↔
      before ≠ .directory ∧ settings.toJson.isWritable = true := by
    unfold save
    cases settings.toJson.isWritable <;> cases before <;> simp
  refine ⟨saves, fun saved isSaved => ?_⟩
  obtain ⟨-, writable⟩ := saves.mp ⟨saved, isSaved⟩
  have written : saved = .file settings.toText.toUTF8 := by
    unfold save at isSaved
    rw [if_pos writable] at isSaved
    cases before with
    | directory => contradiction
    | missing => exact (Except.ok.inj isSaved).symm
    | file content => exact (Except.ok.inj isSaved).symm
  have read : Json.read room settings.toText.toList = .ok settings.toJson := by
    rw [toText, Json.toText, String.toList_ofList]
    exact Json.read_write exact.toJson writable fits
  have stored : ofStored room saved = .ok settings := by
    rw [written, ofStored, fromUTF8?_toUTF8]
    dsimp only
    rw [read]
    exact ofJson_toJson settings
  rw [load, stored]

/-- Settings that hold other kinds of values than they should, and a text with every kind of
escape. -/
def unusual : Settings where
  ignoreFilename := .string "\"\\/\n\r\t\x08\x0c\x01\x1f\x7fé\u2028😀"
  respectGitignore := .object [("", .null), ("a", .array [.integer (-120), .array [], .object []])]
  ignoredNames := [.boolean false, .integer 0, .string ""]
  logLevel := .null

theorem unusual_isExact : unusual.IsExact where
  ignoreFilename := .string _
  respectGitignore := by
    have elements : Json.IsExact (.array [.integer (-120), .array [], .object []]) := by
      refine .array ?_
      simpa using ⟨.integer (-120), .array (by simp), .object List.nodup_nil (by simp)⟩
    refine .object (by decide) ?_
    simpa using ⟨.null, elements⟩
  ignoredNames := by simpa [unusual] using ⟨.boolean false, .integer 0, .string ""⟩
  logLevel := .null

/-- The unusual settings replace what was saved before them, and nothing is changed on the way. -/
theorem unusual_kept :
    ∃ saved, unusual.save (.file .empty) = .ok saved ∧
      load (Path.ofText "/home/.source_export.json".toList) 4 saved = .ok (unusual, []) := by
  have fits : unusual.toJson.depth ≤ 4 := by decide
  obtain ⟨saves, kept⟩ := load_of_save unusual_isExact fits _ (.file .empty)
  obtain ⟨saved, isSaved⟩ := saves.mpr ⟨by simp, by decide⟩
  exact ⟨saved, isSaved, kept saved isSaved⟩

end Settings

end IgnoreRules
