import Sprig.Options.Load
import Sprig.Proofs.Json.Reading

/-!
# Documents with options

Options are the fields of an object, so a configuration file that is accepted starts with an opening
brace. No two fields of an object that is read have the same key.
-/

namespace Sprig

variable {t : Text} {fields : List (Text × Json)} {v : Json}

namespace Json

/-- An object that is read has no key twice. -/
theorem nodup_of_ofText? (h : ofText? t = some (.object fields)) :
    (fields.map Prod.fst).Nodup := by
  obtain ⟨-, h, -⟩ := ofText?_eq_some_iff.mp h
  cases h with
  | emptyObject => exact List.nodup_nil
  | object => exact nodup_latest _

lemma isBlank_of_mem_isSpace {s : Text} (hs : IsSpace s) : ∀ u ∈ s, u.isBlank := by
  intro u hu
  rcases hs u hu with rfl | rfl | rfl | rfl <;> decide

/-- Before the object there is white space only, and white space is blank. -/
lemma head?_trimStart_of_ofText? (h : ofText? t = some (.object fields)) :
    t.trimStart.head? = some openBrace := by
  obtain ⟨hs, h, -⟩ := ofText?_eq_some_iff.mp h
  rw [Text.trimStart, List.dropWhile_append_of_pos (isBlank_of_mem_isSpace hs)]
  cases h <;> rfl

end Json

namespace Options

lemma exists_fields_of_override {source : Text} {o o' : Options}
    (h : override source v o = .ok o') : ∃ fields, v = .object fields := by
  cases v with
  | object fields => exact ⟨fields, rfl⟩
  | null | bool | number | string | array => cases h

/-- A configuration file that is accepted starts with an opening brace after blanks. -/
lemma head?_trimStart_of_withFile {reason : FileNode → Text} {bytes : List UInt8} {o o' : Options}
    (h : withFile reason (some (.file bytes)) o = .ok o') :
    (Text.trimStart (Utf8.decode bytes)).head? = some Json.openBrace := by
  rw [withFile] at h
  cases hdocument : readDocument? (.file bytes) with
  | none =>
    rw [hdocument] at h
    cases h
  | some v =>
    rw [hdocument] at h
    obtain ⟨fields, rfl⟩ := exists_fields_of_override h
    exact Json.head?_trimStart_of_ofText? hdocument

end Options

end Sprig
