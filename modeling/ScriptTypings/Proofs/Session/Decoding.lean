import ScriptTypings.Proofs.Json.Document
import ScriptTypings.Session.Failure

/-!
# Decoding the text of a file

What is decoded of a text has been read in it.
-/

namespace ScriptTypings

variable {ε α : Type} {malformed : InputError} {decode : Json → Except ε α}
  {refused : ε → Failure} {text : String} {a : α}

theorem decodeText_eq_ok_iff : decodeText malformed decode refused text = .ok a ↔
    ∃ document, Json.read text = .ok document ∧ decode document.value = .ok a := by
  rw [decodeText]
  cases Json.read text with
  | error e => exact iff_of_false nofun fun ⟨_, hread, _⟩ => nomatch hread
  | ok document =>
    dsimp only
    constructor
    · intro h
      split at h
      · cases h
      · rename_i found hfound
        exact ⟨document, rfl, hfound.trans (congrArg _ (Except.ok.inj h))⟩
    · rintro ⟨_, hread, hdecode⟩
      obtain rfl := Except.ok.inj hread
      rw [hdecode]

/-- A value that stands in a text is decoded. -/
theorem decodeText_of_read {value : Json} (hread : Json.read text = .ok value.document)
    (hvalue : value.isReadable = true) (hdecode : decode value = .ok a) :
    decodeText malformed decode refused text = .ok a :=
  decodeText_eq_ok_iff.mpr ⟨value.document, hread, by rwa [Json.value_document hvalue]⟩

end ScriptTypings
