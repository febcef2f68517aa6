import EventRelay.Proofs.Event.Presentation

/-!
An envelope that was written is read back as it was, but for what an event may not lack: without an
identifier or a type it is refused, and no metadata at all comes back as an empty object.
-/

namespace EventRelay

namespace Envelope

theorem decode_encode_reread (e : Envelope) :
    decode e.encode =
      if Text.allBlank e.eventId then .error (.missingField Field.eventId.name)
      else if Text.allBlank e.eventType then .error (.missingField Field.eventType.name)
      else .ok e.reread := by
  rw [encode_eq_objectText]
  exact (e.presents_map_entry (.refl _)).decode _ _ _

end Envelope

theorem Text.trim_eq_empty_iff (s : String) : Text.trim s = "" ↔ Text.allBlank s = true := by
  rw [Text.trim, String.ofList_eq_empty_iff, Text.trimChars_eq_nil_iff, Text.allBlank, List.all_eq_true]

namespace Envelope

/-- Reading what was written. An identifier or a type that is blank is missed, in this order; every
other envelope comes back with all of its texts, whatever their characters, and with its key. Only
blank metadata does not: an empty object stands for it. -/
theorem decode_encode (e : Envelope) :
    decode e.encode =
        (if Text.trim e.eventId = "" then .error (.missingField "event_id")
        else if Text.trim e.eventType = "" then .error (.missingField "event_type")
        else .ok { e with metadata := if Text.trim e.metadata = "" then "\x7b\x7d" else e.metadata }) ∧
      ∀ e', decode e.encode = .ok e' → e'.partitionKey = e.partitionKey := by
  have read := e.decode_encode_reread
  simp only [Text.trim_eq_empty_iff]
  refine ⟨read, fun e' decoded => ?_⟩
  rw [read] at decoded
  split at decoded
  · cases decoded
  split at decoded
  · cases decoded
  · cases decoded
    rfl

end Envelope

end EventRelay
