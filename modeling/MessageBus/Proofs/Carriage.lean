import MessageBus.Proofs.Equality
import MessageBus.Proofs.SelfCheck

/-!
# What a wire form carries

A message that was written is read as one whose fields equal those of the written one, field by field
(`carried`). Texts, `null`, booleans and integers arrive as they are.
-/

namespace MessageBus

open Value

/-- Field by field what is read equals what was written in a store. -/
structure Carries (s : Store) (m : Message Value) (got : Message (Option Destination)) : Prop where
  diagnosis : got.diagnosis = none
  reads : ∃ entries, Message.Reads .json "message" entries got
  body : same got.body (s.told m.body) = true
  properties : same got.properties (s.told m.properties) = true
  keyed : ∃ entries, got.properties = .dict entries ∧ Keyed entries
  messageId : got.messageId = m.messageId
  timestamp : same got.timestamp (s.told m.timestamp) = true
  disableMessageId : same got.disableMessageId (s.told m.disableMessageId) = true
  disableTimestamp : same got.disableTimestamp (s.told m.disableTimestamp) = true
  correlationId : got.correlationId = m.correlationId
  messageType : got.messageType = m.messageType

theorem eq_of_optionalText {s : Store} {v x read : Value} (hread : Check.optionalText v = .ok read)
    (h : same read (s.told x) = true) : read = x := by
  obtain rfl | ⟨t, rfl⟩ := Check.optionalText_eq_ok hread
  · exact (Store.eq_of_told (eq_null_of_same h) (.inl rfl)).symm
  · exact (Store.eq_of_told (eq_text_of_same h) (.inr ⟨t, rfl⟩)).symm

/-- In equal dictionaries of fields equal values stand under each name. -/
theorem field_of_same {xs ys : List (Text × Value)} (hxs : (xs.map (·.1)).Nodup)
    (h : same (ofFields xs) (ofFields ys) = true) (name : Text) {v u : Value}
    (hv : (ofFields xs).field? name = some v) (hu : (ofFields ys).field? name = some u) : same v u = true := by
  have hlookup := lookup_of_same (keyed_fields hxs) h name
  rw [ofFields, field?] at hv hu
  rw [hv, hu] at hlookup
  exact hlookup

namespace Codec

theorem carried {s : Store} {m : Message Value} {wire : Text} (hm : m.diagnosis = none)
    (h : serialize (m.map s.expanded) = .ok wire) :
    ∃ got, deserialize (.text wire) = .ok got ∧ Carries s m got := by
  have hnone : (m.map s.expanded).diagnosis = none := by simp [Message.map, hm]
  obtain ⟨entries, got, hreads, hdiagnosis, hread, hsame⟩ := deserialize_of_serialize hnone h
  have hdump : (m.map s.expanded).toValue.data = s.dump m := rfl
  rw [hdump, Store.dump_eq hm, Message.toValue] at hsame
  have hfield := field_of_same (Message.nodup_names _) hsame
  obtain ⟨_, read, _, hproperties, hentries⟩ := Check.properties_eq_ok hreads.properties
  refine ⟨got, hread, hdiagnosis, ⟨entries, hreads⟩, hfield "body" rfl rfl, hfield "properties" rfl rfl,
    ?_, ?_, ?_, ?_, ?_, ?_, ?_⟩
  · obtain ⟨stored, hstored, hkeyed⟩ := keyed_ofEntries read
    exact ⟨stored, hentries.trans hstored, hkeyed⟩
  · exact eq_of_optionalText hreads.messageId (hfield "message_id" rfl rfl)
  · exact hfield "timestamp" rfl rfl
  · exact hfield "disable_message_id" rfl rfl
  · exact hfield "disable_timestamp" rfl rfl
  · exact eq_of_optionalText hreads.correlationId (hfield "correlation_id" rfl rfl)
  · exact eq_of_optionalText hreads.messageType (hfield "message_type" rfl rfl)

end Codec

end MessageBus
