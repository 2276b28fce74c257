import MessageBus.Connector.Send
import MessageBus.Proofs.Bare
import MessageBus.Proofs.Reading
import MessageBus.Proofs.Receiving

/-!
# The self-check of the encoder

The encoder hands out a wire form only after its own decoder read an equal message from it. That decoder
has stricter limits than the one that receivers use, and tells objects of the caller from JSON, so that what
passes the check is read by every receiver, and as the same message (`deserialize_serialized`).
-/

namespace MessageBus

namespace Codec

theorem wireForm_kind {type : ObjectType} {kind : Value} {fields : List (Text × Value)} {wire : Text}
    (h : wireForm type (("kind", kind) :: fields) = .ok wire) :
    ∃ t, wire = .char '\x7b' :: (Json.quote "kind" ++ .char ':' :: t) := by
  rw [wireForm, Json.writeValue] at h
  obtain ⟨parts, hparts, hwire⟩ := bind_eq_ok.mp h
  have hform : Json.formOf type "kind" = .plain := by cases type <;> rfl
  unfold Json.writableDepth Json.writeFields at hparts
  simp only [hform] at hparts
  obtain ⟨first, _, hparts⟩ := bind_eq_ok.mp hparts
  obtain ⟨rest, _, hparts⟩ := bind_eq_ok.mp hparts
  cases hparts
  cases hwire
  cases rest with
  | nil => exact ⟨first ++ [.char '\x7d'], by simp [Json.bracketed, Text.joined]⟩
  | cons second rest =>
    exact ⟨first ++ [.char ','] ++ Text.joined [.char ','] (second :: rest) ++ [.char '\x7d'],
      by simp [Json.bracketed, Text.joined]⟩

/-- A wire form is handed out when the decoder of the self-check reads equal data from it. -/
theorem serialize_eq_ok {m : Message Value} {wire : Text} :
    serialize m = .ok wire ↔ ∃ v data, wireForm m.type m.fields = .ok wire ∧ Json.read .check wire = .ok v ∧
      dataOf v m.type = .ok data ∧ data.same m.toValue.data = true := by
  rw [serialize, serializeFields]
  constructor
  · intro h
    split at h
    · cases h
    · next hwire =>
      split at h
      · cases h
      · next data hread =>
        split at h
        · next hsame =>
          cases h
          unfold describedBy at hread
          split at hread
          · cases hread
          · next v hv => exact ⟨v, data, hwire, hv, hread, hsame⟩
        · cases h
  · rintro ⟨v, data, hwire, hv, hdata, hsame⟩
    have hread : describedBy m.type wire = .ok data := by
      rw [describedBy, hv]
      exact hdata
    rw [hwire]
    simp only [hread]
    exact if_pos hsame

/-- The decoder of the self-check takes a value for a message of the class that was written. -/
theorem reads_of_dataOf {m : Message Value} {v data : Value} (h : dataOf v m.type = .ok data) :
    ∃ entries got, v = .dict entries ∧ Message.Reads .json m.classKind entries got ∧
      got.diagnosis.isSome = m.diagnosis.isSome ∧ data = got.described.toValue := by
  unfold Message.type at h
  unfold Message.classKind
  split at h
  · next hm =>
    obtain ⟨got, hcheck, rfl⟩ := map_eq_ok.mp h
    obtain ⟨entries, d, rfl, hreads, -, hd⟩ := Message.checkStandIn_eq_ok.mp hcheck
    exact ⟨entries, got, rfl, by rwa [if_pos hm], by rw [hd, hm]; rfl, rfl⟩
  · next hm =>
    obtain ⟨got, hcheck, rfl⟩ := map_eq_ok.mp h
    obtain ⟨entries, rfl, hreads, hd⟩ := Message.check_eq_ok.mp hcheck
    exact ⟨entries, got, rfl, by rwa [if_neg hm], by rw [hd, Bool.eq_false_iff.mpr hm]; rfl, rfl⟩

theorem kind_of_serialize {m : Message Value} {e : BusError} (h : serialize m = .error e) :
    e.kind = .serialization := by
  unfold serialize serializeFields at h
  split at h
  · cases h
    rfl
  · split at h
    · cases h
      rfl
    · split at h
      · cases h
      · cases h
        rfl

/-- Every receiver decodes what the decoder of the self-check read from a wire form, and finds the kind in it that
was checked: a wire form starts with a kind. -/
theorem decoded_of_read {type : ObjectType} {kind : Value} {fields : List (Text × Value)} {wire word : Text}
    {entries : List (Value × Value)} {got : Message (Option Destination)}
    (hwire : wireForm type (("kind", kind) :: fields) = .ok wire)
    (hv : Json.read .check wire = .ok (.dict entries)) (hreads : Message.Reads .json word entries got) :
    decodePayload (.text wire) = .ok (.dict entries) ∧ Value.lookup "kind" entries = some (.text word) := by
  obtain ⟨t, rfl⟩ := wireForm_kind hwire
  have hkey : (Value.field? (.dict entries) "kind").isSome := Json.field?_of_read (by decide) hv
  obtain ⟨kind, hkind⟩ := Option.isSome_iff_exists.mp hkey
  have hlookup : Value.lookup "kind" entries = some kind := hkind
  have hmark : (.char '\x7b' :: (Json.quote "kind" ++ .char ':' :: t) : Text).head? ≠
      some (.char (Char.ofNat 0xFEFF)) := by
    simp
  constructor
  · rw [decodePayload, Json.readUnmarked, if_neg hmark, Json.payload_of_check hv]
    rfl
  · obtain ⟨hliteral, _⟩ := Check.literal_eq_ok hreads.kind
    rw [Message.field, hlookup, Option.getD_some] at hliteral
    rw [hlookup, hliteral]

/-- What the decoder of the self-check reads a message from, every receiver reads it from. -/
theorem deserialize_of_read {type : ObjectType} {kind : Value} {fields : List (Text × Value)} {wire : Text}
    {v : Value} {got : Message (Option Destination)} (hwire : wireForm type (("kind", kind) :: fields) = .ok wire)
    (hv : Json.read .check wire = .ok v) (hcheck : Message.check .json v = .ok got) :
    deserialize (.text wire) = .ok got := by
  obtain ⟨entries, rfl, hreads, _⟩ := Message.check_eq_ok.mp hcheck
  obtain ⟨hdecoded, hlookup⟩ := decoded_of_read hwire hv hreads
  have hkind : Value.field? (.dict entries) "kind" = some (.text "message") := hlookup
  rw [deserialize, hdecoded]
  simp only [ofDecoded, hkind, if_true, Message.check_origin hcheck]

theorem deserialize_of_serialize {m : Message Value} (hm : m.diagnosis = none) {wire : Text}
    (h : serialize m = .ok wire) :
    ∃ entries got, Message.Reads .json "message" entries got ∧ got.diagnosis = none ∧
      deserialize (.text wire) = .ok got ∧ got.described.toValue.same m.toValue.data = true := by
  obtain ⟨v, data, hwire, hv, hdata, hsame⟩ := serialize_eq_ok.mp h
  have htype : m.type = .message := by simp [Message.type, hm]
  rw [htype] at hdata
  obtain ⟨got, hcheck, rfl⟩ := map_eq_ok.mp hdata
  obtain ⟨entries, _, hreads, hdiagnosis⟩ := Message.check_eq_ok.mp hcheck
  exact ⟨entries, got, hreads, hdiagnosis, deserialize_of_read hwire hv hcheck, hsame⟩

end Codec

/-- A message that was read becomes an object that is told by what was read. -/
theorem Store.dump_addMessage {origin : Origin} {entries : List (Value × Value)} {m : Message (Option Destination)}
    (h : Message.Reads origin "message" entries m) (hd : m.diagnosis = none) (s : Store) :
    ∃ got, (s.addMessage m).2.object? (s.addMessage m).1 = some (.message got) ∧ got.diagnosis = none ∧
      (s.addMessage m).2.dump got = m.described.toValue := by
  have hsound : m.Sound := h.valid.sound hd
  obtain ⟨x, hobject, htold⟩ := told_addMessage hsound s
  exact ⟨m.mapDestination fun _ => x, hobject, hd, by rw [dump, htold, hsound.data_toValue]⟩

namespace Action

variable {σ : Type}

theorem run_serializeObject {ref : Ref} {m : Message Value} {w : World σ}
    (h : w.store.object? ref = some (.message m)) :
    (serializeObject (.shared ref)).run w = (serialize m).run w := by
  rw [serializeObject, run_bind_of_ok (run_find? _ _)]
  simp only [Store.find?, h]
  rfl

theorem run_serialize (m : Message Value) (w : World σ) :
    (serialize m).run w =
      match Codec.serialize (m.map w.store.expanded) with
      | .ok wire => .ok wire w
      | .error e => .error (.bus e) (w.record (.log .error .codec e.message)) := by
  change (written (Codec.serialize (m.map w.store.expanded))).run w = _
  cases Codec.serialize (m.map w.store.expanded) <;> rfl

theorem run_serialize_eq_ok {m : Message Value} {wire : Text} {w v : World σ} :
    (serialize m).run w = .ok wire v ↔ Codec.serialize (m.map w.store.expanded) = .ok wire ∧ v = w := by
  rw [run_serialize]
  cases Codec.serialize (m.map w.store.expanded) <;> simp [eq_comm]

theorem run_deserialize {payload : Value} {m : Message (Option Destination)} {w : World σ}
    (h : Codec.deserialize payload = .ok m) :
    (deserialize payload).run w =
      .ok (w.store.addMessage m).1 { w.heeded payload with store := (w.store.addMessage m).2 } := by
  rw [deserialize, run_bind_of_ok (run_read _ _), h]
  simp

/-- What the encoder hands out for a message object is read everywhere, and as a message with equal data. -/
theorem deserialize_serialized {ref : Ref} {m : Message Value} {wire : Text} {w w' : World σ}
    (hobject : w.store.object? ref = some (.message m)) (hm : m.diagnosis = none)
    (h : (serializeObject (.shared ref)).run w = .ok wire w') (v : World σ) :
    ∃ ref' v' got, (deserialize (.text wire)).run v = .ok ref' v' ∧
      v'.store.object? ref' = some (.message got) ∧ got.diagnosis = none ∧
      (v'.store.dump got).same (w.store.dump m) = true := by
  rw [run_serializeObject hobject] at h
  obtain ⟨hwire, _⟩ := run_serialize_eq_ok.mp h
  have hnone : (m.map w.store.expanded).diagnosis = none := by simp [Message.map, hm]
  obtain ⟨entries, read, hreads, hdiagnosis, hread, hsame⟩ := Codec.deserialize_of_serialize hnone hwire
  obtain ⟨got, hgot, hclass, hdump⟩ := Store.dump_addMessage hreads hdiagnosis v.store
  exact ⟨_, _, got, run_deserialize hread, hgot, hclass, by rw [hdump]; exact hsame⟩

def overwritten : Message Value :=
  { kind := .text "message", body := .list [.int 1, .text "a"], properties := .dict [], messageId := .null,
    timestamp := .bool true, disableMessageId := .bool false, disableTimestamp := .bool false,
    correlationId := .null, messageType := .null, destination := .null, diagnosis := none }

def holdingOnly (o : Object) : World Unit :=
  { started := 0, elapsed := 0, timers := [], running := true, service := (), store := ⟨[o]⟩, serial := 0,
    patience := 0, trace := [] }

/-- The boolean is written as a number, and read back as an equal one. -/
theorem overwritten_read_back :
    ∃ wire, (serializeObject (.shared 0)).run (holdingOnly (.message overwritten)) =
        .ok wire (holdingOnly (.message overwritten)) ∧
      ∃ ref' v' got, (deserialize (.text wire)).run (holdingOnly (.message overwritten)) = .ok ref' v' ∧
        v'.store.object? ref' = some (.message got) ∧ got.diagnosis = none ∧
        (v'.store.dump got).same ((holdingOnly (.message overwritten)).store.dump overwritten) = true := by
  have hwritten : (Codec.serialize (overwritten.map
      (holdingOnly (.message overwritten)).store.expanded)).toOption.isSome = true := by
    decide +kernel
  cases hwire : Codec.serialize (overwritten.map (holdingOnly (.message overwritten)).store.expanded) with
  | error e =>
    rw [hwire] at hwritten
    cases hwritten
  | ok wire =>
    have hrun : (serializeObject (.shared 0)).run (holdingOnly (.message overwritten)) =
        .ok wire (holdingOnly (.message overwritten)) := by
      rw [run_serializeObject rfl]
      exact run_serialize_eq_ok.mpr ⟨hwire, rfl⟩
    exact ⟨wire, hrun, deserialize_serialized rfl rfl hrun _⟩

end Action

end MessageBus
