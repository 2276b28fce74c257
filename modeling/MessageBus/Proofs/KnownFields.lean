import MessageBus.Proofs.AcceptedTexts
import MessageBus.Proofs.CodecErrors

/-!
# Known fields

Of an object that is read as a message nothing counts but the last value under each name of a field. Whatever stands
in its text beside these, blanks, entries under other keys, entries that a later one replaces, and the order of all
of them, makes no difference to the message or to the error (`deserialize_congr`).

The objects are all that is decoded as a dictionary (`decodes_object_iff`). The fields are looked up one by one, so
two dictionaries that agree on them describe the same message or have the same faults (`Message.check_congr`).
-/

namespace MessageBus

namespace Message

def fieldNames : List Text :=
  ["kind", "body", "properties", "message_id", "timestamp", "disable_message_id", "disable_timestamp",
    "correlation_id", "message_type", "destination"]

/-- Only the fields of a message are looked at in a dictionary. -/
theorem check_congr {origin : Origin} {entries entries' : List (Value × Value)}
    (h : ∀ name ∈ fieldNames, Value.lookup name entries = Value.lookup name entries') :
    check origin (.dict entries) = check origin (.dict entries') := by
  have hfield (name : Text) (hname : name ∈ fieldNames) : field entries name = field entries' name := by
    funext fallback
    rw [field, field, h name hname]
  have hfields : fieldsOf origin "message" entries = fieldsOf origin "message" entries' := by
    simp only [fieldNames, List.forall_mem_cons, List.not_mem_nil, false_implies, implies_true, and_true] at hfield
    obtain ⟨hkind, hbody, hproperties, hid, htimestamp, hnoId, hnoTimestamp, hcorrelation, htype, hdestination⟩ :=
      hfield
    simp only [fieldsOf, hkind, hbody, hproperties, hid, htimestamp, hnoId, hnoTimestamp, hcorrelation, htype,
      hdestination]
  rw [check, check, hfields]

end Message

namespace Codec

theorem ofDecoded_congr {entries entries' : List (Value × Value)}
    (h : ∀ name ∈ Message.fieldNames, Value.lookup name entries = Value.lookup name entries') :
    ofDecoded (.dict entries) = ofDecoded (.dict entries') := by
  have hkind := h "kind" (by simp [Message.fieldNames])
  simp only [ofDecoded, Value.field?, hkind, Message.check_congr h]
  rfl

/-- The payload holds the text of an object with these entries. The object is the outermost of the levels that the
decoder of payloads allows. -/
def HoldsObject (payload : Value) (es : List (Text × Value)) : Prop :=
  ∃ t, HasText payload t ∧ Json.ObjectText (Json.readValue .payload 989) es t

/-- A payload is decoded as a dictionary if and only if it holds an object. -/
theorem decodes_object_iff {payload v : Value} :
    (Decodes payload v ∧ ∃ fields, v = .dict fields) ↔ ∃ es, HoldsObject payload es ∧ v = Value.ofEntries es := by
  have hdepth : Json.Limits.payload.depth = 989 + 1 := rfl
  constructor
  · rintro ⟨⟨t, htext, hread⟩, hdict⟩
    obtain ⟨es, hes, hv⟩ := (Json.read_object_iff hdepth).mp ⟨hread, hdict⟩
    exact ⟨es, ⟨t, htext, hes⟩, hv⟩
  · rintro ⟨es, ⟨t, htext, hes⟩, hv⟩
    obtain ⟨hread, hdict⟩ := (Json.read_object_iff hdepth).mpr ⟨es, hes, hv⟩
    exact ⟨⟨t, htext, hread⟩, hdict⟩

/-- The value of the last entry under a name. -/
def last (name : Text) (es : List (Text × Value)) : Option Value := es.reverse.lookup name

/-- The last entries under the name of each field of a message have the same value, or there are none in either
list. -/
def Agree (es es' : List (Text × Value)) : Prop := ∀ name ∈ Message.fieldNames, last name es = last name es'

theorem field?_ofEntries (name : Text) (es : List (Text × Value)) : (Value.ofEntries es).field? name = last name es :=
  Value.lookup_ofEntries name es

theorem HoldsObject.decodes {payload : Value} {es : List (Text × Value)} (h : HoldsObject payload es) :
    Decodes payload (Value.ofEntries es) := (decodes_object_iff.mpr ⟨es, h, rfl⟩).1

theorem HoldsObject.decodePayload {payload : Value} {es : List (Text × Value)} (h : HoldsObject payload es) :
    decodePayload payload = .ok (Value.ofEntries es) := decodePayload_eq_ok.mpr h.decodes

theorem HoldsObject.eq_of_decodes {payload v : Value} {es : List (Text × Value)} (h : HoldsObject payload es)
    (hv : Decodes payload v) : v = Value.ofEntries es :=
  Except.ok.inj ((decodePayload_eq_ok.mpr hv).symm.trans h.decodePayload)

theorem saysMessage_iff {es : List (Text × Value)} :
    SaysMessage (Value.ofEntries es) ↔ last "kind" es = some (.text "message") := by
  rw [← field?_ofEntries]
  constructor
  · rintro ⟨entries, hentries, hkind⟩
    rwa [hentries]
  · exact fun hkind => ⟨_, rfl, hkind⟩

theorem Agree.ofDecoded {es es' : List (Text × Value)} (h : Agree es es') :
    ofDecoded (Value.ofEntries es) = ofDecoded (Value.ofEntries es') := by
  refine ofDecoded_congr fun name hname => ?_
  have hlast := h name hname
  rwa [← field?_ofEntries, ← field?_ofEntries] at hlast

end Codec

namespace Action

open Codec

variable {σ : Type}

/-- How the reading of an object ends: with the message that its last entries describe, or with the error of an object
that is not told to be a message, or is none. -/
inductive ObjectEnds (es : List (Text × Value)) (w : World σ) : EStateM.Result Fault (World σ) Ref → Prop where
  | message {m : Message (Option Destination)} {ref : Ref} {store : Store}
      (hkind : last "kind" es = some (.text "message"))
      (hcheck : Message.check .caller (Value.ofEntries es) = .ok m) (hstore : (ref, store) = w.store.addMessage m) :
      ObjectEnds es w (.ok ref { w with store := store })
  | invalid {issues : List Issue} (hkind : last "kind" es = some (.text "message"))
      (hcheck : Message.check .caller (Value.ofEntries es) = .error issues) :
      ObjectEnds es w (.error
        (.bus ⟨.serialization, "Expected object of type MessageDTO, got an invalid message", .invalid issues⟩) w)
  | foreign (hkind : last "kind" es ≠ some (.text "message")) :
      ObjectEnds es w (.error
        (.bus ⟨.serialization, "Expected object of type MessageDTO, got: " ++ (Value.ofEntries es).typeName, .none⟩) w)

theorem objectEnds {payload : Value} {es : List (Text × Value)} (h : HoldsObject payload es) (w : World σ) :
    ObjectEnds es w ((deserialize payload).run w) := by
  have hends := deserialize_ends payload w
  generalize (deserialize payload).run w = r at hends ⊢
  cases hends with
  | undecoded hnone => exact absurd h.decodes (hnone _)
  | null hnull => cases h.eq_of_decodes hnull
  | foreign hv _ hmessage =>
    obtain rfl := h.eq_of_decodes hv
    exact .foreign (mt saysMessage_iff.mpr hmessage)
  | invalid hv hmessage hcheck =>
    obtain rfl := h.eq_of_decodes hv
    exact .invalid (saysMessage_iff.mp hmessage) hcheck
  | message hv hmessage hcheck hstore _ _ _ =>
    obtain rfl := h.eq_of_decodes hv
    exact .message (saysMessage_iff.mp hmessage) hcheck hstore

/-- Two payloads that agree on the fields of a message are both read as the message that these fields describe, or both
refused with the same error, whatever else their objects hold. -/
theorem deserialize_congr {payload payload' : Value} {es es' : List (Text × Value)} (h : HoldsObject payload es)
    (h' : HoldsObject payload' es') (hagree : Agree es es') (w : World σ) :
    ObjectEnds es w ((deserialize payload).run w) ∧ (deserialize payload').run w = (deserialize payload).run w := by
  refine ⟨objectEnds h w, ?_⟩
  have hsame : Codec.deserialize payload' = Codec.deserialize payload := by
    rw [Codec.deserialize, Codec.deserialize, h.decodePayload, h'.decodePayload]
    exact hagree.ofDecoded.symm
  have hheeded : w.heeded payload' = w.heeded payload := by
    rw [World.heeded, World.heeded, h.decodePayload, h'.decodePayload]
  rw [deserialize, deserialize, run_bind_of_ok (run_read _ _), run_bind_of_ok (run_read _ _), hsame, hheeded]

/-- The payload of a sender that knows the fields of a message and nothing else. -/
def older : Text := "\x7b\"kind\":\"message\",\"body\":\"a\"\x7d"

def olderEntries : List (Text × Value) := [("kind", .text "message"), ("body", .text "a")]

/-- The same message of a sender that tells its version and wrote the body twice, among blanks. -/
def newer : Text := " \x7b\"body\":null,\"version\" :null,\n\"body\": \"a\",\"kind\":\"message\"\x7d\n"

def newerEntries : List (Text × Value) :=
  [("body", .null), ("version", .null), ("body", .text "a"), ("kind", .text "message")]

theorem older_text (levels : Nat) : Json.ObjectText (Json.readValue .payload levels) olderEntries older := by
  have hkind := @Json.readAs_plain "message" (by decide) .payload levels
  have hbody := @Json.readAs_plain "a" (by decide) .payload levels
  have hentries : List.Forall₂ (Json.Entry (Json.readValue .payload levels)) olderEntries
      ["\"kind\":\"message\"", "\"body\":\"a\""] := by
    refine .cons ?_ (.cons ?_ .nil)
    · exact ⟨[], _, [], _, rfl, by decide, Json.spellsKey_plain (by decide), by decide, .of_readAs hkind⟩
    · exact ⟨[], _, [], _, rfl, by decide, Json.spellsKey_plain (by decide), by decide, .of_readAs hbody⟩
  exact ⟨[], older, [], rfl, by decide, by decide, .parts (List.cons_ne_nil _ _) hentries⟩

theorem newer_text (levels : Nat) : Json.ObjectText (Json.readValue .payload levels) newerEntries newer := by
  have hkind := @Json.readAs_plain "message" (by decide) .payload levels
  have hbody := @Json.readAs_plain "a" (by decide) .payload levels
  have hnull : Json.ReadAs (Json.readValue .payload levels) "null" .null :=
    Json.readAs_word List.mem_cons_self .payload levels
  have hentries : List.Forall₂ (Json.Entry (Json.readValue .payload levels)) newerEntries
      ["\"body\":null", "\"version\" :null", "\n\"body\": \"a\"", "\"kind\":\"message\""] := by
    refine .cons ?_ (.cons ?_ (.cons ?_ (.cons ?_ .nil)))
    · exact ⟨[], _, [], _, rfl, by decide, Json.spellsKey_plain (by decide), by decide, .of_readAs hnull⟩
    · exact ⟨[], _, " ", _, rfl, by decide, Json.spellsKey_plain (by decide), by decide, .of_readAs hnull⟩
    · exact ⟨"\n", _, [], _, rfl, by decide, Json.spellsKey_plain (by decide), by decide,
        " ", _, [], rfl, by decide, by decide, hbody⟩
    · exact ⟨[], _, [], _, rfl, by decide, Json.spellsKey_plain (by decide), by decide, .of_readAs hkind⟩
  exact ⟨" ", _, "\n", rfl, by decide, by decide, .parts (List.cons_ne_nil _ _) hentries⟩

theorem agree_newer : Agree olderEntries newerEntries := by
  have hbeq (a b : String) : (Text.ofString a == Text.ofString b) = (a == b) := by
    rw [Bool.eq_iff_iff]
    simp [Text.ofString_inj]
  simp [Agree, last, Message.fieldNames, olderEntries, newerEntries, List.lookup_cons, hbeq]

/-- The newer payload is read as the older one is. -/
theorem newer_read_as_older :
    HoldsObject (.text older) olderEntries ∧ HoldsObject (.text newer) newerEntries ∧
      Agree olderEntries newerEntries ∧
      ∃ ref w, (deserialize (.text older)).run (holdingOnly (.message overwritten)) = .ok ref w ∧
        (deserialize (.text newer)).run (holdingOnly (.message overwritten)) = .ok ref w := by
  have holder : HoldsObject (.text older) olderEntries := ⟨older, .text (by decide), older_text 989⟩
  have hnewer : HoldsObject (.text newer) newerEntries := ⟨newer, .text (by decide), newer_text 989⟩
  have hmessage : ∃ m, Codec.deserialize (.text older) = .ok m := by
    rw [Codec.deserialize, holder.decodePayload]
    exact ⟨_, rfl⟩
  obtain ⟨m, hm⟩ := hmessage
  exact ⟨holder, hnewer, agree_newer, _, _, run_deserialize hm,
    (deserialize_congr holder hnewer agree_newer _).2.trans (run_deserialize hm)⟩

end Action

end MessageBus
