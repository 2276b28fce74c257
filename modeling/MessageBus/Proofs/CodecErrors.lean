import MessageBus.Proofs.Refusals
import MessageBus.Proofs.SelfCheck

/-!
# How the codec fails

A payload is read, and a message object is written, or the action ends in a serialization error; no other fault comes
out of the codec, whatever the payload is and whatever the fields of the object hold.

A payload is looked at in stages, and the first one that it fails is told by the context of the error: it is no JSON
(`Undecoded`), it is `null`, it does not say that it is a message, or it is no valid message (`ReadingEnds`). Only the
first leaves a log line. An object fails to be written in one of three ways, which the detail tells apart, and always
with a log line (`WritingEnds`).
-/

namespace MessageBus

def CodePoint.mark : CodePoint := .char (Char.ofNat 0xFEFF)

namespace Json

variable {limits : Limits} {t : Text}

theorem readUnmarked_mark : readUnmarked limits (.mark :: t) = .error (.malformed .byteOrderMark 1 1 0) := if_pos rfl

theorem readUnmarked_eq (h : t.head? ≠ some .mark) : readUnmarked limits t = read limits t := if_neg h

end Json

namespace Codec

/-! ## Payloads -/

/-- The text in a payload. A mark before it has to be one of octets. -/
inductive HasText : Value → Text → Prop where
  | text {t : Text} (h : t.head? ≠ some .mark) : HasText (.text t) t
  | octets {octets : List UInt8} {t : Text} (h : Text.ofOctets octets = .ok t) : HasText (.bytes octets) t

/-- A payload spells a value in JSON. -/
def Decodes (payload v : Value) : Prop := ∃ t, HasText payload t ∧ Json.read .payload t = .ok v

/-- Why a payload spells no value, and the detail that tells it. -/
inductive Undecoded (payload : Value) : Detail → Prop where
  | foreign (htext : ∀ t, payload ≠ .text t) (hoctets : ∀ octets, payload ≠ .bytes octets) :
      Undecoded payload (.plain (.text ("the JSON object must be str, bytes or bytearray, not " ++ payload.typeName)))
  | garbled {octets : List UInt8} {u : Undecodable} (hpayload : payload = .bytes octets)
      (h : Text.ofOctets octets = .error u) : Undecoded payload (.plain (.text u.message))
  | marked {t : Text} (hpayload : payload = .text (.mark :: t)) :
      Undecoded payload (.plain (.text (Json.ReadError.malformed .byteOrderMark 1 1 0).message))
  | refused {t : Text} {e : Json.ReadError} {detail : Detail} (htext : HasText payload t)
      (h : Json.Refusal .payload t e) (hdetail : decoded (.error e) = .error detail) : Undecoded payload detail

theorem HasText.unique {payload : Value} {t u : Text} (ht : HasText payload t) (hu : HasText payload u) : t = u := by
  cases ht with
  | text _ =>
    cases hu
    rfl
  | octets ht =>
    cases hu with
    | octets hu => exact Except.ok.inj (ht.symm.trans hu)

theorem decoded_eq_ok {x : Except Json.ReadError Value} {v : Value} : decoded x = .ok v ↔ x = .ok v := by
  cases x with
  | ok u => simp [decoded]
  | error e => cases e <;> simp [decoded]

theorem decodePayload_of_hasText {payload : Value} {t : Text} (h : HasText payload t) :
    decodePayload payload = decoded (Json.read .payload t) := by
  cases h with
  | text h => rw [decodePayload, Json.readUnmarked_eq h]
  | octets h =>
    rw [decodePayload]
    simp only [h]

theorem decodePayload_eq_ok {payload v : Value} : decodePayload payload = .ok v ↔ Decodes payload v := by
  constructor
  · intro h
    cases payload with
    | text t =>
      by_cases hmark : t.head? = some .mark
      · obtain ⟨u, rfl⟩ := List.head?_eq_some_iff.mp hmark
        rw [decodePayload, Json.readUnmarked_mark] at h
        cases h
      · have htext : HasText (.text t) t := .text hmark
        rw [decodePayload_of_hasText htext] at h
        exact ⟨t, htext, decoded_eq_ok.mp h⟩
    | bytes octets =>
      cases hoctets : Text.ofOctets octets with
      | ok t =>
        have htext : HasText (.bytes octets) t := .octets hoctets
        rw [decodePayload_of_hasText htext] at h
        exact ⟨t, htext, decoded_eq_ok.mp h⟩
      | error u => simp [decodePayload, hoctets] at h
    | _ => simp [decodePayload] at h
  · rintro ⟨t, htext, hread⟩
    rw [decodePayload_of_hasText htext, decoded_eq_ok]
    exact hread

theorem undecoded_of_error {payload : Value} {detail : Detail} (h : decodePayload payload = .error detail) :
    Undecoded payload detail := by
  have hrefused {t : Text} (htext : HasText payload t) : Undecoded payload detail := by
    rw [decodePayload_of_hasText htext] at h
    cases hread : Json.read .payload t with
    | ok v =>
      rw [hread] at h
      cases h
    | error e => exact .refused htext (Json.refusal_of_read hread) (hread ▸ h)
  cases payload with
  | text t =>
    by_cases hmark : t.head? = some .mark
    · obtain ⟨u, rfl⟩ := List.head?_eq_some_iff.mp hmark
      rw [decodePayload, Json.readUnmarked_mark] at h
      cases h
      exact .marked rfl
    · exact hrefused (.text hmark)
  | bytes octets =>
    cases hoctets : Text.ofOctets octets with
    | ok t => exact hrefused (.octets hoctets)
    | error u =>
      simp only [decodePayload, hoctets] at h
      cases h
      exact .garbled rfl hoctets
  | _ =>
    cases h
    exact .foreign (fun _ htext => (by cases htext)) (fun _ hoctets => (by cases hoctets))

/-- A payload whose value nests too deep, or has too long an integer, is not decoded: to read it takes other limits
than those of payloads. -/
theorem not_decodes_of_beyond {payload v : Value} {t : Text} {limits : Json.Limits} (htext : HasText payload t)
    (hread : Json.read limits t = .ok v) (hbeyond : 990 < v.depth ∨ ¬v.IntsWithin 4300) (u : Value) :
    ¬Decodes payload u := by
  rintro ⟨t', htext', hu⟩
  obtain rfl := htext.unique htext'
  let both : Json.Limits := ⟨max limits.depth 990, max limits.digits 4300⟩
  have hboth : Json.read both t = .ok v := Json.read_of_limits (Nat.le_max_left ..) (Nat.le_max_left ..) hread
  have hboth' : Json.read both t = .ok u := Json.read_of_limits (Nat.le_max_right ..) (Nat.le_max_right ..) hu
  obtain rfl : v = u := Except.ok.inj (hboth.symm.trans hboth')
  have hwithin := Json.read_within hu
  rcases hbeyond with hdepth | hints
  · exact absurd hwithin.depth (Nat.not_le.mpr hdepth)
  · exact hints hwithin.digits

/-! ## Stages -/

/-- A decoded value says that it is a message. -/
def SaysMessage (v : Value) : Prop :=
  ∃ entries, v = .dict entries ∧ Value.lookup "kind" entries = some (.text "message")

/-- A value that does not say that it is a message is told by its type. -/
theorem ofDecoded_foreign {v : Value} (hspelt : Json.IsSpelt v) (hnull : v ≠ .null) (h : ¬SaysMessage v) :
    ofDecoded v =
      .error ⟨.serialization, "Expected object of type MessageDTO, got: " ++ v.typeName, .none⟩ := by
  have hcontext : ("Expected object of type MessageDTO, got: " : Text) =
      ("Expected object of type MessageDTO, got" : Text) ++ (": " : Text) := rfl
  rw [hcontext]
  cases v with
  | null => exact absurd rfl hnull
  | dict entries =>
    simp only [ofDecoded, Value.field?]
    split
    · next kind hlookup =>
      have hmessage : kind ≠ "message" := by
        rintro rfl
        exact h ⟨entries, rfl, hlookup⟩
      rw [if_neg hmessage]
    · rfl
  | tuple | set | record | shared | object | bytes => exact hspelt.elim
  | _ => rfl

theorem ofDecoded_invalid {v : Value} (h : SaysMessage v) {issues : List Issue}
    (hcheck : Message.check .caller v = .error issues) :
    ofDecoded v =
      .error ⟨.serialization, "Expected object of type MessageDTO, got an invalid message", .invalid issues⟩ := by
  obtain ⟨entries, rfl, hmessage⟩ := h
  simp only [ofDecoded, Value.field?, hmessage, if_true, hcheck]
  rfl

theorem ofDecoded_message {v : Value} (h : SaysMessage v) {m : Message (Option Destination)}
    (hcheck : Message.check .caller v = .ok m) : ofDecoded v = .ok m := by
  obtain ⟨entries, rfl, hmessage⟩ := h
  simp only [ofDecoded, Value.field?, hmessage, if_true, hcheck]

/-! ## Objects -/

/-- The wire form of fields, from which the decoder of the self-check reads the same data. -/
structure Written (type : ObjectType) (fields : List (Text × Value)) (wire : Text) : Prop where
  wireForm : wireForm type fields = .ok wire
  survives : ∃ v, describedBy type wire = .ok v ∧ v.same (Value.ofFields fields).data = true

/-- Why fields are not written, and the detail that tells it. -/
inductive Unwritten (type : ObjectType) (fields : List (Text × Value)) : Detail → Prop where
  | unserializable {u : Json.Unwritable} (h : wireForm type fields = .error u) :
      Unwritten type fields (.unserializable u.reason)
  | invalid {wire : Text} {issues : List Issue} (hwire : wireForm type fields = .ok wire)
      (h : describedBy type wire = .error issues) : Unwritten type fields (.invalid issues)
  | changed {wire : Text} {v : Value} (hwire : wireForm type fields = .ok wire) (hread : describedBy type wire = .ok v)
      (h : v.same (Value.ofFields fields).data = false) :
      Unwritten type fields (.plain (.text "message does not survive a JSON round trip"))

theorem serializeFields_cases (type : ObjectType) (fields : List (Text × Value)) :
    (∃ wire, serializeFields type fields = .ok wire ∧ Written type fields wire) ∨
      ∃ detail, serializeFields type fields = .error (writeError type detail) ∧ Unwritten type fields detail := by
  unfold serializeFields
  cases hwire : wireForm type fields with
  | error u => exact .inr ⟨_, rfl, .unserializable hwire⟩
  | ok wire =>
    dsimp only
    cases hread : describedBy type wire with
    | error issues => exact .inr ⟨_, rfl, .invalid hwire hread⟩
    | ok v =>
      dsimp only
      cases hsame : v.same (Value.ofFields fields).data with
      | true => exact .inl ⟨wire, rfl, hwire, v, hread, hsame⟩
      | false => exact .inr ⟨_, rfl, .changed hwire hread hsame⟩

end Codec

namespace Action

open Codec

variable {σ : Type} {w : World σ}

/-- How the reading of a payload ends: with a message, or with the error of the first stage that the payload fails. -/
inductive ReadingEnds (payload : Value) (w : World σ) : EStateM.Result Fault (World σ) Ref → Prop where
  | undecoded {detail : Detail} {e : BusError} (h : ∀ v, ¬Decodes payload v) (hwhy : Undecoded payload detail)
      (he : e = ⟨.serialization, "Unable to deserialize message", detail⟩) :
      ReadingEnds payload w (.error (.bus e) (w.record (.log .error .codec e.message)))
  | null (h : Decodes payload .null) :
      ReadingEnds payload w (.error (.bus ⟨.serialization, "Deserialized object is null", .none⟩) w)
  | foreign {v : Value} (h : Decodes payload v) (hnull : v ≠ .null) (hmessage : ¬SaysMessage v) :
      ReadingEnds payload w (.error
        (.bus ⟨.serialization, "Expected object of type MessageDTO, got: " ++ v.typeName, .none⟩) w)
  | invalid {v : Value} {issues : List Issue} (h : Decodes payload v) (hmessage : SaysMessage v)
      (hcheck : Message.check .caller v = .error issues) :
      ReadingEnds payload w (.error
        (.bus ⟨.serialization, "Expected object of type MessageDTO, got an invalid message", .invalid issues⟩) w)
  | message {v : Value} {d : Message (Option Destination)} {ref : Ref} {store : Store} {m : Message Value}
      (h : Decodes payload v) (hmessage : SaysMessage v) (hcheck : Message.check .caller v = .ok d)
      (hstore : (ref, store) = w.store.addMessage d) (hobject : store.object? ref = some (.message m))
      (hkind : m.kind = .text "message") (hclass : m.diagnosis = none) :
      ReadingEnds payload w (.ok ref { w with store := store })

theorem deserialize_ends (payload : Value) (w : World σ) : ReadingEnds payload w ((deserialize payload).run w) := by
  rw [deserialize, run_bind_of_ok (run_read _ _), World.heeded, Codec.deserialize]
  cases hdecode : decodePayload payload with
  | error detail =>
    refine .undecoded (fun v hv => ?_) (undecoded_of_error hdecode) rfl
    rw [decodePayload_eq_ok.mpr hv] at hdecode
    cases hdecode
  | ok v =>
    dsimp only
    have hv := decodePayload_eq_ok.mp hdecode
    obtain ⟨t, -, hread⟩ := id hv
    by_cases hnull : v = .null
    · subst hnull
      exact .null hv
    · by_cases hmessage : SaysMessage v
      · cases hcheck : Message.check .caller v with
        | error issues =>
          rw [ofDecoded_invalid hmessage hcheck]
          exact .invalid hv hmessage hcheck
        | ok d =>
          rw [ofDecoded_message hmessage hcheck]
          obtain ⟨x, hobject, -⟩ := w.store.object?_addMessage d
          obtain ⟨_, -, hreads, hclass⟩ := Message.check_eq_ok.mp hcheck
          exact .message hv hmessage hcheck rfl hobject hreads.valid.kind hclass
      · rw [ofDecoded_foreign (Json.read_spelt hread) hnull hmessage]
        exact .foreign hv hnull hmessage

/-- How the writing of a message object ends: with its wire form, or with an error that names its class. -/
inductive WritingEnds (m : Message Value) (w : World σ) : EStateM.Result Fault (World σ) Text → Prop where
  | written {wire : Text} (h : Written m.type (m.map w.store.expanded).fields wire) : WritingEnds m w (.ok wire w)
  | unwritten {detail : Detail} {e : BusError} (h : Unwritten m.type (m.map w.store.expanded).fields detail)
      (he : e = ⟨.serialization, "Unable to serialize message of type " ++ m.typeName, detail⟩) :
      WritingEnds m w (.error (.bus e) (w.record (.log .error .codec e.message)))

theorem serializeObject_ends {ref : Ref} {m : Message Value} (hobject : w.store.object? ref = some (.message m)) :
    WritingEnds m w ((serializeObject (.shared ref)).run w) := by
  have htype : (m.map w.store.expanded).type = m.type := by simp [Message.type, Message.map]
  rw [run_serializeObject hobject, run_serialize, Codec.serialize, htype]
  rcases serializeFields_cases m.type (m.map w.store.expanded).fields with ⟨wire, hwire, h⟩ | ⟨detail, hwire, h⟩
  · rw [hwire]
    exact .written h
  · rw [hwire]
    exact .unwritten h rfl

/-- The codec has a result or fails with a serialization error, whatever it is given. -/
structure CodecEnds (w : World σ) : Prop where
  reads : ∀ payload, ReadingEnds payload w ((deserialize payload).run w)
  writes : ∀ ref m, w.store.object? ref = some (.message m) → WritingEnds m w ((serializeObject (.shared ref)).run w)
  /-- What is decoded is within the limits of the decoder. -/
  within : ∀ payload v, Decodes payload v → v.depth ≤ 990 ∧ v.IntsWithin 4300
  /-- What another decoder reads as a value beyond them counts as no JSON. -/
  beyond : ∀ payload t limits v, HasText payload t → Json.read limits t = .ok v →
    990 < v.depth ∨ ¬v.IntsWithin 4300 → ∀ u, ¬Decodes payload u

/-- Only serialization errors come out of the codec, and each tells its cause. -/
theorem codec_ends (w : World σ) : CodecEnds w where
  reads payload := deserialize_ends payload w
  writes _ _ hobject := serializeObject_ends hobject
  within := by
    rintro payload v ⟨t, -, hread⟩
    exact ⟨(Json.read_within hread).depth, (Json.read_within hread).digits⟩
  beyond _ _ _ _ htext hread hbeyond := not_decodes_of_beyond htext hread hbeyond

end Action

end MessageBus
