import MessageBus.Objects
import MessageBus.Proofs.WireForm

/-!
# Validated messages on the wire

A message object is validated when validation made it and nobody overwrote it since (`Validated`). Its wire form
is canonical: it is read as a message object that is told as the written one, and that has the same wire form
(`wire_form_canonical`). There is a wire form of it just if its data fit the decoder of the self-check, which takes
less than validation lets through (`validated_survives`).
-/

namespace MessageBus

namespace Message

variable {origin : Origin} {v : Value} {m : Message (Option Destination)}

theorem sound_of_check (h : check origin v = .ok m) : m.Sound := by
  obtain ⟨_, _, hreads, hd⟩ := check_eq_ok.mp h
  exact hreads.valid.sound hd

theorem sound_of_checkStandIn (h : checkStandIn origin v = .ok m) : m.Sound := by
  obtain ⟨_, d, _, hreads, hread, hd⟩ := checkStandIn_eq_ok.mp h
  constructor
  · rw [classKind, hd]
    exact hreads.valid
  · intro d' hsome
    rw [hd] at hsome
    cases hsome
    exact valid_of_diagnosisOf hread

end Message

namespace Action

variable {σ : Type} {ref : Ref} {v w : World σ}

/-- A message object is made of a valid message or stand-in. -/
def Adds (ref : Ref) (w : World σ) : Prop :=
  ∃ (m : Message (Option Destination)) (v : World σ), m.Sound ∧ (addMessage m).run v = .ok ref w

theorem adds_of_newMessage {fields : Value} (h : (newMessage fields).run v = .ok ref w) : Adds ref w := by
  unfold newMessage at h
  extract_lets standIn described at h
  have hsound (m : Message (Option Destination)) (hm : described = .ok m) : m.Sound := by
    by_cases hstandIn : standIn = true
    · exact Message.sound_of_checkStandIn ((if_pos hstandIn).symm.trans hm)
    · exact Message.sound_of_check ((if_neg hstandIn).symm.trans hm)
  clear_value described
  cases described with
  | ok m => exact ⟨m, v, hsound m rfl, h⟩
  | error issues => cases h

theorem run_newMessage {fields : Value} {m : Message (Option Destination)} (hkind : fields.field? "kind" = none)
    (h : Message.check .caller fields = .ok m) (v : World σ) : (newMessage fields).run v = (addMessage m).run v := by
  simp only [newMessage, hkind, Bool.false_eq_true, if_false, h]

theorem adds_of_deserialize {payload : Value} (h : (deserialize payload).run v = .ok ref w) : Adds ref w := by
  rw [deserialize, run_bind_of_ok (run_read _ _)] at h
  split at h
  · next m hm =>
    obtain ⟨_, hcheck⟩ := Codec.check_of_deserialize hm
    exact ⟨m, _, Message.sound_of_check hcheck, h⟩
  · cases h

/-- The object under a number is a message that validation made, of what a caller gave or of what was read of a
payload, and that nobody overwrote since. -/
inductive Validated (ref : Ref) : World σ → Prop where
  | made {fields : Value} {v w : World σ} (h : (newMessage fields).run v = .ok ref w) : Validated ref w
  | read {payload : Value} {v w : World σ} (h : (deserialize payload).run v = .ok ref w) : Validated ref w
  /-- Whatever else happens, the message stays as it is, and so does what its destination is told by. -/
  | kept {m : Message Value} {v w : World σ} (h : Validated ref v) (hv : v.store.object? ref = some (.message m))
      (hw : w.store.object? ref = some (.message m))
      (hdestination : w.store.expanded m.destination = v.store.expanded m.destination) : Validated ref w

/-- An object in a world has the fields of a valid message or stand-in, and is told as that one. -/
structure ToldAs (w : World σ) (m : Message Value) (d : Message (Option Destination)) : Prop where
  sound : d.Sound
  fields : m = d.mapDestination fun _ => m.destination
  told : m.map w.store.expanded = d.told

theorem Adds.toldAs {m : Message Value} (h : Adds ref w) (hobject : w.store.object? ref = some (.message m)) :
    ∃ d, ToldAs w m d := by
  obtain ⟨d, v, hsound, hrun⟩ := h
  rw [run_addMessage] at hrun
  cases hrun
  obtain ⟨x, hadded, htold⟩ := v.store.object?_addMessage d
  obtain rfl := Object.message.inj (Option.some.inj (hadded.symm.trans hobject))
  refine ⟨d, hsound, rfl, ?_⟩
  rw [Store.map_expanded hsound, htold hsound.valid.destination]
  rfl

/-- A validated object is told as a valid message or stand-in. -/
theorem Validated.toldAs {m : Message Value} (h : Validated ref w)
    (hobject : w.store.object? ref = some (.message m)) : ∃ d, ToldAs w m d := by
  induction h with
  | made h => exact (adds_of_newMessage h).toldAs hobject
  | read h => exact (adds_of_deserialize h).toldAs hobject
  | @kept m' v w _ hv hw hdestination ih =>
    obtain rfl := Object.message.inj (Option.some.inj (hw.symm.trans hobject))
    obtain ⟨d, hd⟩ := ih hv
    refine ⟨d, hd.sound, hd.fields, ?_⟩
    have htold := hd.told
    rw [hd.fields, Store.map_expanded hd.sound] at htold ⊢
    rw [hdestination, htold]

namespace ToldAs

variable {m : Message Value} {d : Message (Option Destination)} {wire : Text}

theorem diagnosis (h : ToldAs w m d) : m.diagnosis = d.diagnosis := by
  rw [h.fields]
  rfl

theorem dump (h : ToldAs w m d) : w.store.dump m = d.described.toValue := by
  rw [Store.dump, h.told, h.sound.data_toValue]

theorem run_serializeObject_eq_ok (h : ToldAs w m d) (hobject : w.store.object? ref = some (.message m))
    {v : World σ} :
    (serializeObject (.shared ref)).run w = .ok wire v ↔ Codec.serialize d.told = .ok wire ∧ v = w := by
  rw [run_serializeObject hobject, run_serialize_eq_ok, h.told]

/-- It is written if its data fit the decoder of the self-check. -/
theorem exists_written (h : ToldAs w m d) (hobject : w.store.object? ref = some (.message m)) :
    (∃ wire, (serializeObject (.shared ref)).run w = .ok wire w) ↔ (w.store.dump m).Fits := by
  rw [h.dump, ← Codec.exists_serialize h.sound]
  exact exists_congr fun wire => (h.run_serializeObject_eq_ok hobject).trans (and_iff_left rfl)

end ToldAs

/-- A message in a world has the fields of a valid message, and is told as that message. -/
structure Tells (w : World σ) (m : Message Value) (d : Message (Option Destination)) : Prop where
  valid : d.Valid "message"
  diagnosis : d.diagnosis = none
  fields : m = d.mapDestination fun _ => m.destination
  told : m.map w.store.expanded = d.told

/-- A validated message that is no stand-in is told as a valid message. -/
theorem Validated.tells {m : Message Value} (h : Validated ref w)
    (hobject : w.store.object? ref = some (.message m)) (hm : m.diagnosis = none) : ∃ d, Tells w m d := by
  obtain ⟨d, hd⟩ := h.toldAs hobject
  have hnone : d.diagnosis = none := hd.diagnosis.symm.trans hm
  have hvalid := hd.sound.valid
  rw [Message.classKind, hnone] at hvalid
  exact ⟨d, hvalid, hnone, hd.fields, hd.told⟩

namespace Tells

variable {m : Message Value} {d : Message (Option Destination)} {wire : Text}

theorem toldAs (h : Tells w m d) : ToldAs w m d := ⟨h.valid.sound h.diagnosis, h.fields, h.told⟩

theorem run_serializeObject_eq_ok (h : Tells w m d) (hobject : w.store.object? ref = some (.message m)) {v : World σ} :
    (serializeObject (.shared ref)).run w = .ok wire v ↔ Codec.serialize d.told = .ok wire ∧ v = w :=
  h.toldAs.run_serializeObject_eq_ok hobject

/-- The wire form of a valid message is read as an object that is told as this message. -/
theorem read_again (h : Tells w m d) (hwire : Codec.serialize d.told = .ok wire) (v : World σ) :
    ∃ ref' v' m', (deserialize (.text wire)).run v = .ok ref' v' ∧ v'.store.object? ref' = some (.message m') ∧
      Tells v' m' d := by
  have hread := Codec.deserialize_told h.valid h.diagnosis hwire
  obtain ⟨x, hobject, htold⟩ := Store.told_addMessage (h.valid.sound h.diagnosis) v.store
  exact ⟨_, _, _, run_deserialize hread, hobject, h.valid, h.diagnosis, rfl, htold⟩

theorem dump (h : Tells w m d) : w.store.dump m = d.described.toValue := h.toldAs.dump

end Tells

/-- The wire form of a validated message is read as a message that is told as the written one, whatever the values
in it, and that is written in this form again. -/
theorem wire_form_canonical {m : Message Value} {wire : Text} {w' : World σ} (h : Validated ref w)
    (hobject : w.store.object? ref = some (.message m)) (hm : m.diagnosis = none)
    (hwire : (serializeObject (.shared ref)).run w = .ok wire w') (v : World σ) :
    ∃ ref' v' got, (deserialize (.text wire)).run v = .ok ref' v' ∧
      v'.store.object? ref' = some (.message got) ∧ got.map v'.store.expanded = m.map w.store.expanded ∧
      (serializeObject (.shared ref')).run v' = .ok wire v' := by
  obtain ⟨d, hd⟩ := h.tells hobject hm
  obtain ⟨hwritten, _⟩ := (hd.run_serializeObject_eq_ok hobject).mp hwire
  obtain ⟨ref', v', got, hrun, hgot, htells⟩ := hd.read_again hwritten v
  exact ⟨ref', v', got, hrun, hgot, htells.told.trans hd.told.symm,
    (htells.run_serializeObject_eq_ok hgot).mpr ⟨hwritten, rfl⟩⟩

/-- A world with nothing but an object made of a described message. -/
def makingOnly (m : Message (Option Destination)) : World Unit :=
  { started := 0, elapsed := 0, timers := [], running := true, service := (), store := (Store.empty.addMessage m).2,
    serial := 0, patience := 0, trace := [] }

theorem validated_makingOnly {fields : Value} {m : Message (Option Destination)} (hkind : fields.field? "kind" = none)
    (h : Message.check .caller fields = .ok m) : Validated (Store.empty.addMessage m).1 (makingOnly m) :=
  .made (run_newMessage hkind h { makingOnly m with store := .empty })

/-- A message with numbers that are equal but written differently, and for a queue with the name in its URL. -/
def mixed : Message (Option Destination) :=
  { kind := .text "message"
    body := .ofFields [("b", .float (.finite true ⟨0, by decide⟩)),
      ("a", .list [.int 1, .float (.ofDecimal false 1 0), .bool true])]
    properties := .dict [], messageId := .null, timestamp := .null, disableMessageId := .bool false,
    disableTimestamp := .bool false, correlationId := .null, messageType := .null,
    destination := some (.queue ⟨.text "queue", .text "orders", .text "https://sqs/orders"⟩), diagnosis := none }

/-- What a caller makes the message of. -/
def mixedFields : Value :=
  .dict [(.text "body", mixed.body),
    (.text "destination", .dict [(.text "kind", .text "queue"), (.text "queue_url", .text "https://sqs/orders")])]

def mixedWire : Text :=
  "\x7b\"kind\":\"message\",\"body\":\x7b\"b\":-0.0,\"a\":[1,1.0,true]\x7d,\"properties\":\x7b\x7d," ++
  "\"message_id\":null,\"timestamp\":null,\"disable_message_id\":false,\"disable_timestamp\":false," ++
  "\"correlation_id\":null,\"message_type\":null," ++
  "\"destination\":\x7b\"kind\":\"queue\",\"name\":\"orders\",\"queue_url\":\"https://sqs/orders\"\x7d\x7d"

theorem check_mixed : Message.check .caller mixedFields = .ok mixed := by
  have hbody : Value.IsJson mixed.body := by
    have hnumbers : ∀ v ∈ [Value.int 1, .float (.ofDecimal false 1 0), .bool true], v.IsJson := by
      simp only [List.forall_mem_cons]
      exact ⟨.int 1, .float (by decide +kernel), .bool true, by simp⟩
    refine .dict (by decide) ?_
    simp only [List.forall_mem_cons]
    exact ⟨.float rfl, .list hnumbers, by simp⟩
  refine Message.check_eq_ok.mpr ⟨_, rfl, ?_, rfl⟩
  exact ⟨rfl, (Check.keeps_of_isJson hbody _ _).mpr ⟨by decide +kernel, rfl⟩, rfl, rfl, rfl, rfl, rfl, rfl, rfl, rfl⟩

/-- The numbers keep their forms, and the queue its derived name. -/
theorem mixed_canonical :
    (serializeObject (.shared 1)).run (makingOnly mixed) = .ok mixedWire (makingOnly mixed) ∧
      ∃ ref' v' got, (deserialize (.text mixedWire)).run (makingOnly mixed) = .ok ref' v' ∧
        v'.store.object? ref' = some (.message got) ∧
        got.map v'.store.expanded =
          (mixed.mapDestination fun _ => .shared 0).map (makingOnly mixed).store.expanded ∧
        (serializeObject (.shared ref')).run v' = .ok mixedWire v' := by
  have hvalidated : Validated 1 (makingOnly mixed) := validated_makingOnly rfl check_mixed
  have hobject : (makingOnly mixed).store.object? 1 = some (.message (mixed.mapDestination fun _ => .shared 0)) := rfl
  have hwritten : (Codec.serialize
      ((mixed.mapDestination fun _ => .shared 0).map (makingOnly mixed).store.expanded)).toOption = some mixedWire := by
    decide +kernel
  have hwire : (serializeObject (.shared 1)).run (makingOnly mixed) = .ok mixedWire (makingOnly mixed) := by
    rw [run_serializeObject hobject, run_serialize_eq_ok]
    refine ⟨?_, rfl⟩
    cases hserialize : Codec.serialize
        ((mixed.mapDestination fun _ => .shared 0).map (makingOnly mixed).store.expanded) with
    | ok wire =>
      rw [hserialize] at hwritten
      exact congrArg Except.ok (Option.some.inj hwritten)
    | error e =>
      rw [hserialize] at hwritten
      cases hwritten
  exact ⟨hwire, wire_form_canonical hvalidated hobject rfl hwire _⟩

/-- A validated message whose data fit the decoder of the self-check is written, and read with the same body and
properties. Any other validated message is refused. -/
theorem validated_survives {m : Message Value} (h : Validated ref w)
    (hobject : w.store.object? ref = some (.message m)) (hm : m.diagnosis = none) :
    ((w.store.dump m).Fits → ∃ wire, (serializeObject (.shared ref)).run w = .ok wire w ∧
      ∀ v : World σ, ∃ ref' v' got, (deserialize (.text wire)).run v = .ok ref' v' ∧
        v'.store.object? ref' = some (.message got) ∧ got.diagnosis = none ∧ got.body = m.body ∧
        got.properties = m.properties) ∧
    (¬ (w.store.dump m).Fits → ∃ e v, (serializeObject (.shared ref)).run w = .error (.bus e) v ∧
      e.kind = .serialization) := by
  obtain ⟨d, hd⟩ := h.tells hobject hm
  rw [hd.dump, ← Codec.exists_serialize_told hd.valid hd.diagnosis]
  refine ⟨fun ⟨wire, hwire⟩ => ⟨wire, (hd.run_serializeObject_eq_ok hobject).mpr ⟨hwire, rfl⟩, fun v => ?_⟩,
    fun hnone => ?_⟩
  · obtain ⟨ref', v', got, hrun, hgot, htells⟩ := hd.read_again hwire v
    have hbody : got.body = m.body := by rw [htells.fields, hd.fields]; rfl
    have hproperties : got.properties = m.properties := by rw [htells.fields, hd.fields]; rfl
    have hdiagnosis : got.diagnosis = none := by rw [htells.fields]; exact hd.diagnosis
    exact ⟨ref', v', got, hrun, hgot, hdiagnosis, hbody, hproperties⟩
  · rw [run_serializeObject hobject, run_serialize, hd.told]
    cases hwire : Codec.serialize d.told with
    | ok wire => exact absurd ⟨wire, hwire⟩ hnone
    | error e => exact ⟨e, _, rfl, Codec.kind_of_serialize hwire⟩

/-- The message that a caller makes of a body alone. -/
def bodied (body : Value) : Message (Option Destination) :=
  { kind := .text "message", body := body, properties := .dict [], messageId := .null, timestamp := .null,
    disableMessageId := .bool false, disableTimestamp := .bool false, correlationId := .null, messageType := .null,
    destination := none, diagnosis := none }

theorem reads_bodied {body : Value} (h : body.IsJson) (hdepth : body.depth ≤ Check.nestingLimit) :
    Message.Reads .caller "message" [(.text "body", body)] (bodied body) :=
  ⟨rfl, (Check.keeps_of_isJson h _ _).mpr ⟨hdepth, rfl⟩, rfl, rfl, rfl, rfl, rfl, rfl, rfl, rfl⟩

/-- Such a message fits if its body nests less deep than the decoder of the self-check reads: one level is its
own. -/
theorem fits_bodied {body : Value} :
    (bodied body).described.toValue.Fits ↔ body.depth < Json.Limits.check.depth ∧
      body.IntsWithin Json.Limits.check.digits ∧ body.Encodable := by
  have hbody : (("body" : Text), body) ∈ (bodied body).described.fields := .tail _ (.head _)
  have hothers : ∀ e ∈ (bodied body).described.fields, e.2 = body ∨ e.2.depth < Json.Limits.check.depth ∧
      e.2.IntsWithin Json.Limits.check.digits ∧ e.2.Encodable := by
    have hkind : ∀ c ∈ ("message" : Text), c.isChar = true := by decide
    simp [bodied, Message.described, Message.mapDestination, Message.fields, Message.diagnosisFields, Value.depth,
      Value.IntsWithin, Value.Encodable, Value.scalars, Value.scalarsOfEntries, Json.Limits.check, eq_true hkind]
  rw [Message.toValue, Value.fits_ofFields]
  constructor
  · intro h
    exact (h _ hbody).2
  · intro h e he
    refine ⟨Codec.isChar_names _ e he, ?_⟩
    obtain heq | hplain := hothers e he
    · rwa [heq]
    · exact hplain

theorem dump_bodied {body : Value} (h : body.IsJson) (hdepth : body.depth ≤ Check.nestingLimit) :
    (makingOnly (bodied body)).store.dump ((bodied body).mapDestination fun _ => .null) =
      (bodied body).described.toValue := by
  have hsound : (bodied body).Sound := (reads_bodied h hdepth).valid.sound rfl
  rw [Store.dump, Store.map_expanded hsound, Store.expanded_of_bare Value.bare_null]
  exact hsound.data_toValue

end Action

/-- Null in so many lists, one within the other. -/
def Value.nested : Nat → Value
  | 0 => .null
  | n + 1 => .list [nested n]

namespace Value

theorem depth_nested (n : Nat) : (nested n).depth = n := by
  induction n with
  | zero => rfl
  | succ n ih => simp [nested, depth, depthItems, ih, Nat.add_comm]

theorem isJson_nested (n : Nat) : (nested n).IsJson := by
  induction n with
  | zero => exact .null
  | succ n ih => exact .list (by simpa using ih)

theorem scalars_nested (n : Nat) : (nested n).scalars = [.null] := by
  induction n with
  | zero => rfl
  | succ n ih => simp [nested, scalars, scalarsOfItems, ih]

end Value

namespace Action

/-- Of a null in 199 lists and of one in 200, which validation both lets through, the first survives. -/
theorem nested_survives :
    (∃ wire, (serializeObject (.shared 0)).run (makingOnly (bodied (.nested 199))) =
        .ok wire (makingOnly (bodied (.nested 199))) ∧
      ∀ v : World Unit, ∃ ref' v' got, (deserialize (.text wire)).run v = .ok ref' v' ∧
        v'.store.object? ref' = some (.message got) ∧ got.diagnosis = none ∧ got.body = .nested 199 ∧
        got.properties = .dict []) ∧
    ∃ e v, (serializeObject (.shared 0)).run (makingOnly (bodied (.nested 200))) = .error (.bus e) v ∧
      e.kind = .serialization := by
  have hobject (n : Nat) : (makingOnly (bodied (.nested n))).store.object? 0 =
      some (.message ((bodied (.nested n)).mapDestination fun _ => .null)) := rfl
  have hdepth (n : Nat) (hn : n ≤ Check.nestingLimit) : (Value.nested n).depth ≤ Check.nestingLimit :=
    (Value.depth_nested n).symm ▸ hn
  have hsurvives (n : Nat) (hn : n ≤ Check.nestingLimit) :=
    have hread := reads_bodied (Value.isJson_nested n) (hdepth n hn)
    validated_survives (validated_makingOnly rfl (Message.check_eq_ok.mpr ⟨_, rfl, hread, rfl⟩)) (hobject n) rfl
  have hfits (n : Nat) (hn : n ≤ Check.nestingLimit) :
      ((makingOnly (bodied (.nested n))).store.dump ((bodied (.nested n)).mapDestination fun _ => .null)).Fits ↔
        n < Json.Limits.check.depth := by
    rw [dump_bodied (Value.isJson_nested n) (hdepth n hn), fits_bodied, Value.depth_nested]
    simp [Value.IntsWithin, Value.Encodable, Value.scalars_nested]
  exact ⟨(hsurvives 199 (by decide)).1 ((hfits 199 (by decide)).mpr (by decide)),
    (hsurvives 200 (by decide)).2 fun h => absurd ((hfits 200 (by decide)).mp h) (by decide)⟩

end Action

end MessageBus
