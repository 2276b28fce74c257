import MessageBus.Proofs.AnyRecord
import MessageBus.Proofs.Batches
import MessageBus.Proofs.Canonical
import MessageBus.Proofs.CodecErrors

/-!
# Stand-ins on the wire

The encoder checks what it writes of a stand-in with a decoder for stand-ins, and no receiver has one: the payloads
that receivers take tell of messages alone. So the encoder hands out wire forms of stand-ins, and every one of them is
foreign to its readers (`Codec.deserialize_standIn`). Who decodes it gets an error, and who receives it another
stand-in, with that error for its cause (`Codec.Foreign`).

Stand-ins are written just like messages, if their data fit the self-check (`ToldAs.exists_written`); those that come
out of a receive do so unless a text in them cannot be encoded (`Returned.fits`). `stand_ins_lost` says so of the
encoder and of all that a send hands over.
-/

namespace MessageBus

open Value

/-- The stand-in that a receiver gets for a record: with its ID and receipt handle, and for where it came from. -/
def Message.returned (e : BusError) (id : Text) (handle : Value) (destination : Option Destination) :
    Message (Option Destination) :=
  { standIn e with
    messageId := .text ("ID:" ++ id), properties := .ofFields [(receiptKey, handle)], destination := destination }

theorem converted_standIn {e : BusError} {record body queue : Value} {got : Message Value}
    (hbody : record.item "Body" = .ok body) (hread : Codec.deserialize body = .error e)
    (h : converted record queue = .ok got) :
    ∃ id handle, got = (Message.returned e id handle none).mapDestination fun _ => queue := by
  have hstandIn : Codec.readOrStandIn body = .standIn e := by rw [Codec.readOrStandIn, hread]
  have hreceived : Action.received record queue (.standIn e) = .ok got := by
    rw [converted, hbody] at h
    rw [← hstandIn]
    exact h
  obtain ⟨id, handle, -, -, rfl⟩ := eq_of_received rfl hreceived
  exact ⟨id, handle, rfl⟩

theorem diagnosis_of_converted {record body queue : Value} {m : Message (Option Destination)} {got : Message Value}
    (hbody : record.item "Body" = .ok body) (hread : Codec.deserialize body = .ok m)
    (h : converted record queue = .ok got) : got.diagnosis = none := by
  have hmessage : Codec.readOrStandIn body = m := by rw [Codec.readOrStandIn, hread]
  obtain ⟨entries, hentries⟩ := Codec.properties_readOrStandIn body
  rw [converted, hbody] at h
  obtain ⟨_, _, -, -, rfl⟩ := eq_of_received hentries h
  obtain ⟨_, hcheck⟩ := Codec.check_of_deserialize hread
  obtain ⟨_, -, -, hnone⟩ := Message.check_eq_ok.mp hcheck
  rw [hmessage]
  exact hnone

namespace Codec

/-- The error of a payload that tells of something else than a message. -/
def foreign : BusError := ⟨.serialization, "Expected object of type MessageDTO, got: " ++ "dict", .none⟩

theorem deserialize_standIn {m : Message Value} (hm : m.diagnosis.isSome = true) {wire : Text}
    (h : serialize m = .ok wire) :
    (∃ v, decodePayload (.text wire) = .ok v) ∧ deserialize (.text wire) = .error foreign := by
  obtain ⟨v, data, hwire, hread, hdata, -⟩ := serialize_eq_ok.mp h
  obtain ⟨entries, got, rfl, hreads, -, -⟩ := reads_of_dataOf hdata
  obtain ⟨hdecoded, hkind⟩ := decoded_of_read hwire hread hreads
  have hother : ¬SaysMessage (.dict entries) := by
    rintro ⟨_, heq, hmessage⟩
    obtain rfl := Value.dict.inj heq
    rw [hkind, Message.classKind, if_pos hm] at hmessage
    exact absurd (Value.text.inj (Option.some.inj hmessage)) (by decide)
  refine ⟨⟨_, hdecoded⟩, ?_⟩
  have hsome : Value.dict entries ≠ .null := by simp
  rw [deserialize, hdecoded]
  exact ofDecoded_foreign (Json.read_spelt hread) hsome hother

/-- Nobody reads a message from the wire form: who decodes it gets an error, and who receives it a stand-in for
that error. -/
structure Foreign (wire : Text) : Prop where
  refused : ∀ {τ : Type} (v : World τ), (Action.deserialize (.text wire)).run v = .error (.bus foreign) v
  received : ∀ record queue got, record.item "Body" = .ok (.text wire) → converted record queue = .ok got →
    got.diagnosis = some (.ofError foreign)

theorem foreign_standIn {m : Message Value} (hm : m.diagnosis.isSome = true) {wire : Text}
    (h : serialize m = .ok wire) : Foreign wire := by
  obtain ⟨⟨v, hdecoded⟩, hread⟩ := deserialize_standIn hm h
  constructor
  · intro τ u
    rw [Action.deserialize, Action.run_bind_of_ok (Action.run_read _ _), hread, World.heeded, hdecoded]
    rfl
  · intro record queue got hbody hgot
    obtain ⟨id, handle, rfl⟩ := converted_standIn hbody hread hgot
    rfl

theorem detail_of_deserialize {payload : Value} {e : BusError} (h : deserialize payload = .error e) :
    e.detail.words = .null ∨ ∃ t, e.detail.words = .text t := by
  unfold deserialize at h
  split at h
  · next detail hdetail =>
    cases h
    cases undecoded_of_error hdetail with
    | foreign | garbled | marked => exact .inr ⟨_, rfl⟩
    | @refused _ e _ _ _ hdetail =>
      cases e <;> cases hdetail <;> exact .inr ⟨_, rfl⟩
  · unfold ofDecoded at h
    split at h
    · cases h
      exact .inl rfl
    · split at h
      · split at h
        · split at h
          · cases h
          · cases h
            exact .inr ⟨_, rfl⟩
        · cases h
          exact .inl rfl
      · cases h
        exact .inl rfl

end Codec

namespace Message

variable {e : BusError} {id handle : Text} {q : Queue}

theorem sound_returned (he : e.detail.words = .null ∨ ∃ t, e.detail.words = .text t) (hq : q.Valid) :
    (returned e id (.text handle) (some (.queue q))).Sound where
  valid :=
    { kind := rfl
      body := ⟨.null, Nat.zero_le _⟩
      properties := by
        refine ⟨[(receiptKey, .text handle)], rfl, by simp, ?_⟩
        simp only [List.forall_mem_singleton]
        exact ⟨.text handle, Nat.zero_le _⟩
      messageId := .inr ⟨_, rfl⟩
      timestamp := .inl rfl
      disableMessageId := ⟨false, rfl⟩
      disableTimestamp := ⟨false, rfl⟩
      correlationId := .inl rfl
      messageType := .inl rfl
      destination := by
        intro d hd
        cases hd
        exact hq }
  diagnosis := by
    intro d hd
    cases hd
    exact ⟨⟨_, rfl⟩, .inr ⟨_, rfl⟩, he⟩

/-- A stand-in that a receiver got fits the self-check if its texts can be encoded: there is nothing deep in it, and no
integer. -/
theorem fits_returned (he : e.detail.words = .null ∨ ∃ t, e.detail.words = .text t) (hq : q.Valid) :
    (returned e id (.text handle) (some (.queue q))).described.toValue.Fits ↔
      (returned e id (.text handle) (some (.queue q))).described.toValue.Encodable := by
  have hplain : ∀ entry ∈ (returned e id (.text handle) (some (.queue q))).described.fields,
      entry.2.depth < Json.Limits.check.depth ∧ entry.2.IntsWithin Json.Limits.check.digits := by
    obtain ⟨kind, name, url⟩ := q
    obtain ⟨hkind, ⟨t, hname⟩, hurl⟩ := hq
    cases hkind
    cases hname
    obtain hurl | ⟨u, hurl⟩ := hurl <;> obtain he | ⟨words, he⟩ := he <;> cases hurl <;>
      simp [returned, standIn, described, mapDestination, fields, diagnosisFields, Diagnosis.ofError, he,
        Destination.toValue, Queue.toValue, Queue.fields, ofFields, depth, depthEntries, IntsWithin, scalars,
        scalarsOfEntries, Json.Limits.check]
  refine ⟨Value.Fits.encodable, fun h => ⟨?_, ?_, h⟩⟩
  · exact depth_ofFields_le.mpr fun entry hentry => (hplain entry hentry).1
  · exact intsWithin_ofFields.mpr fun entry hentry => (hplain entry hentry).2

end Message

namespace Action

variable {σ : Type}

theorem toldAs_returned {e : BusError} {id handle : Text} {d : Ref} {q : Queue} {w : World σ}
    (he : e.detail.words = .null ∨ ∃ t, e.detail.words = .text t) (hd : w.store.object? d = some (.queue q))
    (hq : q.Valid) :
    ToldAs w ((Message.returned e id (.text handle) none).mapDestination fun _ => .shared d)
      (.returned e id (.text handle) (some (.queue q))) where
  sound := Message.sound_returned he hq
  fields := rfl
  told := by
    have hsound : (Message.returned e id (.text handle) (some (.queue q))).Sound := Message.sound_returned he hq
    have hqueue : w.store.expanded (.shared d) = (Destination.queue q).object.record :=
      Store.expanded_destination hd (Destination.Valid.bare (d := .queue q) hq)
    have hexpanded := Store.map_expanded hsound w.store (.shared d)
    rw [hqueue] at hexpanded
    exact hexpanded

/-- The writing of a stand-in ends with a serialization error, or with a wire form that nobody reads. -/
theorem serializeObject_standIn {ref : Ref} {m : Message Value} {w : World σ}
    (hobject : w.store.object? ref = some (.message m)) (hm : m.diagnosis.isSome = true) :
    (∃ e, (serializeObject (.shared ref)).run w = .error (.bus e) (w.record (.log .error .codec e.message)) ∧
      e.kind = .serialization) ∨
    ∃ wire, (serializeObject (.shared ref)).run w = .ok wire w ∧ Codec.Foreign wire := by
  have hstandIn : (m.map w.store.expanded).diagnosis.isSome = true := by simpa [Message.map] using hm
  rw [run_serializeObject hobject, run_serialize]
  cases hwire : Codec.serialize (m.map w.store.expanded) with
  | error e => exact .inl ⟨e, rfl, Codec.kind_of_serialize hwire⟩
  | ok wire => exact .inr ⟨wire, rfl, Codec.foreign_standIn hstandIn hwire⟩

theorem diagnosis_of_addressed {o : Object} {ref : Ref} {m m' : Message Value} {v u : World σ}
    (h : addressed o ref m v = (m', u)) : m'.diagnosis = m.diagnosis := by
  rcases addressed_cases h with ⟨rfl, -⟩ | ⟨rfl, -⟩
  · rfl
  · rw [Message.identified]
    split <;> rfl

variable [Service σ]

theorem converted_of_receive {c : Connector} {queue : Value} {timeout : Int} {v w : World σ} {ref : Ref}
    (h : (receive c queue timeout).run v = .ok (some ref) w) :
    ∃ record body m, record.item "Body" = .ok body ∧ converted record queue = .ok m ∧
      w.store.object? ref = some (.message m) := by
  rw [receive_eq, run_bind_of_ok (EStateM.run_get v)] at h
  obtain ⟨url, u, -, h⟩ := run_bind_eq_ok.mp h
  obtain ⟨taken, u', -, h⟩ := run_bind_eq_ok.mp h
  have hends := handOverEnds queue taken u'
  rw [h] at hends
  cases hends with
  | handed hid hbody hm =>
    refine ⟨_, _, _, hbody, hm, ?_⟩
    rw [store_taken, Store.object?_add, if_pos rfl]

/-- A received stand-in is written unless one of its texts cannot be encoded. -/
theorem exists_written_of_receive {c : Connector} {d ref : Ref} {timeout : Int} {v w : World σ} {m : Message Value}
    {q : Queue} {handle : Text} (h : (receive c (.shared d) timeout).run v = .ok (some ref) w)
    (hobject : w.store.object? ref = some (.message m)) (hm : m.diagnosis.isSome = true)
    (hd : w.store.object? d = some (.queue q)) (hq : q.Valid) (hhandle : m.receiptHandle = .ok (.text handle)) :
    (∃ wire, (serializeObject (.shared ref)).run w = .ok wire w) ↔ (w.store.dump m).Encodable := by
  obtain ⟨record, body, got, hbody, hgot, hreceived⟩ := converted_of_receive h
  obtain rfl := Object.message.inj (Option.some.inj (hreceived.symm.trans hobject))
  cases hread : Codec.deserialize body with
  | ok read =>
    rw [diagnosis_of_converted hbody hread hgot] at hm
    cases hm
  | error e =>
    obtain ⟨id, handle', rfl⟩ := converted_standIn hbody hread hgot
    obtain rfl : handle' = .text handle := Except.ok.inj hhandle
    have htold : ToldAs w _ (.returned e id (.text handle) (some (.queue q))) :=
      toldAs_returned (Codec.detail_of_deserialize hread) hd hq
    rw [htold.exists_written hobject, htold.dump, Message.fits_returned (Codec.detail_of_deserialize hread) hq]

/-! ## Sending stand-ins -/

/-- What a call hands over is the wire form of a message, as that stands by then. -/
def HandsOver (m : Message Value) (c : Call) : Prop :=
  ∀ wire, c.request.wire? = some wire → ∃ (m' : Message Value) (s : Store), m'.diagnosis = m.diagnosis ∧
    Codec.serialize (m'.map s.expanded) = .ok wire

theorem HandsOver.lookup (m : Message Value) {c : Call} (h : c.request.IsLookup) : HandsOver m c := by
  intro wire hwire
  have hcarries := Call.not_carries_of_isLookup h
  rw [Call.carries, hwire] at hcarries
  cases hcarries

theorem HandsOver.carriage {m m' : Message Value} {s : Store} {wire : Text} (hm : m'.diagnosis = m.diagnosis)
    (h : Codec.serialize (m'.map s.expanded) = .ok wire) (o : Object) (handle : Value)
    (outcome : Except Failure Value) :
    HandsOver m ⟨o.carriage handle wire, outcome⟩ := by
  intro wire' hwire'
  rw [o.wire?_carriage] at hwire'
  obtain rfl := Option.some.inj hwire'
  exact ⟨m', s, hm, h⟩

theorem HandingEnds.handsOver {d ref : Ref} {o : Object} {m : Message Value} {w : World σ}
    {r : EStateM.Result Fault (World σ) Unit} (h : HandingEnds d o ref m w r) (ho : w.store.object? d = some o) :
    ∃ cs, Makes w cs (left r) ∧ ∀ c ∈ cs, HandsOver m c := by
  have hlookups {r : EStateM.Result Fault (World σ) Value} (hl : LookupEnds d o w r) :
      ∃ cs, Makes w cs (left r) ∧ ∀ c ∈ cs, HandsOver m c := by
    obtain ⟨cs, hlooks, -⟩ := hl.looksUp ho
    exact ⟨cs, hlooks.makes, fun c hc => .lookup m (hlooks.lookups c hc)⟩
  have hone {cs : List Call} {c : Call} (hcs : ∀ c ∈ cs, HandsOver m c) (hc : HandsOver m c) :
      ∀ c' ∈ cs ++ [c], HandsOver m c' := by
    simp only [List.forall_mem_append, List.forall_mem_singleton]
    exact ⟨hcs, hc⟩
  cases h with
  | unfound hl => exact hlookups hl
  | @unwritten handle v u m' e hl haddressed hwire =>
    obtain ⟨cs, hmakes, hcs⟩ := hlookups hl
    exact ⟨cs, (hmakes.before (makes_addressed haddressed)).before (.log u .error .codec e.message), hcs⟩
  | refused hl haddressed hwire hrequest =>
    obtain ⟨cs, hmakes, hcs⟩ := hlookups hl
    exact ⟨_, (hmakes.before (makes_addressed haddressed)).trans hrequest.makes,
      hone hcs (.carriage (diagnosis_of_addressed haddressed) hwire o _ _)⟩
  | @unnumbered q handle answer v wire f hq hl hwire hanswer hid =>
    obtain ⟨cs, hmakes, hcs⟩ := hlookups hl
    exact ⟨_, hmakes.trans (.after _ _), hone hcs (.carriage rfl hwire (.queue q) _ _)⟩
  | @unnamed q handle answer id v wire f hq hl hwire hanswer hid hwords =>
    obtain ⟨cs, hmakes, hcs⟩ := hlookups hl
    exact ⟨_, hmakes.trans (.after _ _), hone hcs (.carriage rfl hwire (.queue q) _ _)⟩
  | @posted q handle answer id v wire hq hl hwire hanswer hid htakes =>
    obtain ⟨cs, hmakes, hcs⟩ := hlookups hl
    exact ⟨_, hmakes.trans (makes_posted hanswer ref m id), hone hcs (.carriage rfl hwire (.queue q) _ _)⟩
  | @published t handle answer v u m' wire line ht hl haddressed hwire hanswer =>
    obtain ⟨cs, hmakes, hcs⟩ := hlookups hl
    have hcall := (Makes.after u (.publish handle wire)).before (.note _ .info .connector line)
    exact ⟨_, (hmakes.before (makes_addressed haddressed)).trans hcall,
      hone hcs (.carriage (diagnosis_of_addressed haddressed) hwire (.topic t) _ _)⟩

/-- All that a send of a stand-in hands over is read by nobody. -/
theorem foreign_of_send (destination : Value) {ref : Ref} {m : Message Value} {w : World σ}
    (hobject : w.store.object? ref = some (.message m)) (hm : m.diagnosis.isSome = true) {c : Call}
    (hc : c ∈ (Operation.send destination (.shared ref)).made w) {wire : Text} (hwire : c.request.wire? = some wire) :
    Codec.Foreign wire := by
  have hends := sendEnds destination (.shared ref) w
  have hhands : ∃ cs, Makes w cs (left ((send destination (.shared ref)).run w)) ∧ ∀ c ∈ cs, HandsOver m c := by
    generalize (send destination (.shared ref)).run w = r at hends ⊢
    cases hends with
    | nowhere | unstamped => exact ⟨[], .refl w, nofun⟩
    | misdirected => exact ⟨[], .put .., nofun⟩
    | directed _ ho hh hx hmessage hs hr =>
      cases hx
      obtain rfl := Object.message.inj (Option.some.inj (hmessage.symm.trans hobject))
      obtain ⟨cs, hmakes, hcs⟩ := hr.handsOver (World.destination_put ho hh hobject _)
      refine ⟨cs, (Makes.put w _ _).trans hmakes, fun c hc wire hwire => ?_⟩
      obtain ⟨m', s, hm', hwritten⟩ := hcs c hc wire hwire
      obtain ⟨_, _, rfl⟩ := Message.stamped_eq_ok hs
      exact ⟨m', s, hm', hwritten⟩
  obtain ⟨cs, hmakes, hcs⟩ := hhands
  rw [Operation.made_eq hmakes] at hc
  obtain ⟨m', s, hm', hwritten⟩ := hcs c hc wire hwire
  have hstandIn : (m'.map s.expanded).diagnosis.isSome = true := by simpa [Message.map, hm'] using hm
  exact Codec.foreign_standIn hstandIn hwritten

/-- What becomes of the stand-ins in a world on the wire. -/
structure StandInsLost (w : World σ) : Prop where
  /-- Whatever a stand-in was overwritten with, it is refused, or written for nobody to read. -/
  written : ∀ ref m, w.store.object? ref = some (.message m) → m.diagnosis.isSome = true →
    (∃ e, (serializeObject (.shared ref)).run w = .error (.bus e) (w.record (.log .error .codec e.message)) ∧
      e.kind = .serialization) ∨
    ∃ wire, (serializeObject (.shared ref)).run w = .ok wire w ∧ Codec.Foreign wire
  /-- A stand-in that validation made is written just like a message. -/
  validated : ∀ ref m, Validated ref w → w.store.object? ref = some (.message m) → m.diagnosis.isSome = true →
    ((∃ wire, (serializeObject (.shared ref)).run w = .ok wire w) ↔ (w.store.dump m).Fits)
  /-- The stand-in that a receive returned is written unless one of its texts cannot be encoded. -/
  returned : ∀ c d timeout v ref m q handle, (receive c (.shared d) timeout).run v = .ok (some ref) w →
    w.store.object? ref = some (.message m) → m.diagnosis.isSome = true →
    w.store.object? d = some (.queue q) → q.Valid → m.receiptHandle = .ok (.text handle) →
    ((∃ wire, (serializeObject (.shared ref)).run w = .ok wire w) ↔ (w.store.dump m).Encodable)
  /-- Whatever a send of a stand-in hands over to a service, nobody can read. -/
  forwarded : ∀ destination ref m, w.store.object? ref = some (.message m) → m.diagnosis.isSome = true →
    ∀ c ∈ (Operation.send destination (.shared ref)).made w, ∀ wire, c.request.wire? = some wire → Codec.Foreign wire

/-- The encoder hands out wire forms of stand-ins, and no stand-in ever comes back from one. -/
theorem stand_ins_lost (w : World σ) : StandInsLost w where
  written _ _ hobject hm := serializeObject_standIn hobject hm
  validated ref m h hobject _ := by
    obtain ⟨d, hd⟩ := h.toldAs hobject
    exact hd.exists_written hobject
  returned _ _ _ _ _ _ _ _ h hobject hm hd hq hhandle := exists_written_of_receive h hobject hm hd hq hhandle
  forwarded destination _ _ hobject hm _ hc _ hwire := foreign_of_send destination hobject hm hc hwire

def garbledError : BusError :=
  ⟨.serialization, Codec.undecodable, .plain (.text "Expecting value: line 1 column 1 (char 0)")⟩

def garbled : Message (Option Destination) :=
  .returned garbledError "m-1" (.text "rh-1")
    (some (.queue ⟨.text "queue", .text "orders", .text "https://sqs/orders"⟩))

/-- A body that is no JSON gives a stand-in, which is written, and read by nobody. -/
theorem garbled_lost :
    ∃ ref v wire, (receive ⟨.int 1000, .null⟩ (.shared 0) 0).run (serving [(1, "not json")]) = .ok (some ref) v ∧
      (serializeObject (.shared ref)).run v = .ok wire v ∧ Codec.Foreign wire := by
  obtain ⟨logs, hheard, _⟩ := heard_serving "not json"
  have harrival : Arrival ⟨0, true, .answer (pollOf ⟨.int 1000, .null⟩ (.text "https://sqs/orders"))
      (.ok (Value.ofFields [("Messages", .list [Script.record 1 1 "not json"])]))⟩
      (.text "https://sqs/orders") (Script.record 1 1 "not json") := ⟨⟨.null, _, rfl, rfl⟩, rfl⟩
  obtain ⟨v, u, hresolve, hstore, hrun⟩ := receive_of_arrival (by rw [hheard]; simp) harrival
  obtain rfl : serving [(1, "not json")] = v := by
    have hbound : (resolveQueue (.shared 0)).run (serving [(1, "not json")]) =
        .ok (.text "https://sqs/orders") (serving [(1, "not json")]) := by
      with_unfolding_all rfl
    rw [hbound] at hresolve
    injection hresolve
  have hread : Codec.deserialize (.text "not json") = .error garbledError := by with_unfolding_all rfl
  have hconverted : converted (Script.record 1 1 "not json") (.shared 0) =
      .ok (garbled.mapDestination fun _ => .shared 0) := by
    have hstandIn : Codec.readOrStandIn (.text "not json") = .standIn garbledError := by rw [Codec.readOrStandIn, hread]
    exact (congrArg (Action.received (Script.record 1 1 "not json") (.shared 0)) hstandIn).trans rfl
  rw [run_handOver rfl rfl hconverted] at hrun
  generalize hv : taken u _ _ _ = v at hrun
  have hobject : v.store.object? (u.store.add (.message (garbled.mapDestination fun _ => .shared 0))).1 =
      some (.message (garbled.mapDestination fun _ => .shared 0)) := by
    rw [← hv, store_taken, Store.object?_add, if_pos rfl]
  have hqueue : v.store.object? 0 = some (.queue ⟨.text "queue", .text "orders", .text "https://sqs/orders"⟩) := by
    rw [← hv, store_taken, hstore]
    rfl
  have hvalid : Queue.Valid ⟨.text "queue", .text "orders", .text "https://sqs/orders"⟩ :=
    ⟨rfl, ⟨_, rfl⟩, .inr ⟨_, rfl⟩⟩
  have htold : ToldAs v (garbled.mapDestination fun _ => .shared 0) garbled :=
    toldAs_returned (e := garbledError) (.inr ⟨_, rfl⟩) hqueue hvalid
  have hencodable : (v.store.dump (garbled.mapDestination fun _ => .shared 0)).Encodable := by
    rw [htold.dump]
    decide +kernel
  have hlost := stand_ins_lost v
  obtain ⟨wire, hwire⟩ := (hlost.returned _ _ _ _ _ _ _ _ hrun hobject rfl hqueue hvalid rfl).mpr hencodable
  refine ⟨_, v, wire, hrun, hwire, ?_⟩
  rcases hlost.written _ _ hobject rfl with ⟨e, hrefused, -⟩ | ⟨wire', hwire', hforeign⟩
  · rw [hwire] at hrefused
    cases hrefused
  · rw [hwire] at hwire'
    injection hwire' with heq
    exact heq ▸ hforeign

end Action

end MessageBus
