import MessageBus.Proofs.Carriage
import MessageBus.Proofs.RecordFate
import MessageBus.Proofs.Sending
import MessageBus.Script

/-!
# Which messages get an ID

A receiver gives a message an ID unless a property declines one. Senders set that property and never clear
it, and the ID that the message has when it is written travels with it: the receiver of a message that
declines an ID finds that one (`received_messageId`).
-/

namespace MessageBus

namespace Message

theorem declaresNoId_of_same {read entries : List (Value × Value)} (hread : Value.Keyed read)
    (h : Value.same (.dict read) (.dict entries) = true) : declaresNoId read = declaresNoId entries := by
  have hlookup := Value.lookup_of_same hread h idDisabledKey
  unfold declaresNoId
  cases hr : Value.lookup idDisabledKey read with
  | none =>
    cases he : Value.lookup idDisabledKey entries with
    | none => rfl
    | some p => rw [hr, he] at hlookup; exact hlookup.elim
  | some v =>
    cases he : Value.lookup idDisabledKey entries with
    | none => rw [hr, he] at hlookup; exact hlookup.elim
    | some p =>
      rw [hr, he] at hlookup
      rw [Option.getD_some, Option.getD_some, Value.truthy_of_same hlookup]

theorem declaresNoId_told (s : Store) {entries : List (Value × Value)}
    (hobjects : ∀ type, Value.lookup idDisabledKey entries ≠ some (.record type [])) :
    declaresNoId (entries.map fun e => (e.1, s.told e.2)) = declaresNoId entries := by
  unfold declaresNoId
  rw [Value.lookup_map]
  cases he : Value.lookup idDisabledKey entries with
  | none => rfl
  | some p =>
    have hobject : ∀ type, p ≠ .record type [] := fun type heq => hobjects type (by rw [he, heq])
    exact s.truthy_told hobject

/-- A stamped message declines an ID if its sender wants none, or if it did so before. -/
theorem declaresNoId_of_stamped {now : Int} {m m' : Message Value} {entries : List (Value × Value)}
    (hentries : m.properties = .dict entries) (h : m.stamped now = .ok m') :
    ∃ entries', m'.properties = .dict entries' ∧
      declaresNoId entries' = (m.disableMessageId.truthy || declaresNoId entries) ∧
      ∀ type, Value.lookup idDisabledKey entries ≠ some (.record type []) →
        Value.lookup idDisabledKey entries' ≠ some (.record type []) := by
  obtain ⟨marked, hmarked, rfl⟩ := stamped_eq_ok h
  unfold noted at hmarked
  split at hmarked
  · next hd =>
    obtain ⟨_, hdict, rfl⟩ := withProperty_eq_ok hmarked
    rw [hentries] at hdict
    cases hdict
    refine ⟨_, rfl, ?_, ?_⟩
    · rw [hd, declaresNoId, Value.lookup_store, if_pos rfl]
      rfl
    · intro type _
      rw [Value.lookup_store, if_pos rfl]
      simp
  · next hd =>
    cases hmarked
    exact ⟨entries, hentries, by simp [hd], fun _ h => h⟩

end Message

namespace Action

variable {σ τ : Type} [Service σ] [Service τ]

/-- The ID of a message that was sent to a queue and received from one. Whoever sends it, with whatever
history, it is the ID of the record unless the sender declines one, now or in an earlier send; then it is the
ID that the message had before the send. So the receiver assigns an ID exactly when the sender did not decline
one only as long as no earlier send, and no ID from one, is left in the message. -/
theorem received_messageId {queue ref : Ref} {q : Queue} {m : Message Value} {entries : List (Value × Value)}
    {w w' : World σ} (hq : w.store.object? queue = some (.queue q))
    (hm : w.store.object? ref = some (.message m)) (hclass : m.diagnosis = none)
    (hentries : m.properties = .dict entries)
    (hobjects : ∀ type, Value.lookup idDisabledKey entries ≠ some (.record type []))
    (hsend : (send (.shared queue) (.shared ref)).run w = .ok () w') {sent : Entry} {url : Value} {wire : Text}
    (hsent : sent ∈ heard (send (.shared queue) (.shared ref)) w)
    (hcall : sent.event = .call (.sendMessage url wire))
    {c : Connector} {source : Value} {timeout : Int} {v : World τ}
    (hsound : ∀ e ∈ heard (receive c source timeout) v, e.Orderly) {before after : List Entry} {e : Entry}
    {record id : Value} (hheard : heard (receive c source timeout) v = before ++ e :: after)
    (he : record ∈ e.records) (hrunning : e.running = true) (hbody : record.item "Body" = .ok (.text wire))
    (hid : record.item "MessageId" = .ok id) :
    ∃ ref' got v', (receive c source timeout).run v = .ok (some ref') v' ∧
      v'.store.object? ref' = some (.message got) ∧
      got.messageId = (if m.disableMessageId.truthy || Message.declaresNoId entries then m.messageId
        else .text ("ID:" ++ id.shown)) ∧
      (got.messageId = (if m.disableMessageId.truthy then .null else .text ("ID:" ++ id.shown)) ↔
        if m.disableMessageId.truthy then m.messageId = .null
        else Message.declaresNoId entries = true → m.messageId = .text ("ID:" ++ id.shown)) := by
  obtain ⟨m', s, hstamped, hwire⟩ := written_of_send hq hm hsend hsent hcall
  obtain ⟨entries', hentries', hdeclares, hobject⟩ := Message.declaresNoId_of_stamped hentries hstamped
  obtain ⟨marked, _, hparts⟩ := Message.stamped_eq_ok hstamped
  have hclass' : m'.diagnosis = none := by
    rw [hparts]
    exact hclass
  have hmessageId : m'.messageId = m.messageId := by rw [hparts]
  obtain ⟨read, hread, hcarries⟩ := Codec.carried hclass' hwire
  obtain ⟨readEntries, hreadEntries, hkeyed⟩ := hcarries.keyed
  obtain ⟨ref', got, v', hreceive, hconverted, hgot, _⟩ := (arrives hsound hheard he).kept he hrunning
  obtain ⟨handle, _, rfl⟩ := converted_eq_ok hbody hid hread hreadEntries hconverted
  have hsame := hcarries.properties
  rw [hreadEntries, hentries', Store.told_dict] at hsame
  have hdeclared := Message.declaresNoId_of_same hkeyed hsame
  rw [Message.declaresNoId_told s fun type => hobject type (hobjects type)] at hdeclared
  refine ⟨ref', _, v', hreceive, hgot, ?_, ?_⟩
  · rw [hdeclared, hdeclares, hcarries.messageId, hmessageId]
  · rw [hdeclared, hdeclares, hcarries.messageId, hmessageId]
    cases m.disableMessageId.truthy <;> cases Message.declaresNoId entries <;> simp

/-- A message that gets an ID again after a send without one. -/
def toggled : Message Value :=
  { kind := .text "message", body := .text "a", properties := .dict [(.text idDisabledKey, .bool true)],
    messageId := .null, timestamp := .null, disableMessageId := .bool false, disableTimestamp := .bool true,
    correlationId := .null, messageType := .null, destination := .null, diagnosis := none }

/-- A world with a bound queue and a message, in which some bodies wait. -/
def serving (waiting : List (Nat × Text)) : World Script :=
  { started := 0, elapsed := 0, timers := [], running := true, service := ⟨[], 0, waiting, 0⟩,
    store := ⟨[.queue ⟨.text "queue", .text "orders", .text "https://sqs/orders"⟩, .message toggled]⟩,
    serial := 0, patience := 0, trace := [] }

theorem heard_serving (wire : Text) :
    ∃ logs, heard (receive ⟨.int 1000, .null⟩ (.shared 0) 0) (serving [(1, wire)]) =
        [(serving [(1, wire)]).now (.call (pollOf ⟨.int 1000, .null⟩ (.text "https://sqs/orders")))] ++
          ⟨0, true, .answer (pollOf ⟨.int 1000, .null⟩ (.text "https://sqs/orders"))
            (.ok (Value.ofFields [("Messages", .list [Script.record 1 1 wire])]))⟩ :: logs ∧
      ∀ e ∈ logs, e.isLog := by
  have hresolve : (resolveQueue (.shared 0)).run (serving [(1, wire)]) =
      .ok (.text "https://sqs/orders") (serving [(1, wire)]) := by
    with_unfolding_all rfl
  have hround : (round ⟨.int 1000, .null⟩ (.shared 0) (.text "https://sqs/orders")).run (serving [(1, wire)]) =
      .ok (some (Script.record 1 1 wire))
        ((serving [(1, wire)]).after (pollOf ⟨.int 1000, .null⟩ (.text "https://sqs/orders"))) := by
    with_unfolding_all rfl
  have hexchange : (serving [(1, wire)]).exchange (pollOf ⟨.int 1000, .null⟩ (.text "https://sqs/orders")) =
      [(serving [(1, wire)]).now (.call (pollOf ⟨.int 1000, .null⟩ (.text "https://sqs/orders"))),
        ⟨0, true, .answer (pollOf ⟨.int 1000, .null⟩ (.text "https://sqs/orders"))
          (.ok (Value.ofFields [("Messages", .list [Script.record 1 1 wire])]))⟩] := by
    with_unfolding_all rfl
  have hcourse : Awaits ⟨.int 1000, .null⟩ (.shared 0) (.text "https://sqs/orders") 0
      (serving [(1, wire)]).elapsed (serving [(1, wire)]) _ _ := .record hround (World.trace_after ..)
  obtain ⟨logs, htrace, hlogs, _⟩ := receive_trace hresolve hcourse
  refine ⟨logs, ?_, hlogs⟩
  rw [heard_eq htrace, hexchange]
  rfl

theorem toggled_without_id :
    ∃ wire w' ref' got v', (send (.shared 0) (.shared 1)).run (serving []) = .ok () w' ∧
      (receive ⟨.int 1000, .null⟩ (.shared 0) 0).run (serving [(1, wire)]) = .ok (some ref') v' ∧
      v'.store.object? ref' = some (.message got) ∧ got.messageId = .null := by
  have hwritten : (Codec.serialize (toggled.map (serving []).store.expanded)).toOption.isSome = true := by
    decide +kernel
  cases hwire : Codec.serialize (toggled.map (serving []).store.expanded) with
  | error e =>
    rw [hwire] at hwritten
    cases hwritten
  | ok wire =>
    have hqueue : (serving []).store.object? 0 =
        some (.queue ⟨.text "queue", .text "orders", .text "https://sqs/orders"⟩) := rfl
    have hsend : (send (.shared 0) (.shared 1)).run (serving []) =
        .ok () (posted (serving []) (.text "https://sqs/orders") wire 1 toggled (.text "m-1")) := by
      refine (run_send_eq_ok hqueue).mpr ⟨1, toggled, toggled, .text "https://sqs/orders", serving [], wire, _,
        .text "m-1", rfl, rfl, rfl, ?_, hwire, rfl, ?_, rfl⟩
      · with_unfolding_all rfl
      · exact ⟨by with_unfolding_all rfl, fun _ => rfl⟩
    have hsent : (serving []).now (.call (.sendMessage (.text "https://sqs/orders") wire)) ∈
        heard (send (.shared 0) (.shared 1)) (serving []) := by
      have htrace := trace_posted (serving []) (.text "https://sqs/orders") wire 1 toggled (.text "m-1")
      rw [heard_eq (x := send (.shared 0) (.shared 1)) (by rw [hsend]; exact htrace)]
      exact List.mem_cons_self
    obtain ⟨logs, hheard, hlogs⟩ := heard_serving wire
    have hsound : ∀ e ∈ heard (receive ⟨.int 1000, .null⟩ (.shared 0) 0) (serving [(1, wire)]), e.Orderly := by
      rw [hheard]
      simp only [List.cons_append, List.nil_append, List.forall_mem_cons]
      refine ⟨trivial, ⟨_, rfl, .inr ⟨_, rfl, _, _, _, ⟨rfl, rfl⟩, rfl, rfl⟩⟩, fun e he => ?_⟩
      obtain ⟨_, _, _, hevent⟩ := hlogs e he
      rw [Entry.Orderly, hevent]
      trivial
    have hid : (Script.record 1 1 wire).item "MessageId" = .ok (.text "m-1") := rfl
    obtain ⟨ref', got, v', hreceive, hgot, hnone, _⟩ := received_messageId hqueue rfl rfl rfl
      (by simp [Value.lookup]) hsend hsent rfl hsound hheard (List.mem_singleton.mpr rfl) rfl rfl hid
    refine ⟨wire, _, ref', got, v', hsend, hreceive, hgot, ?_⟩
    rw [hnone]
    rfl

end Action

end MessageBus
