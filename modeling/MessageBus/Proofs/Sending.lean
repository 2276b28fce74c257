import MessageBus.Connector.Send
import MessageBus.Proofs.Lookup
import MessageBus.Proofs.SelfCheck
import MessageBus.Proofs.Wording

/-!
# Sending to a queue

A successful send to a queue stamps the message, looks up the queue, writes the message as it is then,
makes one request, and gives the message its ID (`run_send_eq_ok`).
-/

namespace MessageBus

namespace Store

theorem replace_replace (s : Store) (ref : Ref) (a b : Object) :
    (s.replace ref a).replace ref b = s.replace ref b := by
  simp [replace]

theorem replace_self {s : Store} {ref : Ref} {o : Object} (h : s.object? ref = some o) :
    s.replace ref o = s := by
  obtain ⟨hlt, hget⟩ := List.getElem?_eq_some_iff.mp h
  rw [replace, ← hget, List.set_getElem_self]

theorem ne_of_message {s : Store} {queue ref : Ref} {q : Queue} {m : Message Value}
    (hq : s.object? queue = some (.queue q)) (hm : s.object? ref = some (.message m)) : queue ≠ ref := by
  rintro rfl
  rw [hq] at hm
  cases hm

theorem object?_replace_self {s : Store} {ref : Ref} {a b : Object} (h : s.object? ref = some a) :
    (s.replace ref b).object? ref = some b := by
  rw [object?_replace, if_pos rfl, h]
  rfl

theorem object?_replace_other {s : Store} {ref other : Ref} (b : Object) (h : ref ≠ other) :
    (s.replace ref b).object? other = s.object? other := by
  rw [object?_replace, if_neg h]

theorem object?_add_of_some {s : Store} {ref : Ref} {a : Object} (h : s.object? ref = some a) (o : Object) :
    (s.add o).2.object? ref = some a := by
  have hlt : ref < s.objects.length := (List.getElem?_eq_some_iff.mp h).1
  have hother : ref ≠ (s.add o).1 := Nat.ne_of_lt hlt
  rw [object?_add, if_neg hother, h]

end Store

namespace World

variable {σ : Type}

@[simp] theorem put_put (w : World σ) (ref : Ref) (a b : Object) : (w.put ref a).put ref b = w.put ref b := by
  simp [put, Store.replace_replace]

theorem put_self {w : World σ} {ref : Ref} {o : Object} (h : w.store.object? ref = some o) :
    w.put ref o = w := by
  rw [put, Store.replace_self h]

theorem queue_put {w : World σ} {queue ref : Ref} {q : Queue} {m marked : Message Value}
    (hq : w.store.object? queue = some (.queue q)) (hm : w.store.object? ref = some (.message m)) :
    (w.put ref (.message marked)).store.object? queue = some (.queue q) := by
  rw [store_put, Store.object?_replace_other _ (Store.ne_of_message hq hm).symm, hq]

end World

namespace Message

/-- The message with a note that it gets no ID, if it wants none. -/
def noted (m : Message Value) : Except Fault (Message Value) :=
  if m.disableMessageId.truthy then m.withProperty idDisabledKey (.bool true) else .ok m

/-- The message with the time of sending, unless it wants none. -/
def dated (now : Int) (m : Message Value) : Message Value :=
  if m.disableTimestamp.truthy then m else { m with timestamp := .int now }

/-- The message as it is when it is written. -/
def stamped (now : Int) (m : Message Value) : Except Fault (Message Value) := m.noted.map (dated now)

/-- An answered ID becomes that of the message if the message wants one: then it has to be told. -/
def Takes (m : Message Value) (id : Value) : Prop := m.disableMessageId.truthy = false → id.Tellable

/-- An answered ID becomes that of the message, or the message wants one and it has no words. -/
theorem takes_or_wordless (m : Message Value) (id : Value) :
    m.Takes id ∨ m.disableMessageId.truthy = false ∧ ∃ f, id.inWords = .error f := by
  cases hwords : id.inWords with
  | ok t => exact .inl fun _ => Value.tellable_of_inWords hwords
  | error f =>
    cases hd : m.disableMessageId.truthy with
    | true => exact .inl fun hwants => by cases hd.symm.trans hwants
    | false => exact .inr ⟨rfl, f, rfl⟩

/-- The message with an ID unless it wants none. -/
def identified (id : Text) (m : Message Value) : Message Value :=
  if m.disableMessageId.truthy then m else { m with messageId := .text ("ID:" ++ id) }

theorem withProperty_eq_ok {m m' : Message Value} {key : Text} {v : Value} (h : m.withProperty key v = .ok m') :
    ∃ entries, m.properties = .dict entries ∧
      m' = { m with properties := .dict (Value.store key v entries) } := by
  unfold withProperty at h
  split at h
  · next entries hentries => exact ⟨entries, hentries, (Except.ok.inj h).symm⟩
  · cases h

/-- A note that a message gets no ID changes nothing but its properties. -/
theorem noted_eq_ok {m m' : Message Value} (h : m.noted = .ok m') :
    m' = { m with properties := m'.properties } := by
  unfold noted at h
  split at h
  · obtain ⟨entries, _, rfl⟩ := withProperty_eq_ok h
    rfl
  · cases h
    rfl

theorem timestamp_dated (m : Message Value) (now : Int) :
    (m.dated now).timestamp = if m.disableTimestamp.truthy then m.timestamp else .int now := by
  unfold dated
  split <;> rfl

/-- A stamp changes nothing but the properties and the timestamp. -/
theorem stamped_eq_ok {now : Int} {m m' : Message Value} (h : m.stamped now = .ok m') :
    ∃ marked, m.noted = .ok marked ∧
      m' = { m with properties := marked.properties, timestamp := (m.dated now).timestamp } := by
  obtain ⟨marked, hmarked, rfl⟩ := map_eq_ok.mp h
  refine ⟨marked, hmarked, ?_⟩
  rw [noted_eq_ok hmarked, dated, dated]
  split <;> rfl

/-- The bag of properties with a note that there is no ID, if the message wants none. -/
def notedEntries (m : Message Value) (entries : List (Value × Value)) : List (Value × Value) :=
  if m.disableMessageId.truthy then Value.store idDisabledKey (.bool true) entries else entries

/-- A message with a bag of properties can always be stamped. -/
theorem stamped_of_dict {m : Message Value} {entries : List (Value × Value)} (h : m.properties = .dict entries)
    (now : Int) :
    m.stamped now = .ok
      { m with properties := .dict (m.notedEntries entries), timestamp := (m.dated now).timestamp } := by
  rw [stamped, noted, notedEntries]
  split
  · rw [withProperty, h]
    simp only [Except.map, dated]
    split <;> rfl
  · rw [← h]
    simp only [Except.map, dated]
    split <;> rfl

theorem identified_eq (m : Message Value) (id : Text) :
    m.identified id = { m with messageId := (m.identified id).messageId } := by
  unfold identified
  split <;> rfl

theorem messageId_identified (m : Message Value) (id : Text) :
    (m.identified id).messageId = if m.disableMessageId.truthy then m.messageId else .text ("ID:" ++ id) := by
  unfold identified
  split <;> rfl

end Message

namespace Action

variable {σ : Type}

theorem run_date {ref : Ref} {m : Message Value} {w : World σ} (h : w.store.object? ref = some (.message m)) :
    (do
      if !m.disableTimestamp.truthy then
        let now := (← get).wallClock
        changeMessage ref fun m => .ok { m with timestamp := .int now }
      pure ref : Action σ Ref).run w = .ok ref (w.put ref (.message (m.dated w.wallClock))) := by
  cases hd : m.disableTimestamp.truthy with
  | true => simp [Message.dated, hd, World.put_self h]
  | false =>
    rw [Message.dated, hd]
    have hchange := run_changeMessage (f := fun m => .ok { m with timestamp := .int w.wallClock }) h rfl
    simp only [Bool.not_false, if_true, run_bind_of_ok (EStateM.run_get w)]
    rw [run_bind_of_ok hchange]
    rfl

/-- Stamping leaves the stamped message in the place of the message. -/
theorem run_stamp {ref : Ref} {m : Message Value} {w : World σ}
    (h : w.store.object? ref = some (.message m)) :
    (stamp (.shared ref)).run w =
      match m.stamped w.wallClock with
      | .ok m' => .ok ref (w.put ref (.message m'))
      | .error f => .error f w := by
  rw [stamp, run_bind_of_ok (run_message h), Message.stamped, Message.noted]
  dsimp only
  by_cases hid : m.disableMessageId.truthy = true
  · rw [if_pos hid, if_pos hid]
    cases hm : m.withProperty idDisabledKey (.bool true) with
    | error f => rw [run_bind_of_error (run_changeMessage_error (f := fun m => m.withProperty _ _) h hm)]; rfl
    | ok m' =>
      have hsame : m'.disableTimestamp = m.disableTimestamp := by
        obtain ⟨_, _, rfl⟩ := Message.withProperty_eq_ok hm
        rfl
      have hput : (w.put ref (.message m')).store.object? ref = some (.message m') :=
        Store.object?_replace_self h
      have hdate := run_date hput
      rw [World.put_put] at hdate
      rw [run_bind_of_ok (run_changeMessage (f := fun m => m.withProperty _ _) h hm), ← hsame]
      exact hdate
  · rw [if_neg hid, if_neg hid]
    exact run_date h

theorem run_stamp_eq_ok {x : Value} {ref : Ref} {w v : World σ} :
    (stamp x).run w = .ok ref v ↔
      ∃ m m', x = .shared ref ∧ w.store.object? ref = some (.message m) ∧ m.stamped w.wallClock = .ok m' ∧
        v = w.put ref (.message m') := by
  constructor
  · intro h
    obtain ⟨⟨ref', m⟩, u, hmessage, _⟩ := run_bind_eq_ok.mp h
    obtain ⟨rfl, hobject, _⟩ := run_message_eq_ok.mp hmessage
    rw [run_stamp hobject] at h
    split at h
    · next m' hm' =>
      cases h
      exact ⟨m, m', rfl, hobject, hm', rfl⟩
    · cases h
  · rintro ⟨m, m', rfl, hobject, hm', rfl⟩
    rw [run_stamp hobject, hm']

theorem run_assignId {ref : Ref} {m : Message Value} {w : World σ} {id : Except Fault Text} {t : Text}
    (h : w.store.object? ref = some (.message m)) (hid : m.disableMessageId.truthy = false → id = .ok t) :
    (assignId ref id).run w = .ok () (w.put ref (.message (m.identified t))) := by
  refine run_changeMessage h ?_
  cases hd : m.disableMessageId.truthy with
  | true => simp [Message.identified, hd]
  | false =>
    rw [hid hd]
    simp [Message.identified, hd, bind, Except.bind]

theorem run_assignId_error {ref : Ref} {m : Message Value} {w : World σ} {f : Fault}
    (h : w.store.object? ref = some (.message m)) (hd : m.disableMessageId.truthy = false) :
    (assignId ref (.error f)).run w = .error f w :=
  run_changeMessage_error h (by simp [hd, bind, Except.bind])

variable [Service σ]

/-- The log line of a message that was handed over. -/
abbrev sentLine (id : Value) : Except Fault Text := id.inWords.map fun t => "Sent message to SQS " ++ t

/-- The world after a message was handed over to a queue. -/
def posted (v : World σ) (url : Value) (wire : Text) (ref : Ref) (m : Message Value) (id : Value) : World σ :=
  ((v.after (.sendMessage url wire)).put ref (.message (m.identified id.shown))).note .info .connector (sentLine id)

theorem trace_posted (v : World σ) (url : Value) (wire : Text) (ref : Ref) (m : Message Value) (id : Value) :
    (posted v url wire ref m id).trace =
      v.trace ++ (v.exchange (.sendMessage url wire) ++
        (v.after (.sendMessage url wire)).noted .info .connector (sentLine id)) := by
  rw [posted, World.trace_note, World.trace_put, World.trace_after, List.append_assoc]
  rfl

/-- What is sent to a queue is the wire form of the message as it is after the lookup. -/
theorem run_sendToQueue_eq_ok {queue ref : Ref} {q : Queue} {m : Message Value} {w w' : World σ}
    (hm : w.store.object? ref = some (.message m)) (hother : queue ≠ ref) :
    (sendToQueue queue q ref).run w = .ok () w' ↔
      ∃ url v wire answer id, (urlOf queue q).run w = .ok url v ∧
        Codec.serialize (m.map v.store.expanded) = .ok wire ∧
        (v.reply (.sendMessage url wire)).outcome = .ok answer ∧
        (answer.item "MessageId" = .ok id ∧ m.Takes id) ∧ w' = posted v url wire ref m id := by
  have hkept {url : Value} {v : World σ} (hurl : (urlOf queue q).run w = .ok url v) :
      v.store.object? ref = some (.message m) := by
    have hframe := (hurl ▸ urlEnds queue q w).frame hother
    rw [left, hm] at hframe
    exact hframe
  constructor
  · intro h
    obtain ⟨url, v, hurl, hmessage⟩ := run_bind_eq_ok.mp h
    have hv := hkept hurl
    rw [run_bind_of_ok (run_message hv)] at hmessage
    obtain ⟨wire, v', hserialize, hrequest⟩ := run_bind_eq_ok.mp hmessage
    obtain ⟨hwire, rfl⟩ := run_serialize_eq_ok.mp hserialize
    obtain ⟨answer, u, hreply, hitem⟩ := run_bind_eq_ok.mp hrequest
    obtain ⟨hanswer, rfl⟩ := run_request_eq_ok.mp hreply
    obtain ⟨id, u', hlift, hassign⟩ := run_bind_eq_ok.mp hitem
    obtain ⟨hid, rfl⟩ := run_lift_eq_ok.mp hlift
    have hafter : (v'.after (.sendMessage url wire)).store.object? ref = some (.message m) := hv
    obtain htakes | ⟨hd, f, hwords⟩ := m.takes_or_wordless id
    case inr =>
      rw [hwords, run_bind_of_error (run_assignId_error hafter hd)] at hassign
      cases hassign
    rw [run_bind_of_ok (run_assignId hafter htakes), run_logTold] at hassign
    cases hassign
    exact ⟨url, v', wire, answer, id, hurl, hwire, hanswer, ⟨hid, htakes⟩, rfl⟩
  · rintro ⟨url, v, wire, answer, id, hurl, hwire, hanswer, ⟨hid, htakes⟩, rfl⟩
    have hv := hkept hurl
    have hafter : (v.after (.sendMessage url wire)).store.object? ref = some (.message m) := hv
    rw [sendToQueue, run_bind_of_ok hurl, run_bind_of_ok (run_message hv),
      run_bind_of_ok (run_serialize_eq_ok.mpr ⟨hwire, rfl⟩), run_bind_of_ok (run_request_ok _ hanswer), hid,
      run_bind_of_ok (run_lift_ok _ _), run_bind_of_ok (run_assignId hafter htakes), run_logTold]
    rfl

theorem run_send_of_stamped {queue ref : Ref} {q : Queue} {x : Value} {w u : World σ}
    (hstamp : (stamp x).run w = .ok ref u) (hq : u.store.object? queue = some (.queue q)) :
    (send (.shared queue) x).run w = (sendToQueue queue q ref).run u := by
  have hnull : ¬ (Value.shared queue).isNull = true := by simp [Value.isNull]
  rw [send, if_neg hnull, run_bind_of_ok hstamp, run_bind_of_ok (run_find? _ _), Store.find?, hq]

theorem run_send_of_unstamped {queue : Ref} {x : Value} {f : Fault} {w u : World σ}
    (hstamp : (stamp x).run w = .error f u) : (send (.shared queue) x).run w = .error f u := by
  have hnull : ¬ (Value.shared queue).isNull = true := by simp [Value.isNull]
  rw [send, if_neg hnull, run_bind_of_error hstamp]

/-- A send to a queue is a stamp, a lookup, a wire form and one request, in that order. -/
theorem run_send_eq_ok {queue : Ref} {q : Queue} {x : Value} {w w' : World σ}
    (hq : w.store.object? queue = some (.queue q)) :
    (send (.shared queue) x).run w = .ok () w' ↔
      ∃ ref m m' url v wire answer id, x = .shared ref ∧ w.store.object? ref = some (.message m) ∧
        m.stamped w.wallClock = .ok m' ∧ (urlOf queue q).run (w.put ref (.message m')) = .ok url v ∧
        Codec.serialize (m'.map v.store.expanded) = .ok wire ∧
        (v.reply (.sendMessage url wire)).outcome = .ok answer ∧
        (answer.item "MessageId" = .ok id ∧ m'.Takes id) ∧ w' = posted v url wire ref m' id := by
  have hstamped {ref : Ref} {m : Message Value} (m' : Message Value)
      (hm : w.store.object? ref = some (.message m)) :
      queue ≠ ref ∧ (w.put ref (.message m')).store.object? queue = some (.queue q) ∧
        (w.put ref (.message m')).store.object? ref = some (.message m') :=
    ⟨Store.ne_of_message hq hm, World.queue_put hq hm, Store.object?_replace_self hm⟩
  constructor
  · intro h
    cases hstamp : (stamp x).run w with
    | error f u =>
      rw [run_send_of_unstamped hstamp] at h
      cases h
    | ok ref u =>
      obtain ⟨m, m', rfl, hm, hm', rfl⟩ := run_stamp_eq_ok.mp hstamp
      obtain ⟨hother, hqueue, hmessage⟩ := hstamped m' hm
      rw [run_send_of_stamped hstamp hqueue] at h
      obtain ⟨url, v, wire, answer, id, hpost⟩ := (run_sendToQueue_eq_ok hmessage hother).mp h
      exact ⟨ref, m, m', url, v, wire, answer, id, rfl, hm, hm', hpost⟩
  · rintro ⟨ref, m, m', url, v, wire, answer, id, rfl, hm, hm', hpost⟩
    obtain ⟨hother, hqueue, hmessage⟩ := hstamped m' hm
    rw [run_send_of_stamped (run_stamp_eq_ok.mpr ⟨m, m', rfl, hm, hm', rfl⟩) hqueue]
    exact (run_sendToQueue_eq_ok hmessage hother).mpr ⟨url, v, wire, answer, id, hpost⟩

/-- The body that a send to a queue requests to send is the wire form of the stamped message. -/
theorem written_of_send {queue ref : Ref} {q : Queue} {m : Message Value} {w w' : World σ}
    (hq : w.store.object? queue = some (.queue q)) (hm : w.store.object? ref = some (.message m))
    (h : (send (.shared queue) (.shared ref)).run w = .ok () w') {e : Entry} {url : Value} {wire : Text}
    (he : e ∈ heard (send (.shared queue) (.shared ref)) w) (hcall : e.event = .call (.sendMessage url wire)) :
    ∃ m' s, m.stamped w.wallClock = .ok m' ∧ Codec.serialize (m'.map (Store.expanded s)) = .ok wire := by
  obtain ⟨_, m₀, m', url', v, wire', answer, id, hx, hm₀, hm', hurl, hwire, _, _, rfl⟩ :=
    (run_send_eq_ok hq).mp h
  cases hx
  rw [hm] at hm₀
  cases hm₀
  obtain ⟨looked, hlookup, hlooked⟩ := (hurl ▸ urlEnds queue q (w.put ref (.message m'))).trace
  have hentries : (left ((send (.shared queue) (.shared ref)).run w)).trace =
      w.trace ++ (looked ++ (v.exchange (.sendMessage url' wire') ++
        (v.after (.sendMessage url' wire')).noted .info .connector (sentLine id))) := by
    have hv : v.trace = w.trace ++ looked := hlookup
    rw [h, left, trace_posted, hv, List.append_assoc]
  rw [heard_eq hentries] at he
  have hwritten : wire = wire' := by
    obtain he | he := List.mem_append.mp he
    · obtain hmem | ⟨_, _, _, hlog⟩ := hlooked e he
      · simp only [World.exchange, List.mem_cons, List.not_mem_nil, or_false] at hmem
        obtain rfl | rfl := hmem <;> cases hcall
      · rw [hlog] at hcall
        cases hcall
    · obtain he | he := List.mem_append.mp he
      · simp only [World.exchange, List.mem_cons, List.not_mem_nil, or_false] at he
        obtain rfl | rfl := he <;> cases hcall
        rfl
      · obtain ⟨_, _, _, hlog⟩ := World.isLog_of_mem_noted he
        rw [hlog] at hcall
        cases hcall
  exact ⟨m', v.store, hm', hwritten ▸ hwire⟩

/-- A send to a queue changes no object but the queue, which stays a queue, and the message. -/
theorem send_frame {queue : Ref} {q : Queue} {x : Value} {w w' : World σ}
    (hq : w.store.object? queue = some (.queue q)) (h : (send (.shared queue) x).run w = .ok () w') :
    (∃ found, w'.store.object? queue = some (.queue found)) ∧
      ∀ other, queue ≠ other → x ≠ .shared other → w'.store.object? other = w.store.object? other := by
  obtain ⟨ref, m, m', url, v, wire, answer, id, rfl, hm, _, hurl, _, _, _, rfl⟩ := (run_send_eq_ok hq).mp h
  have hends := hurl ▸ urlEnds queue q (w.put ref (.message m'))
  have hself : ref ≠ queue := (Store.ne_of_message hq hm).symm
  have hposted {other : Ref} (hother : ref ≠ other) :
      (posted v url wire ref m' id).store.object? other = v.store.object? other :=
    Store.object?_replace_other _ hother
  refine ⟨?_, fun other hqueue hx => ?_⟩
  · rw [hposted hself]
    exact hends.queue (World.queue_put hq hm)
  · have hother : ref ≠ other := fun heq => hx (by rw [heq])
    have hlookup : v.store.object? other = (w.put ref (.message m')).store.object? other := hends.frame hqueue
    rw [hposted hother, hlookup, World.store_put, Store.object?_replace_other _ hother]

/-- Sends to a queue change no object but the queue, which stays a queue, and the messages. -/
theorem sendAll_frame {queue : Ref} {q : Queue} {xs : List Value} {w w' : World σ}
    (hq : w.store.object? queue = some (.queue q)) (h : (sendAll (.shared queue) xs).run w = .ok () w') :
    (∃ found, w'.store.object? queue = some (.queue found)) ∧
      ∀ other, queue ≠ other → .shared other ∉ xs → w'.store.object? other = w.store.object? other := by
  induction xs generalizing w q with
  | nil =>
    cases h
    exact ⟨⟨q, hq⟩, fun _ _ _ => rfl⟩
  | cons x xs ih =>
    obtain ⟨_, v, hsend, hrest⟩ := run_bind_eq_ok.mp h
    obtain ⟨⟨found, hfound⟩, hframe⟩ := send_frame hq hsend
    obtain ⟨hqueue, hframes⟩ := ih hfound hrest
    refine ⟨hqueue, fun other hother hmem => ?_⟩
    rw [List.mem_cons, not_or] at hmem
    rw [hframes other hother hmem.2, hframe other hother (Ne.symm hmem.1)]

theorem sendAll_append (destination : Value) (xs ys : List Value) :
    (sendAll destination (xs ++ ys) : Action σ Unit) =
      sendAll destination xs >>= fun _ => sendAll destination ys := by
  induction xs with
  | nil => simp [sendAll]
  | cons x xs ih => rw [List.cons_append, sendAll, ih, sendAll, bind_assoc]

/-- A message that is sent once is left alone by the sends after its own. -/
theorem sendAll_take {queue ref : Ref} {q : Queue} {refs : List Ref} {i : Nat} {w w' : World σ}
    (hq : w.store.object? queue = some (.queue q)) (hdistinct : refs.Nodup) (hi : refs[i]? = some ref)
    (hother : queue ≠ ref) (h : (sendAll (.shared queue) (refs.map .shared)).run w = .ok () w') :
    ∃ u, (sendAll (.shared queue) ((refs.take (i + 1)).map .shared)).run w = .ok () u ∧
      w'.store.object? ref = u.store.object? ref := by
  have hsplit : refs.take (i + 1) ++ refs.drop (i + 1) = refs := List.take_append_drop ..
  rw [← hsplit, List.map_append, sendAll_append] at h
  obtain ⟨_, u, hfirst, hrest⟩ := run_bind_eq_ok.mp h
  obtain ⟨⟨found, hfound⟩, _⟩ := sendAll_frame hq hfirst
  refine ⟨u, hfirst, (sendAll_frame hfound hrest).2 ref hother fun hmem => ?_⟩
  obtain ⟨other, hdrop, heq⟩ := List.mem_map.mp hmem
  cases heq
  have htake : ref ∈ refs.take (i + 1) := by
    refine List.mem_of_getElem? (i := i) ?_
    rw [List.getElem?_take_of_lt (Nat.lt_succ_self i), hi]
  rw [← hsplit] at hdistinct
  exact (List.nodup_append.mp hdistinct).2.2 ref htake ref hdrop rfl

end Action

end MessageBus
