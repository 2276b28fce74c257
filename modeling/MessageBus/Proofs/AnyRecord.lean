import MessageBus.Proofs.Acknowledging
import MessageBus.Proofs.MessageIds
import MessageBus.Proofs.PollTrace

/-!
# Whatever a queue delivers

Every record with texts for its ID, its receipt handle and its body can be received and acknowledged, whatever
the body says. A record that arrives on a running connection is the result of the receive
(`RoundEnds.keeps`, `Awaits.keeps`). It becomes a message or a stand-in (`Admitted`), which is acknowledged
with one request.
-/

namespace MessageBus

namespace Codec

theorem tellable_of_decodePayload {payload : Value} {detail : Detail} (h : decodePayload payload = .error detail) :
    detail.words.Tellable := by
  have hdecoded {x : Except Json.ReadError Value} (hx : decoded x = .error detail) : detail.words.Tellable := by
    unfold decoded at hx
    split at hx <;> cases hx <;> exact Value.tellable_text _
  unfold decodePayload at h
  split at h
  · exact hdecoded h
  · split at h
    · exact hdecoded h
    · cases h
      exact Value.tellable_text _
  · cases h
    exact Value.tellable_text _

theorem error_of_deserialize {payload : Value} {e : BusError} (h : deserialize payload = .error e) :
    e.kind = .serialization ∧ e.context ≠ [] ∧ e.detail.words.Tellable := by
  have hundecodable : undecodable ≠ [] := by decide
  have hnull : ("Deserialized object is null" : Text) ≠ [] := by decide
  have hexpected (rest : Text) : ("Expected object of type MessageDTO, got" ++ rest : Text) ≠ [] := by
    have hne : ("Expected object of type MessageDTO, got" : Text) ≠ [] := by decide
    exact List.append_ne_nil_of_left_ne_nil hne rest
  unfold deserialize at h
  split at h
  · next hpayload =>
    cases h
    exact ⟨rfl, hundecodable, tellable_of_decodePayload hpayload⟩
  · unfold ofDecoded at h
    split at h
    · cases h
      exact ⟨rfl, hnull, Value.tellable_null⟩
    · split at h
      · split at h
        · split at h
          · cases h
          · cases h
            exact ⟨rfl, hexpected _, Value.tellable_text _⟩
        · cases h
          rw [List.append_assoc]
          exact ⟨rfl, hexpected _, Value.tellable_null⟩
      · cases h
        rw [List.append_assoc]
        exact ⟨rfl, hexpected _, Value.tellable_null⟩

end Codec

namespace Store

theorem eq_text_of_expanded {s : Store} {v : Value} {t : Text} (h : s.expanded v = .text t) : v = .text t := by
  unfold expanded at h
  cases hd : s.objects.length with
  | zero =>
    rw [hd] at h
    exact h
  | succ n =>
    rw [hd, expand] at h
    cases v with
    | text u => simpa [Value.replaceShared] using h
    | shared ref =>
      simp only [Value.replaceShared] at h
      split at h <;> cases h
    | _ => simp [Value.replaceShared] at h

end Store

/-- What a message is that was made of a record with these texts, by what its body is read as. -/
structure Admitted (queue : Value) (id handle body : Text) (got : Message Value) : Prop where
  /-- A body that is read gives its message. The ID, the receipt handle and the queue come from the record,
  whatever the body says of them. -/
  read : ∀ m, Codec.deserialize (.text body) = .ok m → m.diagnosis = none ∧
    ∃ entries, m.properties = .dict entries ∧
      got = { m.mapDestination fun _ => queue with
        messageId := if Message.declaresNoId entries then m.messageId else .text ("ID:" ++ id)
        properties := .dict (Value.store receiptKey (.text handle) entries) }
  /-- Any other body gives a stand-in, which tells the error that the reader of the body ended in. -/
  unread : ∀ e, Codec.deserialize (.text body) = .error e → e.kind = .serialization ∧
    got.type = .standIn ∧ got.body = .null ∧ got.messageId = .text ("ID:" ++ id) ∧
    ∃ d, got.diagnosis = some d ∧ d.error = .text e.message ∧ d.causeContext = .text e.context ∧
      d.detail = e.detail ∧ d.causeMessage = .ok (.text e.message)
  receipt : got.receiptHandle = .ok (.text handle)
  destination : got.destination = queue

/-- A stand-in for a payload tells the error of the payload in full. -/
theorem Diagnosis.of_deserialize {payload : Value} {e : BusError} (h : Codec.deserialize payload = .error e) :
    (ofError e).causeContext = .text e.context ∧ (ofError e).causeMessage = .ok (.text e.message) := by
  obtain ⟨-, hne, hwords⟩ := Codec.error_of_deserialize h
  have hcontext : (ofError e).causeContext = .text e.context := by
    simp [causeContext, ofError, Value.truthy, hne]
  have hdetail : (ofError e).detail.words.inWords = .ok e.detail.words.shown := hwords
  refine ⟨hcontext, ?_⟩
  rw [causeMessage, hcontext, Value.inWords_text, hdetail, BusError.message]
  change (if e.detail.isTold = true then _ else _) = _
  split <;> rfl

theorem admitted (queue : Value) {record : Value} {id handle body : Text}
    (hid : record.item "MessageId" = .ok (.text id))
    (hhandle : record.item "ReceiptHandle" = .ok (.text handle)) (hbody : record.item "Body" = .ok (.text body)) :
    ∃ got, converted record queue = .ok got ∧ Admitted queue id handle body got := by
  obtain ⟨entries, hentries⟩ := Codec.properties_readOrStandIn (.text body)
  refine ⟨_, by rw [converted, hbody]; exact received_eq hid (Value.tellable_text id) hhandle hentries, ?_⟩
  constructor
  case read =>
    intro m hm
    have hstand : Codec.readOrStandIn (.text body) = m := by rw [Codec.readOrStandIn, hm]
    obtain ⟨v, hcheck⟩ := Codec.check_of_deserialize hm
    obtain ⟨_, -, -, hdiagnosis⟩ := Message.check_eq_ok.mp hcheck
    rw [hstand] at hentries ⊢
    exact ⟨hdiagnosis, entries, hentries, rfl⟩
  case unread =>
    intro e he
    have hstand : Codec.readOrStandIn (.text body) = .standIn e := by rw [Codec.readOrStandIn, he]
    obtain ⟨hcontext, hmessage⟩ := Diagnosis.of_deserialize he
    rw [hstand] at hentries ⊢
    cases hentries
    exact ⟨(Codec.error_of_deserialize he).1, rfl, rfl, rfl, _, rfl, rfl, hcontext, rfl, hmessage⟩
  case receipt => simp [Message.receiptHandle, Message.property, Value.lookup_store]
  case destination => rfl

namespace Action

variable {σ : Type} [Service σ] {c : Connector} {queue url : Value} {timeout : Int} {start : Rat}

/-! ## A record that arrives while the connection is running -/

/-- An entry is the answer to a poll that hands out a record while the connection is running. -/
structure Arrival (e : Entry) (url record : Value) : Prop where
  answered : ∃ wait answer, e.event = .answer (.receiveMessage url wait) (.ok answer) ∧
    handedOut answer = .ok (some record)
  running : e.running = true

theorem Arrival.not_log {e : Entry} {record : Value} (h : Arrival e url record) : ¬ e.isLog := by
  rintro ⟨_, _, _, hlog⟩
  obtain ⟨_, _, hevent, _⟩ := h.answered
  rw [hlog] at hevent
  cases hevent

theorem Arrival.of_exchange {w : World σ} {q : Request} {e : Entry} {record : Value} (h : Arrival e url record)
    (he : e ∈ w.exchange q) : (w.after q).running = true ∧ ∃ wait answer, q = .receiveMessage url wait ∧
      (w.reply q).outcome = .ok answer ∧ handedOut answer = .ok (some record) := by
  obtain ⟨wait, answer, hevent, hrecord⟩ := h.answered
  simp only [World.exchange, List.mem_cons, List.not_mem_nil, or_false] at he
  rcases he with rfl | rfl
  · cases hevent
  · injection hevent with hq ho
    exact ⟨h.running, wait, answer, hq, ho, hrecord⟩

theorem Round.arrival {w v : World σ} {es : List Entry} {e : Entry} {record asked : Value}
    (h : Round c url w es v) (he : e ∈ es) (ha : Arrival e asked record) :
    asked = url ∧ (w.after (pollOf c url)).running = true ∧
      ∃ answer, (w.reply (pollOf c url)).outcome = .ok answer ∧ handedOut answer = .ok (some record) := by
  have hpoll (hmem : e ∈ w.exchange (pollOf c url)) : asked = url ∧ (w.after (pollOf c url)).running = true ∧
      ∃ answer, (w.reply (pollOf c url)).outcome = .ok answer ∧ handedOut answer = .ok (some record) := by
    obtain ⟨hrunning, wait, answer, hq, ho, hrecord⟩ := ha.of_exchange hmem
    injection hq with hurl
    exact ⟨hurl.symm, hrunning, answer, ho, hrecord⟩
  cases h with
  | stopped hw hv => exact absurd (hv.isLog e he) ha.not_log
  | polled hw hv =>
    rcases List.mem_append.mp he with he | he
    · exact hpoll he
    · exact absurd (hv.isLog e he) ha.not_log
  | released hw hstop hv =>
    rcases List.mem_append.mp he with he | he
    · exact hpoll he
    · rcases List.mem_append.mp he with he | he
      · obtain ⟨_, _, _, hq, _⟩ := ha.of_exchange he
        cases hq
      · exact absurd (hv.isLog e he) ha.not_log

theorem RoundEnds.keeps {w : World σ} {r : EStateM.Result Fault (World σ) (Option Value)} {es : List Entry}
    {e : Entry} {record asked : Value} (h : RoundEnds c queue url w r) (hes : (left r).trace = w.trace ++ es)
    (he : e ∈ es) (ha : Arrival e asked record) :
    asked = url ∧ r = .ok (some record) (w.after (pollOf c url)) := by
  have hround : Round c url w es (left r) := by
    obtain ⟨es', hround⟩ := h.round
    rw [hround.trace, List.append_cancel_left_eq] at hes
    rwa [← hes]
  obtain ⟨hurl, hrunning, answer, hanswer, hrecord⟩ := hround.arrival he ha
  refine ⟨hurl, ?_⟩
  cases h with
  | stopped hw =>
    cases hround with
    | stopped _ hv => exact absurd (hv.isLog e he) ha.not_log
    | polled hw' => simp [hw] at hw'
    | released hw' => simp [hw] at hw'
  | failed hw ho hc => simp [hanswer] at ho
  | untold hw ho hc => simp [hanswer] at ho
  | malformed hw ho hnone =>
    rw [hanswer] at ho
    cases ho
    simp [hrecord] at hnone
  | empty hw ho hnone =>
    rw [hanswer] at ho
    cases ho
    simp [hrecord] at hnone
  | kept hw ho hsome hv =>
    rw [hanswer] at ho
    cases ho
    rw [hrecord] at hsome
    cases hsome
    rfl
  | released hw ho hsome hv hh hr => simp [hrunning] at hv
  | hidden hw ho hsome hv hh hr ht => simp [hrunning] at hv
  | lost hw ho hsome hv hh hr ht => simp [hrunning] at hv
  | handleless hw ho hsome hv hh => simp [hrunning] at hv

/-- A record that arrives in the loop while the connection is running is what the loop gives. -/
theorem Awaits.keeps {w : World σ} {es : List Entry} {r : EStateM.Result Fault (World σ) (Option Value)}
    {e : Entry} {record asked : Value} (h : Awaits c queue url timeout start w es r) (he : e ∈ es)
    (ha : Arrival e asked record) : asked = url ∧ ∃ v, r = .ok (some record) v ∧ v.store = w.store := by
  have hround {w v : World σ} {es : List Entry} {r : EStateM.Result Fault (World σ) (Option Value)}
      (hr : (round c queue url).run w = r) (hv : left r = v) (hes : v.trace = w.trace ++ es) (he : e ∈ es) :
      asked = url ∧ r = .ok (some record) (w.after (pollOf c url)) := by
    have hends := roundEnds c queue url w
    rw [hr] at hends
    exact hends.keeps (hv ▸ hes) he ha
  have hsleep (w : World σ) (ms : Rat) : e ≠ w.now (.sleep ms) := by
    rintro rfl
    obtain ⟨_, _, hevent, _⟩ := ha.answered
    cases hevent
  induction h with
  | fault hr hes => cases (hround hr rfl hes he).2
  | record hr hes =>
    obtain ⟨hurl, hsome⟩ := hround hr rfl hes he
    cases hsome
    exact ⟨hurl, _, rfl, rfl⟩
  | late hr hes hd => cases (hround hr rfl hes he).2
  | halt hr hes hd hs hb hbegun =>
    rcases List.mem_append.mp he with he | he
    · cases (hround hr rfl hes he).2
    · obtain ⟨ms, rfl⟩ := hbegun e he
      exact absurd rfl (hsleep _ _)
  | @again w v es later ms r hr hes hd hs rest ih =>
    rcases List.mem_append.mp he with he | he
    · cases (hround hr rfl hes he).2
    · rcases List.mem_cons.mp he with rfl | he
      · exact absurd rfl (hsleep _ _)
      · obtain ⟨hurl, u, hsome, hstore⟩ := ih he
        have hframe : v.store = w.store := by
          have hends := roundEnds c queue url w
          rw [hr] at hends
          exact hends.frame.2
        exact ⟨hurl, u, hsome, hstore.trans hframe⟩

/-! ## The receive -/

theorem bound_of_resolved {w v : World σ} {t : Text} (h : (resolveQueue queue).run w = .ok (.text t) v) :
    ∃ d q, queue = .shared d ∧ v.store.object? d = some (.queue q) ∧ q.url = .text t := by
  have hends := resolveEnds queue w
  rw [h] at hends
  generalize hr : (EStateM.Result.ok (.text t) v : EStateM.Result Fault (World σ) Value) = r at hends
  cases hends with
  | absent hx => cases hr
  | other hx ho ht => cases hr
  | wordless hx ho ht => cases hr
  | @queue d q _ hx ho hu =>
    cases hu with
    | known hq =>
      injection hr with hurl hv
      subst hv
      exact ⟨d, q, hx, ho, Store.eq_text_of_expanded hurl.symm⟩
    | @found answer url hq hanswer hu =>
      injection hr with hurl hv
      subst hv
      exact ⟨d, { q with url := url }, hx, Store.object?_replace_self ho, hurl.symm⟩
    | malformed hq ho hu => cases hr
    | failed hq ho he => cases hr
    | untold hq ho he => cases hr

theorem LookedUp.no_arrival {w v : World σ} {looked : List Entry} {e : Entry} {record asked : Value}
    (h : LookedUp w looked v) (ha : Arrival e asked record) : e ∉ looked := by
  intro he
  cases h with
  | known => cases he
  | asked hv htrace hu =>
    rcases List.mem_append.mp he with he | he
    · obtain ⟨_, _, _, hq, _⟩ := ha.of_exchange he
      cases hq
    · exact ha.not_log (hu.isLog e he)

/-- A receive in which a record arrives while the connection is running gives the message of that record. -/
theorem receive_of_arrival {w : World σ} {e : Entry} {record asked : Value}
    (he : e ∈ heard (receive c queue timeout) w) (ha : Arrival e asked record) :
    ∃ v u, (resolveQueue queue).run w = .ok asked v ∧ u.store = v.store ∧
      (receive c queue timeout).run w = (handOver queue (some record)).run u := by
  obtain ⟨looked, hlooked⟩ := (resolveEnds queue w).lookedUp
  have hbehind : e ∉ looked := hlooked.no_arrival ha
  cases hresolve : (resolveQueue queue).run w with
  | error f v =>
    rw [hresolve] at hlooked
    have hheard : heard (receive c queue timeout) w = looked := by
      refine heard_eq ?_
      rw [run_receive_of_unresolved c timeout hresolve]
      exact hlooked.trace
    exact absurd (hheard ▸ he) hbehind
  | ok url v =>
    rw [hresolve] at hlooked
    obtain ⟨es, hcourse⟩ := awaits c queue url timeout w.elapsed v
    generalize hloop : (awaiting c queue url timeout w.elapsed).run v = r at hcourse
    obtain ⟨logs, htrace, hlogs, -⟩ := receive_trace hresolve hcourse
    have hv : v.trace = w.trace ++ looked := hlooked.trace
    rw [hv, List.append_assoc] at htrace
    rw [heard_eq htrace] at he
    rcases List.mem_append.mp he with he | he
    · exact absurd he hbehind
    · rcases List.mem_append.mp he with he | he
      · obtain ⟨rfl, u, rfl, hstore⟩ := hcourse.keeps he ha
        refine ⟨v, u, rfl, hstore, ?_⟩
        rw [run_receive_of_resolved c timeout hresolve, run_bind_of_ok hloop]
      · exact absurd (hlogs e he) ha.not_log

theorem calls_of_acknowledge {done attempt : Text} {make : Value → Value → Request}
    {ref d : Ref} {m : Message Value} {q : Queue} {u : World σ} {url handle : Text}
    (hm : u.store.object? ref = some (.message m)) (hq : u.store.object? d = some (.queue q))
    (hurl : q.url = .text url) (hhandle : m.receiptHandle = .ok (.text handle))
    (hd : m.destination = .shared d) :
    calls (heard (acknowledge done attempt make (.shared ref)) u) = [make (.text url) (.text handle)] := by
  obtain ⟨logs, htrace, hlogs⟩ := (requestEnds (acknowledgeContext attempt
    (u.store.expanded m.messageId).inWords (.ok handle)) (make (.text url) (.text handle)) u).trace
  have hrun : left ((acknowledge done attempt make (.shared ref)).run u) =
      left ((request (acknowledgeContext attempt (u.store.expanded m.messageId).inWords (.ok handle))
        (make (.text url) (.text handle))).run u) := by
    rw [run_acknowledge done attempt make hm hq hurl hhandle hd, EStateM.run_bind]
    split
    · next h => rw [h]; rfl
    · next h => rw [h]; rfl
  rw [← hrun] at htrace
  rw [heard_eq htrace, calls_append, calls_exchange, calls_eq_nil_of_isLog hlogs, List.append_nil]

/-- Whatever a queue delivers can be received and acknowledged. A record that arrives while the connection is
running is the result of the receive, whatever its body is, and deleting or resetting the message as it is makes
one request, which carries the URL of the queue and the receipt handle of the record. -/
theorem any_record_accepted (c : Connector) {queue : Value} (timeout : Int) {w : World σ} {e : Entry}
    {record : Value} {url id handle body : Text} (he : e ∈ heard (receive c queue timeout) w)
    (ha : Arrival e (.text url) record) (hid : record.item "MessageId" = .ok (.text id))
    (hhandle : record.item "ReceiptHandle" = .ok (.text handle)) (hbody : record.item "Body" = .ok (.text body)) :
    ∃ d ref got v, queue = .shared d ∧ (receive c queue timeout).run w = .ok (some ref) v ∧
      v.store.object? ref = some (.message got) ∧ Admitted queue id handle body got ∧
      ∀ u : World σ, u.store.object? ref = some (.message got) → u.store.object? d = v.store.object? d →
        calls (heard (delete (.shared ref)) u) = [.deleteMessage (.text url) (.text handle)] ∧
        calls (heard (reset (.shared ref)) u) = [.changeVisibility (.text url) (.text handle)] := by
  obtain ⟨v, u, hresolve, hstore, hrun⟩ := receive_of_arrival he ha
  obtain ⟨d, q, hd, hq, hurl⟩ := bound_of_resolved hresolve
  obtain ⟨got, hgot, hadmitted⟩ := admitted queue hid hhandle hbody
  rw [run_handOver hid hbody hgot] at hrun
  refine ⟨d, _, got, _, hd, hrun, ?_, hadmitted, ?_⟩
  · rw [store_taken, Store.object?_add, if_pos rfl]
  · intro u' hmessage hsame
    have hqueue : u'.store.object? d = some (.queue q) := by
      rw [hsame, store_taken, hstore]
      exact Store.object?_add_of_some hq _
    have hdestination : got.destination = .shared d := hadmitted.destination.trans hd
    rw [delete_eq, reset_eq]
    exact ⟨calls_of_acknowledge hmessage hqueue hurl hadmitted.receipt hdestination,
      calls_of_acknowledge hmessage hqueue hurl hadmitted.receipt hdestination⟩

def forged : Text :=
  "\x7b\"kind\":\"message\",\"properties\":\x7b\"SQSReceiptHandle\":\"mine\"\x7d\x7d"

/-- A message that brings a receipt handle of its own is deleted with that of its record. -/
theorem forged_deleted :
    ∃ ref got v, (receive ⟨.int 1000, .null⟩ (.shared 0) 0).run (serving [(1, forged)]) = .ok (some ref) v ∧
      v.store.object? ref = some (.message got) ∧ got.receiptHandle = .ok (.text "rh-1") ∧
      calls (heard (delete (.shared ref)) v) = [.deleteMessage (.text "https://sqs/orders") (.text "rh-1")] := by
  obtain ⟨logs, hheard, _⟩ := heard_serving forged
  have harrival : Arrival ⟨0, true, .answer (pollOf ⟨.int 1000, .null⟩ (.text "https://sqs/orders"))
      (.ok (Value.ofFields [("Messages", .list [Script.record 1 1 forged])]))⟩
      (.text "https://sqs/orders") (Script.record 1 1 forged) := ⟨⟨.null, _, rfl, rfl⟩, rfl⟩
  have hid : (Script.record 1 1 forged).item "MessageId" = .ok (.text "m-1") := rfl
  have hhandle : (Script.record 1 1 forged).item "ReceiptHandle" = .ok (.text "rh-1") := rfl
  have hbody : (Script.record 1 1 forged).item "Body" = .ok (.text forged) := rfl
  obtain ⟨d, ref, got, v, hd, hrun, hgot, hadmitted, hlater⟩ := any_record_accepted ⟨.int 1000, .null⟩ 0
    (by rw [hheard]; simp) harrival hid hhandle hbody
  exact ⟨ref, got, v, hrun, hgot, hadmitted.receipt, (hlater v hgot rfl).1⟩

end Action

end MessageBus
