import MessageBus.Proofs.AnyRecord
import MessageBus.Proofs.Deeds
import MessageBus.Proofs.Outcomes

/-!
# What a receive obtains

A receive whose connection stays running, at services that answer and fail in order, looks its queue up, polls it for
as long as it brings no record, and then has a record, or gives up, or ends in the error that tells of its last call,
or in that of a sleep that is too long (`Obtains`). This holds of one round first (`RoundEnds.polled`), then of the
loop (`Awaits.polled`), then of the receive (`receive_obtains`).
-/

namespace MessageBus

/-- An answer to a poll that hands out a record with these texts. -/
def Brings (answer : Value) (id handle body : Text) : Prop :=
  ∃ record, Action.handedOut answer = .ok (some record) ∧ record.item "MessageId" = .ok (.text id) ∧
    record.item "ReceiptHandle" = .ok (.text handle) ∧ record.item "Body" = .ok (.text body)

theorem Brings.unique {answer : Value} {id id' handle handle' body body' : Text} (h : Brings answer id handle body)
    (h' : Brings answer id' handle' body') : id' = id ∧ handle' = handle ∧ body' = body := by
  obtain ⟨record, hrecord, hid, hhandle, hbody⟩ := h
  obtain ⟨_, hrecord', hid', hhandle', hbody'⟩ := h'
  cases hrecord.symm.trans hrecord'
  cases hid.symm.trans hid'
  cases hhandle.symm.trans hhandle'
  cases hbody.symm.trans hbody'
  exact ⟨rfl, rfl, rfl⟩

/-- The polls of a queue that brought no record. -/
def Vain (wait : Value) (url : Text) (ds : List Event) : Prop :=
  ∀ d ∈ ds, ∃ answer, d = .answer (.receiveMessage (.text url) wait) (.ok answer) ∧ Action.handedOut answer = .ok none

/-- A queue was looked up by its name, and polled in vain under the URL that it was given. -/
inductive Waited (name : Text) (wait : Value) (url : Text) : List Event → Prop where
  | mk {answer : Value} {polls : List Event} (hurl : answer.item "QueueUrl" = .ok (.text url))
      (hpolls : Vain wait url polls) : Waited name wait url (.answer (.createQueue (.text name)) (.ok answer) :: polls)

namespace Action

variable {σ : Type} [Service σ] {c : Connector} {queue : Value} {url : Text} {timeout : Int} {start : Rat}

/-! ## The loop -/

theorem prefix_of_context {t : Except Fault Text} {start finish context : Text}
    (h : t.map (fun t => start ++ t ++ finish) = .ok context) : start <+: context := by
  obtain ⟨words, -, rfl⟩ := map_eq_ok.mp h
  exact ⟨words ++ finish, (List.append_assoc ..).symm⟩

/-- How polling ends, and with which deeds. -/
inductive Polled (c : Connector) (url : Text) (overlong : Prop) :
    List Event → EStateM.Result Fault (World σ) (Option Value) → Prop where
  | nothing {ds : List Event} {v : World σ} (h : Vain c.wait url ds) : Polled c url overlong ds (.ok none v)
  | record {ds : List Event} {answer record : Value} {v : World σ} (h : Vain c.wait url ds)
      (ha : handedOut answer = .ok (some record)) (hrecord : Written record) :
      Polled c url overlong (ds ++ [.answer (pollOf c (.text url)) (.ok answer)]) (.ok (some record) v)
  | failed {ds : List Event} {failure : Failure} {e : BusError} {v : World σ} (h : Vain c.wait url ds)
      (he : failure.Told e) (hcontext : "Unable to receive message from '" <+: e.context) :
      Polled c url overlong (ds ++ [.answer (pollOf c (.text url)) (.error failure)]) (.error (.bus e) v)
  | overslept {ds : List Event} {message : Text} {v : World σ} (h : Vain c.wait url ds) (hinterval : overlong) :
      Polled c url overlong ds (.error (.overflow message) v)

omit [Service σ] in
theorem Polled.behind {overlong : Prop} {ds ds' : List Event} {r : EStateM.Result Fault (World σ) (Option Value)}
    (h : Vain c.wait url ds) (h' : Polled c url overlong ds' r) : Polled c url overlong (ds ++ ds') r := by
  have happend {later : List Event} (hlater : Vain c.wait url later) : Vain c.wait url (ds ++ later) :=
    List.forall_mem_append.mpr ⟨h, hlater⟩
  cases h' with
  | nothing hlater => exact .nothing (happend hlater)
  | record hlater ha hrecord =>
    rw [← List.append_assoc]
    exact .record (happend hlater) ha hrecord
  | failed hlater he hcontext =>
    rw [← List.append_assoc]
    exact .failed (happend hlater) he hcontext
  | overslept hlater hinterval => exact .overslept (happend hlater) hinterval

theorem RoundEnds.polled {overlong : Prop} {w : World σ} {es : List Entry}
    {r : EStateM.Result Fault (World σ) (Option Value)} (h : RoundEnds c queue (.text url) w r)
    (hqueue : (w.store.expanded queue).Tellable) (hes : (left r).trace = w.trace ++ es)
    (horder : ∀ e ∈ es, e.InOrder) : Polled c url overlong (deeds es) r := by
  have hentries {es' : List Entry} (htrace : (left r).trace = w.trace ++ es') : es = es' :=
    List.append_cancel_left (hes.symm.trans htrace)
  have hpoll (rest : List Entry) (h : es = w.exchange (pollOf c (.text url)) ++ rest) :
      (w.after (pollOf c (.text url))).running = true ∧
        Call.Regular ⟨pollOf c (.text url), (w.reply (pollOf c (.text url))).outcome⟩ :=
    World.inOrder_after fun e he => horder e (h ▸ List.mem_append_left _ he)
  have hanswered {answer : Value} (ho : (w.reply (pollOf c (.text url))).outcome = .ok answer)
      (htrace : (left r).trace = w.trace ++ w.exchange (pollOf c (.text url))) :
      deeds es = [.answer (pollOf c (.text url)) (.ok answer)] ∧
        ∃ a, handedOut answer = .ok a ∧ ∀ record, a = some record → Written record := by
    obtain rfl := hentries htrace
    have hregular := (hpoll [] (List.append_nil _).symm).2
    rw [Call.Regular, ho] at hregular
    exact ⟨by rw [deeds_exchange, ho], handedOut_answered hregular⟩
  -- a record that arrives after a stop arrives in an entry that says so
  have hstopped (hv : (w.after (pollOf c (.text url))).running = false) (rest : List Entry)
      (htrace : (left r).trace = w.trace ++ (w.exchange (pollOf c (.text url)) ++ rest)) : False := by
    rw [(hpoll _ (hentries htrace)).1] at hv
    cases hv
  have hvain : Vain c.wait url [] := List.forall_mem_nil _
  cases h with
  | stopped hw =>
    obtain rfl := hentries (World.trace_record w idle)
    have hrunning := (horder _ (List.mem_singleton.mpr rfl)).running
    rw [World.now, hw] at hrunning
    cases hrunning
  | @failed failure e hw ho he =>
    have hsplit : es = w.exchange (pollOf c (.text url)) ++
        [(w.after (pollOf c (.text url))).now (.log .error .errors e.message)] := hentries (by simp [left])
    obtain ⟨hcontext, htold⟩ := Failure.told_of_toldIn ((hpoll _ hsplit).2.failed ho) he
    rw [hsplit, deeds_append_log, deeds_exchange, ho]
    exact .failed hvain htold (prefix_of_context hcontext)
  | untold hw ho he =>
    have hregular := (hpoll [] (hentries (by simp [left]))).2
    have hcontext := Failure.toldIn_eq_error (hregular.failed ho) he
    rw [pollContext, hqueue] at hcontext
    cases hcontext
  | malformed hw ho ha =>
    obtain ⟨-, _, hhanded, -⟩ := hanswered ho (World.trace_after ..)
    rw [ha] at hhanded
    cases hhanded
  | empty hw ho ha =>
    rw [(hanswered ho (World.trace_after ..)).1]
    exact .nothing fun d hd => ⟨_, List.mem_singleton.mp hd, ha⟩
  | kept hw ho ha hv =>
    obtain ⟨hdeeds, _, hhanded, hwritten⟩ := hanswered ho (World.trace_after ..)
    rw [ha] at hhanded
    cases hhanded
    rw [hdeeds]
    exact .record hvain ha (hwritten _ rfl)
  | released hw ho ha hv hh hr => exact (hstopped hv _ (by simp [left]; rfl)).elim
  | hidden hw ho ha hv hh hr ht => exact (hstopped hv _ (by simp [left]; rfl)).elim
  | lost hw ho ha hv hh hr ht => exact (hstopped hv _ (by simp [left]; rfl)).elim
  | handleless hw ho ha hv hh => exact (hstopped hv [] (by simp [left])).elim

/-- The loop, if it sleeps for some time between two rounds and is not left out of patience. The induction is on its
course. -/
theorem Awaits.polled {overlong : Prop} {ms : Rat} (hms : c.interval.toRat? = some ms) (hpositive : 1 ≤ ms)
    {w : World σ} {es : List Entry} {r : EStateM.Result Fault (World σ) (Option Value)}
    (h : Awaits c queue (.text url) timeout start w es r) (hqueue : (w.store.expanded queue).Tellable)
    (hinterval : (∃ f, c.interval.pause w.tooLong = .error f) → overlong) (horder : ∀ e ∈ es, e.InOrder)
    (hr : fault? r ≠ some .impatient) : Polled c url overlong (deeds es) r := by
  have hround {w : World σ} {es : List Entry} {r : EStateM.Result Fault (World σ) (Option Value)}
      (hr : (round c queue (.text url)).run w = r) (hqueue : (w.store.expanded queue).Tellable)
      (hes : (left r).trace = w.trace ++ es) (horder : ∀ e ∈ es, e.InOrder) : Polled c url overlong (deeds es) r :=
    (hr ▸ roundEnds c queue (.text url) w).polled hqueue hes horder
  have hframe {w : World σ} {r : EStateM.Result Fault (World σ) (Option Value)}
      (hr : (round c queue (.text url)).run w = r) : (left r).tooLong = w.tooLong ∧ (left r).store = w.store :=
    hr ▸ ⟨(roundEnds c queue (.text url) w).tooLong, (roundEnds c queue (.text url) w).frame.2⟩
  induction h with
  | fault hrun hes => exact hround hrun hqueue hes horder
  | record hrun hes => exact hround hrun hqueue hes horder
  | late hrun hes hd => exact hround hrun hqueue hes horder
  | @halt w v u es begun f hrun hes hd hs hb hbegun =>
    have hfirst := hround hrun hqueue hes fun e he => horder e (List.mem_append_left _ he)
    obtain ⟨hpause, rfl⟩ | ⟨ms', -, hpatience, rfl, rfl⟩ := run_sleep_error hs
    · have hnonneg : 0 ≤ ms := Rat.le_trans (by decide) hpositive
      obtain ⟨message, rfl⟩ := Value.pause_eq_error hms hnonneg hpause
      have hnone : begun = [] := by
        have hsame : u.trace ++ [] = u.trace ++ begun := (List.append_nil _).trans hb
        exact (List.append_cancel_left hsame).symm
      rw [hnone, List.append_nil]
      generalize deeds es = ds at hfirst ⊢
      cases hfirst with
      | nothing hvain => exact .overslept hvain (hinterval ⟨_, (hframe hrun).1 ▸ hpause⟩)
    · exact absurd rfl hr
  | @again w v es later ms' r hrun hes hd hs rest ih =>
    have hfirst := hround hrun hqueue hes fun e he => horder e (List.mem_append_left _ he)
    obtain ⟨htooLong, hstore⟩ := hframe hrun
    have hrest := ih (hstore ▸ hqueue) (fun h => hinterval (htooLong ▸ h))
      (fun e he => horder e (List.mem_append_right _ (List.mem_cons_of_mem _ he))) hr
    have hdeeds : deeds (es ++ v.now (.sleep ms') :: later) = deeds es ++ deeds later := by
      rw [deeds_append]
      rfl
    rw [hdeeds]
    generalize deeds es = ds at hfirst ⊢
    cases hfirst with
    | nothing hvain => exact hrest.behind hvain

/-! ## The receive -/

/-- How a receive ends from a queue that is known by its name, and with which deeds. -/
inductive Obtains (c : Connector) (d : Ref) (name : Text) (overlong : Prop) :
    List Event → EStateM.Result Fault (World σ) (Option Ref) → Prop where
  | unresolved {failure : Failure} {e : BusError} {v : World σ} (he : failure.Told e)
      (hcontext : "Unable to get message queue '" <+: e.context) :
      Obtains c d name overlong [.answer (.createQueue (.text name)) (.error failure)] (.error (.bus e) v)
  | failed {url : Text} {ds : List Event} {failure : Failure} {e : BusError} {v : World σ}
      (hds : Waited name c.wait url ds) (he : failure.Told e)
      (hcontext : "Unable to receive message from '" <+: e.context) :
      Obtains c d name overlong (ds ++ [.answer (.receiveMessage (.text url) c.wait) (.error failure)])
        (.error (.bus e) v)
  | nothing {url : Text} {ds : List Event} {v : World σ} (hds : Waited name c.wait url ds) :
      Obtains c d name overlong ds (.ok none v)
  | overslept {url : Text} {ds : List Event} {message : Text} {v : World σ} (hds : Waited name c.wait url ds)
      (hinterval : overlong) : Obtains c d name overlong ds (.error (.overflow message) v)
  /-- The message is the one that the record comes to, and its queue is bound to the URL that was polled. -/
  | obtained {url id handle body : Text} {ds : List Event} {answer : Value} {ref : Ref} {m : Message Value} {q : Queue}
      {v : World σ} (hds : Waited name c.wait url ds) (hrecord : Brings answer id handle body)
      (hm : v.store.object? ref = some (.message m)) (hadmitted : Admitted (.shared d) id handle body m)
      (hq : v.store.object? d = some (.queue q)) (hurl : q.url = .text url) :
      Obtains c d name overlong (ds ++ [.answer (.receiveMessage (.text url) c.wait) (.ok answer)]) (.ok (some ref) v)

/-- How the lookup of a queue ends that is known by its name. -/
inductive NamedEnds (d : Ref) (name : Text) : List Event → EStateM.Result Fault (World σ) Value → Prop where
  | unresolved {failure : Failure} {e : BusError} {v : World σ} (he : failure.Told e)
      (hcontext : "Unable to get message queue '" <+: e.context) :
      NamedEnds d name [.answer (.createQueue (.text name)) (.error failure)] (.error (.bus e) v)
  | found {answer : Value} {url : Text} {v : World σ} (ha : answer.item "QueueUrl" = .ok (.text url))
      (hq : v.store.object? d = some (.queue { Queue.named name with url := .text url })) :
      NamedEnds d name [.answer (.createQueue (.text name)) (.ok answer)] (.ok (.text url) v)

theorem UrlEnds.named {d : Ref} {name : Text} {w : World σ} {es : List Entry}
    {r : EStateM.Result Fault (World σ) Value} (h : UrlEnds d (Queue.named name) w r)
    (hd : w.store.object? d = some (.queue (Queue.named name))) (hes : (left r).trace = w.trace ++ es)
    (horder : ∀ e ∈ es, e.InOrder) : NamedEnds d name (deeds es) r := by
  have hlookup : lookupOf w (Queue.named name) = .createQueue (.text name) :=
    congrArg Request.createQueue (w.store.expanded_text name)
  have hentries {es' : List Entry} (htrace : (left r).trace = w.trace ++ es') : es = es' :=
    List.append_cancel_left (hes.symm.trans htrace)
  have hasked (rest : List Entry) (h : es = w.exchange (.createQueue (.text name)) ++ rest) :
      Call.Regular ⟨.createQueue (.text name), (w.reply (.createQueue (.text name))).outcome⟩ :=
    (World.inOrder_after fun e he => horder e (h ▸ List.mem_append_left _ he)).2
  cases h with
  | known hq => cases hq
  | @found answer url hq ho hu =>
    rw [hlookup] at ho
    have hsplit : es = w.exchange (.createQueue (.text name)) ++
        (w.after (.createQueue (.text name))).noted .debug .resolver (resolved w (Queue.named name) url) := by
      refine hentries ?_
      rw [left, bound, hlookup, World.trace_note, World.trace_put, World.trace_after, List.append_assoc]
      rfl
    have hregular := hasked _ hsplit
    rw [Call.Regular, ho] at hregular
    obtain ⟨t, ht⟩ : ∃ t, answer.item "QueueUrl" = .ok (.text t) := hregular
    rw [hu] at ht
    cases ht
    rw [hsplit, deeds_append, deeds_of_isLog fun _ => World.isLog_of_mem_noted, List.append_nil, deeds_exchange, ho]
    exact .found hu (Store.object?_replace_self hd)
  | @malformed answer f hq ho hu =>
    rw [hlookup] at ho
    have hregular := hasked [] (hentries (by simp [left, hlookup]))
    rw [Call.Regular, ho] at hregular
    obtain ⟨t, ht⟩ : ∃ t, answer.item "QueueUrl" = .ok (.text t) := hregular
    rw [hu] at ht
    cases ht
  | @failed failure e hq ho he =>
    rw [hlookup] at ho
    have hsplit : es = w.exchange (.createQueue (.text name)) ++
        [(w.after (.createQueue (.text name))).now (.log .error .errors e.message)] :=
      hentries (by simp [left, hlookup])
    obtain ⟨hcontext, htold⟩ := Failure.told_of_toldIn ((hasked _ hsplit).failed ho) he
    rw [hsplit, deeds_append_log, deeds_exchange, ho]
    exact .unresolved htold (prefix_of_context hcontext)
  | @untold failure f hq ho he =>
    rw [hlookup] at ho
    have hregular := hasked [] (hentries (by simp [left, hlookup]))
    have hcontext := Failure.toldIn_eq_error (hregular.failed ho) he
    have htellable := (Queue.named_worded name .null).tellable_expand w.store w.store.objects.length
    have hlabel : ((Queue.named name).map w.store.expanded).label = .ok _ := htellable
    rw [lookupContext, hlabel] at hcontext
    cases hcontext

theorem Awaits.store {queue url : Value} {w : World σ} {es : List Entry}
    {r : EStateM.Result Fault (World σ) (Option Value)} (h : Awaits c queue url timeout start w es r) :
    (left r).store = w.store := by
  have hround {w : World σ} {r : EStateM.Result Fault (World σ) (Option Value)}
      (hr : (round c queue url).run w = r) : (left r).store = w.store :=
    (hr ▸ roundEnds c queue url w).frame.2
  induction h with
  | fault hr _ => exact hround hr
  | record hr _ => exact hround hr
  | late hr _ _ => exact hround hr
  | @halt w v u es begun f hr _ _ hs _ _ =>
    have hslept : u.store = v.store := by
      obtain ⟨-, rfl⟩ | ⟨ms, -, -, -, rfl⟩ := run_sleep_error hs
      · rfl
      · rfl
    exact hslept.trans (hround hr)
  | again hr _ _ _ _ ih => exact ih.trans (hround hr)

omit [Service σ] in
theorem Polled.obtains {overlong : Prop} {q : Queue} {found : Value} {ds : List Event}
    {r : EStateM.Result Fault (World σ) (Option Value)} (h : Polled c url overlong ds r) (d : Ref) (name : Text)
    (hfound : found.item "QueueUrl" = .ok (.text url)) (hq : (left r).store.object? d = some (.queue q))
    (hurl : q.url = .text url) :
    Obtains c d name overlong (.answer (.createQueue (.text name)) (.ok found) :: ds)
      (match r with
      | .ok a u => (handOver (.shared d) a).run u
      | .error f u => .error f u) := by
  cases h with
  | nothing hvain => exact .nothing (.mk hfound hvain)
  | failed hvain he hcontext => exact .failed (.mk hfound hvain) he hcontext
  | overslept hvain hinterval => exact .overslept (.mk hfound hvain) hinterval
  | @record _ answer record u hvain hhanded hrecord =>
    obtain ⟨id, handle, body, hid, hhandle, hbody⟩ := hrecord
    obtain ⟨m, hm, hadmitted⟩ := admitted (.shared d) hid hhandle hbody
    dsimp only
    rw [run_handOver hid hbody hm]
    refine .obtained (.mk hfound hvain) ⟨record, hhanded, hid, hhandle, hbody⟩ ?_ hadmitted ?_ hurl
    · rw [store_taken, Store.object?_add, if_pos rfl]
    · rw [store_taken]
      exact Store.object?_add_of_some hq _

/-- What a receive obtains from a queue that is known by its name, if all its entries are in order. -/
theorem receive_obtains {ms : Rat} (hms : c.interval.toRat? = some ms) (hpositive : 1 ≤ ms) {d : Ref} {name : Text}
    {w : World σ} (hd : w.store.object? d = some (.queue (Queue.named name)))
    (horder : ∀ e ∈ heard (receive c (.shared d) timeout) w, e.InOrder)
    (hends : fault? ((receive c (.shared d) timeout).run w) ≠ some .impatient) :
    Obtains c d name (∃ f, c.interval.pause w.tooLong = .error f) (deeds (heard (receive c (.shared d) timeout) w))
      ((receive c (.shared d) timeout).run w) := by
  have hlookup := urlEnds d (Queue.named name) w
  have htooLong := (lookupEnds_queue d (Queue.named name) w).tooLong
  rw [← run_resolveQueue hd] at hlookup htooLong
  obtain ⟨looked, hlooked, -⟩ := hlookup.trace
  cases hresolve : (resolveQueue (.shared d)).run w with
  | error f v =>
    rw [hresolve] at hlookup hlooked
    have hrun := run_receive_of_unresolved c timeout hresolve
    have hheard : heard (receive c (.shared d) timeout) w = looked := heard_eq (by rw [hrun]; exact hlooked)
    rw [hheard] at horder ⊢
    rw [hrun]
    have hnamed := hlookup.named hd hlooked horder
    generalize deeds looked = ds at hnamed ⊢
    cases hnamed with
    | unresolved he hcontext => exact .unresolved he hcontext
  | ok url v =>
    rw [hresolve] at hlookup hlooked htooLong
    obtain ⟨es, hcourse⟩ := awaits c (.shared d) url timeout w.elapsed v
    have hrun := run_receive_of_resolved c timeout hresolve
    obtain ⟨logs, htrace, hlogs, -⟩ := receive_trace hresolve hcourse
    have hlooked : v.trace = w.trace ++ looked := hlooked
    have hheard : heard (receive c (.shared d) timeout) w = looked ++ (es ++ logs) :=
      heard_eq (by rw [htrace, hlooked, List.append_assoc])
    rw [hheard] at horder ⊢
    rw [deeds_append, deeds_append, deeds_of_isLog hlogs, List.append_nil]
    have hnamed := hlookup.named hd hlooked fun e he => horder e (List.mem_append_left _ he)
    have hstore := hcourse.store
    rw [EStateM.run_bind] at hrun
    generalize hloop : (awaiting c (.shared d) url timeout w.elapsed).run v = r at hcourse hstore hrun
    have hpatient : fault? r ≠ some .impatient := by
      rw [hrun] at hends
      cases r with
      | ok a u => nofun
      | error f u => exact hends
    generalize deeds looked = ds at hnamed ⊢
    cases hnamed with
    | @found answer url _ ha hq =>
      have hpolled := hcourse.polled hms hpositive (Store.tellable_named hq (Queue.named_worded name (.text url)))
        (fun h => htooLong ▸ h) (fun e he => horder e (List.mem_append_right _ (List.mem_append_left _ he))) hpatient
      have hobtains := hpolled.obtains d name ha (hstore ▸ hq) rfl
      rw [hrun]
      cases r with
      | ok a u => exact hobtains
      | error f u => exact hobtains

theorem UrlEnds.asked {d : Ref} {q : Queue} {w : World σ} {r : EStateM.Result Fault (World σ) Value}
    (h : UrlEnds d q w r) (hq : q.url = .null) : w.trace ++ [w.now (.call (lookupOf w q))] <+: (left r).trace := by
  have hexchange (rest : List Entry) :
      w.trace ++ [w.now (.call (lookupOf w q))] <+: w.trace ++ (w.exchange (lookupOf w q) ++ rest) :=
    ⟨(w.after (lookupOf w q)).now (.answer (lookupOf w q) (w.reply (lookupOf w q)).outcome) :: rest,
      by simp [World.exchange]⟩
  cases h with
  | known hbound =>
    rw [hq] at hbound
    cases hbound
  | @found answer url _ _ _ =>
    have htrace := hexchange ((w.after (lookupOf w q)).noted .debug .resolver (resolved w q url))
    rw [left, bound, World.trace_note, World.trace_put, World.trace_after, List.append_assoc]
    exact htrace
  | malformed _ _ _ => simpa [left] using hexchange []
  | failed _ _ _ => simpa [left] using hexchange [_]
  | untold _ _ _ => simpa [left] using hexchange []

theorem receive_asks (c : Connector) (timeout : Int) {d : Ref} {name : Text} {w : World σ}
    (hd : w.store.object? d = some (.queue (Queue.named name))) :
    ∃ rest, heard (receive c (.shared d) timeout) w = w.now (.call (.createQueue (.text name))) :: rest := by
  have hasked := (urlEnds d (Queue.named name) w).asked rfl
  rw [← run_resolveQueue hd] at hasked
  have hlater : (left ((resolveQueue (.shared d)).run w)).trace <+:
      (left ((receive c (.shared d) timeout).run w)).trace := by
    cases hresolve : (resolveQueue (.shared d)).run w with
    | error f v =>
      rw [run_receive_of_unresolved c timeout hresolve]
      exact List.prefix_refl _
    | ok url v =>
      obtain ⟨es, hcourse⟩ := awaits c (.shared d) url timeout w.elapsed v
      obtain ⟨logs, htrace, -⟩ := receive_trace hresolve hcourse
      exact ⟨_, htrace.symm⟩
  obtain ⟨rest, hrest⟩ := hasked.trans hlater
  refine ⟨rest, heard_eq ?_⟩
  rw [← hrest, List.append_assoc, lookupOf, Queue.named, Store.expanded_text]
  rfl

end Action

end MessageBus
