import MessageBus.Proofs.Receiving
import MessageBus.Script

/-!
# The fate of a record

Each record that the service hands out in a receive has one of two fates. If the connection is running
when the record arrives, it is the result, and the last thing that the service is asked for (`Kept`). If
the connection was stopped meanwhile, the very next request releases the record, and the loop goes on with
the timeout check as after a round without a record, whether or not the release fails (`Released`).

The proof follows the course of the loop: a record arrives in some round, and the entries of that round
tell its fate.
-/

namespace MessageBus

/-! ## Records in a trace -/

/-- The records of an answer to a poll. -/
def recordsOf (answer : Value) : List Value :=
  match answer.get "Messages" (.list []) with
  | .ok (.list records) => records
  | _ => []

/-- An answer to a poll that holds no record, or one whole record. -/
def OneRecord (answer : Value) : Prop :=
  ∃ records, answer.get "Messages" (.list []) = .ok records ∧
    (records.truthy = false ∨ ∃ record, records = .list [record] ∧ Whole record)

namespace Entry

/-- The records that an entry hands out. -/
def records (e : Entry) : List Value :=
  match e.event with
  | .answer (.receiveMessage _ _) (.ok answer) => recordsOf answer
  | _ => []

/-- If the entry is an answer to a poll, it holds one whole record at most. -/
def Orderly (e : Entry) : Prop :=
  match e.event with
  | .answer (.receiveMessage _ _) (.ok answer) => OneRecord answer
  | _ => True

theorem records_of_isLog {e : Entry} (h : e.isLog) : e.records = [] := by
  obtain ⟨_, _, _, he⟩ := h
  rw [records, he]

end Entry

/-- The requests of a trace in order. -/
def calls (es : List Entry) : List Request :=
  es.filterMap fun e => match e.event with
    | .call r => some r
    | _ => none

@[simp] theorem calls_append (es es' : List Entry) : calls (es ++ es') = calls es ++ calls es' :=
  List.filterMap_append

theorem calls_eq_nil_of_isLog {es : List Entry} (h : ∀ e ∈ es, e.isLog) : calls es = [] := by
  refine List.filterMap_eq_nil_iff.mpr fun e he => ?_
  obtain ⟨_, _, _, hevent⟩ := h e he
  rw [hevent]

theorem calls_of_begun {σ : Type} {v : World σ} {begun : List Entry}
    (h : ∀ e ∈ begun, ∃ ms, e = v.now (.sleep ms)) : calls begun = [] := by
  refine List.filterMap_eq_nil_iff.mpr fun e he => ?_
  obtain ⟨ms, rfl⟩ := h e he
  rfl

@[simp] theorem calls_exchange {σ : Type} [Service σ] (w : World σ) (r : Request) :
    calls (w.exchange r) = [r] := rfl

theorem Whole.isNull {record : Value} (h : Whole record) : record.isNull = false := by
  obtain ⟨id, _, _, hid, _⟩ := h
  cases record <;> simp_all [Value.item, Value.isNull]

theorem OneRecord.handedOut {answer : Value} (h : OneRecord answer) :
    (recordsOf answer = [] ∧ Action.handedOut answer = .ok none) ∨
      ∃ record, recordsOf answer = [record] ∧ Action.handedOut answer = .ok (some record) ∧ Whole record := by
  obtain ⟨records, hr, hfalse | ⟨record, rfl, hwhole⟩⟩ := h
  · have hempty : recordsOf answer = [] := by
      simp only [recordsOf, hr]
      cases records <;> simp_all [Value.truthy]
    exact .inl ⟨hempty, by simp [Action.handedOut, hr, Value.first?, hfalse, bind, Except.bind]⟩
  · refine .inr ⟨record, by simp [recordsOf, hr], ?_, hwhole⟩
    simp [Action.handedOut, hr, Value.first?, Value.truthy, hwhole.isNull, bind, Except.bind]

/-- An entry behind a list of which it is none stands in what follows the list. -/
theorem split_behind {α : Type} {a b before after : List α} {x : α} (h : a ++ b = before ++ x :: after)
    (hx : x ∉ a) : ∃ c, before = a ++ c ∧ b = c ++ x :: after := by
  obtain ⟨c, rfl, rfl⟩ | ⟨c, rfl, hc⟩ := List.append_eq_append_iff.mp h
  · exact ⟨c, rfl, rfl⟩
  · cases c with
    | nil => exact ⟨[], by simp, by simpa using hc.symm⟩
    | cons y c =>
      cases hc
      simp at hx

/-- An entry ahead of a list of which it is none stands in what the list follows. -/
theorem split_ahead {α : Type} {a b before after : List α} {x : α} (h : a ++ b = before ++ x :: after)
    (hx : x ∉ b) : ∃ c, a = before ++ x :: c ∧ after = c ++ b := by
  obtain ⟨c, rfl, hc⟩ | ⟨c, rfl, hc⟩ := List.append_eq_append_iff.mp h
  · simp [hc] at hx
  · cases c with
    | nil =>
      rw [List.nil_append] at hc
      simp [← hc] at hx
    | cons y c =>
      obtain ⟨rfl, rfl⟩ := List.cons.inj hc
      exact ⟨c, rfl, rfl⟩

namespace Action

variable {σ : Type} [Service σ] {c : Connector} {queue url : Value} {timeout : Int} {start : Rat}

/-! ## The fate of a record in the loop -/

/-- The world behind a release that was answered, or of which a log line tells why it failed. -/
inductive Behind (url handle : Value) (v : World σ) : World σ → List Entry → Prop where
  | answered {a : Value} (ho : (v.reply (.changeVisibility url handle)).outcome = .ok a) :
      Behind url handle v (v.after (.changeVisibility url handle)) []
  | warned {failure : Failure} {words : Text}
      (ho : (v.reply (.changeVisibility url handle)).outcome = .error failure) (ht : failure.text = .ok words) :
      Behind url handle v ((v.after (.changeVisibility url handle)).record (unreleased words))
        [(v.after (.changeVisibility url handle)).now (unreleased words)]

/-- A record is released right behind its arrival `e`, and `k` is what happens then. Only a failure that has
no text, as none of the services' own failures is, ends the run. -/
inductive Freed {α : Type} (url : Value) (w : World σ) (before : List Entry) (e : Entry) (record : Value)
    (k : Action σ α) : List Entry → EStateM.Result Fault (World σ) α → Prop where
  | onward {handle : Value} {v u : World σ} {warning later : List Entry}
      (hh : record.item "ReceiptHandle" = .ok handle) (htrace : v.trace = w.trace ++ (before ++ [e]))
      (hu : Behind url handle v u warning) :
      Freed url w before e record k (v.exchange (.changeVisibility url handle) ++ (warning ++ later)) (k.run u)
  | lost {handle : Value} {v : World σ} {failure : Failure} {f : Fault}
      (hh : record.item "ReceiptHandle" = .ok handle) (htrace : v.trace = w.trace ++ (before ++ [e]))
      (ho : (v.reply (.changeVisibility url handle)).outcome = .error failure) (ht : failure.text = .error f) :
      Freed url w before e record k (v.exchange (.changeVisibility url handle))
        (.error f (v.after (.changeVisibility url handle)))

theorem Behind.trace {handle : Value} {v u : World σ} {warning : List Entry}
    (h : Behind url handle v u warning) :
    u.trace = v.trace ++ (v.exchange (.changeVisibility url handle) ++ warning) ∧ ∀ x ∈ warning, x.isLog := by
  cases h with
  | answered ho => exact ⟨by simp, by simp⟩
  | warned ho ht =>
    refine ⟨by simp, ?_⟩
    rintro x (_ | ⟨_, ⟨⟩⟩)
    exact World.isLog_now ..

theorem records_of_failure {w : World σ} {q : Request} {failure : Failure}
    (h : (w.reply q).outcome = .error failure) : ∀ e ∈ w.exchange q, e.records = [] := by
  intro e he
  simp only [World.exchange, h, List.mem_cons, List.not_mem_nil, or_false] at he
  obtain rfl | rfl := he
  · rfl
  · cases q <;> rfl

theorem records_of_release {w : World σ} {handle : Value} :
    ∀ e ∈ w.exchange (.changeVisibility url handle), e.records = [] := by
  intro e he
  simp only [World.exchange, List.mem_cons, List.not_mem_nil, or_false] at he
  obtain rfl | rfl := he <;> rfl

theorem oneRecord_of_orderly {w : World σ} {answer : Value}
    (h : (w.reply (pollOf c url)).outcome = .ok answer) (ho : ∀ e ∈ w.exchange (pollOf c url), e.Orderly) :
    OneRecord answer := by
  have horderly := ho ((w.after (pollOf c url)).now (.answer (pollOf c url) (.ok answer)))
    (by simp [World.exchange, h])
  exact horderly

theorem arrival_of_orderly {w : World σ} {answer record : Value}
    (h : (w.reply (pollOf c url)).outcome = .ok answer) (ha : handedOut answer = .ok (some record))
    (ho : ∀ e ∈ w.exchange (pollOf c url), e.Orderly) : recordsOf answer = [record] ∧ Whole record := by
  obtain ⟨_, hnone⟩ | ⟨record', hrecords, hsome, hwhole⟩ := (oneRecord_of_orderly h ho).handedOut
  · simp [ha] at hnone
  · simp only [ha, Except.ok.injEq, Option.some.injEq] at hsome
    subst hsome
    exact ⟨hrecords, hwhole⟩

theorem records_of_nothing {w : World σ} {answer : Value}
    (h : (w.reply (pollOf c url)).outcome = .ok answer) (ha : ∀ record, handedOut answer ≠ .ok (some record))
    (ho : ∀ e ∈ w.exchange (pollOf c url), e.Orderly) : ∀ e ∈ w.exchange (pollOf c url), e.records = [] := by
  intro e he
  obtain ⟨hnone, _⟩ | ⟨record, _, hsome, _⟩ := (oneRecord_of_orderly h ho).handedOut
  · simp only [World.exchange, h, List.mem_cons, List.not_mem_nil, or_false] at he
    obtain rfl | rfl := he
    · rfl
    · exact hnone
  · exact absurd hsome (ha record)

/-- The record of a poll arrives in its answer; what the round leaves behind that holds no record. -/
theorem split_poll {w : World σ} {answer record arrival : Value} {before after rest : List Entry} {e : Entry}
    (h : (w.reply (pollOf c url)).outcome = .ok answer) (hrecords : recordsOf answer = [arrival])
    (hrest : ∀ x ∈ rest, x.records = []) (hsplit : w.exchange (pollOf c url) ++ rest = before ++ e :: after)
    (he : record ∈ e.records) :
    record = arrival ∧ before ++ [e] = w.exchange (pollOf c url) ∧ after = rest ∧
      e.running = (w.after (pollOf c url)).running := by
  simp only [World.exchange, h, List.cons_append, List.nil_append] at hsplit ⊢
  cases before with
  | nil =>
    obtain ⟨rfl, _⟩ := List.cons.inj hsplit
    cases he
  | cons call before =>
    cases before with
    | nil =>
      simp only [List.cons_append, List.nil_append, List.cons.injEq] at hsplit
      obtain ⟨rfl, rfl, rfl⟩ := hsplit
      change record ∈ recordsOf answer at he
      rw [hrecords, List.mem_singleton] at he
      exact ⟨he, rfl, rfl, rfl⟩
    | cons answered before =>
      simp only [List.cons_append, List.cons.injEq] at hsplit
      obtain ⟨_, _, rfl⟩ := hsplit
      have hnone := hrest e (by simp)
      rw [hnone] at he
      cases he

/-- In a round in order a record that arrives while the connection is running is what the round gives, and
one that arrives after a stop is freed. -/
theorem RoundEnds.fate {w : World σ} {r : EStateM.Result Fault (World σ) (Option Value)}
    (h : RoundEnds c queue url w r) {before after : List Entry} {e : Entry} {record : Value}
    (hes : (left r).trace = w.trace ++ (before ++ e :: after)) (ho : ∀ x ∈ before ++ e :: after, x.Orderly)
    (he : record ∈ e.records) :
    (e.running = true ∧ after = [] ∧ ∃ v, r = .ok (some record) v) ∨
      (e.running = false ∧ Freed url w before e record (pure none) after r) := by
  have hmem : e ∈ before ++ e :: after := by simp
  cases h with
  | stopped hw =>
    rw [left, World.trace_record, List.append_cancel_left_eq] at hes
    rw [← hes, List.mem_singleton] at hmem
    subst hmem
    cases he
  | failed hw hf hc =>
    rw [left, World.trace_record, World.trace_after, List.append_assoc, List.append_cancel_left_eq] at hes
    rw [← hes] at hmem
    obtain hmem | hmem := List.mem_append.mp hmem
    · simp [records_of_failure hf e hmem] at he
    · rw [List.mem_singleton.mp hmem] at he
      cases he
  | untold hw hf hc =>
    rw [left, World.trace_after, List.append_cancel_left_eq] at hes
    simp [records_of_failure hf e (hes ▸ hmem)] at he
  | malformed hw hanswer ha =>
    rw [left, World.trace_after, List.append_cancel_left_eq] at hes
    rw [← hes] at hmem ho
    simp [records_of_nothing hanswer (by simp [ha]) ho e hmem] at he
  | empty hw hanswer ha =>
    rw [left, World.trace_after, List.append_cancel_left_eq] at hes
    rw [← hes] at hmem ho
    simp [records_of_nothing hanswer (by simp [ha]) ho e hmem] at he
  | kept hw hanswer ha hv =>
    rw [left, World.trace_after, List.append_cancel_left_eq] at hes
    rw [← hes] at ho
    obtain ⟨hrecords, _⟩ := arrival_of_orderly hanswer ha ho
    rw [← List.append_nil (w.exchange _)] at hes
    obtain ⟨rfl, _, rfl, hrunning⟩ := split_poll hanswer hrecords (by simp) hes he
    exact .inl ⟨hrunning.trans hv, rfl, _, rfl⟩
  | @released answer arrival handle a hw hanswer ha hv hh hr =>
    rw [left, World.trace_after, World.trace_after, List.append_assoc, List.append_cancel_left_eq] at hes
    obtain ⟨hrecords, _⟩ := arrival_of_orderly hanswer ha fun x hx => ho x (hes ▸ List.mem_append_left _ hx)
    obtain ⟨rfl, harrived, rfl, hrunning⟩ := split_poll hanswer hrecords records_of_release hes he
    refine .inr ⟨hrunning.trans hv, ?_⟩
    rw [← List.append_nil (World.exchange _ _)]
    exact .onward hh (harrived ▸ World.trace_after ..) (.answered hr)
  | @hidden answer arrival handle failure words hw hanswer ha hv hh hr ht =>
    rw [left, World.trace_record, World.trace_after, World.trace_after, List.append_assoc, List.append_assoc,
      List.append_cancel_left_eq] at hes
    obtain ⟨hrecords, _⟩ := arrival_of_orderly hanswer ha fun x hx => ho x (hes ▸ List.mem_append_left _ hx)
    have hrest : ∀ x ∈ (w.after (pollOf c url)).exchange (.changeVisibility url handle) ++
        [((w.after (pollOf c url)).after (.changeVisibility url handle)).now (unreleased words)],
        x.records = [] := by
      intro x hx
      obtain hx | hx := List.mem_append.mp hx
      · exact records_of_release x hx
      · rw [List.mem_singleton.mp hx]
        rfl
    obtain ⟨rfl, harrived, rfl, hrunning⟩ := split_poll hanswer hrecords hrest hes he
    refine .inr ⟨hrunning.trans hv, ?_⟩
    rw [← List.append_nil [_]]
    exact .onward hh (harrived ▸ World.trace_after ..) (.warned hr ht)
  | @lost answer arrival handle failure f hw hanswer ha hv hh hr ht =>
    rw [left, World.trace_after, World.trace_after, List.append_assoc, List.append_cancel_left_eq] at hes
    obtain ⟨hrecords, _⟩ := arrival_of_orderly hanswer ha fun x hx => ho x (hes ▸ List.mem_append_left _ hx)
    obtain ⟨rfl, harrived, rfl, hrunning⟩ := split_poll hanswer hrecords records_of_release hes he
    exact .inr ⟨hrunning.trans hv, .lost hh (harrived ▸ World.trace_after ..) hr ht⟩
  | handleless hw hanswer ha hv hh =>
    rw [left, World.trace_after, List.append_cancel_left_eq] at hes
    obtain ⟨_, _, handle, _, _, hhandle, _⟩ := arrival_of_orderly hanswer ha (hes ▸ ho)
    simp [hh] at hhandle

/-- What is freed behind a part of the loop is freed in the loop. -/
theorem Freed.behind {α : Type} {w v : World σ} {k : Action σ α}
    {r : EStateM.Result Fault (World σ) α} {es before after : List Entry} {e : Entry} {record : Value}
    (hes : v.trace = w.trace ++ es) (h : Freed url v before e record k after r) :
    Freed url w (es ++ before) e record k after r := by
  cases h with
  | onward hh htrace hu => exact .onward hh (by rw [htrace, hes]; simp) hu
  | lost hh htrace ho ht => exact .lost hh (by rw [htrace, hes]; simp) ho ht

/-- What happens behind a release goes on with what happens behind that. -/
theorem Freed.bind {α β : Type} {w v : World σ} {before after : List Entry} {e : Entry} {record : Value}
    {k : Action σ α} {a : α} (g : α → Action σ β) (later : List Entry)
    (h : Freed url w before e record k after (.ok a v)) :
    Freed url w before e record (k >>= g) (after ++ later) ((g a).run v) := by
  generalize hr : (EStateM.Result.ok a v : EStateM.Result Fault (World σ) α) = r at h
  cases h with
  | onward hh htrace hu =>
    rw [← run_bind_of_ok hr.symm, List.append_assoc, List.append_assoc]
    exact .onward hh htrace hu
  | lost => cases hr

theorem Freed.bind_error {α β : Type} {w v : World σ} {before after : List Entry} {e : Entry} {record : Value}
    {k : Action σ α} {f : Fault} (g : α → Action σ β)
    (h : Freed url w before e record k after (.error f v)) :
    Freed url w before e record (k >>= g) after (.error f v) := by
  generalize hr : (EStateM.Result.error f v : EStateM.Result Fault (World σ) α) = r at h
  cases h with
  | onward hh htrace hu =>
    rw [← run_bind_of_error (f := g) hr.symm]
    exact .onward hh htrace hu
  | lost hh htrace ho ht =>
    cases hr
    exact .lost hh htrace ho ht

/-- The round of a record without which the loop goes on: it was the first round, which freed the record, or
a later one. -/
theorem fate_of_none {w v : World σ} (hr : (round c queue url).run w = .ok none v) {es later : List Entry}
    (hes : v.trace = w.trace ++ es) (ho : ∀ x ∈ es, x.Orderly) {before after : List Entry} {e : Entry}
    {record : Value} (hsplit : es ++ later = before ++ e :: after) (he : record ∈ e.records) :
    (e.running = false ∧ Freed url w before e record (unanswered c queue url timeout start) after
        ((unanswered c queue url timeout start).run v)) ∨
      ∃ before', before = es ++ before' ∧ later = before' ++ e :: after := by
  obtain ⟨before', rfl, hlater⟩ | ⟨rest, rfl, hrest⟩ := List.append_eq_append_iff.mp hsplit
  · exact .inr ⟨before', rfl, hlater⟩
  · cases rest with
    | nil => exact .inr ⟨[], by simp, by simpa using hrest.symm⟩
    | cons x rest =>
      obtain ⟨rfl, rfl⟩ := List.cons.inj hrest
      obtain ⟨_, _, _, hsome⟩ | ⟨hrunning, hfreed⟩ := (hr ▸ roundEnds c queue url w).fate hes ho he
      · cases hsome
      · exact .inl ⟨hrunning, hfreed.bind (fun _ => unanswered c queue url timeout start) later⟩

/-- In the loop a record that arrives while the connection is running is the result, and behind it nothing
happens; a record that arrives after a stop is freed. The induction is on the course of the loop: the
record arrives in its first round, or in the rest of it. -/
theorem Awaits.fate {w : World σ} {es : List Entry} {r : EStateM.Result Fault (World σ) (Option Value)}
    (h : Awaits c queue url timeout start w es r) (ho : ∀ e ∈ es, e.Orderly)
    {before after : List Entry} {e : Entry} {record : Value} (hsplit : es = before ++ e :: after)
    (he : record ∈ e.records) :
    (e.running = true ∧ after = [] ∧ ∃ v, r = .ok (some record) v) ∨
      (e.running = false ∧
        Freed url w before e record (unanswered c queue url timeout start) after r) := by
  induction h generalizing before with
  | @fault w v es f hr hes =>
    subst hsplit
    obtain ⟨_, _, _, hsome⟩ | ⟨hrunning, hfreed⟩ := (hr ▸ roundEnds c queue url w).fate hes ho he
    · cases hsome
    · -- the round itself ends in a fault, so the record was lost in its release
      generalize hr : (EStateM.Result.error f v : EStateM.Result Fault (World σ) (Option Value)) = r at hfreed
      cases hfreed with
      | onward => cases hr
      | lost hh htrace hanswer ht => exact .inr ⟨hrunning, .lost hh htrace hanswer ht⟩
  | @record w v es arrival hr hes =>
    subst hsplit
    obtain hkept | ⟨_, hfreed⟩ := (hr ▸ roundEnds c queue url w).fate hes ho he
    · exact .inl hkept
    · generalize hr : (EStateM.Result.ok (some arrival) v) = r at hfreed
      cases hfreed <;> cases hr
  | @late w v es hr hes hd =>
    rw [← run_unanswered_of_due hd]
    rw [← List.append_nil es] at hsplit
    obtain hfreed | ⟨_, _, hrest⟩ := fate_of_none hr hes ho hsplit he
    · exact .inr hfreed
    · simp at hrest
  | @halt w v u es begun f hr hes hd hs hb hbegun =>
    have hrun : (unanswered c queue url timeout start).run v = .error f u := by
      rw [run_unanswered_of_not_due hd, run_bind_of_error hs]
    rw [← hrun]
    obtain hfreed | ⟨_, _, hrest⟩ := fate_of_none hr hes (fun x hx => ho x (List.mem_append_left _ hx)) hsplit he
    · exact .inr hfreed
    · obtain ⟨ms, rfl⟩ := hbegun e (by simp [hrest])
      cases he
  | @again w v es later ms r hr hes hd hs rest ih =>
    have hrun : (unanswered c queue url timeout start).run v = r := by
      rw [run_unanswered_of_not_due hd, run_bind_of_ok hs, rest.run]
    obtain ⟨hrunning, hfreed⟩ | ⟨before', rfl, hrest⟩ :=
      fate_of_none hr hes (fun x hx => ho x (List.mem_append_left _ hx)) hsplit he
    · exact .inr ⟨hrunning, hrun ▸ hfreed⟩
    · -- the record does not arrive in the sleep, so it does in the rest of the loop
      obtain ⟨remaining, rfl, hremaining⟩ : ∃ b, before' = v.now (.sleep ms) :: b ∧ later = b ++ e :: after := by
        refine split_behind (a := [v.now (.sleep ms)]) hrest fun hmem => ?_
        rw [List.mem_singleton.mp hmem] at he
        cases he
      have hrecord := ih (fun x hx => ho x (by simp [hx])) hremaining
      refine hrecord.imp_right fun ⟨hrunning, hfreed⟩ => ⟨hrunning, ?_⟩
      have hslept : (v.slept ms).trace = w.trace ++ (es ++ [v.now (.sleep ms)]) := by
        rw [World.trace_slept, hes, List.append_assoc]
      simpa using hfreed.behind hslept

/-! ## What the loop asks for first, and what it gives last -/

theorem RoundEnds.first_call {w : World σ} {r : EStateM.Result Fault (World σ) (Option Value)}
    (h : RoundEnds c queue url w r) {es : List Entry} (hes : (left r).trace = w.trace ++ es) :
    calls es = [] ∨ ∃ qs, calls es = pollOf c url :: qs := by
  cases h with
  | stopped hw =>
    rw [left, World.trace_record, List.append_cancel_left_eq] at hes
    subst hes
    exact .inl rfl
  | _ =>
    simp only [left, World.trace_record, World.trace_after, List.append_assoc,
      List.append_cancel_left_eq] at hes
    subst hes
    exact .inr ⟨_, rfl⟩

theorem Awaits.first_call {w : World σ} {es : List Entry} {r : EStateM.Result Fault (World σ) (Option Value)}
    (h : Awaits c queue url timeout start w es r) : ∀ q ∈ (calls es).head?, q = pollOf c url := by
  induction h with
  | @fault w v es f hr hes =>
    obtain h | ⟨qs, h⟩ := (hr ▸ roundEnds c queue url w).first_call hes <;> simp [h]
  | @record w v es _ hr hes =>
    obtain h | ⟨qs, h⟩ := (hr ▸ roundEnds c queue url w).first_call hes <;> simp [h]
  | @late w v es hr hes =>
    obtain h | ⟨qs, h⟩ := (hr ▸ roundEnds c queue url w).first_call hes <;> simp [h]
  | @halt w v u es begun f hr hes hd hs hb hbegun =>
    have hnone := calls_of_begun hbegun
    obtain h | ⟨qs, h⟩ := (hr ▸ roundEnds c queue url w).first_call hes <;> simp [h, hnone]
  | @again w v es later ms r hr hes hd hs rest ih =>
    have hsleep : calls (v.now (.sleep ms) :: later) = calls later := rfl
    obtain h | ⟨qs, h⟩ := (hr ▸ roundEnds c queue url w).first_call hes
    · rw [calls_append, h, hsleep]
      exact ih
    · simp [h]

/-- A record that the loop gives arrived last, while the connection was running. -/
theorem Awaits.arrival {w : World σ} {es : List Entry} {r : EStateM.Result Fault (World σ) (Option Value)}
    (h : Awaits c queue url timeout start w es r) (ho : ∀ e ∈ es, e.Orderly) {record : Value} {v : World σ}
    (hr : r = .ok (some record) v) :
    Whole record ∧ ∃ before e, es = before ++ [e] ∧ e.running = true ∧ record ∈ e.records := by
  induction h with
  | fault => cases hr
  | @record w v es record hround hes =>
    cases hr
    cases hround ▸ roundEnds c queue url w with
    | kept hw hanswer ha hv =>
      rw [World.trace_after, List.append_cancel_left_eq] at hes
      subst hes
      obtain ⟨hrecords, hwhole⟩ := arrival_of_orderly hanswer ha ho
      refine ⟨hwhole, [_], _, rfl, hv, ?_⟩
      rw [hanswer]
      change record ∈ recordsOf _
      simp [hrecords]
  | late => cases hr
  | halt => cases hr
  | @again w v es later ms r hround hes hd hs rest ih =>
    obtain ⟨hwhole, before, e, rfl, he⟩ := ih (fun x hx => ho x (by simp [hx])) hr
    exact ⟨hwhole, es ++ v.now (.sleep ms) :: before, e, by simp, he⟩

/-- After a round without a record the first request is a poll. -/
theorem unanswered_first_call {u : World σ} {later : List Entry}
    (h : (left ((unanswered c queue url timeout start).run u)).trace = u.trace ++ later) :
    ∀ q ∈ (calls later).head?, q = pollOf c url := by
  by_cases hd : Due timeout start u
  · rw [run_unanswered_of_due hd, left, List.self_eq_append_right] at h
    simp [h, calls]
  · rw [run_unanswered_of_not_due hd] at h
    cases hs : (sleep c.interval).run u with
    | error f v =>
      rw [run_bind_of_error hs, left] at h
      obtain ⟨begun, hb, hbegun⟩ := sleep_begun hs
      rw [hb, List.append_cancel_left_eq] at h
      subst h
      simp [calls_of_begun hbegun]
    | ok _ v =>
      obtain ⟨ms, -, -, rfl⟩ := run_sleep_eq_ok.mp hs
      obtain ⟨es, hcourse⟩ := awaits c queue url timeout start (u.slept ms)
      rw [run_bind_of_ok hs, hcourse.trace, World.trace_slept, List.append_assoc,
        List.append_cancel_left_eq] at h
      subst h
      exact hcourse.first_call

/-! ## The fate of a record in a receive -/

/-- A record that is kept is the result, and nothing is asked of the service behind its arrival. -/
def Kept (c : Connector) (queue : Value) (timeout : Int) (w : World σ) (after : List Entry)
    (record : Value) : Prop :=
  ∃ ref m v, (receive c queue timeout).run w = .ok (some ref) v ∧ converted record queue = .ok m ∧
    v.store.object? ref = some (.message m) ∧ calls after = []

/-- A record that is released is so by the very next request, and by no other. Whether or not that fails, the
loop goes on with the timeout check, as after a round without a record. It never gives this record: if it
gives one, that arrived later. -/
structure Released (c : Connector) (queue : Value) (timeout : Int) (w : World σ) (before : List Entry)
    (e : Entry) (after : List Entry) (record url : Value) : Prop where
  resolved : ∃ v, (resolveQueue queue).run w = .ok url v
  request : ∃ handle rest, record.item "ReceiptHandle" = .ok handle ∧
    calls after = .changeVisibility url handle :: rest ∧ ∀ q ∈ rest.head?, q = pollOf c url
  freed : Freed url w before e record (do handOver queue (← unanswered c queue url timeout w.elapsed)) after
    ((receive c queue timeout).run w)
  later : ∀ ref v, (receive c queue timeout).run w = .ok (some ref) v →
    ∃ between e' after' record', after = between ++ e' :: after' ∧ e'.running = true ∧
      record' ∈ e'.records ∧ Kept c queue timeout w after' record'

theorem ResolveEnds.records {x : Value} {w : World σ} {r : EStateM.Result Fault (World σ) Value}
    (h : ResolveEnds x w r) :
    ∃ looked, (left r).trace = w.trace ++ looked ∧ ∀ e ∈ looked, e.records = [] := by
  obtain ⟨looked, htrace, hlooked⟩ := h.trace
  refine ⟨looked, htrace, fun e he => ?_⟩
  obtain ⟨q, hmem⟩ | hlog := hlooked e he
  · simp only [World.exchange, List.mem_cons, List.not_mem_nil, or_false] at hmem
    obtain rfl | rfl := hmem <;> rfl
  · exact Entry.records_of_isLog hlog

/-- Behind the loop a receive leaves log lines only, and nothing when the loop ends in a fault. -/
theorem receive_trace {w v : World σ} {es : List Entry} {r : EStateM.Result Fault (World σ) (Option Value)}
    (hresolve : (resolveQueue queue).run w = .ok url v)
    (hcourse : Awaits c queue url timeout w.elapsed v es r) :
    ∃ logs, (left ((receive c queue timeout).run w)).trace = v.trace ++ (es ++ logs) ∧
      (∀ x ∈ logs, x.isLog) ∧ ∀ f u, r = .error f u → logs = [] := by
  have hloop := hcourse.trace
  rw [run_receive_of_resolved c timeout hresolve]
  cases r with
  | error f u =>
    rw [run_bind_of_error hcourse.run]
    exact ⟨[], by simpa [left] using hloop, by simp, by simp⟩
  | ok a u =>
    rw [run_bind_of_ok hcourse.run]
    obtain ⟨logs, htrace, hlogs⟩ := handOver_trace queue a u
    have hloop : u.trace = v.trace ++ es := hloop
    exact ⟨logs, by rw [htrace, hloop, List.append_assoc], hlogs, by simp⟩

theorem kept_of_some {w v u : World σ} {es logs : List Entry} {record : Value}
    (hresolve : (resolveQueue queue).run w = .ok url v)
    (hcourse : Awaits c queue url timeout w.elapsed v es (.ok (some record) u)) (ho : ∀ e ∈ es, e.Orderly)
    (hlogs : ∀ x ∈ logs, x.isLog) : Kept c queue timeout w logs record := by
  obtain ⟨hwhole, _⟩ := hcourse.arrival ho rfl
  obtain ⟨m, hm⟩ := converted_of_whole queue hwhole
  obtain ⟨id, _, body, ⟨hid, -⟩, _, hbody⟩ := hwhole
  have hrun := run_receive_of_resolved c timeout hresolve
  rw [run_bind_of_ok hcourse.run, run_handOver hid hbody hm] at hrun
  refine ⟨_, m, _, hrun, hm, ?_, calls_eq_nil_of_isLog hlogs⟩
  rw [store_taken, Store.object?_add, if_pos rfl]

theorem some_of_receive {w v u : World σ} {es : List Entry} {r : EStateM.Result Fault (World σ) (Option Value)}
    {ref : Ref} (hresolve : (resolveQueue queue).run w = .ok url v)
    (hcourse : Awaits c queue url timeout w.elapsed v es r)
    (hrun : (receive c queue timeout).run w = .ok (some ref) u) : ∃ record u', r = .ok (some record) u' := by
  rw [run_receive_of_resolved c timeout hresolve, EStateM.run_bind, hcourse.run] at hrun
  cases r with
  | error f u' => cases hrun
  | ok a u' =>
    cases a with
    | none => cases hrun
    | some record => exact ⟨record, u', rfl⟩

/-- The requests behind a freed record: first the one that releases it, then polls again. -/
theorem Freed.calls {v : World σ} {r : EStateM.Result Fault (World σ) (Option Value)}
    {before after : List Entry} {e : Entry} {record : Value}
    (h : Freed url v before e record (unanswered c queue url timeout start) after r)
    (htrace : (left r).trace = v.trace ++ (before ++ e :: after)) :
    ∃ handle rest, record.item "ReceiptHandle" = .ok handle ∧
      calls after = .changeVisibility url handle :: rest ∧ ∀ q ∈ rest.head?, q = pollOf c url := by
  cases h with
  | @onward handle v' u warning later hh harrival hu =>
    obtain ⟨hreleased, hwarning⟩ := hu.trace
    have hlater : (left ((unanswered c queue url timeout start).run u)).trace = u.trace ++ later := by
      rw [htrace, hreleased, harrival]
      simp
    exact ⟨handle, MessageBus.calls later, hh, by simp [calls_eq_nil_of_isLog hwarning],
      unanswered_first_call hlater⟩
  | lost hh => exact ⟨_, [], hh, rfl, by simp⟩

/-- A record of a receive arrives in its loop, which stands between the lookup of the queue and the log lines
of the handing over. -/
inductive Arrives (c : Connector) (queue : Value) (timeout : Int) (w : World σ) :
    List Entry → Entry → List Entry → Prop where
  | intro {url : Value} {v : World σ} {looked before rest logs : List Entry} {e : Entry}
      {r : EStateM.Result Fault (World σ) (Option Value)} (hresolve : (resolveQueue queue).run w = .ok url v)
      (hlooked : v.trace = w.trace ++ looked)
      (hcourse : Awaits c queue url timeout w.elapsed v (before ++ e :: rest) r)
      (ho : ∀ x ∈ before ++ e :: rest, x.Orderly) (hlogs : ∀ x ∈ logs, x.isLog)
      (hfault : ∀ f u, r = .error f u → logs = []) :
      Arrives c queue timeout w (looked ++ before) e (rest ++ logs)

theorem arrives {w : World σ} (hsound : ∀ e ∈ heard (receive c queue timeout) w, e.Orderly)
    {before after : List Entry} {e : Entry} {record : Value}
    (hheard : heard (receive c queue timeout) w = before ++ e :: after) (he : record ∈ e.records) :
    Arrives c queue timeout w before e after := by
  have hlookup := resolveEnds queue w
  obtain ⟨looked, hlooked, hnone⟩ := hlookup.records
  have hbehind : ∀ x ∈ looked, e ≠ x := by
    rintro x hx rfl
    simp [hnone e hx] at he
  cases hresolve : (resolveQueue queue).run w with
  | error f v =>
    rw [hresolve] at hlooked
    have hrun := run_receive_of_unresolved c timeout hresolve
    have hlookup : heard (receive c queue timeout) w = looked := heard_eq (by rw [hrun]; exact hlooked)
    rw [hlookup] at hheard
    exact absurd rfl (hbehind e (by simp [hheard]))
  | ok url v =>
    rw [hresolve] at hlooked
    have hlooked : v.trace = w.trace ++ looked := hlooked
    obtain ⟨es, hcourse⟩ := awaits c queue url timeout w.elapsed v
    generalize (awaiting c queue url timeout w.elapsed).run v = r at hcourse
    obtain ⟨logs, htrace, hlogs, hfault⟩ := receive_trace hresolve hcourse
    rw [hlooked, List.append_assoc] at htrace
    rw [heard_eq htrace] at hheard hsound
    have ho : ∀ x ∈ es, x.Orderly := fun x hx => hsound x (by simp [hx])
    -- no record is in what the lookup leaves, and none in the log lines behind the loop
    obtain ⟨before', rfl, hloop⟩ := split_behind hheard fun hmem => hbehind e hmem rfl
    obtain ⟨after', rfl, rfl⟩ := split_ahead hloop fun hmem => by
      simp [Entry.records_of_isLog (hlogs e hmem)] at he
    exact .intro hresolve hlooked hcourse ho hlogs hfault

/-- A record that arrives while the connection is running is kept. -/
theorem Arrives.kept {w : World σ} {before after : List Entry} {e : Entry} {record : Value}
    (h : Arrives c queue timeout w before e after) (he : record ∈ e.records) (hrunning : e.running = true) :
    Kept c queue timeout w after record := by
  obtain ⟨hresolve, _, hcourse, ho, hlogs, _⟩ := h
  obtain ⟨_, rfl, u, rfl⟩ | ⟨hstopped, _⟩ := hcourse.fate ho rfl he
  · exact kept_of_some hresolve hcourse ho hlogs
  · rw [hrunning] at hstopped
    cases hstopped

theorem Arrives.released {w : World σ} {before after : List Entry} {e : Entry} {record : Value}
    (h : Arrives c queue timeout w before e after) (he : record ∈ e.records) (hstopped : e.running = false) :
    ∃ url, Released c queue timeout w before e after record url := by
  obtain ⟨hresolve, hlooked, hcourse, ho, hlogs, hfault⟩ := h
  rename_i url v looked before rest logs r
  obtain ⟨hrunning, _⟩ | ⟨_, hfreed⟩ := hcourse.fate ho rfl he
  · rw [hstopped] at hrunning
    cases hrunning
  · refine ⟨url, ⟨v, hresolve⟩, ?_, ?_, ?_⟩
    · obtain ⟨handle, requests, hh, hcalls, hhead⟩ := hfreed.calls hcourse.trace
      exact ⟨handle, requests, hh, by simp [hcalls, calls_eq_nil_of_isLog hlogs], hhead⟩
    · have hfreed := hfreed.behind hlooked
      rw [run_receive_of_resolved c timeout hresolve]
      cases r with
      | error f u =>
        rw [hfault f u rfl, List.append_nil, run_bind_of_error hcourse.run]
        exact hfreed.bind_error (handOver queue)
      | ok a u =>
        rw [run_bind_of_ok hcourse.run]
        exact hfreed.bind (handOver queue) logs
    · -- what the loop gives arrived last and while the connection was running, so it is not this record
      intro ref u hrun
      obtain ⟨record', u', rfl⟩ := some_of_receive hresolve hcourse hrun
      obtain ⟨_, prior, e', hlast, hrunning, he'⟩ := hcourse.arrival ho rfl
      have hother : e ∉ [e'] := by
        intro hmem
        rw [List.mem_singleton] at hmem
        rw [hmem, hrunning] at hstopped
        cases hstopped
      obtain ⟨between, _, rfl⟩ := split_ahead hlast.symm hother
      exact ⟨between, e', logs, record', by simp, hrunning, he', kept_of_some hresolve hcourse ho hlogs⟩

end Action

end MessageBus
