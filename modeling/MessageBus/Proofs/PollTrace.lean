import MessageBus.Proofs.RecordFate

/-!
# The trace of a receive

A receive looks its queue up with one request at most and then polls in rounds (`Rounds`). A round asks the
service for nothing while the connection is stopped, and otherwise for one record, which it may release
(`Round`). Two rounds are separated by one sleep. Nothing but the services and the timers starts or stops the
connection meanwhile (`Untouched`).
-/

namespace MessageBus

variable {σ : Type}

/-- The clock and the running flag of the connection, with what changes them: the timers and the service. -/
structure World.SameFlag (w v : World σ) : Prop where
  running : v.running = w.running
  elapsed : v.elapsed = w.elapsed
  timers : v.timers = w.timers
  service : v.service = w.service

section requests

variable [Service σ]

/-- From one world to another nothing starts or stops the connection but the services and the timers: there are
requests, sleeps, and steps that take no time and leave the flag alone. -/
inductive Untouched : World σ → World σ → Prop where
  | here (w : World σ) : Untouched w w
  | request {w v : World σ} (h : Untouched w v) (q : Request) : Untouched w (v.after q)
  | sleep {w v : World σ} (h : Untouched w v) (ms : Rat) : Untouched w (v.slept ms)
  | step {w v u : World σ} (h : Untouched w v) (hu : v.SameFlag u) : Untouched w u

namespace Untouched

theorem trans {w v u : World σ} (h : Untouched w v) (h' : Untouched v u) : Untouched w u := by
  induction h' with
  | here => exact h
  | request _ q ih => exact .request ih q
  | sleep _ ms ih => exact .sleep ih ms
  | step _ hu ih => exact .step ih hu

theorem record {w v : World σ} (h : Untouched w v) (e : Event) : Untouched w (v.record e) :=
  h.step ⟨rfl, rfl, rfl, rfl⟩

end Untouched

end requests

namespace Action

/-! ## Rounds -/

/-- A log line, or none. -/
inductive Told (w : World σ) : List Entry → World σ → Prop where
  | nothing : Told w [] w
  | line (level : Level) (logger : Logger) (t : Text) :
      Told w [w.now (.log level logger t)] (w.record (.log level logger t))

theorem Told.isLog {w v : World σ} {es : List Entry} (h : Told w es v) : ∀ e ∈ es, e.isLog := by
  intro e he
  cases h with
  | nothing => cases he
  | line =>
    rw [List.mem_singleton.mp he]
    exact World.isLog_now ..

theorem Told.trace {w v : World σ} {es : List Entry} (h : Told w es v) : v.trace = w.trace ++ es := by
  cases h with
  | nothing => exact (List.append_nil _).symm
  | line => exact World.trace_record ..

/-- A line that cannot be put into words is left out. -/
theorem told_note (w : World σ) (level : Level) (logger : Logger) (line : Except Fault Text) :
    Told w (w.noted level logger line) (w.note level logger line) := by
  cases line with
  | ok t => exact .line level logger t
  | error f =>
    rw [World.note_error]
    exact .nothing

/-- An entry is no poll, or one made while the connection is running. -/
def MadeRunning (e : Entry) : Prop := ∀ url wait, e.event = .call (.receiveMessage url wait) → e.running = true

theorem madeRunning_of_isLog {e : Entry} (h : e.isLog) : MadeRunning e := by
  obtain ⟨_, _, _, hlog⟩ := h
  intro url wait he
  rw [hlog] at he
  cases he

theorem madeRunning_sleep (w : World σ) (ms : Rat) : MadeRunning (w.now (.sleep ms)) := by
  intro _ _ h
  cases h

variable [Service σ] {c : Connector} {queue url : Value} {timeout : Int} {start : Rat}

/-- One round: what it leaves in the trace, and the world behind it. The flag with which it starts tells
whether there is a poll. -/
inductive Round (c : Connector) (url : Value) (w : World σ) : List Entry → World σ → Prop where
  | stopped {es : List Entry} {v : World σ} (hw : w.running = false) (hv : Told w es v) : Round c url w es v
  | polled {es : List Entry} {v : World σ} (hw : w.running = true) (hv : Told (w.after (pollOf c url)) es v) :
      Round c url w (w.exchange (pollOf c url) ++ es) v
  /-- The connection was stopped while the poll was under way, and what the poll gave is released. -/
  | released {handle : Value} {es : List Entry} {v : World σ} (hw : w.running = true)
      (hstop : (w.after (pollOf c url)).running = false)
      (hv : Told ((w.after (pollOf c url)).after (.changeVisibility url handle)) es v) :
      Round c url w (w.exchange (pollOf c url) ++
        ((w.after (pollOf c url)).exchange (.changeVisibility url handle) ++ es)) v

/-- Rounds with one sleep of the poll interval between two of them. -/
inductive Rounds (c : Connector) (url : Value) : World σ → List Entry → World σ → Prop where
  | last {w v : World σ} {es : List Entry} (h : Round c url w es v) : Rounds c url w es v
  /-- The run ends while it sleeps. -/
  | cut {w v : World σ} {es : List Entry} {ms : Rat} (h : Round c url w es v)
      (hms : c.interval.toRat? = some ms) :
      Rounds c url w (es ++ [v.now (.sleep ms)]) (v.record (.sleep ms))
  | again {w v u : World σ} {es later : List Entry} {ms : Rat} (h : Round c url w es v)
      (hms : c.interval.toRat? = some ms) (rest : Rounds c url (v.slept ms) later u) :
      Rounds c url w (es ++ v.now (.sleep ms) :: later) u

theorem Told.untouched {w v : World σ} {es : List Entry} (h : Told w es v) : Untouched w v := by
  cases h with
  | nothing => exact .here w
  | line => exact (Untouched.here w).record _

theorem Round.trace {w v : World σ} {es : List Entry} (h : Round c url w es v) : v.trace = w.trace ++ es := by
  cases h with
  | stopped hw hv => exact hv.trace
  | polled hw hv => rw [hv.trace, World.trace_after, List.append_assoc]
  | released hw hstop hv => rw [hv.trace, World.trace_after, World.trace_after]; simp

theorem Round.untouched {w v : World σ} {es : List Entry} (h : Round c url w es v) : Untouched w v := by
  cases h with
  | stopped hw hv => exact hv.untouched
  | polled hw hv => exact ((Untouched.here w).request _).trans hv.untouched
  | released hw hstop hv => exact (((Untouched.here w).request _).request _).trans hv.untouched

/-- The requests of a round: none while the connection is stopped, and otherwise one poll, and the release of
what it gave if the connection was stopped meanwhile. -/
theorem Round.requests {w v : World σ} {es : List Entry} (h : Round c url w es v) :
    (w.running = false ∧ calls es = []) ∨
      (w.running = true ∧ (calls es = [pollOf c url] ∨
        ∃ handle, calls es = [pollOf c url, .changeVisibility url handle])) := by
  cases h with
  | stopped hw hv => exact .inl ⟨hw, calls_eq_nil_of_isLog hv.isLog⟩
  | polled hw hv => exact .inr ⟨hw, .inl (by simp [calls_eq_nil_of_isLog hv.isLog])⟩
  | @released handle _ _ hw hstop hv =>
    exact .inr ⟨hw, .inr ⟨handle, by simp [calls_eq_nil_of_isLog hv.isLog]⟩⟩

theorem madeRunning_exchange {w : World σ} {q : Request}
    (h : ∀ url wait, q = .receiveMessage url wait → w.running = true) : ∀ e ∈ w.exchange q, MadeRunning e := by
  intro e he url wait hcall
  simp only [World.exchange, List.mem_cons, List.not_mem_nil, or_false] at he
  rcases he with rfl | rfl
  · injection hcall with hq
    exact h url wait hq
  · cases hcall

theorem Round.madeRunning {w v : World σ} {es : List Entry} (h : Round c url w es v) :
    ∀ e ∈ es, MadeRunning e := by
  cases h with
  | stopped hw hv => exact fun e he => madeRunning_of_isLog (hv.isLog e he)
  | polled hw hv =>
    intro e he
    rcases List.mem_append.mp he with he | he
    · exact madeRunning_exchange (fun _ _ _ => hw) e he
    · exact madeRunning_of_isLog (hv.isLog e he)
  | released hw hstop hv =>
    intro e he
    rcases List.mem_append.mp he with he | he
    · exact madeRunning_exchange (fun _ _ _ => hw) e he
    · rcases List.mem_append.mp he with he | he
      · refine madeRunning_exchange ?_ e he
        intro _ _ hq
        cases hq
      · exact madeRunning_of_isLog (hv.isLog e he)

theorem Rounds.madeRunning {w v : World σ} {es : List Entry} (h : Rounds c url w es v) :
    ∀ e ∈ es, MadeRunning e := by
  induction h with
  | last h => exact h.madeRunning
  | cut h hms =>
    intro e he
    rcases List.mem_append.mp he with he | he
    · exact h.madeRunning e he
    · rw [List.mem_singleton.mp he]
      exact madeRunning_sleep _ _
  | again h hms _ ih =>
    intro e he
    rcases List.mem_append.mp he with he | he
    · exact h.madeRunning e he
    · rcases List.mem_cons.mp he with rfl | he
      · exact madeRunning_sleep _ _
      · exact ih e he

theorem Rounds.untouched {w v : World σ} {es : List Entry} (h : Rounds c url w es v) : Untouched w v := by
  induction h with
  | last h => exact h.untouched
  | cut h hms => exact h.untouched.record _
  | again h hms _ ih => exact (h.untouched.sleep _).trans ih

theorem Rounds.trace {w v : World σ} {es : List Entry} (h : Rounds c url w es v) : v.trace = w.trace ++ es := by
  induction h with
  | last h => exact h.trace
  | cut h hms => rw [World.trace_record, h.trace, List.append_assoc]
  | again h hms _ ih => rw [ih, World.trace_slept, h.trace]; simp

/-! ## From the loop to its rounds -/

/-- Whatever a round comes to, it is one of the three forms. -/
theorem RoundEnds.round {w : World σ} {r : EStateM.Result Fault (World σ) (Option Value)}
    (h : RoundEnds c queue url w r) : ∃ es, Round c url w es (left r) := by
  cases h with
  | stopped hw => exact ⟨_, .stopped hw (.line ..)⟩
  | failed hw ho he => exact ⟨_, .polled hw (.line ..)⟩
  | untold hw ho he => exact ⟨_, .polled hw .nothing⟩
  | malformed hw ho ha => exact ⟨_, .polled hw .nothing⟩
  | empty hw ho ha => exact ⟨_, .polled hw .nothing⟩
  | kept hw ho ha hv => exact ⟨_, .polled hw .nothing⟩
  | released hw ho ha hv hh hr => exact ⟨_, .released hw hv .nothing⟩
  | hidden hw ho ha hv hh hr ht => exact ⟨_, .released hw hv (.line ..)⟩
  | lost hw ho ha hv hh hr ht => exact ⟨_, .released hw hv .nothing⟩
  | handleless hw ho ha hv hh => exact ⟨_, .polled hw .nothing⟩

theorem round_of_run {w v : World σ} {r : Option Value} (h : (round c queue url).run w = .ok r v) :
    ∃ es, Round c url w es v := by
  have hround := (roundEnds c queue url w).round
  rwa [h] at hround

/-- Each course of the loop is made of rounds and sleeps. -/
theorem Awaits.rounds {w : World σ} {es : List Entry} {r : EStateM.Result Fault (World σ) (Option Value)}
    (h : Awaits c queue url timeout start w es r) : ∃ es, Rounds c url w es (left r) := by
  induction h with
  | @fault w v es f hr hes =>
    have hround := (roundEnds c queue url w).round
    rw [hr] at hround
    obtain ⟨es, hround⟩ := hround
    exact ⟨es, .last hround⟩
  | record hr hes =>
    obtain ⟨es, hround⟩ := round_of_run hr
    exact ⟨es, .last hround⟩
  | late hr hes hd =>
    obtain ⟨es, hround⟩ := round_of_run hr
    exact ⟨es, .last hround⟩
  | halt hr hes hd hs hb hbegun =>
    obtain ⟨es, hround⟩ := round_of_run hr
    obtain ⟨-, rfl⟩ | ⟨ms, hms, -, -, rfl⟩ := run_sleep_error hs
    · exact ⟨es, .last hround⟩
    · exact ⟨_, .cut hround (Value.pause_eq_ok hms).1⟩
  | again hr hes hd hs rest ih =>
    obtain ⟨es, hround⟩ := round_of_run hr
    obtain ⟨later, hrest⟩ := ih
    obtain ⟨ms, hms, _, hslept⟩ := run_sleep_eq_ok.mp hs
    rw [hslept] at hrest
    exact ⟨_, .again hround (Value.pause_eq_ok hms).1 hrest⟩

/-! ## The whole receive -/

/-- What the lookup of a queue leaves in the trace: one request for the queue at most, and no sleep. -/
inductive LookedUp (w : World σ) : List Entry → World σ → Prop where
  | known : LookedUp w [] w
  | asked {name : Value} {es : List Entry} {v u : World σ} (hv : (w.after (.createQueue name)).SameFlag v)
      (htrace : v.trace = (w.after (.createQueue name)).trace) (hu : Told v es u) :
      LookedUp w (w.exchange (.createQueue name) ++ es) u

theorem UrlEnds.lookedUp {ref : Ref} {q : Queue} {w : World σ} {r : EStateM.Result Fault (World σ) Value}
    (h : UrlEnds ref q w r) : ∃ es, LookedUp w es (left r) := by
  have hsame (v : World σ) : v.SameFlag v := ⟨rfl, rfl, rfl, rfl⟩
  cases h with
  | known hq => exact ⟨_, .known⟩
  | @found answer url hq ho hu =>
    let v := (w.after (lookupOf w q)).put ref (.queue { q with url := url })
    have hput : (w.after (lookupOf w q)).SameFlag v := ⟨rfl, rfl, rfl, rfl⟩
    exact ⟨_, .asked hput rfl (told_note v .debug .resolver (resolved w q url))⟩
  | malformed hq ho hu => exact ⟨_, .asked (hsame _) rfl .nothing⟩
  | failed hq ho he => exact ⟨_, .asked (hsame _) rfl (.line ..)⟩
  | untold hq ho he => exact ⟨_, .asked (hsame _) rfl .nothing⟩

theorem ResolveEnds.lookedUp {x : Value} {w : World σ} {r : EStateM.Result Fault (World σ) Value}
    (h : ResolveEnds x w r) : ∃ es, LookedUp w es (left r) := by
  cases h with
  | absent hx => exact ⟨_, .known⟩
  | other hx ho ht => exact ⟨_, .known⟩
  | wordless hx ho ht => exact ⟨_, .known⟩
  | queue hx ho hr => exact hr.lookedUp

theorem LookedUp.trace {w v : World σ} {es : List Entry} (h : LookedUp w es v) : v.trace = w.trace ++ es := by
  cases h with
  | known => exact (List.append_nil _).symm
  | asked hv htrace hu => rw [hu.trace, htrace, World.trace_after, List.append_assoc]

theorem LookedUp.untouched {w v : World σ} {es : List Entry} (h : LookedUp w es v) : Untouched w v := by
  cases h with
  | known => exact .here w
  | asked hv htrace hu => exact (((Untouched.here w).request _).step hv).trans hu.untouched

theorem LookedUp.madeRunning {w v : World σ} {es : List Entry} (h : LookedUp w es v) :
    ∀ e ∈ es, MadeRunning e := by
  intro e he
  cases h with
  | known => cases he
  | asked hv htrace hu =>
    rcases List.mem_append.mp he with he | he
    · refine madeRunning_exchange ?_ e he
      intro _ _ hq
      cases hq
    · exact madeRunning_of_isLog (hu.isLog e he)

/-- Handing a record over leaves log lines, and the message. -/
theorem handOver_untouched (queue : Value) (a : Option Value) (u : World σ) :
    Untouched u (left ((handOver queue a).run u)) := by
  have harrived (id : Value) : Untouched u (arrived u id) := (Untouched.here u).step ⟨rfl, rfl, rfl, rfl⟩
  have hheeded (id body : Value) : Untouched u ((arrived u id).heeded body) := by
    unfold World.heeded
    split
    · exact harrived id
    · exact (harrived id).record _
  have hends := handOverEnds queue a u
  generalize (handOver queue a).run u = r at hends
  cases hends with
  | nothing => exact .here u
  | nameless hid => exact .here u
  | bodiless hid hbody => exact harrived _
  | unmade hid hbody hm => exact hheeded _ _
  | handed hid hbody hm => exact (hheeded _ _).step ⟨rfl, rfl, rfl, rfl⟩

/-- The course of a receive. -/
inductive Receives (c : Connector) (queue : Value) (w : World σ) : List Entry → World σ → Prop where
  /-- The queue is not found, and nothing is polled. -/
  | unresolved {looked : List Entry} {v : World σ} {f : Fault} (hv : LookedUp w looked v)
      (hr : (resolveQueue queue).run w = .error f v) : Receives c queue w looked v
  | polled {url : Value} {looked rounds logs : List Entry} {v u u' : World σ} (hv : LookedUp w looked v)
      (hr : (resolveQueue queue).run w = .ok url v) (hu : Rounds c url v rounds u)
      (hu' : Untouched u u') (htrace : u'.trace = u.trace ++ logs) (hlogs : ∀ e ∈ logs, e.isLog) :
      Receives c queue w (looked ++ (rounds ++ logs)) u'

theorem receives (c : Connector) (queue : Value) (timeout : Int) (w : World σ) :
    ∃ es, Receives c queue w es (left ((receive c queue timeout).run w)) := by
  obtain ⟨looked, hlooked⟩ := (resolveEnds queue w).lookedUp
  cases hresolve : (resolveQueue queue).run w with
  | error f v =>
    rw [hresolve] at hlooked
    rw [run_receive_of_unresolved c timeout hresolve]
    exact ⟨looked, .unresolved hlooked hresolve⟩
  | ok url v =>
    rw [hresolve] at hlooked
    obtain ⟨_, hcourse⟩ := awaits c queue url timeout w.elapsed v
    obtain ⟨rounds, hrounds⟩ := hcourse.rounds
    rw [run_receive_of_resolved c timeout hresolve]
    cases hloop : (awaiting c queue url timeout w.elapsed).run v with
    | error f u =>
      rw [hloop] at hrounds
      rw [run_bind_of_error hloop]
      exact ⟨_, .polled hlooked hresolve hrounds (.here u) (List.append_nil _).symm (by simp)⟩
    | ok a u =>
      rw [hloop] at hrounds
      rw [run_bind_of_ok hloop]
      obtain ⟨logs, htrace, hlogs⟩ := handOver_trace queue a u
      exact ⟨_, .polled hlooked hresolve hrounds (handOver_untouched queue a u) htrace hlogs⟩

theorem Receives.trace {w v : World σ} {es : List Entry} (h : Receives c queue w es v) : v.trace = w.trace ++ es := by
  cases h with
  | unresolved hv hr => exact hv.trace
  | polled hv hr hu hu' htrace hlogs => rw [htrace, hu.trace, hv.trace]; simp

theorem Receives.untouched {w v : World σ} {es : List Entry} (h : Receives c queue w es v) : Untouched w v := by
  cases h with
  | unresolved hv hr => exact hv.untouched
  | polled hv hr hu hu' htrace hlogs => exact (hv.untouched.trans hu.untouched).trans hu'

theorem Receives.madeRunning {w v : World σ} {es : List Entry} (h : Receives c queue w es v) :
    ∀ e ∈ es, MadeRunning e := by
  intro e he
  cases h with
  | unresolved hv hr => exact hv.madeRunning e he
  | polled hv hr hu hu' htrace hlogs =>
    rcases List.mem_append.mp he with he | he
    · exact hv.madeRunning e he
    · rcases List.mem_append.mp he with he | he
      · exact hu.madeRunning e he
      · exact madeRunning_of_isLog (hlogs e he)

/-- The requests of one round. -/
def RoundCalls (c : Connector) (url : Value) (asked : List Request) : Prop :=
  asked = [] ∨ asked = [pollOf c url] ∨ ∃ handle, asked = [pollOf c url, .changeVisibility url handle]

/-- The requests of a receive: one for the queue at most, and then those of its rounds. -/
def ReceiveCalls (c : Connector) (asked : List Request) : Prop :=
  ∃ (lookups : List Request) (url : Value) (rounds : List (List Request)),
    asked = lookups ++ rounds.flatten ∧ (lookups = [] ∨ ∃ name, lookups = [.createQueue name]) ∧
      ∀ round ∈ rounds, RoundCalls c url round

theorem Rounds.requests {w v : World σ} {es : List Entry} (h : Rounds c url w es v) :
    ∃ rounds : List (List Request), calls es = rounds.flatten ∧ ∀ asked ∈ rounds, RoundCalls c url asked := by
  have hround {w v : World σ} {es : List Entry} (h : Round c url w es v) : RoundCalls c url (calls es) := by
    rcases h.requests with ⟨_, hnone⟩ | ⟨_, hpoll | hreleased⟩
    · exact .inl hnone
    · exact .inr (.inl hpoll)
    · exact .inr (.inr hreleased)
  have hsleep (w : World σ) (ms : Rat) (es : List Entry) : calls (w.now (.sleep ms) :: es) = calls es := rfl
  induction h with
  | @last _ _ es h => exact ⟨[calls es], by simp, by simpa using hround h⟩
  | @cut _ _ es _ h hms => exact ⟨[calls es], by rw [calls_append, hsleep]; simp [calls], by simpa using hround h⟩
  | again h hms _ ih =>
    obtain ⟨rounds, hcalls, hrounds⟩ := ih
    refine ⟨_ :: rounds, by rw [calls_append, hsleep, hcalls, List.flatten_cons], ?_⟩
    intro asked hasked
    rcases List.mem_cons.mp hasked with rfl | hasked
    · exact hround h
    · exact hrounds asked hasked

theorem LookedUp.requests {w v : World σ} {es : List Entry} (h : LookedUp w es v) :
    calls es = [] ∨ ∃ name, calls es = [.createQueue name] := by
  cases h with
  | known => exact .inl rfl
  | @asked name _ _ _ _ _ hu => exact .inr ⟨name, by simp [calls_eq_nil_of_isLog hu.isLog]⟩

theorem Receives.requests {w v : World σ} {es : List Entry} (h : Receives c queue w es v) :
    ReceiveCalls c (calls es) := by
  cases h with
  | unresolved hv hr => exact ⟨_, .null, [], (List.append_nil _).symm, hv.requests, by simp⟩
  | polled hv hr hu hu' htrace hlogs =>
    obtain ⟨rounds, hcalls, hrounds⟩ := hu.requests
    exact ⟨_, _, rounds, by simp [hcalls, calls_eq_nil_of_isLog hlogs], hv.requests, hrounds⟩

/-- Nothing is polled while the connection is stopped. The trace of every receive is one lookup at most and
then rounds, each of one poll if it starts while the connection is running and of no request otherwise, with
one sleep between two of them; and the receive itself never starts or stops the connection. -/
theorem polls_while_running (c : Connector) (queue : Value) (timeout : Int) (w : World σ) :
    Receives c queue w (heard (receive c queue timeout) w) (left ((receive c queue timeout).run w)) ∧
      (∀ e ∈ heard (receive c queue timeout) w, MadeRunning e) ∧
      Untouched w (left ((receive c queue timeout).run w)) ∧
      ReceiveCalls c (calls (heard (receive c queue timeout) w)) := by
  obtain ⟨es, hcourse⟩ := receives c queue timeout w
  rw [heard_eq hcourse.trace]
  exact ⟨hcourse, hcourse.madeRunning, hcourse.untouched, hcourse.requests⟩

end Action

end MessageBus
