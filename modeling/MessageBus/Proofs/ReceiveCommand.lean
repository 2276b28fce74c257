import MessageBus.Command.Receive
import MessageBus.Proofs.Obtaining
import MessageBus.Proofs.SendCommand
import MessageBus.Proofs.Timeout

/-!
# The receive command

What the receive of the command comes to (`Action.Obtains`) decides its course, and there are few of them (`Course`):
it reports a failed lookup or poll, says that there is no message, or tells a message and acknowledges it as its
arguments ask for. A message whose ID cannot be printed ends it before anything is shown, and stays on its queue. Which
message is acknowledged (`Course.acknowledges`) and when the command ends in an error (`Course.fails`) is read off the
calls of a course: some that wait, and behind them at most a poll that brought a record and one acknowledgement
(`CallsBehind`).
-/

namespace MessageBus

/-- From its first call on, a run finds the connection running. -/
def KeepsRunning (es : List Entry) : Prop :=
  ∀ before e after, es = before ++ e :: after → (∃ q, e.event = .call q) → ∀ x ∈ e :: after, x.running = true

theorem KeepsRunning.behind {es es' : List Entry} (h : KeepsRunning (es ++ es')) : KeepsRunning es' := by
  rintro before e after rfl
  exact h (es ++ before) e after (List.append_assoc ..).symm

namespace Command

/-! ## Courses of the command -/

/-- What is told of a message: the ID that it goes by, and its body or why there is none. -/
structure Account where
  id : Text
  content : Except Text Value

/-- What is to be told of a record with this ID and this body. -/
def accountOf (id body : Text) : Account :=
  match Codec.deserialize (.text body) with
  | .error e => ⟨"ID:" ++ id, .error e.message⟩
  | .ok m => match m.isIdDisabled with
    | .ok true => ⟨m.messageId.shown, .ok m.body⟩
    | _ => ⟨"ID:" ++ id, .ok m.body⟩

namespace Account

/-- The ID of a message can be printed. Why a message has no body can always be told. -/
def Tellable (x : Account) : Prop := ∀ body, x.content = .ok body → ∀ c ∈ x.id, c.isChar = true

def told (x : Account) : List Event :=
  match x.content with
  | .ok body => [.out (("Message " ++ x.id : Text).withoutControls), .shown body]
  | .error words => [errorLine ("Invalid message " ++ x.id ++ ": " ++ words)]

end Account

/-- The line that tells of a failure, in a context that starts so. Rejected credentials are called out. -/
def ReportedBy (failure : Failure) (start : Text) (line : Event) : Prop :=
  ∃ e, failure.Told e ∧ start <+: e.context ∧ line = errorLine ("Error: " ++ toldError e)

def queueName (a : Arguments) : Text := (a.text? "--queue-name").getD []

/-- The request that acknowledges a message as the arguments ask for, and the word for it. -/
def acknowledgement? (a : Arguments) (url handle : Text) : Option (Request × Text) :=
  if a.flag "--delete" then some (.deleteMessage (.text url) (.text handle), " deleted")
  else if a.flag "--reset" then some (.changeVisibility (.text url) (.text handle), " reset")
  else none

/-- How the command ends once a message was told. -/
inductive Acknowledged (a : Arguments) (url handle id : Text) : List Event → Ending → Prop where
  | unasked (h : acknowledgement? a url handle = none) : Acknowledged a url handle id [] ⟨0, none⟩
  | done {q : Request} {word : Text} {answer : Value} (h : acknowledgement? a url handle = some (q, word)) :
      Acknowledged a url handle id (.answer q (.ok answer) :: printed ("Message " ++ id ++ word))
        (lastLine ("Message " ++ id ++ word))
  | refused {q : Request} {word : Text} {failure : Failure} {line : Event}
      (h : acknowledgement? a url handle = some (q, word)) (hline : ReportedBy failure "Unable to " line) :
      Acknowledged a url handle id [.answer q (.error failure), line] ⟨1, none⟩

/-- The courses that the command can take with a client, and how it ends. -/
inductive Course (a : Arguments) (wait : Value) (overlong : Prop) : List Event → Ending → Prop where
  | unresolved {failure : Failure} {line : Event} (hline : ReportedBy failure "Unable to get message queue '" line) :
      Course a wait overlong [.answer (.createQueue (.text (queueName a))) (.error failure), line] ⟨1, none⟩
  | failed {url : Text} {ds : List Event} {failure : Failure} {line : Event} (hds : Waited (queueName a) wait url ds)
      (hline : ReportedBy failure "Unable to receive message from '" line) :
      Course a wait overlong (ds ++ [.answer (.receiveMessage (.text url) wait) (.error failure), line]) ⟨1, none⟩
  | nothing {url : Text} {ds : List Event} (hds : Waited (queueName a) wait url ds) :
      Course a wait overlong (ds ++ printed ("No message on " ++ queueName a))
        (lastLine ("No message on " ++ queueName a))
  /-- An interval that is too long to be slept ends the command behind a poll that brought nothing. -/
  | overslept {url : Text} {ds : List Event} {message : Text} (hds : Waited (queueName a) wait url ds)
      (hinterval : overlong) : Course a wait overlong ds ⟨1, some (.overflow message)⟩
  | told {url id handle body : Text} {ds acts : List Event} {answer : Value} {ending : Ending}
      (hds : Waited (queueName a) wait url ds) (hrecord : Brings answer id handle body)
      (htold : (accountOf id body).Tellable)
      (hacts : Acknowledged a url handle (accountOf id body).id acts ending) :
      Course a wait overlong (ds ++ .answer (.receiveMessage (.text url) wait) (.ok answer) ::
        ((accountOf id body).told ++ acts)) ending
  /-- A message whose ID cannot be printed is neither shown nor acknowledged. -/
  | untold {url id handle body : Text} {ds : List Event} {answer : Value} (hds : Waited (queueName a) wait url ds)
      (hrecord : Brings answer id handle body) (htold : ¬(accountOf id body).Tellable) :
      Course a wait overlong (ds ++ [.answer (.receiveMessage (.text url) wait) (.ok answer)])
        (lastLine ("Message " ++ (accountOf id body).id))

/-! ## Showing a message -/

section parts

variable {σ : Type}

theorem worded_of_deserialize {payload : Value} {m : Message (Option Destination)}
    (h : Codec.deserialize payload = .ok m) : m.messageId.Worded := by
  obtain ⟨_, hcheck⟩ := Codec.check_of_deserialize h
  obtain ⟨_, -, hm, -⟩ := Message.check_eq_ok.mp hcheck
  obtain hnull | ⟨t, ht⟩ := Check.optionalText_eq_ok hm.messageId
  · rw [hnull]
    exact Value.worded_null
  · rw [ht]
    exact Value.worded_text t

theorem account_of_admitted {queue : Value} {id handle body : Text} {m : Message Value}
    (h : Admitted queue id handle body m) : m.messageId.Worded ∧ m.messageId.shown = (accountOf id body).id ∧
      ((m.diagnosis = none ∧ (accountOf id body).content = .ok m.body) ∨
        ∃ d words, m.diagnosis = some d ∧ d.error.inWords = .ok words ∧
          (accountOf id body).content = .error words) := by
  cases hread : Codec.deserialize (.text body) with
  | error e =>
    obtain ⟨-, -, -, hid, d, hd, herror, -⟩ := h.unread e hread
    have haccount : accountOf id body = ⟨"ID:" ++ id, .error e.message⟩ := by rw [accountOf, hread]
    rw [haccount, hid]
    exact ⟨Value.worded_text _, rfl, .inr ⟨d, _, hd, by rw [herror]; rfl, rfl⟩⟩
  | ok read =>
    obtain ⟨hnone, entries, hentries, rfl⟩ := h.read read hread
    have hdisabled := Message.isIdDisabled_of_dict hentries
    cases hd : Message.declaresNoId entries with
    | true =>
      rw [hd] at hdisabled
      have haccount : accountOf id body = ⟨read.messageId.shown, .ok read.body⟩ := by
        simp only [accountOf, hread, hdisabled]
      rw [haccount]
      exact ⟨worded_of_deserialize hread, by simp, .inl ⟨hnone, rfl⟩⟩
    | false =>
      rw [hd] at hdisabled
      have haccount : accountOf id body = ⟨"ID:" ++ id, .ok read.body⟩ := by
        simp only [accountOf, hread, hdisabled]
      rw [haccount]
      exact ⟨Value.worded_text _, by simp; rfl, .inl ⟨hnone, rfl⟩⟩

theorem run_display {queue : Value} {id handle body : Text} {m : Message Value} (h : Admitted queue id handle body m)
    (htold : (accountOf id body).Tellable) (w : World σ) :
    ∃ v, EStateM.run (display m) w = .ok () v ∧ v.store = w.store ∧ Does w (accountOf id body).told v := by
  obtain ⟨hworded, hid, ⟨hnone, hcontent⟩ | ⟨d, words, hd, hwords, hcontent⟩⟩ := account_of_admitted h
  · have hline : ("Message " ++ m.messageId.shown : Text).withoutControls.unencodable? = none := by
      rw [hid]
      exact (Text.unencodable?_withoutControls _).mpr
        (List.forall_mem_append.mpr ⟨Text.isChar_ofString _, htold _ hcontent⟩)
    have hrun : EStateM.run (display m) w =
        .ok () ((w.record (.out ("Message " ++ m.messageId.shown : Text).withoutControls)).record (.shown m.body)) := by
      rw [display, run_bind_of_ok (run_words w hworded.tellable), hnone]
      exact run_bind_of_ok (run_print w hline)
    refine ⟨_, hrun, rfl, ?_⟩
    rw [Account.told, hcontent, ← hid]
    exact (Does.record w rfl).trans (.record _ rfl)
  · have hrun : EStateM.run (display m) w =
        .ok () (w.record (errorLine ("Invalid message " ++ m.messageId.shown ++ ": " ++ words))) := by
      rw [display, run_bind_of_ok (run_words w hworded.tellable), hd]
      exact run_bind_of_ok (run_words w hwords)
    refine ⟨_, hrun, rfl, ?_⟩
    rw [Account.told, hcontent, ← hid]
    exact .record w rfl

theorem run_display_untellable {queue : Value} {id handle body : Text} {m : Message Value}
    (h : Admitted queue id handle body m) (htold : ¬(accountOf id body).Tellable) (w : World σ) :
    ∃ u, EStateM.run (display m) w = .error (.uncaught (.unencodable u)) w ∧
      lastLine ("Message " ++ (accountOf id body).id) = ⟨1, some (.unencodable u)⟩ := by
  obtain ⟨hworded, hid, ⟨hnone, hcontent⟩ | ⟨d, words, hd, hwords, hcontent⟩⟩ := account_of_admitted h
  · have hline : ("Message " ++ (accountOf id body).id : Text).withoutControls.unencodable? ≠ none := by
      intro hprints
      refine htold fun _ _ => ?_
      exact (List.forall_mem_append.mp ((Text.unencodable?_withoutControls _).mp hprints)).2
    obtain ⟨u, hu⟩ := Option.ne_none_iff_exists'.mp hline
    refine ⟨u, ?_, by rw [lastLine, hu]⟩
    rw [display, run_bind_of_ok (run_words w hworded.tellable), hnone]
    exact run_bind_of_error (run_print_error w (hid ▸ hu))
  · refine absurd ?_ htold
    intro _ hok
    rw [hcontent] at hok
    cases hok

/-! ## Acknowledging it -/

variable [Service σ] {done attempt : Text} {make : Value → Value → Request}

omit [Service σ] in
theorem exists_acknowledgeContext (hattempt : "Unable to " <+: attempt) {id : Value} (hid : id.Worded) (s : Store)
    (handle : Text) : ∃ context, Action.acknowledgeContext attempt (s.expanded id).inWords (.ok handle) = .ok context ∧
      "Unable to " <+: context := by
  refine ⟨attempt ++ " (" ++ id.shown ++ ") with receipt handle " ++ handle, ?_, ?_⟩
  · rw [hid.expanded, hid.tellable]
    rfl
  · simp only [List.append_assoc]
    exact hattempt.trans (List.prefix_append _ _)

/-- An acknowledgement, and the line that tells of it. -/
theorem acknowledgement_concludes {ref d : Ref} {m : Message Value} {q : Queue} {u : World σ} {url handle : Text}
    (word : Text) (hattempt : "Unable to " <+: attempt) (hid : m.messageId.Worded)
    (hm : u.store.object? ref = some (.message m)) (hq : u.store.object? d = some (.queue q))
    (hurl : q.url = .text url) (hhandle : m.receiptHandle = .ok (.text handle)) (hd : m.destination = .shared d)
    {r : Ending × World σ}
    (hr : ended (EStateM.run (do
      act (Action.acknowledge done attempt make (.shared ref))
      print ("Message " ++ (← words m.messageId.inWords) ++ word)) u) = r)
    (horder : ∀ e ∈ r.2.since u, e.InOrder) :
    (∃ answer, Concludes u (.answer (make (.text url) (.text handle)) (.ok answer) ::
        printed ("Message " ++ m.messageId.shown ++ word)) (lastLine ("Message " ++ m.messageId.shown ++ word)) r) ∨
      ∃ failure told, ReportedBy failure "Unable to " told ∧
        Concludes u [.answer (make (.text url) (.text handle)) (.error failure), told] ⟨1, none⟩ r := by
  have hrequest := Action.run_acknowledge done attempt make hm hq hurl hhandle hd
  obtain ⟨context, hcontext, hstart⟩ := exists_acknowledgeContext hattempt hid u.store handle
  rw [hcontext] at hrequest
  have hasked : Does u [.answer (make (.text url) (.text handle)) (u.reply (make (.text url) (.text handle))).outcome]
      (u.after (make (.text url) (.text handle))) := .of_trace (World.trace_after ..)
  generalize make (.text url) (.text handle) = request at hrequest hasked ⊢
  cases ho : (u.reply request).outcome with
  | ok answer =>
    rw [Action.run_bind_of_ok (Action.run_request_ok _ ho)] at hrequest
    rw [run_bind_of_ok (run_act_ok hrequest), run_bind_of_ok (run_words _ hid.tellable)] at hr
    rw [ho] at hasked
    exact .inl ⟨answer, hr ▸ .behind hasked (concludes_print _ _)⟩
  | error failure =>
    rw [ho] at hasked
    have hregular (hlater : (u.after request).trace <+: r.2.trace) : failure.Regular := by
      rw [World.since_trans hasked.later hlater, World.since_eq (World.trace_after u request)] at horder
      exact (World.inOrder_after fun e he => horder e (List.mem_append_left _ he)).2.failed ho
    have hrefused := Action.run_request_error (.ok context) ho
    cases he : failure.toldIn (.ok context) with
    | ok e =>
      rw [he] at hrefused
      rw [Action.run_bind_of_error hrefused] at hrequest
      rw [run_bind_of_error (run_act_error hrequest)] at hr
      have hlog := Does.log (u.after request) .error .errors e.message
      have hlater := hlog.later.trans (builds_tell _ (abortOf (.bus e))).later
      obtain ⟨hsame, htold⟩ := Failure.told_of_toldIn (hregular (hr ▸ hlater)) he
      cases hsame
      exact .inr ⟨failure, _, ⟨e, htold, hstart, rfl⟩,
        hr ▸ .behind (hasked.trans hlog) (concludes_error (toldError e) _)⟩
    | error f =>
      rw [he] at hrefused
      rw [Action.run_bind_of_error hrefused] at hrequest
      rw [run_bind_of_error (run_act_error hrequest)] at hr
      cases Failure.toldIn_eq_error (hregular (hr ▸ (builds_tell _ (abortOf f)).later)) he

/-- A message that was told is acknowledged as the arguments ask for. -/
theorem acknowledge_concludes (a : Arguments) {ref d : Ref} {m : Message Value} {q : Queue} {u : World σ}
    {url handle : Text} (hid : m.messageId.Worded) (hm : u.store.object? ref = some (.message m))
    (hq : u.store.object? d = some (.queue q)) (hurl : q.url = .text url)
    (hhandle : m.receiptHandle = .ok (.text handle)) (hd : m.destination = .shared d) {r : Ending × World σ}
    (hr : ended (EStateM.run (acknowledge ref m (a.flag "--delete") (a.flag "--reset")) u) = r)
    (horder : ∀ e ∈ r.2.since u, e.InOrder) :
    ∃ ds ending, Acknowledged a url handle m.messageId.shown ds ending ∧ Concludes u ds ending r := by
  rw [acknowledge] at hr
  cases hdelete : a.flag "--delete" with
  | true =>
    have hasks : acknowledgement? a url handle = some _ := if_pos hdelete
    rw [if_pos hdelete, Action.delete_eq] at hr
    obtain ⟨answer, hends⟩ | ⟨failure, told, htold, hends⟩ := acknowledgement_concludes " deleted"
      (by decide) hid hm hq hurl hhandle hd hr horder
    · exact ⟨_, _, .done hasks, hends⟩
    · exact ⟨_, _, .refused hasks htold, hends⟩
  | false =>
    have hkept : ¬a.flag "--delete" = true := by simp [hdelete]
    rw [if_neg hkept] at hr
    cases hreset : a.flag "--reset" with
    | true =>
      have hasks : acknowledgement? a url handle = some _ := (if_neg hkept).trans (if_pos hreset)
      rw [if_pos hreset, Action.reset_eq] at hr
      obtain ⟨answer, hends⟩ | ⟨failure, told, htold, hends⟩ := acknowledgement_concludes " reset"
        (by decide) hid hm hq hurl hhandle hd hr horder
      · exact ⟨_, _, .done hasks, hends⟩
      · exact ⟨_, _, .refused hasks htold, hends⟩
    | false =>
      have hleft : ¬a.flag "--reset" = true := by simp [hreset]
      rw [if_neg hleft] at hr
      have hasks : acknowledgement? a url handle = none := (if_neg hkept).trans (if_neg hleft)
      exact ⟨_, _, .unasked hasks, hr ▸ ⟨rfl, .refl u⟩⟩

/-! ## The rest of the command -/

/-- What the command does with what it received. -/
def showReceived (a : Arguments) : Option Ref → Command σ Unit
  | none => print ("No message on " ++ queueName a)
  | some ref => do
    let got ← act (Action.message (.shared ref))
    display got.2
    acknowledge ref got.2 (a.flag "--delete") (a.flag "--reset")

/-- The rest of the command once there are a connector and a queue. -/
def awaitAndShow (a : Arguments) (c : Connector) (d : Ref) : Command σ Unit := do
  showReceived a (← act (Action.receive c (.shared d) ((a.integer? "--timeout-ms").getD defaultTimeout)))

theorem clientless_showReceived (a : Arguments) (o : Option Ref) :
    Clientless (showReceived a o : Command σ Unit) := by
  have h : Pervasive (σ := σ) fun _ _ x => Clientless x := clientless_pervades
  cases o with
  | none => exact h.print _
  | some ref =>
    exact h.andThen (h.acts (h.message _)) fun got => h.andThen (h.display _) fun _ => h.acknowledge ..

/-- A message that was received is told and acknowledged, unless it cannot be told. -/
theorem showReceived_concludes (a : Arguments) {ref d : Ref} {m : Message Value} {q : Queue} {w : World σ}
    {url id handle body : Text} (hm : w.store.object? ref = some (.message m))
    (hadmitted : Admitted (.shared d) id handle body m) (hq : w.store.object? d = some (.queue q))
    (hurl : q.url = .text url) {r : Ending × World σ}
    (hr : ended (EStateM.run (showReceived a (some ref)) w) = r) (horder : ∀ e ∈ r.2.since w, e.InOrder) :
    ((accountOf id body).Tellable ∧ ∃ acts ending, Acknowledged a url handle (accountOf id body).id acts ending ∧
        Concludes w ((accountOf id body).told ++ acts) ending r) ∨
      (¬(accountOf id body).Tellable ∧ Concludes w [] (lastLine ("Message " ++ (accountOf id body).id)) r) := by
  rw [showReceived, run_bind_of_ok (run_act_ok (Action.run_message hm))] at hr
  by_cases htold : (accountOf id body).Tellable
  · obtain ⟨v, hrun, hstore, hdoes⟩ := run_display hadmitted htold w
    rw [run_bind_of_ok hrun] at hr
    rw [← hstore] at hm hq
    have hlater : v.trace <+: r.2.trace := hr ▸ (builds_ended (clientless_pervades.acknowledge ..) v).later
    rw [World.since_trans hdoes.later hlater] at horder
    obtain ⟨hworded, hid, -⟩ := account_of_admitted hadmitted
    obtain ⟨acts, ending, hacts, hends⟩ := acknowledge_concludes a hworded hm hq hurl hadmitted.receipt
      hadmitted.destination hr fun e he => horder e (List.mem_append_right _ he)
    rw [hid] at hacts
    exact .inl ⟨htold, acts, ending, hacts, .behind hdoes hends⟩
  · obtain ⟨u, hrun, hlast⟩ := run_display_untellable hadmitted htold w
    rw [run_bind_of_error hrun] at hr
    rw [hlast]
    exact .inr ⟨htold, hr ▸ ⟨rfl, .refl w⟩⟩

/-- How the command ends once its receive has come to this. -/
def endAfter (a : Arguments) : EStateM.Result Fault (World σ) (Option Ref) → Ending × World σ
  | .ok o v => ended (EStateM.run (showReceived a o) v)
  | .error f v => tell v (abortOf f)

theorem ended_awaitAndShow (a : Arguments) (c : Connector) (d : Ref) (w : World σ) :
    ended (EStateM.run (awaitAndShow a c d) w) =
      endAfter a ((Action.receive c (.shared d) ((a.integer? "--timeout-ms").getD defaultTimeout)).run w) := by
  rw [awaitAndShow]
  cases hrun : (Action.receive c (.shared d) ((a.integer? "--timeout-ms").getD defaultTimeout)).run w with
  | ok o v => rw [run_bind_of_ok (run_act_ok hrun), endAfter]
  | error f v =>
    rw [run_bind_of_error (run_act_error hrun)]
    rfl

theorem later_endAfter (a : Arguments) (res : EStateM.Result Fault (World σ) (Option Ref)) :
    (Action.left res).trace <+: (endAfter a res).2.trace := by
  cases res with
  | ok o v => exact (builds_ended (clientless_showReceived a o) v).later
  | error f v => exact (builds_tell v (abortOf f)).later

/-- What the command obtained decides its course. -/
theorem course_of_obtains {a : Arguments} {c : Connector} {d : Ref} {w : World σ} {overlong : Prop} {ds : List Event}
    {res : EStateM.Result Fault (World σ) (Option Ref)} (hobtains : Action.Obtains c d (queueName a) overlong ds res)
    (hdoes : Does w ds (Action.left res)) {r : Ending × World σ} (hr : endAfter a res = r)
    (horder : ∀ e ∈ r.2.since w, e.InOrder) :
    ∃ ds ending, Course a c.wait overlong ds ending ∧ Concludes w ds ending r := by
  subst hr
  cases hobtains with
  | unresolved he hcontext => exact ⟨_, _, .unresolved ⟨_, he, hcontext, rfl⟩, .behind hdoes (concludes_error ..)⟩
  | failed hds he hcontext =>
    refine ⟨_, _, .failed hds ⟨_, he, hcontext, rfl⟩, ?_⟩
    rw [List.append_cons]
    exact .behind hdoes (concludes_error ..)
  | nothing hds => exact ⟨_, _, .nothing hds, .behind hdoes (concludes_print ..)⟩
  | overslept hds hinterval => exact ⟨_, _, .overslept hds hinterval, ⟨rfl, hdoes⟩⟩
  | @obtained url id handle body ds answer ref m q v hds hrecord hm hadmitted hq hurl =>
    rw [World.since_trans hdoes.later (later_endAfter ..)] at horder
    obtain ⟨htold, acts, ending, hacts, hends⟩ | ⟨htold, hends⟩ :=
      showReceived_concludes a hm hadmitted hq hurl rfl fun e he => horder e (List.mem_append_right _ he)
    · refine ⟨_, _, .told hds hrecord htold hacts, ?_⟩
      have hall := Concludes.behind hdoes hends
      rwa [List.append_assoc] at hall
    · refine ⟨_, _, .untold hds hrecord htold, ?_⟩
      have hall := Concludes.behind hdoes hends
      rwa [List.append_nil] at hall

theorem clientless_awaitAndShow (a : Arguments) (c : Connector) (d : Ref) :
    Clientless (awaitAndShow a c d : Command σ Unit) :=
  .bind (.act (clientless_pervades.receive ..)) fun o => clientless_showReceived a o

/-- The rest of the command takes one of the courses if its connection is kept running and its calls are in order. -/
theorem awaitAndShow_concludes {a : Arguments} {c : Connector} {d : Ref} {w : World σ} {ms : Rat}
    (hms : c.interval.toRat? = some ms) (hpositive : 1 ≤ ms)
    (hd : w.store.object? d = some (.queue (Queue.named (queueName a)))) {r : Ending × World σ}
    (hr : ended (EStateM.run (awaitAndShow a c d) w) = r) (hkeeps : KeepsRunning (r.2.since w))
    (hregular : ∀ e ∈ r.2.since w, ∀ call, e.call? = some call → call.Regular)
    (hends : r.1.uncaught ≠ some .impatient) :
    ∃ ds ending, Course a c.wait (∃ f, c.interval.pause w.tooLong = .error f) ds ending ∧
      Concludes w ds ending r := by
  rw [ended_awaitAndShow] at hr
  obtain ⟨rest, hasks⟩ := Action.receive_asks c ((a.integer? "--timeout-ms").getD defaultTimeout) hd
  generalize (a.integer? "--timeout-ms").getD defaultTimeout = timeout at hr hasks
  have hlater := Action.later_left (clientless_pervades.receive c (.shared d) timeout) w
  have hsince := World.since_trans hlater (hr ▸ later_endAfter a ((Action.receive c (.shared d) timeout).run w))
  change r.2.since w = Action.heard (Action.receive c (.shared d) timeout) w ++ _ at hsince
  have horder : ∀ e ∈ r.2.since w, e.InOrder := by
    refine fun e he => ⟨?_, hregular e he⟩
    rw [hsince, hasks] at hkeeps he
    exact hkeeps [] _ _ rfl ⟨_, rfl⟩ e he
  have hpatient : Action.fault? ((Action.receive c (.shared d) timeout).run w) ≠ some .impatient := by
    intro hfault
    cases hrun : (Action.receive c (.shared d) timeout).run w with
    | ok o v =>
      rw [hrun] at hfault
      cases hfault
    | error f v =>
      rw [hrun] at hfault hr
      cases hfault
      exact hends (hr ▸ rfl)
  have hobtains := Action.receive_obtains hms hpositive hd
    (fun e he => horder e (hsince ▸ List.mem_append_left _ he)) hpatient
  exact course_of_obtains hobtains ⟨hlater, rfl⟩ hr horder

theorem run_receiveBody {s : Surroundings} {settings : Settings} {a : Arguments} (w : World σ)
    (hsettings : s.loadedBy a = .ok settings) (hboth : ¬(a.flag "--delete" = true ∧ a.flag "--reset" = true)) :
    ∃ c d v, EStateM.run (receiveBody s a) w = EStateM.run (awaitAndShow a c d) v ∧
      c.wait = intOrNull settings.wait ∧ c.interval = .int (settings.interval.getD 1000) ∧
      v.store.object? d = some (.queue (Queue.named (queueName a))) ∧ v.tooLong = w.tooLong ∧
      Does w [.client .sqs (clientOptions settings), .client .sns (clientOptions settings)] v := by
  obtain ⟨c, v, hconnector, hwait, hinterval, htooLong, hdoes⟩ := run_connector_does settings w
  have hopened (u : World σ) : EStateM.run (modify fun w => { w with running := true } : Command σ PUnit) u =
      .ok () { u with running := true } := rfl
  refine ⟨c, v.store.objects.length, { v.holding (.queue (Queue.named (queueName a))) with running := true }, ?_,
    hwait, hinterval, v.object?_holding _, htooLong, ⟨hdoes.later, hdoes.deeds⟩⟩
  rw [receiveBody, if_neg hboth]
  dsimp only
  rw [run_bind_of_ok (run_settings w hsettings), run_bind_of_ok hconnector,
    run_bind_of_ok (run_act_ok (Action.run_add ..)), run_bind_of_ok (hopened _), awaitAndShow]
  congr 2

end parts

/-! ## The calls of a course -/

def IsAcknowledgement (q : Request) : Prop :=
  (∃ url handle, q = .deleteMessage url handle) ∨ ∃ url handle, q = .changeVisibility url handle

/-- Among the calls is a poll of the queue under this URL that brought a record with these texts. -/
def Obtained (cs : List Call) (url id handle body : Text) : Prop :=
  ∃ wait answer, ⟨.receiveMessage (.text url) wait, .ok answer⟩ ∈ cs ∧ Brings answer id handle body

/-- The call looks a queue up, or polls it in vain. -/
def IsWaiting (call : Call) : Prop :=
  ∃ answer, call.outcome = .ok answer ∧ ((∃ name, call.request = .createQueue name) ∨
    (∃ url wait, call.request = .receiveMessage url wait) ∧ Action.handedOut answer = .ok none)

/-- The calls of a course behind its wait: none, one that failed, or a poll that brought a record with the
acknowledgement that was asked for. -/
inductive CallsBehind (a : Arguments) : List Call → Ending → Prop where
  | nothing {ending : Ending} (hending : ending ≠ ⟨1, none⟩) : CallsBehind a [] ending
  | failed {q : Request} {failure : Failure} (hq : ¬IsAcknowledgement q) :
      CallsBehind a [⟨q, .error failure⟩] ⟨1, none⟩
  | left {url id handle body : Text} {wait answer : Value} {ending : Ending} (hrecord : Brings answer id handle body)
      (hleft : (accountOf id body).Tellable → acknowledgement? a url handle = none) (hending : ending ≠ ⟨1, none⟩) :
      CallsBehind a [⟨.receiveMessage (.text url) wait, .ok answer⟩] ending
  | acknowledged {url id handle body word : Text} {wait answer : Value} {q : Request}
      {outcome : Except Failure Value} {ending : Ending} (hrecord : Brings answer id handle body)
      (htold : (accountOf id body).Tellable) (hasked : acknowledgement? a url handle = some (q, word))
      (hending : ending = ⟨1, none⟩ ↔ ∃ failure, outcome = .error failure) :
      CallsBehind a [⟨.receiveMessage (.text url) wait, .ok answer⟩, ⟨q, outcome⟩] ending

theorem isWaiting_of_waited {name url : Text} {wait : Value} {ds : List Event} (h : Waited name wait url ds) :
    ∀ call ∈ callsAmong ds, IsWaiting call := by
  cases h with
  | mk hurl hpolls =>
    intro call hcall
    obtain ⟨d, hd, hanswer⟩ := List.mem_filterMap.mp hcall
    rcases List.mem_cons.mp hd with rfl | hd
    · cases hanswer
      exact ⟨_, rfl, .inl ⟨_, rfl⟩⟩
    · obtain ⟨answer, rfl, hnone⟩ := hpolls d hd
      cases hanswer
      exact ⟨_, rfl, .inr ⟨⟨_, _, rfl⟩, hnone⟩⟩

theorem callsAmong_printed (line : Text) : callsAmong (printed line) = [] := by
  unfold printed
  split <;> rfl

theorem Account.callsAmong_told (x : Account) : callsAmong x.told = [] := by
  unfold told
  split <;> rfl

theorem Course.calls {a : Arguments} {wait : Value} {overlong : Prop} {ds : List Event} {ending : Ending}
    (h : Course a wait overlong ds ending) :
    ∃ waits rest, callsAmong ds = waits ++ rest ∧ (∀ call ∈ waits, IsWaiting call) ∧ CallsBehind a rest ending := by
  cases h with
  | unresolved hline =>
    obtain ⟨e, -, -, rfl⟩ := hline
    exact ⟨[], _, rfl, List.forall_mem_nil _, .failed (by simp [IsAcknowledgement])⟩
  | failed hds hline =>
    obtain ⟨e, -, -, rfl⟩ := hline
    exact ⟨_, _, callsAmong_append .., isWaiting_of_waited hds, .failed (by simp [IsAcknowledgement])⟩
  | nothing hds =>
    refine ⟨_, [], ?_, isWaiting_of_waited hds, .nothing (lastLine_ne _)⟩
    rw [callsAmong_append, callsAmong_printed]
  | overslept hds hinterval =>
    exact ⟨_, [], (List.append_nil _).symm, isWaiting_of_waited hds, .nothing nofun⟩
  | @told url id handle body ds acts answer _ hds hrecord htold hacts =>
    refine ⟨callsAmong ds, _, by rw [callsAmong_append], isWaiting_of_waited hds, ?_⟩
    rw [callsAmong_answer, callsAmong_append, Account.callsAmong_told, List.nil_append]
    cases hacts with
    | unasked hnone => exact .left hrecord (fun _ => hnone) nofun
    | done hasked =>
      rw [callsAmong_answer, callsAmong_printed]
      exact .acknowledged hrecord htold hasked ⟨fun h => absurd h (lastLine_ne _), by rintro ⟨_, ⟨⟩⟩⟩
    | refused hasked hline =>
      obtain ⟨e, -, -, rfl⟩ := hline
      exact .acknowledged hrecord htold hasked ⟨fun _ => ⟨_, rfl⟩, fun _ => rfl⟩
  | untold hds hrecord htold =>
    exact ⟨_, _, callsAmong_append .., isWaiting_of_waited hds, .left hrecord (fun h => absurd h htold) (lastLine_ne _)⟩

/-! ## What is acknowledged, and what fails -/

/-- What waits acknowledges nothing, brings nothing and does not fail. -/
theorem IsWaiting.request_ne {call : Call} (h : IsWaiting call) : ¬IsAcknowledgement call.request := by
  obtain ⟨_, -, ⟨_, hq⟩ | ⟨⟨_, _, hq⟩, -⟩⟩ := h
  · simp [IsAcknowledgement, hq]
  · simp [IsAcknowledgement, hq]

theorem IsWaiting.not_brings {url wait answer : Value} (h : IsWaiting ⟨.receiveMessage url wait, .ok answer⟩)
    (id handle body : Text) : ¬Brings answer id handle body := by
  rintro ⟨record, hrecord, -⟩
  obtain ⟨_, ⟨⟩, ⟨_, ⟨⟩⟩ | ⟨-, hnone⟩⟩ := h
  rw [hnone] at hrecord
  cases hrecord

theorem IsWaiting.not_failed {call : Call} (h : IsWaiting call) (failure : Failure) :
    call.outcome ≠ .error failure := by
  obtain ⟨_, hanswered, -⟩ := h
  rw [hanswered]
  nofun

theorem isAcknowledgement_of_asked {a : Arguments} {url handle word : Text} {q : Request}
    (h : acknowledgement? a url handle = some (q, word)) : IsAcknowledgement q := by
  unfold acknowledgement? at h
  split at h
  · cases h
    exact .inl ⟨_, _, rfl⟩
  · split at h
    · cases h
      exact .inr ⟨_, _, rfl⟩
    · cases h

theorem obtained_cons {cs : List Call} {url id handle body : Text} {wait answer : Value}
    (hrecord : Brings answer id handle body) (hcs : ∀ call ∈ cs, IsAcknowledgement call.request)
    {url' id' handle' body' : Text} :
    Obtained (⟨.receiveMessage (.text url) wait, .ok answer⟩ :: cs) url' id' handle' body' ↔
      url' = url ∧ id' = id ∧ handle' = handle ∧ body' = body := by
  constructor
  · rintro ⟨_, _, hmem, hbrings⟩
    rcases List.mem_cons.mp hmem with hpoll | hmem
    · cases hpoll
      exact ⟨rfl, hrecord.unique hbrings⟩
    · have hacknowledges := hcs _ hmem
      simp [IsAcknowledgement] at hacknowledges
  · rintro ⟨rfl, rfl, rfl, rfl⟩
    exact ⟨_, _, List.mem_cons_self, hrecord⟩

theorem CallsBehind.acknowledges {a : Arguments} {cs : List Call} {ending : Ending} (h : CallsBehind a cs ending)
    {q : Request} (hq : IsAcknowledgement q) :
    (∃ outcome, ⟨q, outcome⟩ ∈ cs) ↔ ∃ url id handle body word, Obtained cs url id handle body ∧
      (accountOf id body).Tellable ∧ acknowledgement? a url handle = some (q, word) := by
  have hpoll (url wait : Value) : q ≠ .receiveMessage url wait := by
    rintro rfl
    simp [IsAcknowledgement] at hq
  cases h with
  | nothing hending => simp [Obtained]
  | @failed q' failure hq' =>
    have hne : q ≠ q' := fun heq => hq' (heq ▸ hq)
    simp [Obtained, hne]
  | left hrecord hleft hending =>
    simp only [obtained_cons hrecord (List.forall_mem_nil _)]
    constructor
    · rintro ⟨outcome, hmem⟩
      exact absurd (congrArg Call.request (List.mem_singleton.mp hmem)) (hpoll _ _)
    · rintro ⟨_, _, _, _, word, ⟨rfl, rfl, rfl, rfl⟩, htold, hasked⟩
      rw [hleft htold] at hasked
      cases hasked
  | @acknowledged url id handle body word wait answer q' outcome _ hrecord htold hasked hending =>
    have hbehind : ∀ call ∈ [(⟨q', outcome⟩ : Call)], IsAcknowledgement call.request :=
      List.forall_mem_singleton.mpr (isAcknowledgement_of_asked hasked)
    simp only [obtained_cons hrecord hbehind]
    constructor
    · rintro ⟨_, hmem⟩
      rcases List.mem_pair.mp hmem with hpolled | hmade
      · exact absurd (congrArg Call.request hpolled) (hpoll _ _)
      · cases hmade
        exact ⟨_, _, _, _, _, ⟨rfl, rfl, rfl, rfl⟩, htold, hasked⟩
    · rintro ⟨_, _, _, _, _, ⟨rfl, rfl, rfl, rfl⟩, -, hasked'⟩
      rw [hasked] at hasked'
      cases hasked'
      exact ⟨outcome, by simp⟩

theorem CallsBehind.fails {a : Arguments} {cs : List Call} {ending : Ending} (h : CallsBehind a cs ending) :
    ending = ⟨1, none⟩ ↔ ∃ call ∈ cs, ∃ failure, call.outcome = .error failure := by
  cases h with
  | nothing hending => simpa using hending
  | failed hq => simp
  | left hrecord hleft hending => simpa using hending
  | acknowledged hrecord htold hasked hending => simpa using hending

theorem Course.acknowledges {a : Arguments} {wait : Value} {overlong : Prop} {ds : List Event} {ending : Ending}
    (h : Course a wait overlong ds ending) {q : Request} (hq : IsAcknowledgement q) :
    (∃ outcome, ⟨q, outcome⟩ ∈ callsAmong ds) ↔ ∃ url id handle body word,
      Obtained (callsAmong ds) url id handle body ∧ (accountOf id body).Tellable ∧
        acknowledgement? a url handle = some (q, word) := by
  obtain ⟨waits, rest, hcalls, hwaits, hbehind⟩ := h.calls
  have hmade : (∃ outcome, ⟨q, outcome⟩ ∈ callsAmong ds) ↔ ∃ outcome, ⟨q, outcome⟩ ∈ rest := by
    refine exists_congr fun outcome => ?_
    rw [hcalls, List.mem_append, or_iff_right]
    exact fun hmem => (hwaits _ hmem).request_ne hq
  have hobtained (url id handle body : Text) :
      Obtained (callsAmong ds) url id handle body ↔ Obtained rest url id handle body := by
    refine exists_congr fun wait => exists_congr fun answer => and_congr_left fun hbrings => ?_
    rw [hcalls, List.mem_append, or_iff_right]
    exact fun hmem => (hwaits _ hmem).not_brings id handle body hbrings
  simp only [hmade, hobtained, hbehind.acknowledges hq]

theorem Course.fails {a : Arguments} {wait : Value} {overlong : Prop} {ds : List Event} {ending : Ending}
    (h : Course a wait overlong ds ending) :
    ending = ⟨1, none⟩ ↔ ∃ call ∈ callsAmong ds, ∃ failure, call.outcome = .error failure := by
  obtain ⟨waits, rest, hcalls, hwaits, hbehind⟩ := h.calls
  rw [hbehind.fails]
  refine exists_congr fun call => and_congr_left ?_
  rintro ⟨failure, hfailed⟩
  rw [hcalls, List.mem_append, or_iff_right]
  exact fun hmem => (hwaits _ hmem).not_failed failure hfailed

/-! ## The command -/

variable {σ : Type}

/-- The interval that the settings give between two polls is too long to be slept. -/
def Overlong (settings : Settings) (w : World σ) : Prop :=
  ∃ f, (Value.int (settings.interval.getD 1000)).pause w.tooLong = .error f

/-- How a receive command ends whose connection stays running, at services that answer and fail in order. -/
structure ShowsAndAcknowledges (a : Arguments) (settings : Settings) (w : World σ) (r : Ending × World σ) : Prop where
  /-- The two options are refused together before anything else happens. -/
  exclusive : a.flag "--delete" = true → a.flag "--reset" = true →
    r = (⟨1, none⟩, w.record (errorLine ("Error: " ++ "--delete and --reset are mutually exclusive")))
  /-- Otherwise all that happens is one of the courses, with clients of the settings. -/
  course : ¬(a.flag "--delete" = true ∧ a.flag "--reset" = true) → ∃ ds,
    deeds (r.2.since w) = .client .sqs (clientOptions settings) :: .client .sns (clientOptions settings) :: ds ∧
      Course a (intOrNull settings.wait) (Overlong settings w) ds r.1
  /-- A message is deleted or reset just if it was obtained, the arguments ask for it, and the message was told: a
  message that was read is not, if its ID cannot be printed. -/
  acknowledges : ∀ q, IsAcknowledgement q → ((∃ outcome, ⟨q, outcome⟩ ∈ madeBy w r) ↔ ∃ url id handle body word,
    Obtained (madeBy w r) url id handle body ∧ (accountOf id body).Tellable ∧
      acknowledgement? a url handle = some (q, word))
  /-- The command ends in an error just if a call failed. -/
  fails : ¬(a.flag "--delete" = true ∧ a.flag "--reset" = true) →
    (r.1 = ⟨1, none⟩ ↔ ∃ call ∈ madeBy w r, ∃ failure, call.outcome = .error failure)

variable [Service σ]

theorem receive_exclusive {s : Surroundings} {args : List Text} {a : Arguments} (w : World σ)
    (hcheck : Arguments.check (receiveSpecs ++ commonSpecs) args = .ok a) (hhelp : a.flag "--help" = false)
    (hboth : a.flag "--delete" = true ∧ a.flag "--reset" = true) :
    receive s args w =
      (⟨1, none⟩, w.record (errorLine ("Error: " ++ "--delete and --reset are mutually exclusive"))) := by
  have hbody : EStateM.run (receiveBody s a) w = .error (.error "--delete and --reset are mutually exclusive") w := by
    rw [receiveBody, if_pos hboth]
    rfl
  rw [receive, run_eq_ended w hcheck hhelp, hbody]
  rfl

/-- The receive command acknowledges the message that it showed, as it was asked to, and nothing else. -/
theorem told_then_acknowledged {s : Surroundings} {settings : Settings} {args : List Text} {a : Arguments}
    {w : World σ} (hcheck : Arguments.check (receiveSpecs ++ commonSpecs) args = .ok a)
    (hhelp : a.flag "--help" = false) (hsettings : s.loadedBy a = .ok settings)
    (hends : (receive s args w).1.uncaught ≠ some .impatient) (hkeeps : KeepsRunning ((receive s args w).2.since w))
    (hregular : ∀ call ∈ madeBy w (receive s args w), call.Regular) :
    ShowsAndAcknowledges a settings w (receive s args w) := by
  by_cases hboth : a.flag "--delete" = true ∧ a.flag "--reset" = true
  · have hrun := receive_exclusive (s := s) w hcheck hhelp hboth
    have hmade : madeBy w (receive s args w) = [] := by
      rw [hrun]
      exact madeBy_eq (Quiet.err ..).makes
    refine ⟨fun _ _ => hrun, fun hneither => absurd hboth hneither, fun q hq => ?_,
      fun hneither => absurd hboth hneither⟩
    rw [hmade]
    simp [Obtained]
  · obtain ⟨c, d, v, hbody, hwait, hinterval, hd, htooLong, hdoes⟩ := run_receiveBody w hsettings hboth
    have hrun : ended (EStateM.run (awaitAndShow a c d) v) = receive s args w := by
      rw [receive, run_eq_ended w hcheck hhelp, hbody]
    generalize receive s args w = r at hrun hends hkeeps hregular ⊢
    have hlater : v.trace <+: r.2.trace := hrun ▸ (builds_ended (clientless_awaitAndShow ..) v).later
    have hmade := madeBy_eq_callsAmong (hdoes.later.trans hlater)
    rw [hmade, callsAmong_deeds] at hregular
    rw [World.since_trans hdoes.later hlater] at hkeeps hregular
    obtain ⟨_, read, -, hread, hgiven⟩ := Surroundings.loaded_eq_ok.mp hsettings
    have hsame : settings.interval = read.interval := hgiven ▸ rfl
    obtain ⟨ms, hms, hpositive⟩ := Connector.paced_of_interval hread (hsame ▸ hinterval)
    obtain ⟨ds, ending, hcourse, hconcludes⟩ := awaitAndShow_concludes hms hpositive hd hrun hkeeps.behind
      (fun e he call hcall => hregular call (List.mem_filterMap.mpr ⟨e, List.mem_append_right _ he, hcall⟩)) hends
    rw [hwait, hinterval, htooLong, ← hconcludes.ending] at hcourse
    have hdeeds := (hconcludes.behind hdoes).does.deeds
    have hcalls : madeBy w r = callsAmong ds := by
      rw [hmade, hdeeds]
      rfl
    refine ⟨fun hdelete hreset => absurd ⟨hdelete, hreset⟩ hboth, fun _ => ⟨ds, hdeeds, hcourse⟩, fun q hq => ?_,
      fun _ => ?_⟩
    · rw [hcalls]
      exact hcourse.acknowledges hq
    · rw [hcalls]
      exact hcourse.fails

/-! ## A message that is no message, and one whose ID cannot be printed -/

def answered : Call → Bool
  | ⟨.createQueue _, .ok answer⟩ => match answer.item "QueueUrl" with
    | .ok (.text _) => true
    | _ => false
  | ⟨.receiveMessage _ _, .ok answer⟩ => match answer.get "Messages" (.list []) with
    | .ok (.list records) => records.all fun record =>
      match record.item "MessageId", record.item "ReceiptHandle", record.item "Body" with
      | .ok (.text _), .ok (.text _), .ok (.text _) => true
      | _, _, _ => false
    | _ => false
  | ⟨.deleteMessage _ _, .ok _⟩ => true
  | _ => false

theorem regular_of_answered {call : Call} (h : answered call = true) : call.Regular := by
  unfold answered at h
  split at h
  · split at h
    · next url hurl => exact ⟨url, hurl⟩
    · cases h
  · split at h
    · next records hrecords =>
      refine ⟨records, hrecords, fun record hmem => ?_⟩
      have hwritten := List.all_eq_true.mp h record hmem
      split at hwritten
      · next id handle body hid hhandle hbody => exact ⟨id, handle, body, hid, hhandle, hbody⟩
      · cases hwritten
    · cases h
  · trivial
  · cases h

def brought (body : Text) : Call → Bool
  | ⟨.receiveMessage (.text _) _, .ok answer⟩ => match Action.handedOut answer with
    | .ok (some record) => match record.item "MessageId", record.item "ReceiptHandle", record.item "Body" with
      | .ok (.text _), .ok (.text _), .ok (.text t) => t = body
      | _, _, _ => false
    | _ => false
  | _ => false

theorem obtained_of_brought {cs : List Call} {body : Text} (h : cs.any (brought body) = true) :
    ∃ url id handle, Obtained cs url id handle body := by
  obtain ⟨call, hmem, hcall⟩ := List.any_eq_true.mp h
  unfold brought at hcall
  split at hcall
  · split at hcall
    · next record hrecord =>
      split at hcall
      · next id handle t hid hhandle hbody =>
        obtain rfl := of_decide_eq_true hcall
        exact ⟨_, id, handle, _, _, hmem, record, hrecord, hid, hhandle, hbody⟩
      · cases hcall
    · cases hcall
  · cases hcall

/-- A message whose ID is half of a UTF-16 pair. -/
def halved : Text :=
  "\x7b\"kind\":\"message\",\"message_id\":\"\\ud800\",\"properties\":\x7b\"DisableMessageID\":true\x7d\x7d"

def holdingOne (body : Text) : World Script := { untouched with service := ⟨[], 1, [(1, body)], 0⟩ }

def deleting : List Text := ["--queue-name", "orders", "--delete"]

theorem check_deleting : Arguments.check (receiveSpecs ++ commonSpecs) deleting =
    .ok ⟨[("--queue-name", some "orders"), ("--delete", none)], []⟩ := by
  rfl

def spares (call : Call) : Bool :=
  match call.request with
  | .deleteMessage _ _ | .changeVisibility _ _ => false
  | _ => true

theorem not_isAcknowledgement_of_spares {call : Call} (h : spares call = true) : ¬IsAcknowledgement call.request := by
  rintro (⟨_, _, hq⟩ | ⟨_, _, hq⟩) <;> simp [spares, hq] at h

def deletion (body : Text) : Ending × World Script := receive ⟨[], none, none⟩ deleting (holdingOne body)

def isPatient : Option Fault → Bool
  | some .impatient => false
  | _ => true

/-- A body that is no message is told and deleted. A message whose ID cannot be printed is obtained and not deleted,
although no call has failed. -/
theorem halved_undeleted :
    (∃ url handle outcome, ⟨.deleteMessage url handle, outcome⟩ ∈ madeBy (holdingOne "{}") (deletion "{}")) ∧
      (∃ url id handle, Obtained (madeBy (holdingOne halved) (deletion halved)) url id handle halved) ∧
      (∀ call ∈ madeBy (holdingOne halved) (deletion halved),
        ¬IsAcknowledgement call.request ∧ ∀ failure, call.outcome ≠ .error failure) ∧
      (deletion halved).1.code = 1 := by
  have hreceives (body : Text) (hanswered : (madeBy (holdingOne body) (deletion body)).all answered = true)
      (hrunning : ((deletion body).2.since (holdingOne body)).all (·.running) = true)
      (hpatient : isPatient (deletion body).1.uncaught = true) : ∃ settings,
        ShowsAndAcknowledges ⟨[("--queue-name", some "orders"), ("--delete", none)], []⟩ settings (holdingOne body)
          (deletion body) := by
    have hends : (deletion body).1.uncaught ≠ some .impatient := by
      intro h
      rw [h] at hpatient
      cases hpatient
    refine ⟨_, told_then_acknowledged check_deleting rfl rfl hends ?_ fun call hcall =>
      regular_of_answered (List.all_eq_true.mp hanswered call hcall)⟩
    rintro before e after hes - x hx
    exact List.all_eq_true.mp hrunning x (hes ▸ List.mem_append_right _ hx)
  constructor
  · obtain ⟨hanswered, hrunning, hpatient, hbrought⟩ :
        (madeBy (holdingOne "{}") (deletion "{}")).all answered = true ∧
          ((deletion "{}").2.since (holdingOne "{}")).all (·.running) = true ∧
          isPatient (deletion "{}").1.uncaught = true ∧
          (madeBy (holdingOne "{}") (deletion "{}")).any (brought "{}") = true := by
      decide +kernel
    obtain ⟨settings, htold⟩ := hreceives "{}" hanswered hrunning hpatient
    obtain ⟨url, id, handle, hobtained⟩ := obtained_of_brought hbrought
    have hunread : (Codec.deserialize (.text "{}")).toOption.isNone = true := by decide +kernel
    have htellable : (accountOf id "{}").Tellable := by
      cases hread : Codec.deserialize (.text "{}") with
      | ok m =>
        rw [hread] at hunread
        cases hunread
      | error e =>
        simp only [accountOf, hread]
        nofun
    obtain ⟨outcome, hmade⟩ := (htold.acknowledges (.deleteMessage (.text url) (.text handle)) (.inl ⟨_, _, rfl⟩)).mpr
      ⟨url, id, handle, "{}", " deleted", hobtained, htellable, rfl⟩
    exact ⟨_, _, outcome, hmade⟩
  · obtain ⟨hanswered, hrunning, hpatient, hbrought, hspares, huncaught, hcode⟩ :
        (madeBy (holdingOne halved) (deletion halved)).all answered = true ∧
          ((deletion halved).2.since (holdingOne halved)).all (·.running) = true ∧
          isPatient (deletion halved).1.uncaught = true ∧
          (madeBy (holdingOne halved) (deletion halved)).any (brought halved) = true ∧
          (madeBy (holdingOne halved) (deletion halved)).all spares = true ∧
          (deletion halved).1.uncaught.isSome = true ∧ (deletion halved).1.code = 1 := by
      decide +kernel
    obtain ⟨settings, htold⟩ := hreceives halved hanswered hrunning hpatient
    refine ⟨obtained_of_brought hbrought, fun call hcall => ⟨?_, fun failure hfailed => ?_⟩, hcode⟩
    · exact not_isAcknowledgement_of_spares (List.all_eq_true.mp hspares call hcall)
    · have hending := (htold.fails (by decide)).mpr ⟨call, hcall, failure, hfailed⟩
      rw [hending] at huncaught
      cases huncaught

end Command

end MessageBus
