import MessageBus.Connector.Receive
import MessageBus.Proofs.Calls
import MessageBus.Proofs.FailureCodes

/-!
# Failures and answers in order

A failure in order (`Failure.Regular`) can always be classified, and its codes decide how
(`Failure.classify_regular`): it is told as a security error exactly when it bears one of the two security codes.
An answer in order (`Request.Answered`) has what the bus reads of it.
-/

namespace MessageBus

namespace Failure

/-- An error of a response: an object, whose code is a text if it has one. -/
def Coded (error : Value) : Prop :=
  ∃ entries, error = .dict entries ∧
    ∀ code, Value.lookup "Code" entries = some code → code = .null ∨ ∃ t, code = .text t

theorem Coded.isDict {error : Value} (h : Coded error) : error.IsDict := by
  obtain ⟨entries, rfl, -⟩ := h
  exact ⟨entries, rfl⟩

/-- A failure in order: it has a text, and a response has at most one error and a list of errors. -/
def Regular (f : Failure) : Prop :=
  (∃ words, f.text = .ok words) ∧
    ∀ response operation, f = .refused response operation → ∃ entries, response = .dict entries ∧
      (∀ error, Value.lookup "Error" entries = some error → Coded error) ∧
      ∀ listed, Value.lookup "Errors" entries = some listed →
        listed = .null ∨ ∃ errors, listed = .list errors ∧ ∀ error ∈ errors, Coded error

/-- A failure bears a code: it is that of the error of its response, or of one of the listed errors. -/
def Bears (f : Failure) (code : Text) : Prop :=
  ∃ response operation, f = .refused response operation ∧
    ((∃ error, response.field? "Error" = some error ∧ error.field? "Code" = some (.text code)) ∨
      ∃ errors error, response.field? "Errors" = some (.list errors) ∧ error ∈ errors ∧
        error.field? "Code" = some (.text code))

/-- The text that an error in order has for its code, unless it is empty. -/
def spelling (error : Value) : List Text :=
  match error.field? "Code" with
  | some (.text t) => if t = [] then [] else [t]
  | _ => []

/-- The errors that a response in order lists. -/
def listed (response : Value) : List Value :=
  match response.field? "Errors" with
  | some (.list errors) => errors
  | _ => []

/-- The codes of a failure in order, as texts: that of its own error, then those of the listed ones. -/
def spelt : Failure → List Text
  | .refused response _ => ((response.field? "Error").toList ++ listed response).flatMap spelling
  | _ => []

theorem given_coded {error : Value} (h : Coded error) : given error = (spelling error).map .text := by
  obtain ⟨entries, rfl, hcode⟩ := h
  rw [given, spelling, Value.field?]
  cases hlookup : Value.lookup "Code" entries with
  | none => rfl
  | some code =>
    rcases hcode code hlookup with rfl | ⟨t, rfl⟩
    · rfl
    · cases t <;> rfl

/-- A refusal in order lists its errors, and all of them are in order. -/
theorem Regular.lists {response : Value} {operation : Text} (h : (refused response operation).Regular) :
    Lists response (listed response) ∧
      ∀ error ∈ (response.field? "Error").toList ++ listed response, Coded error := by
  obtain ⟨entries, rfl, herror, hlisted⟩ := h.2 response operation rfl
  have hown : ∀ error ∈ ((Value.dict entries).field? "Error").toList, Coded error := fun error hmem =>
    herror error (Option.mem_toList.mp hmem)
  cases hfield : (Value.dict entries).field? "Errors" with
  | none =>
    simp only [listed, hfield, List.append_nil]
    exact ⟨.nothing (by simp [hfield]), hown⟩
  | some v =>
    rcases hlisted v hfield with rfl | ⟨errors, rfl, herrors⟩
    · simp only [listed, hfield, List.append_nil]
      exact ⟨.nothing (by simp [hfield, Value.truthy]), hown⟩
    · simp only [listed, hfield, List.forall_mem_append]
      exact ⟨.errors hfield fun error hmem => (herrors error hmem).isDict, hown, herrors⟩

theorem borne_regular {response : Value} {operation : Text} (h : (refused response operation).Regular) :
    borne response (listed response) = (refused response operation).spelt.map .text := by
  rw [borne, spelt, List.map_flatMap]
  exact List.flatMap_congr fun error hmem => given_coded (h.lists.2 error hmem)

theorem codes_regular {f : Failure} (h : f.Regular) : f.codes = .ok (f.spelt.map .text) := by
  cases f with
  | refused response operation =>
    obtain ⟨entries, rfl, hown⟩ := Arises.response h.1
    rw [codes_of_lists hown h.lists.1, borne_regular h]
  | _ => rfl

/-- The codes of a response are those that the failure bears. -/
theorem mem_borne_iff {response : Value} {operation : Text} {errors : List Value} (h : Lists response errors)
    {t : Text} (ht : t ≠ []) : .text t ∈ borne response errors ↔ (refused response operation).Bears t := by
  rw [mem_borne h ht]
  constructor
  · intro hbears
    exact ⟨response, operation, rfl, hbears⟩
  · rintro ⟨_, _, hsame, hbears⟩
    cases hsame
    exact hbears

theorem mem_spelt_iff {f : Failure} (h : f.Regular) {t : Text} (ht : t ≠ []) :
    .text t ∈ f.spelt.map Value.text ↔ f.Bears t := by
  have hunrefused (hf : ∀ response operation, f ≠ .refused response operation) : ¬ f.Bears t := by
    rintro ⟨response, operation, hrefused, _⟩
    exact hf response operation hrefused
  cases f with
  | refused response operation => rw [← borne_regular h, mem_borne_iff h.lists.1 ht]
  | _ => exact iff_of_false (by simp [spelt]) (hunrefused (by simp))

/-- A failure bears one of the codes that say that the credentials are unknown or have expired. -/
def IsCredential (f : Failure) : Prop := f.Bears "InvalidClientTokenId" ∨ f.Bears "ExpiredToken"

/-- What an error tells of a failure: its kind is that of the failure's codes, and its detail is the text of the
failure. -/
structure Told (f : Failure) (e : BusError) : Prop where
  kind : (e.kind = .security ∧ f.IsCredential) ∨ (e.kind = .operation ∧ ¬ f.IsCredential)
  detail : ∃ words, f.text = .ok words ∧ e.detail = .plain (.text words)

/-- How a failure is classified whose codes are these. -/
theorem classify_of_codes {f : Failure} {words : Text} {codes : List Value} (hwords : f.text = .ok words)
    (hcodes : f.codes = .ok codes) (hjson : ∀ code ∈ codes, code.IsJson)
    (hbears : ∀ t, t ≠ [] → (.text t ∈ codes ↔ f.Bears t)) (context : Text) :
    (Stumbles codes ∧ f.classify context = .error .type) ∨
      (¬ Stumbles codes ∧ ∃ e, f.classify context = .ok e ∧ e.context = context ∧ Told f e) := by
  rw [classify, hwords]
  refine (anySecurity_json hjson).imp (And.imp_right fun hscan => ?_) (And.imp_right ?_)
  · rw [isSecurity, hcodes]
    simp only [bind, Except.bind, hscan]
  · rintro ⟨b, hscan, hiff⟩
    have hcredential : b = true ↔ f.IsCredential := by
      rw [hiff, IsCredential, ← hbears _ (by decide), ← hbears _ (by decide)]
      simp [securityCodes]
    refine ⟨⟨if b then .security else .operation, context, .plain (.text words)⟩, ?_, rfl, ?_, words, hwords, rfl⟩
    · rw [isSecurity, hcodes]
      simp only [bind, Except.bind, hscan]
    · cases b with
      | true => exact .inl ⟨rfl, hcredential.mp rfl⟩
      | false =>
        refine .inr ⟨rfl, fun hcontra => ?_⟩
        have htrue := hcredential.mpr hcontra
        cases htrue

theorem classify_regular {f : Failure} (h : f.Regular) (context : Text) :
    ∃ e, f.classify context = .ok e ∧ e.context = context ∧ Told f e := by
  obtain ⟨words, hwords⟩ := h.1
  have htexts : ∀ code ∈ f.spelt.map Value.text, ∃ t, code = .text t := by simp
  have hjson : ∀ code ∈ f.spelt.map Value.text, code.IsJson := by simpa using fun t _ => .text t
  exact ((classify_of_codes hwords (codes_regular h) hjson (fun t ht => mem_spelt_iff h ht) context).resolve_left
    fun hfault => not_stumbles_of_texts htexts hfault.1).2

theorem told_of_classify {f : Failure} {context : Text} {e : BusError} (h : f.Regular)
    (he : f.classify context = .ok e) : e.context = context ∧ Told f e := by
  obtain ⟨_, he', htold⟩ := classify_regular h context
  cases he.symm.trans he'
  exact htold

/-! ## Failures told in a context -/

theorem toldIn_ok (f : Failure) (context : Text) : f.toldIn (.ok context) = f.classify context := by
  rw [toldIn]
  cases hwords : f.text with
  | ok words => rfl
  | error fault =>
    rw [classify, hwords]
    rfl

theorem toldIn_eq_ok {f : Failure} {context : Except Fault Text} {e : BusError} (h : f.toldIn context = .ok e) :
    ∃ c, context = .ok c ∧ f.classify c = .ok e := by
  cases context with
  | ok c => exact ⟨c, rfl, toldIn_ok f c ▸ h⟩
  | error fault =>
    obtain ⟨_, -, hcontext⟩ := bind_eq_ok.mp h
    cases hcontext

theorem told_of_toldIn {f : Failure} {context : Except Fault Text} {e : BusError} (h : f.Regular)
    (he : f.toldIn context = .ok e) : context = .ok e.context ∧ Told f e := by
  obtain ⟨c, rfl, hc⟩ := toldIn_eq_ok he
  obtain ⟨rfl, htold⟩ := told_of_classify h hc
  exact ⟨rfl, htold⟩

/-- A failure in order is told unless its context cannot be put into words. -/
theorem toldIn_eq_error {f : Failure} {context : Except Fault Text} {fault : Fault} (h : f.Regular)
    (hf : f.toldIn context = .error fault) : context = .error fault := by
  cases context with
  | ok c =>
    obtain ⟨_, he, -⟩ := classify_regular h c
    cases hf.symm.trans ((toldIn_ok f c).trans he)
  | error g =>
    obtain ⟨words, hwords⟩ := h.1
    rw [toldIn, hwords] at hf
    exact congrArg _ (Except.error.inj hf)

end Failure

/-- A record with a text for its ID, its receipt handle and its body. -/
def Written (record : Value) : Prop :=
  ∃ id handle body, record.item "MessageId" = .ok (.text id) ∧ record.item "ReceiptHandle" = .ok (.text handle) ∧
    record.item "Body" = .ok (.text body)

theorem Written.whole {record : Value} (h : Written record) : Whole record := by
  obtain ⟨id, handle, body, hid, hhandle, hbody⟩ := h
  exact ⟨_, _, _, ⟨hid, Value.tellable_text id⟩, hhandle, hbody⟩

/-- An answer has what the bus reads of the answer to a request. -/
def Request.Answered (q : Request) (answer : Value) : Prop :=
  match q with
  | .createQueue _ => ∃ t, answer.item "QueueUrl" = .ok (.text t)
  | .createTopic _ => ∃ t, answer.item "TopicArn" = .ok (.text t)
  | .sendMessage _ _ => ∃ t, answer.item "MessageId" = .ok (.text t)
  | .receiveMessage _ _ => ∃ records, answer.get "Messages" (.list []) = .ok (.list records) ∧
      ∀ record ∈ records, Written record
  | .listQueues _ => ∃ urls : List Text, answer.get "QueueUrls" (.list []) = .ok (.list (urls.map .text))
  | _ => True

/-- The outcome of a call is in order. -/
def Call.Regular (c : Call) : Prop :=
  match c.outcome with
  | .ok answer => c.request.Answered answer
  | .error failure => failure.Regular

theorem Call.Regular.failed {q : Request} {outcome : Except Failure Value} {f : Failure}
    (h : Call.Regular ⟨q, outcome⟩) (ho : outcome = .error f) : f.Regular := by
  subst ho
  exact h

end MessageBus
