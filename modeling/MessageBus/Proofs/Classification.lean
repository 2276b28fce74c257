import MessageBus.Proofs.Failures

/-!
# Classification

A failure in order is classified by its codes alone: which they are, and what the error says that it is told as
(`classify_exact`).

Of any other refusal whose errors are JSON it is said when it cannot be classified, and in which fault the attempt
ends (`classify_error_iff`). Its errors cannot be listed if they are no list of objects, and a code that is a list
or dictionary cannot be looked for (`Baffling`); every other refusal is told as one in order is. Who has made a
request that is refused so is told nothing of the refusal (`Action.run_request_baffled`).
-/

namespace MessageBus

namespace Failure

/-! ## Failures in order -/

theorem message_of_words {context words : Text} {e : BusError} (hcontext : e.context = context)
    (hdetail : e.detail = .plain (.text words)) :
    e.message = if words = [] then context else context ++ ": " ++ words := by
  rw [BusError.message, hcontext, hdetail]
  cases words <;> rfl

/-- A failure in order has its own code and those of the listed errors for its codes, without those that are absent,
null or empty. It is told as a security error if a security code is among them and as an operation error otherwise,
in the given context and with the text of the failure for its detail; the message is the context alone if that text
is empty. -/
theorem classify_exact {f : Failure} (h : f.Regular) (context : Text) :
    f.codes = .ok (f.spelt.map .text) ∧
      ∃ e words, f.classify context = .ok e ∧ f.text = .ok words ∧
        ((e.kind = .security ∧ f.IsCredential) ∨ (e.kind = .operation ∧ ¬ f.IsCredential)) ∧
        e.context = context ∧ e.detail = .plain (.text words) ∧
        e.message = if words = [] then context else context ++ ": " ++ words := by
  obtain ⟨e, he, hcontext, hkind, words, hwords, hdetail⟩ := classify_regular h context
  exact ⟨codes_regular h, e, words, he, hwords, hkind, hcontext, hdetail, message_of_words hcontext hdetail⟩

/-- A refusal with a code of its own, and errors listed with no code, an empty one, a null one and a security code. -/
def mixed : Failure :=
  .refused (Value.ofFields [("Error", Value.ofFields [("Code", .text "BatchRequestFailed")]),
    ("Errors", .list [Value.ofFields [], Value.ofFields [("Code", .text [])], Value.ofFields [("Code", .null)],
      Value.ofFields [("Code", .text "ExpiredToken")]])]) "SendMessageBatch"

theorem mixed_regular : mixed.Regular := by
  have coded (fields : List (Text × Value)) (h : ∀ code, (Value.ofFields fields).field? "Code" = some code →
      code = .null ∨ ∃ t, code = .text t) : Coded (Value.ofFields fields) := ⟨_, rfl, h⟩
  refine ⟨arises_refused rfl rfl rfl rfl, ?_⟩
  rintro _ _ ⟨⟩
  refine ⟨_, rfl, ?_, ?_⟩
  · rintro _ ⟨⟩
    exact coded _ (by rintro _ ⟨⟩; exact .inr ⟨_, rfl⟩)
  · rintro _ ⟨⟩
    refine .inr ⟨_, rfl, ?_⟩
    simp only [List.forall_mem_cons]
    refine ⟨coded _ ?_, coded _ ?_, coded _ ?_, coded _ ?_, by simp⟩
    · rintro _ ⟨⟩
    · rintro _ ⟨⟩
      exact .inr ⟨_, rfl⟩
    · rintro _ ⟨⟩
      exact .inl rfl
    · rintro _ ⟨⟩
      exact .inr ⟨_, rfl⟩

theorem mixed_classified : mixed.Regular ∧
    mixed.codes = .ok [.text "BatchRequestFailed", .text "ExpiredToken"] ∧
    ∃ e, mixed.classify "batch" = .ok e ∧ e.kind = .security := by
  obtain ⟨hcodes, e, -, he, -, hkind, -⟩ := classify_exact mixed_regular "batch"
  have hcredential : mixed.IsCredential :=
    .inr ⟨_, _, rfl, .inr ⟨_, Value.ofFields [("Code", .text "ExpiredToken")], rfl, by simp, rfl⟩⟩
  exact ⟨mixed_regular, hcodes, e, he, (hkind.resolve_right fun hother => hother.2 hcredential).1⟩

theorem unanswered_regular (words : Text) : (unanswered words).Regular :=
  ⟨⟨words, rfl⟩, fun _ _ hrefused => nomatch hrefused⟩

/-- A failure without words leaves no colon behind the context, so not every message has one. -/
theorem message_without_colon : ¬ ∀ (f : Failure) (context : Text), f.Regular →
    ∃ e words, f.classify context = .ok e ∧ f.text = .ok words ∧ e.message = context ++ ": " ++ words := by
  intro h
  obtain ⟨e, words, he, hwords, hmessage⟩ := h (unanswered []) "ctx" (unanswered_regular [])
  cases he
  cases hwords
  exact absurd hmessage (by decide)

/-! ## Failures out of order -/

/-- What a response says of its errors is JSON. -/
structure Spoken (response : Value) : Prop where
  code : ∀ error code, response.field? "Error" = some error → error.field? "Code" = some code → code.IsJson
  errors : ∀ listed, response.field? "Errors" = some listed → listed.IsJson

/-- A response whose errors cannot be gone through for a security code, and the fault in which that ends. -/
inductive Baffling (response : Value) : Fault → Prop where
  | flag (h : response.field? "Errors" = some (.bool true)) : Baffling response .type
  | int {n : Int} (h : response.field? "Errors" = some (.int n)) (hn : n ≠ 0) : Baffling response .type
  | float {x : Double} (h : response.field? "Errors" = some (.float x)) (hx : x.toRat? ≠ some 0) :
      Baffling response .type
  | text {t : Text} (h : response.field? "Errors" = some (.text t)) (ht : t ≠ []) : Baffling response .attribute
  | dict {entries : List (Value × Value)} (h : response.field? "Errors" = some (.dict entries))
      (hentries : entries ≠ []) : Baffling response .attribute
  /-- One of the listed errors is no object. -/
  | member {errors : List Value} {error : Value} (h : response.field? "Errors" = some (.list errors))
      (hmem : error ∈ errors) (herror : ¬ error.IsDict) : Baffling response .attribute
  /-- The errors can be listed, and one of their codes is a list or dictionary, behind no security code. -/
  | code {errors : List Value} (h : Lists response errors) (hcodes : Stumbles (borne response errors)) :
      Baffling response .type

theorem Spoken.borne {response code : Value} {errors : List Value} (h : Spoken response)
    (hlists : Lists response errors) (hmem : code ∈ borne response errors) : code.IsJson := by
  obtain ⟨error, herror, hgiven⟩ := List.mem_flatMap.mp hmem
  rw [given, Option.mem_toList, Option.filter_eq_some_iff] at hgiven
  rcases List.mem_append.mp herror with hown | hlisted
  · exact h.code error code (Option.mem_toList.mp hown) hgiven.1
  · cases hlists with
    | nothing _ => cases hlisted
    | errors herrors hdicts =>
      obtain ⟨entries, rfl⟩ := hdicts error hlisted
      exact ((h.errors _ herrors).of_mem hlisted).of_lookup hgiven.1

/-- The errors that are JSON can be listed, or they baffle. The cases are those of JSON. -/
theorem Spoken.lists_or_baffling {response : Value} (h : Spoken response) :
    (∃ errors, Lists response errors) ∨ ∃ fault, Baffling response fault := by
  have nothing {v : Value} (hv : response.field? "Errors" = some v) (hfalse : v.truthy = false) :
      Lists response [] := by
    refine .nothing fun u hu => ?_
    rw [hv] at hu
    cases hu
    exact hfalse
  cases hfield : response.field? "Errors" with
  | none => exact .inl ⟨[], .nothing (by simp [hfield])⟩
  | some v =>
    cases h.errors v hfield with
    | null => exact .inl ⟨[], nothing hfield rfl⟩
    | bool b =>
      cases b with
      | false => exact .inl ⟨[], nothing hfield rfl⟩
      | true => exact .inr ⟨_, .flag hfield⟩
    | int n =>
      by_cases hn : n = 0
      · exact .inl ⟨[], nothing hfield (by simp [Value.truthy, hn])⟩
      · exact .inr ⟨_, .int hfield hn⟩
    | @float x _ =>
      by_cases hx : x.toRat? = some 0
      · exact .inl ⟨[], nothing hfield (by simp [Value.truthy, hx])⟩
      · exact .inr ⟨_, .float hfield hx⟩
    | text t =>
      by_cases ht : t = []
      · exact .inl ⟨[], nothing hfield (by simp [Value.truthy, ht])⟩
      · exact .inr ⟨_, .text hfield ht⟩
    | @list errors _ =>
      by_cases hdicts : ∀ error ∈ errors, error.IsDict
      · exact .inl ⟨errors, .errors hfield hdicts⟩
      · push Not at hdicts
        obtain ⟨error, hmem, herror⟩ := hdicts
        exact .inr ⟨_, .member hfield hmem herror⟩
    | @dict fields _ _ =>
      by_cases hfields : fields = []
      · exact .inl ⟨[], nothing hfield (by simp [Value.ofFields, Value.truthy, hfields])⟩
      · exact .inr ⟨_, .dict hfield (by simpa using hfields)⟩

section

variable {response : Value} {operation : Text}

/-- Errors that cannot be listed leave a failure without codes. -/
theorem codes_of_listedCodes (h : (refused response operation).Arises) {v : Value} {fault : Fault}
    (hfield : response.field? "Errors" = some v) (hfault : listedCodes v = .error fault) :
    (refused response operation).codes = .error fault := by
  obtain ⟨entries, rfl, hown⟩ := h.response
  have hlookup : Value.lookup "Errors" entries = some v := hfield
  rw [codes_refused hown, hlookup, Option.getD_some, hfault]
  rfl

theorem classify_of_codes_error {f : Failure} {fault : Fault} (h : f.Arises) (hcodes : f.codes = .error fault)
    (context : Text) : f.classify context = .error fault := by
  obtain ⟨words, hwords⟩ := h
  simp only [classify, hwords, isSecurity, hcodes, bind, Except.bind]

theorem classify_of_lists (h : (refused response operation).Arises) (hspoken : Spoken response)
    {errors : List Value} (hlists : Lists response errors) (context : Text) :
    (Stumbles (borne response errors) ∧ (refused response operation).classify context = .error .type) ∨
      (¬ Stumbles (borne response errors) ∧ ∃ e, (refused response operation).classify context = .ok e ∧
        e.context = context ∧ Told (refused response operation) e) := by
  obtain ⟨entries, rfl, hown⟩ := h.response
  obtain ⟨words, hwords⟩ := h
  exact classify_of_codes hwords (codes_of_lists hown hlists) (fun code hmem => hspoken.borne hlists hmem)
    (fun t ht => mem_borne_iff hlists ht) context

theorem Baffling.classify {fault : Fault} (hbaffling : Baffling response fault)
    (h : (refused response operation).Arises) (hspoken : Spoken response) (context : Text) :
    (refused response operation).classify context = .error fault := by
  have unlisted {v : Value} {fault : Fault} (hfield : response.field? "Errors" = some v)
      (hfault : listedCodes v = .error fault) : (refused response operation).classify context = .error fault :=
    classify_of_codes_error h (codes_of_listedCodes h hfield hfault) context
  cases hbaffling with
  | flag hfield => exact unlisted hfield rfl
  | int hfield hn => exact unlisted hfield (by simp [listedCodes, Value.truthy, hn, Value.items]; rfl)
  | float hfield hx => exact unlisted hfield (by simp [listedCodes, Value.truthy, hx, Value.items]; rfl)
  | @text t hfield ht =>
    refine unlisted hfield ?_
    cases t with
    | nil => exact absurd rfl ht
    | cons c t => rfl
  | @dict entries hfield hentries =>
    refine unlisted hfield ?_
    obtain ⟨fields, rfl, -⟩ := (hspoken.errors _ hfield).exists_fields
    cases fields with
    | nil => exact absurd rfl hentries
    | cons e fields => rfl
  | @member errors error hfield hmem herror =>
    refine unlisted hfield ?_
    rw [listedCodes_list, codesOf_of_not_dict hmem herror]
  | code hlists hcodes =>
    refine ((classify_of_lists h hspoken hlists context).resolve_right ?_).2
    rintro ⟨hnot, -⟩
    exact hnot hcodes

/-- A refusal whose errors are JSON cannot be classified just if its response baffles, and then classification ends in
that fault. All others are told as what their codes say. -/
theorem classify_error_iff (h : (refused response operation).Arises) (hspoken : Spoken response) (context : Text) :
    (∀ fault, (refused response operation).classify context = .error fault ↔ Baffling response fault) ∧
      ((∀ fault, ¬ Baffling response fault) → ∃ e, (refused response operation).classify context = .ok e ∧
        e.context = context ∧ Told (refused response operation) e) := by
  have hends : (∃ fault, Baffling response fault) ∨ ∃ e, (refused response operation).classify context = .ok e ∧
      e.context = context ∧ Told (refused response operation) e := by
    rcases hspoken.lists_or_baffling with ⟨errors, hlists⟩ | hbaffling
    · exact (classify_of_lists h hspoken hlists context).imp (fun hstumbles => ⟨_, .code hlists hstumbles.1⟩)
        And.right
    · exact .inl hbaffling
  refine ⟨fun fault => ⟨fun hfault => ?_, fun hbaffling => hbaffling.classify h hspoken context⟩, fun hnone => ?_⟩
  · rcases hends with ⟨other, hbaffling⟩ | ⟨e, he, -⟩
    · rw [hbaffling.classify h hspoken context] at hfault
      cases hfault
      exact hbaffling
    · rw [he] at hfault
      cases hfault
  · exact hends.resolve_left fun ⟨fault, hbaffling⟩ => hnone fault hbaffling

end

/-- A refusal that lists a text among its errors. -/
def unreadable : Value :=
  Value.ofFields [("Error", Value.ofFields [("Code", .text "Throttling"), ("Message", .text "slow down")]),
    ("Errors", .list [.text "Throttling"])]

theorem unreadable_not_classified : (refused unreadable "SendMessage").Arises ∧ Spoken unreadable ∧
    (refused unreadable "SendMessage").classify "send" = .error .attribute := by
  have harises : (refused unreadable "SendMessage").Arises := arises_refused rfl rfl rfl rfl
  have hspoken : Spoken unreadable := by
    constructor
    · rintro _ _ ⟨⟩ ⟨⟩
      exact .text _
    · rintro _ ⟨⟩
      exact .list (by simpa using .text _)
  have hbaffling : Baffling unreadable .attribute :=
    @Baffling.member _ [.text "Throttling"] _ rfl List.mem_cons_self (by rintro ⟨_, ⟨⟩⟩)
  exact ⟨harises, hspoken, ((classify_error_iff harises hspoken "send").1 .attribute).mpr hbaffling⟩

end Failure

/-- A request that is refused with a response that baffles ends in a fault that is no error of the bus. -/
theorem Action.run_request_baffled {σ : Type} [Service σ] {w : World σ} {q : Request} {response : Value}
    {operation : Text} {fault : Fault} (hrefused : (w.reply q).outcome = .error (.refused response operation))
    (h : (Failure.refused response operation).Arises) (hspoken : Failure.Spoken response)
    (hbaffling : Failure.Baffling response fault) (context : Text) :
    (request (.ok context) q).run w = .error fault (w.after q) ∧ ∀ e, fault ≠ .bus e := by
  rw [run_request_error _ hrefused, Failure.toldIn_ok, hbaffling.classify h hspoken context]
  refine ⟨rfl, ?_⟩
  cases hbaffling <;> simp

end MessageBus
