import MessageBus.Proofs.JsonValues

/-!
# Valid messages

What validation makes of values, field by field: valid messages with valid destinations (`Message.Reads.valid`).
Validation leaves what is valid as it is (`Message.Valid.reads`), so that the valid messages are those that it
makes of something.
-/

namespace MessageBus

open Value

/-! ## Destinations -/

/-- The queues that validation makes. -/
structure Queue.Valid (q : Queue) : Prop where
  kind : q.kind = .text "queue"
  name : ∃ t, q.name = .text t
  url : q.url = .null ∨ ∃ t, q.url = .text t

/-- The topics that validation makes. -/
structure Topic.Valid (t : Topic) : Prop where
  kind : t.kind = .text "topic"
  name : ∃ u, t.name = .text u
  arn : t.arn = .null ∨ ∃ u, t.arn = .text u

theorem isJson_of_optionalText {v : Value} (h : v = .null ∨ ∃ t, v = .text t) : IsJson v := by
  obtain rfl | ⟨t, rfl⟩ := h
  · exact .null
  · exact .text t

theorem Queue.Valid.isJson {q : Queue} (h : q.Valid) : ∀ e ∈ q.fields, IsJson e.2 := by
  obtain ⟨t, hname⟩ := h.name
  simp only [Queue.fields, List.forall_mem_cons]
  exact ⟨h.kind ▸ .text _, hname ▸ .text t, isJson_of_optionalText h.url, by simp⟩

theorem Topic.Valid.isJson {t : Topic} (h : t.Valid) : ∀ e ∈ t.fields, IsJson e.2 := by
  obtain ⟨u, hname⟩ := h.name
  simp only [Topic.fields, List.forall_mem_cons]
  exact ⟨h.kind ▸ .text _, hname ▸ .text u, isJson_of_optionalText h.arn, by simp⟩

/-- The destinations that validation makes. -/
def Destination.Valid : Destination → Prop
  | .queue q => q.Valid
  | .topic t => t.Valid

namespace Queue

theorem valid_of_withName {kind name url : Value} {q : Queue} (hkind : kind = .text "queue")
    (hname : name = .null ∨ ∃ t, name = .text t) (hurl : url = .null ∨ ∃ t, url = .text t)
    (h : withName kind name url = .ok q) : q.Valid := by
  unfold withName at h
  split at h
  · cases h
  · cases h
    exact ⟨hkind, ⟨_, rfl⟩, hurl⟩
  · next hnull htext =>
    cases h
    obtain rfl | hname := hname
    · obtain rfl | ⟨t, rfl⟩ := hurl
      · exact absurd rfl (hnull rfl)
      · exact absurd rfl (htext t rfl)
    · exact ⟨hkind, hname, hurl⟩

theorem valid_of_ofEntries {entries : List (Value × Value)} {q : Queue} (h : ofEntries entries = .ok q) :
    q.Valid := by
  obtain ⟨⟨kind, name, url⟩, hparts, hname⟩ := bind_eq_ok.mp h
  obtain ⟨f, url', hf, hurl, hmake⟩ := Checked.apply_eq_ok.mp hparts
  obtain ⟨g, name', hg, hname', rfl⟩ := Checked.apply_eq_ok.mp hf
  obtain ⟨mk, kind', hmk, hkind, rfl⟩ := Checked.apply_eq_ok.mp hg
  cases hmk
  cases hmake
  simp only [Checked.under_eq_ok] at hkind hname' hurl
  exact valid_of_withName (Check.literal_eq_ok hkind).2 (Check.optionalText_eq_ok hname')
    (Check.optionalText_eq_ok hurl) hname

theorem Valid.ofEntries {q : Queue} (h : q.Valid) :
    ofEntries (q.fields.map fun e => (.text e.1, e.2)) = .ok q := by
  obtain ⟨kind, name, url⟩ := q
  obtain ⟨hkind, ⟨t, hname⟩, hurl⟩ := h
  cases hkind
  cases hname
  obtain hurl | ⟨u, hurl⟩ := hurl <;> cases hurl <;> rfl

end Queue

namespace Topic

theorem valid_of_ofEntries {entries : List (Value × Value)} {t : Topic} (h : ofEntries entries = .ok t) :
    t.Valid := by
  obtain ⟨f, arn, hf, harn, rfl⟩ := Checked.apply_eq_ok.mp h
  obtain ⟨g, name, hg, hname, rfl⟩ := Checked.apply_eq_ok.mp hf
  obtain ⟨mk, kind, hmk, hkind, rfl⟩ := Checked.apply_eq_ok.mp hg
  cases hmk
  simp only [Checked.under_eq_ok] at hkind hname harn
  exact ⟨(Check.literal_eq_ok hkind).2, Check.requiredText_eq_ok hname, Check.optionalText_eq_ok harn⟩

theorem Valid.ofEntries {t : Topic} (h : t.Valid) :
    ofEntries (t.fields.map fun e => (.text e.1, e.2)) = .ok t := by
  obtain ⟨kind, name, arn⟩ := t
  obtain ⟨hkind, ⟨u, hname⟩, harn⟩ := h
  cases hkind
  cases hname
  obtain harn | ⟨u, harn⟩ := harn <;> cases harn <;> rfl

end Topic

namespace Destination

theorem valid_of_check {origin : Origin} {v : Value} {d : Destination} (h : check origin v = .ok (some d)) :
    d.Valid := by
  cases v with
  | dict entries =>
    obtain ⟨d', hd, hsome⟩ := map_eq_ok.mp h
    cases hsome
    unfold ofEntries at hd
    split at hd
    · cases hd
    · split at hd
      · obtain ⟨q, hq, rfl⟩ := map_eq_ok.mp (Checked.under_eq_ok.mp hd)
        exact Queue.valid_of_ofEntries hq
      · split at hd
        · obtain ⟨t, ht, rfl⟩ := map_eq_ok.mp (Checked.under_eq_ok.mp hd)
          exact Topic.valid_of_ofEntries ht
        · cases hd
    · cases hd
  | null => cases h
  | _ => cases origin <;> cases h

theorem Valid.isJson {d : Destination} (h : d.Valid) : IsJson d.toValue := by
  cases d with
  | queue q =>
    have hkeys : (["kind", "name", "queue_url"] : List Text).Nodup := by decide
    exact .dict hkeys (Queue.Valid.isJson h)
  | topic t =>
    have hkeys : (["kind", "name", "arn"] : List Text).Nodup := by decide
    exact .dict hkeys (Topic.Valid.isJson h)

theorem Valid.check {d : Destination} (h : d.Valid) (origin : Origin) : check origin d.toValue = .ok (some d) := by
  cases d with
  | queue q =>
    have hkind : Value.lookup "kind" (q.fields.map fun e => (.text e.1, e.2)) = some (.text "queue") :=
      congrArg some h.kind
    have hentries : ofEntries (q.fields.map fun e => (.text e.1, e.2)) = .ok (.queue q) := by
      rw [ofEntries, hkind]
      simp only [if_true, Queue.Valid.ofEntries h]
      rfl
    exact map_eq_ok.mpr ⟨_, hentries, rfl⟩
  | topic t =>
    have hkind : Value.lookup "kind" (t.fields.map fun e => (.text e.1, e.2)) = some (.text "topic") :=
      congrArg some h.kind
    have hentries : ofEntries (t.fields.map fun e => (.text e.1, e.2)) = .ok (.topic t) := by
      rw [ofEntries, hkind]
      have hother : ("topic" : Text) ≠ "queue" := by decide
      simp only [if_neg hother, if_true, Topic.Valid.ofEntries h]
      rfl
    exact map_eq_ok.mpr ⟨_, hentries, rfl⟩

end Destination

/-! ## Messages -/

namespace Message

/-- The messages of a kind that validation makes. -/
structure Valid (kind : Text) (m : Message (Option Destination)) : Prop where
  kind : m.kind = .text kind
  body : IsJson m.body ∧ m.body.depth ≤ Check.nestingLimit
  properties : ∃ fields, m.properties = ofFields fields ∧ (fields.map (·.1)).Nodup ∧
    ∀ e ∈ fields, IsJson e.2 ∧ e.2.depth ≤ Check.nestingLimit
  messageId : m.messageId = .null ∨ ∃ t, m.messageId = .text t
  timestamp : m.timestamp = .null ∨ ∃ n, m.timestamp = .int n
  disableMessageId : ∃ b, m.disableMessageId = .bool b
  disableTimestamp : ∃ b, m.disableTimestamp = .bool b
  correlationId : m.correlationId = .null ∨ ∃ t, m.correlationId = .text t
  messageType : m.messageType = .null ∨ ∃ t, m.messageType = .text t
  destination : ∀ d, m.destination = some d → d.Valid

theorem flag_of_boolean {held : Int → Bool} {v x : Value} (h : (Check.boolean held v).map .bool = .ok x) :
    ∃ b, x = .bool b := by
  obtain ⟨b, _, rfl⟩ := map_eq_ok.mp h
  exact ⟨b, rfl⟩

/-- Whatever a message is read from, it is valid. -/
theorem Reads.valid {origin : Origin} {kind : Text} {entries : List (Value × Value)}
    {m : Message (Option Destination)} (h : Reads origin kind entries m) : m.Valid kind where
  kind := (Check.literal_eq_ok h.kind).2
  body := Check.isJson_of_json h.body
  properties := by
    obtain ⟨_, read, _, hread, hproperties⟩ := Check.properties_eq_ok h.properties
    have hall (e : Text × Value) (he : e ∈ read) : IsJson e.2 ∧ e.2.depth ≤ Check.nestingLimit :=
      (Check.isJson_of_jsonEntries hread e he).imp_right Nat.le_of_lt_succ
    obtain ⟨fields, hfields, hkeys, hall⟩ :=
      exists_ofFields (p := fun e => IsJson e.2 ∧ e.2.depth ≤ Check.nestingLimit) hall
    exact ⟨fields, hproperties.trans hfields, hkeys, hall⟩
  messageId := Check.optionalText_eq_ok h.messageId
  timestamp := Check.optionalInteger_eq_ok h.timestamp
  disableMessageId := flag_of_boolean h.disableMessageId
  disableTimestamp := flag_of_boolean h.disableTimestamp
  correlationId := Check.optionalText_eq_ok h.correlationId
  messageType := Check.optionalText_eq_ok h.messageType
  destination d hd := Destination.valid_of_check (hd ▸ h.destination)

theorem optionalText_self {v : Value} (h : v = .null ∨ ∃ t, v = .text t) : Check.optionalText v = .ok v := by
  obtain rfl | ⟨t, rfl⟩ := h <;> rfl

theorem optionalInteger_self {v : Value} (h : v = .null ∨ ∃ n, v = .int n) : Check.optionalInteger v = .ok v := by
  obtain rfl | ⟨n, rfl⟩ := h <;> rfl

theorem boolean_self (held : Int → Bool) {v : Value} (h : ∃ b, v = .bool b) :
    (Check.boolean held v).map .bool = .ok v := by
  obtain ⟨b, rfl⟩ := h
  rfl

theorem properties_self {fields : List (Text × Value)} (hkeys : (fields.map (·.1)).Nodup)
    (h : ∀ e ∈ fields, IsJson e.2 ∧ e.2.depth ≤ Check.nestingLimit) :
    Check.properties (ofFields fields) = .ok (ofFields fields) := by
  have hentries := (Check.jsonEntries_eq_ok fun e he => Check.keeps_of_isJson (h e he).1).mpr
    ⟨fun e he => Nat.lt_succ_of_le (h e he).2, rfl⟩
  exact map_eq_ok.mpr ⟨fields, hentries, ofEntries_of_nodup hkeys⟩

/-- Validation leaves a valid message as it is. -/
theorem Valid.reads {kind : Text} (hkind : ∀ c ∈ kind, c.isChar = true) {m : Message (Option Destination)}
    (h : m.Valid kind) (origin : Origin) :
    Reads origin kind (m.described.fields.map fun e => (.text e.1, e.2)) m where
  kind := by
    have hfield : field (m.described.fields.map fun e => (.text e.1, e.2)) "kind" (.text kind) = m.kind := rfl
    rw [hfield, h.kind, Check.literal, if_pos (List.all_eq_true.mpr hkind), if_pos rfl]
  body := (Check.keeps_of_isJson h.body.1 _ _).mpr ⟨h.body.2, rfl⟩
  properties := by
    obtain ⟨fields, hfields, hkeys, hall⟩ := h.properties
    have hself := properties_self hkeys hall
    rw [← hfields] at hself
    exact hself
  messageId := optionalText_self h.messageId
  timestamp := optionalInteger_self h.timestamp
  disableMessageId := boolean_self _ h.disableMessageId
  disableTimestamp := boolean_self _ h.disableTimestamp
  correlationId := optionalText_self h.correlationId
  messageType := optionalText_self h.messageType
  destination := by
    have hfield : field (m.described.fields.map fun e => (.text e.1, e.2)) "destination" .null =
        (m.destination.map Destination.toValue).getD .null := rfl
    rw [hfield]
    cases hd : m.destination with
    | none => rfl
    | some d => exact (h.destination d hd).check origin

/-- The dictionary of a valid message describes this message. -/
theorem Valid.check_described {m : Message (Option Destination)} (h : m.Valid "message") (hd : m.diagnosis = none)
    (origin : Origin) : check origin m.described.toValue = .ok m :=
  check_eq_ok.mpr ⟨_, rfl, h.reads (by decide) origin, hd⟩

/-! ## The data of valid messages -/

theorem Valid.isJson_properties {kind : Text} {m : Message (Option Destination)} (h : m.Valid kind) :
    IsJson m.properties := by
  obtain ⟨fields, hfields, hkeys, hall⟩ := h.properties
  exact hfields ▸ .dict hkeys fun e he => (hall e he).1

theorem Valid.isJson_timestamp {kind : Text} {m : Message (Option Destination)} (h : m.Valid kind) :
    IsJson m.timestamp := by
  obtain hnull | ⟨n, hn⟩ := h.timestamp
  · exact hnull ▸ .null
  · exact hn ▸ .int n

theorem Valid.isJson_destination {kind : Text} {m : Message (Option Destination)} (h : m.Valid kind) :
    IsJson m.described.destination := by
  have hdescribed : m.described.destination = (m.destination.map Destination.toValue).getD .null := rfl
  rw [hdescribed]
  cases hd : m.destination with
  | none => exact .null
  | some d => exact (h.destination d hd).isJson

theorem isJson_of_flag {v : Value} (h : ∃ b, v = .bool b) : IsJson v := by
  obtain ⟨b, rfl⟩ := h
  exact .bool b

theorem nodup_names (m : Message Value) : (m.fields.map (·.1)).Nodup := by
  obtain ⟨_, _, _, _, _, _, _, _, _, _, diagnosis⟩ := m
  cases diagnosis <;> simp only [Message.fields, diagnosisFields, List.map_cons, List.map_nil] <;> decide

/-! ## Stand-ins -/

end Message

/-- The diagnoses that validation makes. -/
structure Diagnosis.Valid (d : Diagnosis) : Prop where
  error : ∃ t, d.error = .text t
  context : d.context = .null ∨ ∃ t, d.context = .text t
  detail : d.detail.words = .null ∨ ∃ t, d.detail.words = .text t

namespace Message

theorem valid_of_diagnosisOf {entries : List (Value × Value)} {d : Diagnosis} (h : diagnosisOf entries = .ok d) :
    d.Valid := by
  obtain ⟨f, detail, hf, hdetail, rfl⟩ := Checked.apply_eq_ok.mp h
  obtain ⟨g, context, hg, hcontext, rfl⟩ := Checked.apply_eq_ok.mp hf
  obtain ⟨mk, error, hmk, herror, rfl⟩ := Checked.apply_eq_ok.mp hg
  cases hmk
  simp only [Checked.under_eq_ok] at herror hcontext hdetail
  obtain ⟨words, hwords, rfl⟩ := map_eq_ok.mp hdetail
  exact ⟨Check.requiredText_eq_ok herror, Check.optionalText_eq_ok hcontext, Check.optionalText_eq_ok hwords⟩

/-- The kind of a message by its class. -/
def classKind {δ : Type} (m : Message δ) : Text := if m.diagnosis.isSome then "invalid" else "message"

/-- The messages and stand-ins that validation makes. -/
structure Sound (m : Message (Option Destination)) : Prop where
  valid : m.Valid m.classKind
  diagnosis : ∀ d, m.diagnosis = some d → d.Valid

theorem Valid.sound {m : Message (Option Destination)} (h : m.Valid "message") (hd : m.diagnosis = none) : m.Sound := by
  refine ⟨?_, fun d hsome => ?_⟩
  · rw [classKind, hd]
    exact h
  · rw [hd] at hsome
    cases hsome

theorem isChar_classKind (m : Message (Option Destination)) : ∀ c ∈ m.classKind, c.isChar = true := by
  rw [classKind]
  split <;> decide

/-- Validation leaves a valid diagnosis as it is. -/
theorem diagnosisOf_self {m : Message (Option Destination)} {d : Diagnosis} (hm : m.diagnosis = some d)
    (hd : d.Valid) :
    diagnosisOf (m.described.fields.map fun e => (.text e.1, e.2)) =
      .ok { d with detail := .plain d.detail.words } := by
  have herror : Value.lookup "error" (m.described.fields.map fun e => (.text e.1, e.2)) = some d.error := by
    simp only [fields, described, mapDestination, hm, diagnosisFields]
    rfl
  have hcontext : field (m.described.fields.map fun e => (.text e.1, e.2)) "error_context" .null = d.context := by
    simp only [fields, described, mapDestination, hm, diagnosisFields]
    rfl
  have hdetail : field (m.described.fields.map fun e => (.text e.1, e.2)) "error_detail" .null = d.detail.words := by
    simp only [fields, described, mapDestination, hm, diagnosisFields]
    rfl
  obtain ⟨t, ht⟩ := hd.error
  have hself : Check.requiredText (some d.error) = .ok d.error := by
    rw [ht]
    rfl
  simp only [diagnosisOf, herror, hcontext, hdetail, hself, optionalText_self hd.context, optionalText_self hd.detail,
    Checked.under, Checked.right, Checked.apply, Except.map]

theorem Sound.isJson_diagnosis {m : Message (Option Destination)} (h : m.Sound) :
    ∀ e ∈ diagnosisFields m.diagnosis, IsJson e.2 := by
  cases hd : m.diagnosis with
  | none => simp [diagnosisFields]
  | some d =>
    have hvalid := h.diagnosis d hd
    obtain ⟨t, ht⟩ := hvalid.error
    simp only [diagnosisFields, List.forall_mem_cons]
    exact ⟨ht ▸ .text t, isJson_of_optionalText hvalid.context, isJson_of_optionalText hvalid.detail, by simp⟩

theorem Sound.isJson_fields {m : Message (Option Destination)} (h : m.Sound) :
    ∀ e ∈ m.described.fields, IsJson e.2 := by
  have hvalid := h.valid
  simp only [fields, List.forall_mem_cons]
  exact ⟨hvalid.kind ▸ .text _, hvalid.body.1, hvalid.isJson_properties, isJson_of_optionalText hvalid.messageId,
    hvalid.isJson_timestamp, isJson_of_flag hvalid.disableMessageId, isJson_of_flag hvalid.disableTimestamp,
    isJson_of_optionalText hvalid.correlationId, isJson_of_optionalText hvalid.messageType, hvalid.isJson_destination,
    h.isJson_diagnosis⟩

/-- The data of a valid message or stand-in is a JSON value. -/
theorem Sound.isJson {m : Message (Option Destination)} (h : m.Sound) : IsJson m.described.toValue :=
  .dict (nodup_names _) h.isJson_fields

end Message

end MessageBus
