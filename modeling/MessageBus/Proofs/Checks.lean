import MessageBus.Message

/-!
# What checks let through

A check that finds nothing wrong is taken apart into the checks of its parts (`Checked.apply_eq_ok`). For
messages the parts are gathered in `Message.Reads`: which value each field was read from, by which check.
-/

namespace MessageBus

theorem bind_eq_ok {ε α β : Type} {x : Except ε α} {f : α → Except ε β} {b : β} :
    (x >>= f) = .ok b ↔ ∃ a, x = .ok a ∧ f a = .ok b := by
  cases x <;> simp [bind, Except.bind]

theorem bind_eq_error {ε α β : Type} {x : Except ε α} {f : α → Except ε β} {e : ε} :
    x >>= f = .error e ↔ x = .error e ∨ ∃ a, x = .ok a ∧ f a = .error e := by
  cases x <;> simp [bind, Except.bind]

theorem map_eq_ok {ε α β : Type} {f : α → β} {x : Except ε α} {b : β} :
    x.map f = .ok b ↔ ∃ a, x = .ok a ∧ f a = b := by
  cases x <;> simp [Except.map]

theorem mapError_eq_ok {ε ε' α : Type} {x : Except ε α} {f : ε → ε'} {a : α} :
    x.mapError f = .ok a ↔ x = .ok a := by
  constructor
  · intro h
    cases x with
    | error e => cases h
    | ok b =>
      cases h
      rfl
  · rintro rfl
    rfl

namespace Checked

variable {α β : Type}

theorem apply_eq_ok {f : Checked (α → β)} {a : Checked α} {b : β} :
    f.apply a = .ok b ↔ ∃ g x, f = .ok g ∧ a = .ok x ∧ g x = b := by
  cases f <;> cases a <;> simp [apply]

theorem both_eq_ok {γ : Type} {f : α → β → γ} {a : Checked α} {b : Checked β} {c : γ} :
    both f a b = .ok c ↔ ∃ x y, a = .ok x ∧ b = .ok y ∧ f x y = c := by
  cases a <;> cases b <;> simp [both, right, apply]

theorem under_eq_ok {steps : List Step} {a : Checked α} {x : α} : under steps a = .ok x ↔ a = .ok x := by
  cases a <;> simp [under]

end Checked

namespace Check

theorem optionalText_eq_ok {v x : Value} (h : optionalText v = .ok x) : x = .null ∨ ∃ t, x = .text t := by
  unfold optionalText at h
  split at h
  · exact .inl (Except.ok.inj h).symm
  · obtain ⟨t, -, rfl⟩ := map_eq_ok.mp h
    exact .inr ⟨t, rfl⟩

theorem requiredText_eq_ok {v : Option Value} {x : Value} (h : requiredText v = .ok x) : ∃ t, x = .text t := by
  unfold requiredText at h
  split at h
  · cases h
  · obtain ⟨t, -, rfl⟩ := map_eq_ok.mp h
    exact ⟨t, rfl⟩

theorem optionalInteger_eq_ok {v x : Value} (h : optionalInteger v = .ok x) :
    x = .null ∨ ∃ n, x = .int n := by
  unfold optionalInteger at h
  split at h
  · exact .inl (Except.ok.inj h).symm
  · obtain ⟨n, -, rfl⟩ := map_eq_ok.mp h
    exact .inr ⟨n, rfl⟩

theorem literal_eq_ok {word : Text} {v x : Value} (h : literal word v = .ok x) :
    v = .text word ∧ x = .text word := by
  unfold literal at h
  split at h
  · split at h
    · split at h
      · next ht => exact ⟨by rw [ht], (Except.ok.inj h).symm⟩
      · simp [Checked.fail] at h
    · simp [Checked.fail] at h
  · simp [Checked.fail] at h

theorem properties_eq_ok {v x : Value} (h : properties v = .ok x) :
    ∃ entries read, v = .dict entries ∧ jsonEntries (nestingLimit + 1) entries = .ok read ∧
      x = Value.ofEntries read := by
  unfold properties at h
  split at h
  · obtain ⟨read, hr, rfl⟩ := map_eq_ok.mp h
    exact ⟨_, read, rfl, hr, rfl⟩
  · simp [Checked.fail] at h

end Check

/-- Whoever hands over a destination, the same values describe one. -/
theorem Destination.check_origin {o o' : Origin} {v : Value} {d : Option Destination}
    (h : check o v = .ok d) : check o' v = .ok d := by
  cases v with
  | null => exact h
  | dict entries => exact h
  | _ => cases o <;> simp [check, Checked.fail] at h

theorem Check.eq_zero_or_one {n : Int} {b : Bool} (h : booleanInteger n = .ok b) : n = 0 ∨ n = 1 := by
  unfold booleanInteger at h
  split at h
  · next hn => exact .inl hn
  · split at h
    · next hn => exact .inr hn
    · simp [Checked.fail] at h

/-- What stands for a boolean to one reader does so to any other: zero and one are held by both. -/
theorem Check.boolean_origin {o o' : Origin} {v x : Value} (h : (boolean o.holds v).map .bool = .ok x) :
    (boolean o'.holds v).map .bool = .ok x := by
  cases v with
  | int n =>
    obtain ⟨b, hb, rfl⟩ := map_eq_ok.mp h
    rw [boolean] at hb
    split at hb
    · obtain rfl | rfl := eq_zero_or_one hb <;> cases hb <;> cases o' <;> rfl
    · simp [Checked.fail] at hb
  | _ => exact h

namespace Message

/-- Every field of a message is what the check of that field made of an entry, or of what stands for a
missing one. -/
structure Reads (origin : Origin) (kind : Text) (entries : List (Value × Value))
    (m : Message (Option Destination)) : Prop where
  kind : Check.literal kind (field entries "kind" (.text kind)) = .ok m.kind
  body : Check.body (field entries "body" .null) = .ok m.body
  properties : Check.properties (field entries "properties" (.dict [])) = .ok m.properties
  messageId : Check.optionalText (field entries "message_id" .null) = .ok m.messageId
  timestamp : Check.optionalInteger (field entries "timestamp" .null) = .ok m.timestamp
  disableMessageId : (Check.boolean origin.holds (field entries "disable_message_id" (.bool false))).map .bool =
    .ok m.disableMessageId
  disableTimestamp : (Check.boolean origin.holds (field entries "disable_timestamp" (.bool false))).map .bool =
    .ok m.disableTimestamp
  correlationId : Check.optionalText (field entries "correlation_id" .null) = .ok m.correlationId
  messageType : Check.optionalText (field entries "message_type" .null) = .ok m.messageType
  destination : Destination.check origin (field entries "destination" .null) = .ok m.destination

theorem Reads.origin {o o' : Origin} {kind : Text} {entries : List (Value × Value)}
    {m : Message (Option Destination)} (h : Reads o kind entries m) : Reads o' kind entries m :=
  ⟨h.kind, h.body, h.properties, h.messageId, h.timestamp, Check.boolean_origin h.disableMessageId,
    Check.boolean_origin h.disableTimestamp, h.correlationId, h.messageType,
    Destination.check_origin h.destination⟩

/-- The diagnosis is read from elsewhere. -/
theorem Reads.diagnosed {origin : Origin} {kind : Text} {entries : List (Value × Value)}
    {m : Message (Option Destination)} (h : Reads origin kind entries m) (d : Option Diagnosis) :
    Reads origin kind entries { m with diagnosis := d } :=
  ⟨h.kind, h.body, h.properties, h.messageId, h.timestamp, h.disableMessageId, h.disableTimestamp,
    h.correlationId, h.messageType, h.destination⟩

theorem fieldsOf_eq_ok {origin : Origin} {kind : Text} {entries : List (Value × Value)}
    {f : Option Diagnosis → Message (Option Destination)} (h : fieldsOf origin kind entries = .ok f) :
    ∃ m, Reads origin kind entries m ∧ f = fun d => { m with diagnosis := d } := by
  simp only [fieldsOf, Checked.right] at h
  obtain ⟨g0, destination, h0, hdestination, rfl⟩ := Checked.apply_eq_ok.mp h
  obtain ⟨g1, messageType, h1, hmessageType, rfl⟩ := Checked.apply_eq_ok.mp h0
  obtain ⟨g2, correlationId, h2, hcorrelationId, rfl⟩ := Checked.apply_eq_ok.mp h1
  obtain ⟨g3, disableTimestamp, h3, hdisableTimestamp, rfl⟩ := Checked.apply_eq_ok.mp h2
  obtain ⟨g4, disableMessageId, h4, hdisableMessageId, rfl⟩ := Checked.apply_eq_ok.mp h3
  obtain ⟨g5, timestamp, h5, htimestamp, rfl⟩ := Checked.apply_eq_ok.mp h4
  obtain ⟨g6, messageId, h6, hmessageId, rfl⟩ := Checked.apply_eq_ok.mp h5
  obtain ⟨g7, properties, h7, hproperties, rfl⟩ := Checked.apply_eq_ok.mp h6
  obtain ⟨g8, body, h8, hbody, rfl⟩ := Checked.apply_eq_ok.mp h7
  obtain ⟨g9, kind, h9, hkind, rfl⟩ := Checked.apply_eq_ok.mp h8
  cases h9
  simp only [Checked.under_eq_ok] at *
  exact ⟨⟨kind, body, properties, messageId, timestamp, disableMessageId, disableTimestamp, correlationId,
    messageType, destination, none⟩, ⟨hkind, hbody, hproperties, hmessageId, htimestamp, hdisableMessageId,
    hdisableTimestamp, hcorrelationId, hmessageType, hdestination⟩, rfl⟩

theorem Reads.fieldsOf {origin : Origin} {kind : Text} {entries : List (Value × Value)}
    {m : Message (Option Destination)} (h : Reads origin kind entries m) :
    fieldsOf origin kind entries = .ok fun d => { m with diagnosis := d } := by
  simp only [Message.fieldsOf, h.kind, h.body, h.properties, h.messageId, h.timestamp, h.disableMessageId,
    h.disableTimestamp, h.correlationId, h.messageType, h.destination, Checked.under, Checked.right,
    Checked.apply]

/-- A message is described by a dictionary with something right in every field. -/
theorem check_eq_ok {origin : Origin} {v : Value} {m : Message (Option Destination)} :
    check origin v = .ok m ↔
      ∃ entries, v = .dict entries ∧ Reads origin "message" entries m ∧ m.diagnosis = none := by
  constructor
  · intro h
    cases v with
    | dict entries =>
      obtain ⟨f, d, hf, hd, rfl⟩ := Checked.apply_eq_ok.mp h
      obtain ⟨m, hm, rfl⟩ := fieldsOf_eq_ok hf
      cases hd
      exact ⟨entries, rfl, hm.diagnosed none, rfl⟩
    | _ => simp [check, Checked.fail] at h
  · rintro ⟨entries, rfl, hm, hd⟩
    simp only [check, hm.fieldsOf, Checked.right, Checked.apply, ← hd]

/-- A stand-in is described by a dictionary with something right in every field, those of the diagnosis too. -/
theorem checkStandIn_eq_ok {origin : Origin} {v : Value} {m : Message (Option Destination)} :
    checkStandIn origin v = .ok m ↔
      ∃ entries d, v = .dict entries ∧ Reads origin "invalid" entries m ∧ diagnosisOf entries = .ok d ∧
        m.diagnosis = some d := by
  constructor
  · intro h
    cases v with
    | dict entries =>
      obtain ⟨f, read, hf, hread, rfl⟩ := Checked.apply_eq_ok.mp h
      obtain ⟨m, hm, rfl⟩ := fieldsOf_eq_ok hf
      obtain ⟨d, hd, rfl⟩ := map_eq_ok.mp hread
      exact ⟨entries, d, rfl, hm.diagnosed _, hd, rfl⟩
    | _ => simp [checkStandIn, Checked.fail] at h
  · rintro ⟨entries, d, rfl, hm, hread, hd⟩
    simp only [checkStandIn, hm.fieldsOf, hread, Except.map, Checked.apply, ← hd]

/-- What describes a message to the reader of wire forms describes it to any caller. -/
theorem check_origin {o o' : Origin} {v : Value} {m : Message (Option Destination)}
    (h : check o v = .ok m) : check o' v = .ok m := by
  obtain ⟨entries, rfl, hm, hd⟩ := check_eq_ok.mp h
  exact check_eq_ok.mpr ⟨entries, rfl, hm.origin, hd⟩

end Message

end MessageBus
