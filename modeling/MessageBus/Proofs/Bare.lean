import MessageBus.Proofs.ValidMessages
import MessageBus.Store

/-!
# Values without objects

A bare value holds no object of the bus, neither shared nor told by its fields: it reads the same wherever
it goes. All that validation lets through is bare, but for the destination, which becomes an object of its
own.
-/

namespace MessageBus

/-- The value holds no object of the bus. -/
structure Value.Bare (v : Value) : Prop where
  data : v.data = v
  replaceShared : ∀ f, v.replaceShared f = v

namespace Value

theorem bare_null : Bare .null := ⟨rfl, fun _ => rfl⟩
theorem bare_bool (b : Bool) : Bare (.bool b) := ⟨rfl, fun _ => rfl⟩
theorem bare_int (n : Int) : Bare (.int n) := ⟨rfl, fun _ => rfl⟩
theorem bare_float (x : Double) : Bare (.float x) := ⟨rfl, fun _ => rfl⟩
theorem bare_text (t : Text) : Bare (.text t) := ⟨rfl, fun _ => rfl⟩
theorem bare_bytes (octets : List UInt8) : Bare (.bytes octets) := ⟨rfl, fun _ => rfl⟩
theorem bare_object : Bare .object := ⟨rfl, fun _ => rfl⟩

theorem dataEntries_eq (entries : List (Value × Value)) :
    dataEntries entries = entries.map fun e => (e.1, e.2.data) := by
  induction entries with
  | nil => rfl
  | cons e rest ih => rw [dataEntries, ih, List.map_cons]

theorem replaceSharedItems_eq (f : Nat → Value) (items : List Value) :
    replaceSharedItems f items = items.map (replaceShared f) := by
  induction items with
  | nil => rfl
  | cons v vs ih => rw [replaceSharedItems, ih, List.map_cons]

theorem replaceSharedEntries_eq (f : Nat → Value) (entries : List (Value × Value)) :
    replaceSharedEntries f entries = entries.map fun e => (e.1, e.2.replaceShared f) := by
  induction entries with
  | nil => rfl
  | cons e rest ih => rw [replaceSharedEntries, ih, List.map_cons]

theorem replaceSharedFields_eq (f : Nat → Value) (fields : List (Text × Value)) :
    replaceSharedFields f fields = fields.map fun e => (e.1, e.2.replaceShared f) := by
  induction fields with
  | nil => rfl
  | cons e rest ih => rw [replaceSharedFields, ih, List.map_cons]

theorem bare_list {items : List Value} (h : ∀ v ∈ items, Bare v) : Bare (.list items) := by
  have hdata : dataItems items = items := by
    induction items with
    | nil => rfl
    | cons v vs ih => rw [dataItems, (h v (by simp)).data, ih fun u hu => h u (by simp [hu])]
  have hshared (f : Nat → Value) : replaceSharedItems f items = items := by
    rw [replaceSharedItems_eq]
    exact (List.map_congr_left (g := id) fun v hv => (h v hv).replaceShared f).trans (List.map_id items)
  exact ⟨by rw [data, hdata], fun f => by rw [Value.replaceShared, hshared]⟩

theorem bare_dict {entries : List (Value × Value)} (h : ∀ e ∈ entries, Bare e.2) : Bare (.dict entries) := by
  have hdata : dataEntries entries = entries := by
    rw [dataEntries_eq]
    exact (List.map_congr_left (g := id) fun e he => by rw [(h e he).data]; rfl).trans (List.map_id entries)
  have hshared (f : Nat → Value) : replaceSharedEntries f entries = entries := by
    rw [replaceSharedEntries_eq]
    exact (List.map_congr_left (g := id) fun e he => by rw [(h e he).replaceShared]; rfl).trans (List.map_id entries)
  exact ⟨by rw [data, hdata], fun f => by rw [Value.replaceShared, hshared]⟩

/-- JSON values hold no objects. -/
theorem IsJson.bare {v : Value} (h : IsJson v) : v.Bare := by
  induction h with
  | null => exact bare_null
  | bool b => exact bare_bool b
  | int n => exact bare_int n
  | float _ => exact bare_float _
  | text t => exact bare_text t
  | list _ ih => exact bare_list ih
  | dict _ _ ih =>
    refine bare_dict fun e he => ?_
    obtain ⟨field, hfield, rfl⟩ := List.mem_map.mp he
    exact ih field hfield

end Value

namespace Store

theorem expand_of_bare {v : Value} (h : v.Bare) (s : Store) (depth : Nat) : s.expand depth v = v := by
  cases depth with
  | zero => rfl
  | succ depth => exact h.replaceShared _

theorem expanded_of_bare {v : Value} (h : v.Bare) (s : Store) : s.expanded v = v := expand_of_bare h s _

/-- What a value comes to when its objects are told by their fields, and these as dictionaries. -/
def told (s : Store) (v : Value) : Value := (s.expanded v).data

theorem told_of_bare {v : Value} (h : v.Bare) (s : Store) : s.told v = v := by
  rw [told, expanded_of_bare h, h.data]

/-- The data of a message with its objects told by their fields. -/
def dump (s : Store) (m : Message Value) : Value := (m.map s.expanded).toValue.data

/-- An object of bare fields is told by them. -/
theorem expanded_destination {s : Store} {ref : Ref} {d : Destination}
    (h : s.object? ref = some d.object) (hd : ∀ e ∈ d.object.fields, e.2.Bare) :
    s.expanded (.shared ref) = d.object.record := by
  have hlength : ∃ n, s.objects.length = n + 1 := by
    obtain ⟨hlt, _⟩ := List.getElem?_eq_some_iff.mp h
    exact ⟨s.objects.length - 1, by omega⟩
  obtain ⟨n, hn⟩ := hlength
  rw [expanded, hn, expand, Value.replaceShared, h]
  cases d with
  | queue q =>
    simp only [Destination.object, Object.fields, Queue.fields, List.forall_mem_cons] at hd
    obtain ⟨hkind, hname, hurl, _⟩ := hd
    simp [Destination.object, Object.map, Object.record, Object.fields, Queue.map, Queue.fields,
      expand_of_bare hkind, expand_of_bare hname, expand_of_bare hurl, Object.type]
  | topic t =>
    simp only [Destination.object, Object.fields, Topic.fields, List.forall_mem_cons] at hd
    obtain ⟨hkind, hname, harn, _⟩ := hd
    simp [Destination.object, Object.map, Object.record, Object.fields, Topic.map, Topic.fields,
      expand_of_bare hkind, expand_of_bare hname, expand_of_bare harn, Object.type]

end Store

theorem Value.data_record {type : ObjectType} {fields : List (Text × Value)} (h : ∀ e ∈ fields, e.2.Bare) :
    (Value.record type fields).data = .ofFields fields := by
  rw [data, ofFields]
  congr 1
  induction fields with
  | nil => rfl
  | cons e es ih => rw [dataFields, (h e (by simp)).data, ih fun u hu => h u (by simp [hu]), List.map_cons]

theorem Destination.data_record {d : Destination} (h : ∀ e ∈ d.object.fields, e.2.Bare) :
    d.object.record.data = d.toValue := by
  rw [Object.record, Value.data_record h]
  cases d <;> rfl

/-- All fields of a message but its destination are bare. -/
structure Message.Bare {δ : Type} (m : Message δ) : Prop where
  kind : m.kind.Bare
  body : m.body.Bare
  properties : m.properties.Bare
  messageId : m.messageId.Bare
  timestamp : m.timestamp.Bare
  disableMessageId : m.disableMessageId.Bare
  disableTimestamp : m.disableTimestamp.Bare
  correlationId : m.correlationId.Bare
  messageType : m.messageType.Bare

theorem Message.Valid.bare {kind : Text} {m : Message (Option Destination)} (h : m.Valid kind) : m.Bare where
  kind := h.kind ▸ Value.bare_text kind
  body := h.body.1.bare
  properties := h.isJson_properties.bare
  messageId := (isJson_of_optionalText h.messageId).bare
  timestamp := h.isJson_timestamp.bare
  disableMessageId := (isJson_of_flag h.disableMessageId).bare
  disableTimestamp := (isJson_of_flag h.disableTimestamp).bare
  correlationId := (isJson_of_optionalText h.correlationId).bare
  messageType := (isJson_of_optionalText h.messageType).bare

theorem Destination.Valid.bare {d : Destination} (h : d.Valid) : ∀ e ∈ d.object.fields, e.2.Bare := by
  cases d with
  | queue q => exact fun e he => (Queue.Valid.isJson h e he).bare
  | topic t => exact fun e he => (Topic.Valid.isJson h e he).bare

theorem Store.dump_eq {m : Message Value} (hm : m.diagnosis = none) (s : Store) :
    s.dump m = Value.ofFields (m.fields.map fun e => (e.1, s.told e.2)) := by
  simp [dump, Message.toValue, Message.fields, Message.map, hm, Message.diagnosisFields, Value.ofFields,
    Value.data, Value.dataEntries, told]

namespace Message

variable {kind : Text} {m : Message (Option Destination)}

/-- The message with its destination told by its fields, as it is written. -/
def told (m : Message (Option Destination)) : Message Value :=
  m.mapDestination fun d => (d.map (·.object.record)).getD .null

theorem Valid.data_destination (h : m.Valid kind) : m.told.destination.data = m.described.destination := by
  have htold : m.told.destination = (m.destination.map (·.object.record)).getD .null := rfl
  have hdescribed : m.described.destination = (m.destination.map Destination.toValue).getD .null := rfl
  rw [htold, hdescribed]
  cases hd : m.destination with
  | none => rfl
  | some d => exact Destination.data_record (h.destination d hd).bare

theorem Sound.bare_diagnosis (h : m.Sound) : ∀ e ∈ diagnosisFields m.diagnosis, e.2.Bare :=
  fun e he => (h.isJson_diagnosis e he).bare

theorem Sound.data_fields (h : m.Sound) : m.told.fields.map (fun e => (e.1, e.2.data)) = m.described.fields := by
  have hbare := h.valid.bare
  have hdiagnosis : (diagnosisFields m.diagnosis).map (fun e => (e.1, e.2.data)) = diagnosisFields m.diagnosis :=
    (List.map_congr_left (g := id) fun e he => by rw [(h.bare_diagnosis e he).data]; rfl).trans (List.map_id _)
  have htold : m.told.diagnosis = m.diagnosis := rfl
  have hdescribed : m.described.diagnosis = m.diagnosis := rfl
  simp only [fields, htold, hdescribed, List.map_cons, h.valid.data_destination, hdiagnosis]
  simp only [told, described, mapDestination, hbare.kind.data, hbare.body.data, hbare.properties.data,
    hbare.messageId.data, hbare.timestamp.data, hbare.disableMessageId.data, hbare.disableTimestamp.data,
    hbare.correlationId.data, hbare.messageType.data]

theorem Sound.data_toValue (h : m.Sound) : m.told.toValue.data = m.described.toValue := by
  rw [toValue, Value.ofFields, Value.data, Value.dataEntries_eq, List.map_map, toValue, ← h.data_fields,
    Value.ofFields, List.map_map]
  rfl

end Message

namespace Store

theorem map_expanded_diagnosis {d : Diagnosis} (h : d.Valid) (s : Store) : d.map s.expanded = d := by
  obtain ⟨t, ht⟩ := h.error
  obtain ⟨error, context, detail⟩ := d
  have herror : error.Bare := by
    obtain rfl : error = .text t := ht
    exact Value.bare_text t
  have hcontext : context.Bare := (isJson_of_optionalText h.context).bare
  rw [Diagnosis.map, expanded_of_bare herror, expanded_of_bare hcontext]
  cases detail with
  | plain words =>
    have hwords : words.Bare := (isJson_of_optionalText h.detail).bare
    simp only [expanded_of_bare hwords]
  | _ => rfl

/-- A valid message or stand-in is told by its fields, and by what its destination is told by. -/
theorem map_expanded {m : Message (Option Destination)} (h : m.Sound) (s : Store) (x : Value) :
    (m.mapDestination fun _ => x).map s.expanded = m.mapDestination fun _ => s.expanded x := by
  have hbare := h.valid.bare
  have hdiagnosis : m.diagnosis.map (·.map s.expanded) = m.diagnosis := by
    cases hd : m.diagnosis with
    | none => rfl
    | some d => rw [Option.map_some, map_expanded_diagnosis (h.diagnosis d hd)]
  simp only [Message.map, Message.mapDestination, hdiagnosis, expanded_of_bare hbare.kind,
    expanded_of_bare hbare.body, expanded_of_bare hbare.properties, expanded_of_bare hbare.messageId,
    expanded_of_bare hbare.timestamp, expanded_of_bare hbare.disableMessageId,
    expanded_of_bare hbare.disableTimestamp, expanded_of_bare hbare.correlationId,
    expanded_of_bare hbare.messageType]

/-- The object of a described message has its fields, and a destination that is told by its own. -/
theorem object?_addMessage (s : Store) (m : Message (Option Destination)) :
    ∃ x, (s.addMessage m).2.object? (s.addMessage m).1 = some (.message (m.mapDestination fun _ => x)) ∧
      ((∀ d, m.destination = some d → d.Valid) →
        (s.addMessage m).2.expanded x = (m.destination.map (·.object.record)).getD .null) := by
  cases hdestination : m.destination with
  | none =>
    refine ⟨.null, ?_, fun _ => expanded_of_bare Value.bare_null _⟩
    simp [addMessage, hdestination, addDestination, object?_add]
  | some d =>
    have hnew : s.addDestination (some d) = (.shared (s.add d.object).1, (s.add d.object).2) := rfl
    refine ⟨.shared (s.add d.object).1, ?_, fun hd => expanded_destination ?_ (hd d rfl).bare⟩
    · rw [addMessage, hdestination, hnew, object?_add, if_pos rfl]
    · have hother : (s.add d.object).1 ≠ ((s.add d.object).2.add
          (.message (m.mapDestination fun _ => .shared (s.add d.object).1))).1 := by
        simp [add]
      rw [addMessage, hdestination, hnew, object?_add, if_neg hother, object?_add, if_pos rfl]

/-- The object of a valid message or stand-in is told as the message. -/
theorem told_addMessage {m : Message (Option Destination)} (h : m.Sound) (s : Store) :
    ∃ x, (s.addMessage m).2.object? (s.addMessage m).1 = some (.message (m.mapDestination fun _ => x)) ∧
      (m.mapDestination fun _ => x).map (s.addMessage m).2.expanded = m.told := by
  obtain ⟨x, hobject, htold⟩ := s.object?_addMessage m
  refine ⟨x, hobject, ?_⟩
  rw [map_expanded h, htold h.valid.destination]
  rfl

end Store

end MessageBus
