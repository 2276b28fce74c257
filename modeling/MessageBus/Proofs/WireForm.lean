import MessageBus.Proofs.Carriage
import MessageBus.Proofs.WithinLimits
import MessageBus.Proofs.WrittenValues

/-!
# The wire form of a valid message

Each field of a valid message or stand-in is written as JSON that spells it (`Message.Sound.spells_wireForm`), to any
reader with levels and digits enough. The decoder of the self-check has few of both; but what it reads, a generous
reader reads too, so that it reads the message or nothing (`Message.Sound.eq_of_read`). Hence a wire form of a message
that is handed out is read as the message it was made of, in all its fields (`Codec.deserialize_told`), and there is
one just if the message fits this decoder (`Codec.exists_serialize`).
-/

namespace MessageBus

open Value

/-! ## Fields -/

namespace Json

variable {limits : Limits} {levels : Nat} {type : ObjectType}

/-- The text of a field. -/
def fieldText (type : ObjectType) (levels : Nat) (name : Text) (v : Value) : Except Unwritable Text :=
  match formOf type name with
  | .plain => writeValue levels v
  | .body => writeValue (levels - 1) v
  | .number =>
    match v with
    | .bool b => .ok (Text.ofInt (if b then 1 else 0))
    | v => writeValue levels v
  | .properties =>
    match v with
    | .dict entries => do
      .ok (bracketed '\x7b' '\x7d' (← writeEntries writePropertyKey levels entries))
    | v => writeValue levels v
  | .destination => do
    checkKind v
    writeValue levels v

theorem fieldText_plain {name : Text} (h : formOf type name = .plain) (v : Value) :
    fieldText type levels name v = writeValue levels v := by
  unfold fieldText
  rw [h]

theorem writeFields_cons (type : ObjectType) (levels : Nat) (e : Text × Value) (fields : List (Text × Value)) :
    writeFields type (levels + 1) (e :: fields) =
      (fieldText type levels e.1 e.2 >>= fun t => writeFields type (levels + 1) fields >>= fun ts =>
        .ok ((quote e.1 ++ .char ':' :: t) :: ts)) := by
  obtain ⟨name, v⟩ := e
  conv => lhs; unfold writeFields
  unfold fieldText
  cases formOf type name with
  | plain => rfl
  | body => rfl
  | number => cases v <;> rfl
  | properties =>
    cases v with
    | dict entries =>
      dsimp only
      cases writeEntries writePropertyKey levels entries <;> rfl
    | _ => rfl
  | destination =>
    dsimp only
    cases checkKind v <;> rfl

theorem writes_fields {fields : List (Text × Value)} {ts : List Text}
    (h : writeFields type (levels + 1) fields = .ok ts) :
    List.Forall₂ (fun e t => ∃ u, t = quote e.1 ++ .char ':' :: u ∧ fieldText type levels e.1 e.2 = .ok u)
      fields ts := by
  induction fields generalizing ts with
  | nil =>
    cases h
    exact .nil
  | cons e es ih =>
    rw [writeFields_cons] at h
    obtain ⟨t, ht, h⟩ := bind_eq_ok.mp h
    obtain ⟨ts, hts, h⟩ := bind_eq_ok.mp h
    cases h
    exact .cons ⟨t, rfl, ht⟩ (ih hts)

theorem exists_writeFields {fields : List (Text × Value)} :
    (∃ ts, writeFields type (levels + 1) fields = .ok ts) ↔
      ∀ e ∈ fields, ∃ t, fieldText type levels e.1 e.2 = .ok t := by
  induction fields with
  | nil => simp [writeFields]
  | cons e es ih =>
    rw [List.forall_mem_cons, ← ih]
    simp only [writeFields_cons, bind_eq_ok]
    constructor
    · rintro ⟨_, t, ht, ts, hts, _⟩
      exact ⟨⟨t, ht⟩, ts, hts⟩
    · rintro ⟨⟨t, ht⟩, ts, hts⟩
      exact ⟨_, t, ht, ts, hts, rfl⟩

theorem writeFields_congr {type' : ObjectType} (h : formOf type = formOf type') (levels : Nat)
    (fields : List (Text × Value)) : writeFields type levels fields = writeFields type' levels fields := by
  have htext (levels : Nat) (name : Text) (v : Value) :
      fieldText type levels name v = fieldText type' levels name v := by
    unfold fieldText
    rw [h]
  induction fields with
  | nil => cases levels <;> simp [writeFields]
  | cons e es ih =>
    cases levels with
    | zero => rw [writeFields, writeFields]
    | succ levels => rw [writeFields_cons, writeFields_cons, ih, htext]

/-- The fields of an object without forms of their own are written like the entries of a dictionary. -/
theorem writeFields_plain (htype : ∀ name, formOf type name = .plain) {fields : List (Text × Value)}
    (hnames : ∀ e ∈ fields, ∀ c ∈ e.1, c.isChar = true) :
    writeFields type levels fields = writeEntries writeKey levels (fields.map fun e => (.text e.1, e.2)) := by
  induction fields with
  | nil => cases levels <;> simp [writeFields, writeEntries]
  | cons e es ih =>
    rw [List.forall_mem_cons] at hnames
    have hkey : writeKey (.text e.1) = .ok (quote e.1) := writeKey_eq_ok.mpr ⟨hnames.1, rfl⟩
    rw [List.map_cons]
    cases levels with
    | zero =>
      rw [writeFields, writeEntries, hkey]
      rfl
    | succ levels =>
      rw [writeFields_cons, writeEntries, hkey, ih hnames.2, fieldText_plain (htype e.1)]
      rfl

theorem writeValue_record (htype : ∀ name, formOf type name = .plain) {fields : List (Text × Value)}
    (hnames : ∀ e ∈ fields, ∀ c ∈ e.1, c.isChar = true) :
    writeValue levels (.record type fields) = writeValue levels (.ofFields fields) := by
  rw [writeValue, writeFields_plain htype hnames, ofFields, writeValue]

end Json

theorem Destination.writeValue_record (d : Destination) (levels : Nat) :
    Json.writeValue levels d.object.record = Json.writeValue levels d.toValue := by
  cases d with
  | queue q =>
    refine Json.writeValue_record (fun _ => rfl) fun e he => ?_
    have hnames : ∀ name ∈ (["kind", "name", "queue_url"] : List Text), ∀ c ∈ name, c.isChar = true := by decide
    exact hnames e.1 (List.mem_map_of_mem he)
  | topic t =>
    refine Json.writeValue_record (fun _ => rfl) fun e he => ?_
    have hnames : ∀ name ∈ (["kind", "name", "arn"] : List Text), ∀ c ∈ name, c.isChar = true := by decide
    exact hnames e.1 (List.mem_map_of_mem he)

theorem Destination.Valid.checkKind {d : Destination} (h : d.Valid) : Json.checkKind d.object.record = .ok () := by
  cases d with
  | queue q =>
    have hkind : (Object.queue q).record.field? "kind" = some (.text "queue") := congrArg some h.kind
    rw [object, Json.checkKind, hkind]
    rfl
  | topic t =>
    have hkind : (Object.topic t).record.field? "kind" = some (.text "topic") := congrArg some h.kind
    rw [object, Json.checkKind, hkind]
    rfl

namespace Text

theorem isChar_replaced (t : Text) : ∀ c ∈ t.replaced, c.isChar = true := by
  intro c hc
  obtain ⟨d, _, hd⟩ := List.mem_flatMap.mp hc
  cases d with
  | char d =>
    rw [List.mem_singleton.mp hd]
    rfl
  | surrogate half =>
    rw [(List.mem_replicate.mp hd).2]
    rfl

theorem replaced_eq_self {t : Text} (h : ∀ c ∈ t, c.isChar = true) : t.replaced = t := by
  induction t with
  | nil => rfl
  | cons c t ih =>
    rw [List.forall_mem_cons] at h
    cases c with
    | char c => exact congrArg (CodePoint.char c :: ·) (ih h.2)
    | surrogate half => cases h.1

end Text

/-- The fields of a stand-in are written like those of a message. -/
theorem Codec.wireForm_type {δ : Type} (m : Message δ) (fields : List (Text × Value)) :
    wireForm m.type fields = wireForm .message fields := by
  have hform : Json.formOf m.type = Json.formOf .message := by
    rw [Message.type]
    split <;> rfl
  rw [wireForm, wireForm, Json.writeValue, Json.writeValue, Json.writeFields_congr hform]

namespace Message

variable {kind : Text} {m : Message (Option Destination)}

theorem Valid.fieldText_timestamp (h : m.Valid kind) :
    Json.fieldText .message 254 "timestamp" m.told.timestamp = Json.writeValue 254 m.told.timestamp.data := by
  have hdata : m.told.timestamp.data = m.told.timestamp := h.bare.timestamp.data
  obtain hnull | ⟨n, hn⟩ : m.told.timestamp = .null ∨ ∃ n, m.told.timestamp = .int n := h.timestamp
  · rw [hdata, hnull]
    rfl
  · rw [hdata, hn]
    rfl

theorem Valid.fieldText_destination (h : m.Valid kind) :
    Json.fieldText .message 254 "destination" m.told.destination = Json.writeValue 254 m.told.destination.data := by
  have htext : Json.fieldText .message 254 "destination" m.told.destination =
      (Json.checkKind m.told.destination >>= fun _ => Json.writeValue 254 m.told.destination) := rfl
  have htold : m.told.destination = (m.destination.map (·.object.record)).getD .null := rfl
  have hdescribed : m.described.destination = (m.destination.map Destination.toValue).getD .null := rfl
  rw [h.data_destination, htext, htold, hdescribed]
  cases hd : m.destination with
  | none => rfl
  | some d =>
    rw [Option.map_some, Option.map_some, Option.getD_some, Option.getD_some, (h.destination d hd).checkKind,
      ← d.writeValue_record]
    rfl

theorem plain_diagnosisFields {d : Option Diagnosis} {e : Text × Value} (he : e ∈ diagnosisFields d) :
    e.1 ≠ ("properties" : Text) ∧ Json.formOf .message e.1 = .plain := by
  cases d with
  | none => cases he
  | some d =>
    simp only [diagnosisFields, List.mem_cons, List.not_mem_nil, or_false] at he
    obtain rfl | rfl | rfl := he
    all_goals
      refine ⟨?_, rfl⟩
      dsimp only
      decide

/-- Every field but the properties is written like the data in it, with some of the levels that are left. -/
theorem Sound.fieldText_eq (h : m.Sound) {e : Text × Value} (he : e ∈ m.told.fields) :
    e = (("properties" : Text), m.properties) ∨ e.1 ≠ ("properties" : Text) ∧
      ∃ n, 253 ≤ n ∧ Json.fieldText .message 254 e.1 e.2 = Json.writeValue n e.2.data := by
  have hbare := h.valid.bare
  have hother (name : Text) {v : Value} (hname : name ≠ "properties")
      (htext : Json.fieldText .message 254 name v = Json.writeValue 254 v.data) :
      (name, v) = (("properties" : Text), m.properties) ∨ name ≠ "properties" ∧
        ∃ n, 253 ≤ n ∧ Json.fieldText .message 254 name v = Json.writeValue n v.data :=
    .inr ⟨hname, 254, by omega, htext⟩
  have hplain {name : Text} {v : Value} (hform : Json.formOf .message name = .plain) (hv : v.Bare) :
      Json.fieldText .message 254 name v = Json.writeValue 254 v.data := by
    rw [Json.fieldText_plain hform, hv.data]
  simp only [fields, List.mem_cons] at he
  obtain rfl | rfl | rfl | rfl | rfl | rfl | rfl | rfl | rfl | rfl | he := he
  · exact hother "kind" (by decide) (hplain rfl hbare.kind)
  · have hname : ("body" : Text) ≠ "properties" := by decide
    exact .inr ⟨hname, 253, Nat.le_refl 253, congrArg (Json.writeValue 253) hbare.body.data.symm⟩
  · exact .inl rfl
  · exact hother "message_id" (by decide) (hplain rfl hbare.messageId)
  · exact hother "timestamp" (by decide) h.valid.fieldText_timestamp
  · exact hother "disable_message_id" (by decide) (hplain rfl hbare.disableMessageId)
  · exact hother "disable_timestamp" (by decide) (hplain rfl hbare.disableTimestamp)
  · exact hother "correlation_id" (by decide) (hplain rfl hbare.correlationId)
  · exact hother "message_type" (by decide) (hplain rfl hbare.messageType)
  · exact hother "destination" (by decide) h.valid.fieldText_destination
  · obtain ⟨hname, hform⟩ := plain_diagnosisFields he
    exact hother e.1 hname (hplain hform (h.bare_diagnosis e he))

/-! ## What is read of a wire form -/

theorem fields_withProperties (x : Message Value) (properties : Value) :
    { x with properties := properties }.fields =
      x.fields.map fun e => (e.1, if e.1 = ("properties" : Text) then properties else e.2) := by
  have hdiagnosis : (diagnosisFields x.diagnosis).map
      (fun e => (e.1, if e.1 = ("properties" : Text) then properties else e.2)) = diagnosisFields x.diagnosis :=
    (List.map_congr_left (g := id) fun e he => by rw [if_neg (plain_diagnosisFields he).1]; rfl).trans (List.map_id _)
  simp only [fields, List.map_cons, hdiagnosis]
  rfl

/-- What the wire form of a message with such properties is read as: halves of UTF-16 pairs in their keys are
replaced. -/
def readBack (m : Message (Option Destination)) (properties : List (Text × Value)) : Message Value :=
  { m.described with properties := ofEntries (properties.map fun e => (e.1.replaced, e.2)) }

variable {properties : List (Text × Value)} {wire : Text} {limits : Json.Limits} {levels : Nat}

theorem spells_properties (h : ∀ e ∈ properties, IsJson e.2) {t : Text}
    (ht : Json.fieldText .message 254 "properties" (ofFields properties) = .ok t)
    (hdepth : (ofFields properties).depth ≤ levels) (hdigits : (ofFields properties).IntsWithin limits.digits) :
    Json.Spells limits levels t (ofEntries (properties.map fun e => (e.1.replaced, e.2))) := by
  obtain ⟨ts, hts, ht⟩ := bind_eq_ok.mp ht
  cases ht
  have hentries : List.Forall₂ (Json.WritesEntry Text.replaced) properties ts :=
    Json.writes_entries (fun hkey => (Except.ok.inj hkey).symm) hts
  exact Json.spells_entries (fun e he => Json.readsBack_of_isJson (h e he)) hentries (depth_ofFields_le.mp hdepth)
    (intsWithin_ofFields.mp hdigits)

theorem Sound.readBack_fields (h : m.Sound) :
    (m.readBack properties).fields = m.told.fields.map fun e =>
      (e.1, if e.1 = ("properties" : Text) then ofEntries (properties.map fun e => (e.1.replaced, e.2))
        else e.2.data) := by
  rw [readBack, fields_withProperties, ← h.data_fields, List.map_map]
  rfl

/-- A wire form spells what the message is read back as, to a reader with enough levels and digits. -/
theorem Sound.spells_wireForm (h : m.Sound) (hproperties : m.properties = ofFields properties)
    (hall : ∀ e ∈ properties, IsJson e.2)
    (hwire : Codec.wireForm .message m.told.fields = .ok wire) (hdepth : m.described.toValue.depth ≤ levels)
    (hdigits : m.described.toValue.IntsWithin limits.digits) :
    Json.Spells limits levels wire (m.readBack properties).toValue := by
  have hjson := h.isJson_fields
  rw [toValue, depth_ofFields_le, ← h.data_fields, List.forall_mem_map] at hdepth
  rw [toValue, intsWithin_ofFields, ← h.data_fields, List.forall_mem_map] at hdigits
  rw [← h.data_fields, List.forall_mem_map] at hjson
  rw [Codec.wireForm, Json.writeValue] at hwire
  obtain ⟨ts, hts, hwire⟩ := bind_eq_ok.mp hwire
  cases hwire
  cases levels with
  | zero => exact absurd (hdepth _ List.mem_cons_self) (Nat.not_lt_zero _)
  | succ levels =>
    have hnames : ((m.readBack properties).fields.map (·.1)).Nodup := nodup_names _
    rw [toValue, ← ofEntries_of_nodup hnames, h.readBack_fields]
    have hread : ∀ e ∈ m.told.fields, ∀ u, Json.fieldText .message 254 e.1 e.2 = .ok u →
        Json.Spells limits levels u (if e.1 = ("properties" : Text)
          then ofEntries (properties.map fun e => (e.1.replaced, e.2)) else e.2.data) := by
      intro e he u hu
      have hlevels := Nat.le_of_lt_succ (hdepth e he)
      obtain rfl | ⟨hname, n, _, htext⟩ := h.fieldText_eq he
      · have hdata : m.properties.data = ofFields properties := by rw [h.valid.bare.properties.data, hproperties]
        have hints : m.properties.data.IntsWithin limits.digits := hdigits _ he
        rw [hdata] at hlevels hints
        rw [hproperties] at hu
        exact spells_properties hall hu hlevels hints
      · rw [if_neg hname]
        rw [htext] at hu
        exact Json.readsBack_of_isJson (hjson e he) ⟨n, hu⟩ hlevels (hdigits e he)
    refine Json.spells_dict (List.forall₂_map_left_iff.mpr ?_)
    refine ((List.forall₂_and_left m.told.fields ts).mpr ⟨hread, Json.writes_fields hts⟩).imp ?_
    rintro e _ ⟨he, u, rfl, hu⟩
    exact ⟨u, rfl, he u hu⟩

/-- The decoder of the self-check reads nothing else from a wire form: a reader with limits that are generous
enough for the message reads the same. -/
theorem Sound.eq_of_read (h : m.Sound) (hproperties : m.properties = ofFields properties)
    (hall : ∀ e ∈ properties, IsJson e.2)
    (hwire : Codec.wireForm .message m.told.fields = .ok wire) {v : Value} (hread : Json.read .check wire = .ok v) :
    v = (m.readBack properties).toValue := by
  obtain ⟨digits, hdigits⟩ := exists_intsWithin m.described.toValue
  have hspells : Json.Spells ⟨max 200 m.described.toValue.depth, max 4300 digits⟩
      (max 200 m.described.toValue.depth) wire _ :=
    h.spells_wireForm hproperties hall hwire (Nat.le_max_right ..) (hdigits.mono (Nat.le_max_right ..))
  have hgenerous := Json.read_of_spells hspells
  rw [Json.read_of_limits (Nat.le_max_left ..) (Nat.le_max_left ..) hread] at hgenerous
  exact Except.ok.inj hgenerous

theorem readBack_eq (hproperties : m.properties = ofFields properties) (hkeys : (properties.map (·.1)).Nodup)
    (hchars : ∀ e ∈ properties, ∀ c ∈ e.1, c.isChar = true) : m.readBack properties = m.described := by
  have hself : properties.map (fun e => (e.1.replaced, e.2)) = properties := by
    refine (List.map_congr_left fun e he => ?_).trans (List.map_id properties)
    rw [Text.replaced_eq_self (hchars e he)]
    rfl
  rw [readBack, hself, ofEntries_of_nodup hkeys, ← hproperties]
  rfl

/-- A message that equals what it is read back as has no halves of UTF-16 pairs in the keys of its
properties. -/
theorem isChar_keys (hproperties : m.properties = ofFields properties) (hall : ∀ e ∈ properties, IsJson e.2)
    {entries : List (Value × Value)} (hentries : (m.readBack properties).toValue = .dict entries)
    {got : Message (Option Destination)} (hreads : Reads .json kind entries got)
    (hsame : same got.described.toValue m.described.toValue = true) :
    ∀ e ∈ properties, ∀ c ∈ e.1, c.isChar = true := by
  obtain rfl := Value.dict.inj hentries
  have hwritten : ∀ e ∈ properties.map (fun e => (e.1.replaced, e.2)),
      IsJson e.2 ∧ ∀ c ∈ e.1, c.isChar = true := by
    rw [List.forall_mem_map]
    exact fun e he => ⟨hall e he, Text.isChar_replaced e.1⟩
  obtain ⟨fields, hfields, hkeys, hread⟩ := exists_ofFields
    (p := fun e => IsJson e.2 ∧ ∀ c ∈ e.1, c.isChar = true) hwritten
  have hgotten : got.properties = ofFields fields := by
    have hcheck : Check.properties (ofFields fields) = .ok got.properties := hfields ▸ hreads.properties
    obtain ⟨read, hread', hgot⟩ := map_eq_ok.mp hcheck
    obtain ⟨_, rfl⟩ := (Check.jsonEntries_eq_ok fun e he => Check.keeps_of_isJson (hread e he).1).mp hread'
    rw [← hgot, ofEntries_of_nodup hkeys]
  have hequal : same got.properties m.properties = true :=
    field_of_same (nodup_names _) hsame "properties" rfl rfl
  rw [hgotten, hproperties] at hequal
  intro e he
  have hmem : Value.text e.1 ∈ (properties.map fun e => (Value.text e.1, e.2)).map (·.1) :=
    List.mem_map_of_mem (List.mem_map_of_mem he)
  obtain ⟨entry, hentry, htext⟩ := List.mem_map.mp ((keys_of_same (keyed_fields hkeys) hequal).mem_iff.mpr hmem)
  obtain ⟨e', he', rfl⟩ := List.mem_map.mp hentry
  exact Value.text.inj htext ▸ (hread e' he').2

end Message

/-- What the encoder writes and its self-check lets pass: a value that nests no deeper than the decoder of the
self-check reads, with no integer of more digits than it reads, and no half of a UTF-16 pair. -/
structure Value.Fits (v : Value) : Prop where
  depth : v.depth ≤ Json.Limits.check.depth
  digits : v.IntsWithin Json.Limits.check.digits
  encodable : v.Encodable

theorem Value.fits_ofFields {fields : List (Text × Value)} :
    (ofFields fields).Fits ↔ ∀ e ∈ fields, (∀ c ∈ e.1, c.isChar = true) ∧ e.2.depth < Json.Limits.check.depth ∧
      e.2.IntsWithin Json.Limits.check.digits ∧ e.2.Encodable := by
  constructor
  · intro h e he
    obtain ⟨hname, hencodable⟩ := encodable_ofFields.mp h.encodable e he
    exact ⟨hname, depth_ofFields_le.mp h.depth e he, intsWithin_ofFields.mp h.digits e he, hencodable⟩
  · intro h
    exact ⟨depth_ofFields_le.mpr fun e he => (h e he).2.1, intsWithin_ofFields.mpr fun e he => (h e he).2.2.1,
      encodable_ofFields.mpr fun e he => ⟨(h e he).1, (h e he).2.2.2⟩⟩

namespace Codec

open Message

variable {m : Message (Option Destination)} {wire : Text}

/-- The data of a valid message or stand-in describes it to the decoder of the self-check. -/
theorem dataOf_described (h : m.Sound) : dataOf m.described.toValue m.told.type = .ok m.described.toValue := by
  have hreads := h.valid.reads m.isChar_classKind .json
  cases hd : m.diagnosis with
  | none =>
    have htype : m.told.type = .message := by simp [Message.type, told, mapDestination, hd]
    rw [classKind, hd] at hreads
    rw [htype]
    exact map_eq_ok.mpr ⟨m, check_eq_ok.mpr ⟨_, rfl, hreads, hd⟩, rfl⟩
  | some d =>
    have htype : m.told.type = .standIn := by simp [Message.type, told, mapDestination, hd]
    rw [classKind, hd] at hreads
    rw [htype]
    refine map_eq_ok.mpr ⟨_, checkStandIn_eq_ok.mpr ⟨_, _, rfl, hreads.diagnosed _,
      diagnosisOf_self hd (h.diagnosis d hd), rfl⟩, ?_⟩
    -- of the detail only its words are told
    simp only [described, mapDestination, toValue, fields, hd, diagnosisFields, Detail.words]

/-- The decoder of the self-check reads the data of a valid message or stand-in from its wire form. -/
theorem read_told (h : m.Sound) (hwire : serialize m.told = .ok wire) :
    wireForm .message m.told.fields = .ok wire ∧ Json.read .check wire = .ok m.described.toValue ∧
      ∃ properties, m.properties = ofFields properties ∧
        ∀ e ∈ properties, IsJson e.2 ∧ ∀ c ∈ e.1, c.isChar = true := by
  obtain ⟨properties, hproperties, hkeys, hall⟩ := h.valid.properties
  obtain ⟨v, data, hform, hread, hdata, hsame⟩ := serialize_eq_ok.mp hwire
  rw [wireForm_type] at hform
  obtain rfl := h.eq_of_read hproperties (fun e he => (hall e he).1) hform hread
  obtain ⟨entries, got, hentries, hreads, -, rfl⟩ := reads_of_dataOf hdata
  rw [h.data_toValue] at hsame
  have hchars := isChar_keys hproperties (fun e he => (hall e he).1) hentries hreads hsame
  rw [readBack_eq hproperties hkeys hchars] at hread
  exact ⟨hform, hread, properties, hproperties, fun e he => ⟨(hall e he).1, hchars e he⟩⟩

/-- The wire form of a valid message is read back as this message, in all its fields. -/
theorem deserialize_told (h : m.Valid "message") (hd : m.diagnosis = none) (hwire : serialize m.told = .ok wire) :
    deserialize (.text wire) = .ok m := by
  obtain ⟨hform, hread, _⟩ := read_told (h.sound hd) hwire
  exact deserialize_of_read hform hread (h.check_described hd .json)

/-! ## When there is a wire form -/

theorem exists_propertiesText {properties : List (Text × Value)} (h : ∀ e ∈ properties, IsJson e.2) :
    (∃ t, Json.fieldText .message 254 "properties" (ofFields properties) = .ok t) ↔
      ∀ e ∈ properties, e.2.depth ≤ 253 ∧ e.2.Encodable := by
  have htext : (∃ t, Json.fieldText .message 254 "properties" (ofFields properties) = .ok t) ↔
      ∃ ts, Json.writeEntries Json.writePropertyKey 254 (properties.map fun e => (.text e.1, e.2)) = .ok ts := by
    constructor
    · rintro ⟨t, ht⟩
      obtain ⟨ts, hts, _⟩ := bind_eq_ok.mp ht
      exact ⟨ts, hts⟩
    · rintro ⟨ts, hts⟩
      exact ⟨_, bind_eq_ok.mpr ⟨ts, hts, rfl⟩⟩
  rw [htext, Json.exists_writeEntries]
  refine forall₂_congr fun e he => ?_
  rw [← Json.writable_iff (h e he)]
  exact ⟨fun h => h.2.2, fun h => ⟨⟨_, rfl⟩, by decide, h⟩⟩

/-- A field is written if the data in it nest less deep than the decoder of the self-check reads, and can be
encoded: the encoder itself writes what nests deeper. -/
theorem exists_fieldText (h : m.Sound) {e : Text × Value} (he : e ∈ m.told.fields) (hjson : IsJson e.2.data)
    (hdepth : e.2.data.depth < Json.Limits.check.depth) (hencodable : e.2.data.Encodable) :
    ∃ t, Json.fieldText .message 254 e.1 e.2 = .ok t := by
  have hlimit : Json.Limits.check.depth = 200 := rfl
  obtain rfl | ⟨_, n, hn, htext⟩ := h.fieldText_eq he
  · obtain ⟨properties, hproperties, _, hall⟩ := h.valid.properties
    have hdata : m.properties.data = ofFields properties := by rw [h.valid.bare.properties.data, hproperties]
    rw [hdata] at hdepth hencodable
    have hbelow := depth_ofFields_le.mp (Nat.le_of_lt hdepth)
    have hparts := encodable_ofFields.mp hencodable
    rw [hproperties]
    exact (exists_propertiesText fun e he => (hall e he).1).mpr fun e he =>
      ⟨by have := hbelow e he; omega, (hparts e he).2⟩
  · rw [htext]
    exact (Json.writable_iff hjson).mpr ⟨by omega, hencodable⟩

/-- What is written of a field can be encoded, but for the keys of properties. -/
theorem encodable_of_fieldText (h : m.Sound) {e : Text × Value} (he : e ∈ m.told.fields) (hjson : IsJson e.2.data)
    {properties : List (Text × Value)} (hproperties : m.properties = ofFields properties)
    (hall : ∀ e ∈ properties, IsJson e.2 ∧ ∀ c ∈ e.1, c.isChar = true)
    (ht : ∃ t, Json.fieldText .message 254 e.1 e.2 = .ok t) : e.2.data.Encodable := by
  obtain rfl | ⟨_, n, hn, htext⟩ := h.fieldText_eq he
  · have hdata : m.properties.data = ofFields properties := by rw [h.valid.bare.properties.data, hproperties]
    rw [hproperties] at ht
    have hparts := (exists_propertiesText fun e he => (hall e he).1).mp ht
    rw [hdata]
    exact encodable_ofFields.mpr fun e he => ⟨(hall e he).2, (hparts e he).2⟩
  · rw [htext] at ht
    exact ((Json.writable_iff hjson).mp ht).2

/-- Every name of a field can be written. -/
theorem isChar_names (x : Message Value) : ∀ e ∈ x.fields, ∀ c ∈ e.1, c.isChar = true := by
  have hnames : ∀ name ∈ x.fields.map (·.1), ∀ c ∈ name, c.isChar = true := by
    cases hd : x.diagnosis <;> simp only [fields, hd, diagnosisFields, List.map_cons, List.map_nil] <;> decide
  exact fun e he => hnames e.1 (List.mem_map_of_mem he)

theorem isJson_data (h : m.Sound) : ∀ e ∈ m.told.fields, IsJson e.2.data := by
  have hall := h.isJson_fields
  rw [← h.data_fields, List.forall_mem_map] at hall
  exact hall

/-- What is handed out passed the decoder of the self-check. -/
theorem fits_of_serialize (h : m.Sound) (hwire : serialize m.told = .ok wire) : m.described.toValue.Fits := by
  obtain ⟨hform, hread, properties, hproperties, hall⟩ := read_told h hwire
  obtain ⟨hdepth, hdigits⟩ := Json.read_within hread
  refine ⟨hdepth, hdigits, ?_⟩
  rw [Codec.wireForm, Json.writeValue] at hform
  obtain ⟨ts, hts, _⟩ := bind_eq_ok.mp hform
  have hwritten := Json.exists_writeFields.mp ⟨ts, hts⟩
  rw [toValue, encodable_ofFields, ← h.data_fields, List.forall_mem_map]
  exact fun e he => ⟨isChar_names _ e he,
    encodable_of_fieldText h he (isJson_data h e he) hproperties hall (hwritten e he)⟩

/-- A valid message or stand-in that fits the decoder of the self-check has a wire form. -/
theorem exists_wireForm (h : m.Sound) (hfits : m.described.toValue.Fits) :
    ∃ wire, wireForm .message m.told.fields = .ok wire := by
  have hfields := fits_ofFields.mp hfits
  rw [← h.data_fields, List.forall_mem_map] at hfields
  obtain ⟨ts, hts⟩ := Json.exists_writeFields.mpr fun e he =>
    exists_fieldText h he (isJson_data h e he) (hfields e he).2.1 (hfields e he).2.2.2
  exact ⟨_, bind_eq_ok.mpr ⟨ts, hts, rfl⟩⟩

/-- The wire form of a valid message or stand-in that fits passes the self-check. -/
theorem serialize_of_fits (h : m.Sound) (hfits : m.described.toValue.Fits)
    (hform : wireForm .message m.told.fields = .ok wire) : serialize m.told = .ok wire := by
  obtain ⟨properties, hproperties, hkeys, hall⟩ := h.valid.properties
  have hchars : ∀ e ∈ properties, ∀ c ∈ e.1, c.isChar = true := by
    have hfields := fits_ofFields.mp hfits
    have hmem : (("properties" : Text), m.properties) ∈ m.described.fields := by
      rw [fields]
      simp [described, mapDestination]
    have hparts : m.properties.Encodable := (hfields _ hmem).2.2.2
    rw [hproperties, encodable_ofFields] at hparts
    exact fun e he => (hparts e he).1
  have hread := Json.read_of_spells (h.spells_wireForm hproperties (fun e he => (hall e he).1) hform hfits.depth
    hfits.digits)
  rw [readBack_eq hproperties hkeys hchars] at hread
  have hsame : m.described.toValue.same m.told.toValue.data = true := by
    rw [h.data_toValue]
    exact h.isJson.same
  rw [← wireForm_type m.told] at hform
  exact serialize_eq_ok.mpr ⟨_, _, hform, hread, dataOf_described h, hsame⟩

/-- The encoder writes a valid message or stand-in if its data fit the decoder of the self-check, and else no wire
form of it. -/
theorem exists_serialize (h : m.Sound) : (∃ wire, serialize m.told = .ok wire) ↔ m.described.toValue.Fits := by
  constructor
  · rintro ⟨wire, hwire⟩
    exact fits_of_serialize h hwire
  · intro hfits
    obtain ⟨wire, hform⟩ := exists_wireForm h hfits
    exact ⟨wire, serialize_of_fits h hfits hform⟩

theorem exists_serialize_told (h : m.Valid "message") (hd : m.diagnosis = none) :
    (∃ wire, serialize m.told = .ok wire) ↔ m.described.toValue.Fits :=
  exists_serialize (h.sound hd)

end Codec

end MessageBus
