import MessageBus.Proofs.WireForm

/-!
# Objects within objects

A value is told by the fields of the objects that it holds, these by the fields of the objects that they hold,
and so on; all that is met on the way the value reaches (`Store.Reaches`). A change of an object that it does
not reach leaves it told as it was (`Store.expanded_replace`).

What is left of an object that lies within itself cannot be written. So an object that was written does not reach
itself, and what it is given after it was written changes nothing of what it was written from
(`Store.map_expanded_replace`).
-/

namespace MessageBus

namespace Value

/-- The value holds a shared object, in a container or a record or by itself. -/
inductive Holds (ref : Nat) : Value → Prop where
  | shared : Holds ref (.shared ref)
  | list {items : List Value} {v : Value} (hv : v ∈ items) (h : Holds ref v) : Holds ref (.list items)
  | tuple {items : List Value} {v : Value} (hv : v ∈ items) (h : Holds ref v) : Holds ref (.tuple items)
  | set {items : List Value} {v : Value} (hv : v ∈ items) (h : Holds ref v) : Holds ref (.set items)
  | dict {entries : List (Value × Value)} {e : Value × Value} (he : e ∈ entries) (h : Holds ref e.2) :
      Holds ref (.dict entries)
  | record {type : ObjectType} {fields : List (Text × Value)} {e : Text × Value} (he : e ∈ fields)
      (h : Holds ref e.2) : Holds ref (.record type fields)

/-- What is put in the place of a held object is held. -/
theorem Holds.replaceShared {ref other : Nat} {v : Value} (h : v.Holds ref) {f : Nat → Value}
    (hf : (f ref).Holds other) : (v.replaceShared f).Holds other := by
  induction h with
  | shared => exact hf
  | list hv _ ih =>
    rw [Value.replaceShared, replaceSharedItems_eq]
    exact .list (List.mem_map_of_mem hv) ih
  | tuple hv _ ih =>
    rw [Value.replaceShared, replaceSharedItems_eq]
    exact .tuple (List.mem_map_of_mem hv) ih
  | set hv _ ih =>
    rw [Value.replaceShared, replaceSharedItems_eq]
    exact .set (List.mem_map_of_mem hv) ih
  | dict he _ ih =>
    rw [Value.replaceShared, replaceSharedEntries_eq]
    exact .dict (List.mem_map_of_mem he) ih
  | record he _ ih =>
    rw [Value.replaceShared, replaceSharedFields_eq]
    exact .record (List.mem_map_of_mem he) ih

section congr

variable {f g : Nat → Value}

mutual

/-- Nothing matters of a replacement but what it says of the objects that are held. -/
theorem replaceShared_congr : (v : Value) → (∀ ref, v.Holds ref → f ref = g ref) →
    replaceShared f v = replaceShared g v
  | .list items, h => by
    rw [replaceShared, replaceShared, replaceSharedItems_congr items fun ref v hv hr => h ref (.list hv hr)]
  | .tuple items, h => by
    rw [replaceShared, replaceShared, replaceSharedItems_congr items fun ref v hv hr => h ref (.tuple hv hr)]
  | .set items, h => by
    rw [replaceShared, replaceShared, replaceSharedItems_congr items fun ref v hv hr => h ref (.set hv hr)]
  | .dict entries, h => by
    rw [replaceShared, replaceShared, replaceSharedEntries_congr entries fun ref e he hr => h ref (.dict he hr)]
  | .record type fields, h => by
    rw [replaceShared, replaceShared, replaceSharedFields_congr fields fun ref e he hr => h ref (.record he hr)]
  | .shared ref, h => h ref .shared
  | .null, _ | .bool _, _ | .int _, _ | .float _, _ | .text _, _ | .bytes _, _ | .object, _ => rfl

theorem replaceSharedItems_congr : (items : List Value) → (∀ ref, ∀ v ∈ items, v.Holds ref → f ref = g ref) →
    replaceSharedItems f items = replaceSharedItems g items
  | [], _ => rfl
  | v :: vs, h => by
    rw [replaceSharedItems, replaceSharedItems, replaceShared_congr v fun ref => h ref v List.mem_cons_self,
      replaceSharedItems_congr vs fun ref u hu => h ref u (List.mem_cons_of_mem _ hu)]

theorem replaceSharedEntries_congr : (entries : List (Value × Value)) →
    (∀ ref, ∀ e ∈ entries, e.2.Holds ref → f ref = g ref) →
    replaceSharedEntries f entries = replaceSharedEntries g entries
  | [], _ => rfl
  | (k, v) :: es, h => by
    rw [replaceSharedEntries, replaceSharedEntries, replaceShared_congr v fun ref => h ref (k, v) List.mem_cons_self,
      replaceSharedEntries_congr es fun ref e he => h ref e (List.mem_cons_of_mem _ he)]

theorem replaceSharedFields_congr : (fields : List (Text × Value)) →
    (∀ ref, ∀ e ∈ fields, e.2.Holds ref → f ref = g ref) →
    replaceSharedFields f fields = replaceSharedFields g fields
  | [], _ => rfl
  | (k, v) :: es, h => by
    rw [replaceSharedFields, replaceSharedFields, replaceShared_congr v fun ref => h ref (k, v) List.mem_cons_self,
      replaceSharedFields_congr es fun ref e he => h ref e (List.mem_cons_of_mem _ he)]

end

end congr

end Value

/-! ## Fields -/

theorem Message.map_congr {f g : Value → Value} {m : Message Value} (h : ∀ e ∈ m.fields, f e.2 = g e.2) :
    m.map f = m.map g := by
  have hdiagnosis : m.diagnosis.map (·.map f) = m.diagnosis.map (·.map g) := by
    cases hd : m.diagnosis with
    | none => rfl
    | some d =>
      simp only [fields, hd, diagnosisFields, List.forall_mem_cons] at h
      obtain ⟨-, -, -, -, -, -, -, -, -, -, herror, hcontext, hdetail, -⟩ := h
      simp only [Option.map_some, Diagnosis.map, herror, hcontext]
      cases hw : d.detail with
      | plain words =>
        rw [hw, Detail.words] at hdetail
        dsimp only
        rw [hdetail]
      | _ => rfl
  simp only [fields, List.forall_mem_cons] at h
  obtain ⟨hkind, hbody, hproperties, hid, htime, hnoId, hnoTime, hcorrelation, htype, hdestination, -⟩ := h
  simp only [map, hkind, hbody, hproperties, hid, htime, hnoId, hnoTime, hcorrelation, htype, hdestination,
    hdiagnosis]

theorem Object.map_congr {f g : Value → Value} {o : Object} (h : ∀ e ∈ o.fields, f e.2 = g e.2) :
    o.map f = o.map g := by
  cases o with
  | queue q =>
    simp only [fields, Queue.fields, List.forall_mem_cons] at h
    simp only [map, Queue.map, h]
  | topic t =>
    simp only [fields, Topic.fields, List.forall_mem_cons] at h
    simp only [map, Topic.map, h]
  | message m => rw [map, map, Message.map_congr h]

/-- The fields of a changed object are the changed fields, if texts do not change. -/
theorem Object.fields_map {f : Value → Value} (hf : ∀ t, f (.text t) = .text t) (o : Object) :
    (o.map f).fields = o.fields.map fun e => (e.1, f e.2) := by
  cases o with
  | queue q => rfl
  | topic t => rfl
  | message m =>
    cases hd : m.diagnosis with
    | none => simp [map, fields, Message.map, Message.fields, Message.diagnosisFields, hd]
    | some d =>
      cases hw : d.detail <;>
        simp [map, fields, Message.map, Message.fields, Message.diagnosisFields, Diagnosis.map, Detail.words, hd, hw,
          hf]

/-! ## What is written -/

namespace Json

open Value

theorem writable_of_mem_entries {key : Value → Except Unwritable Text} {levels : Nat}
    {entries : List (Value × Value)} {ts : List Text} (h : writeEntries key levels entries = .ok ts) :
    ∀ e ∈ entries, Writable (levels - 1) e.2 := by
  induction entries generalizing ts with
  | nil => simp
  | cons e es ih =>
    obtain ⟨k, v⟩ := e
    cases levels with
    | zero =>
      rw [writeEntries] at h
      obtain ⟨_, _, h⟩ := bind_eq_ok.mp h
      cases h
    | succ n =>
      rw [writeEntries] at h
      obtain ⟨_, _, h⟩ := bind_eq_ok.mp h
      obtain ⟨t, ht, h⟩ := bind_eq_ok.mp h
      obtain ⟨rest, hrest, _⟩ := bind_eq_ok.mp h
      exact List.forall_mem_cons.mpr ⟨⟨t, ht⟩, ih hrest⟩

/-- The value is written, by itself or as a bag of properties. -/
def Written (v : Value) : Prop :=
  (∃ levels, Writable levels v) ∨ ∃ entries key levels ts, v = .dict entries ∧ writeEntries key levels entries = .ok ts

theorem written_of_fieldText {type : ObjectType} {levels : Nat} {name t : Text} {v : Value}
    (h : fieldText type levels name v = .ok t) : Written v := by
  unfold fieldText at h
  split at h
  · exact .inl ⟨_, t, h⟩
  · exact .inl ⟨_, t, h⟩
  · split at h
    · exact .inl ⟨0, _, rfl⟩
    · exact .inl ⟨_, t, h⟩
  · split at h
    · next entries =>
      obtain ⟨ts, hts, _⟩ := bind_eq_ok.mp h
      exact .inr ⟨entries, _, _, ts, rfl, hts⟩
    · exact .inl ⟨_, t, h⟩
  · obtain ⟨_, _, h⟩ := bind_eq_ok.mp h
    exact .inl ⟨_, t, h⟩

theorem written_of_mem_fields {type : ObjectType} {levels : Nat} {fields : List (Text × Value)} {ts : List Text}
    (h : writeFields type levels fields = .ok ts) : ∀ e ∈ fields, Written e.2 := by
  cases levels with
  | zero =>
    cases fields with
    | nil => simp
    | cons e es => cases h
  | succ n =>
    intro e he
    obtain ⟨t, ht⟩ := exists_writeFields.mp ⟨ts, h⟩ e he
    exact written_of_fieldText ht

/-- What is written holds no shared object. The induction is on how it would hold one. -/
theorem Written.not_holds {v : Value} (h : Written v) (ref : Nat) : ¬ v.Holds ref := by
  intro hholds
  induction hholds with
  | shared =>
    rcases h with ⟨levels, t, h⟩ | ⟨_, _, _, _, h, _⟩
    · rw [writeValue] at h
      cases h
    · cases h
  | list hv _ ih | tuple hv _ ih | set hv _ ih =>
    rcases h with ⟨levels, t, h⟩ | ⟨_, _, _, _, h, _⟩
    · rw [writeValue] at h
      obtain ⟨ts, hts, _⟩ := bind_eq_ok.mp h
      exact ih (.inl ⟨_, (exists_writeItems.mp ⟨ts, hts⟩ _ hv).2⟩)
    · cases h
  | dict he _ ih =>
    rcases h with ⟨levels, t, h⟩ | ⟨_, _, _, ts, heq, hts⟩
    · rw [writeValue] at h
      obtain ⟨ts, hts, _⟩ := bind_eq_ok.mp h
      exact ih (.inl ⟨_, writable_of_mem_entries hts _ he⟩)
    · cases heq
      exact ih (.inl ⟨_, writable_of_mem_entries hts _ he⟩)
  | record he _ ih =>
    rcases h with ⟨levels, t, h⟩ | ⟨_, _, _, _, h, _⟩
    · rw [writeValue] at h
      obtain ⟨ts, hts, _⟩ := bind_eq_ok.mp h
      exact ih (written_of_mem_fields hts _ he)
    · cases h

end Json

theorem Codec.written_of_serialize {m : Message Value} {wire : Text} (h : Codec.serialize m = .ok wire) :
    ∀ e ∈ m.fields, Json.Written e.2 := by
  rw [serialize, serializeFields] at h
  split at h
  · cases h
  · next wire' hwire =>
    rw [wireForm, Json.writeValue] at hwire
    obtain ⟨ts, hts, _⟩ := bind_eq_ok.mp hwire
    exact Json.written_of_mem_fields hts

namespace Store

/-! ## What a value reaches -/

/-- The value is a field of an object that another one holds. -/
def Within (s : Store) (u v : Value) : Prop :=
  ∃ ref o e, v.Holds ref ∧ s.object? ref = some o ∧ e ∈ o.fields ∧ u = e.2

/-- The value holds a shared object, or an object that it holds has a field that reaches it. -/
inductive Reaches (s : Store) (ref : Ref) : Value → Prop where
  | held {v : Value} (h : v.Holds ref) : Reaches s ref v
  | further {u v : Value} (h : s.Within u v) (hr : Reaches s ref u) : Reaches s ref v

variable {s : Store} {ref : Ref} {o : Object} {v : Value}

theorem expand_text (s : Store) (depth : Nat) (t : Text) : s.expand depth (.text t) = .text t := by
  cases depth <;> rfl

theorem length_replace (s : Store) (ref : Ref) (o : Object) :
    (s.replace ref o).objects.length = s.objects.length := by
  simp [replace]

/-- What is told by fields alone, with no object left over, has finitely many objects on each way down. -/
theorem acc_of_told {depth : Nat} (h : ∀ ref, ¬ (s.expand depth v).Holds ref) : Acc s.Within v := by
  induction depth generalizing v with
  | zero =>
    constructor
    rintro u ⟨ref, o, e, hholds, -⟩
    exact absurd hholds (h ref)
  | succ n ih =>
    constructor
    rintro u ⟨ref, o, e, hholds, ho, he, rfl⟩
    apply ih
    intro other hother
    refine h other (hholds.replaceShared ?_)
    rw [ho]
    have hfields := o.fields_map (s.expand_text n)
    have hmem : (e.1, s.expand n e.2) ∈ (o.map (s.expand n)).fields := by
      rw [hfields]
      exact List.mem_map_of_mem he
    exact .record hmem hother

/-- An object that is reached again from one of its fields lies within nothing that ends. -/
theorem not_reaches_of_acc (hacc : Acc s.Within v) (ho : s.object? ref = some o) {e : Text × Value}
    (he : e ∈ o.fields) (hback : s.Reaches ref e.2) : ¬ s.Reaches ref v := by
  induction hacc with
  | intro v _ ih =>
    intro hr
    cases hr with
    | held h => exact ih e.2 ⟨ref, o, e, h, ho, he, rfl⟩ hback
    | further h hr => exact ih _ h hr

/-- A change of an object that is not reached changes nothing. -/
theorem expand_replace (h : ¬ s.Reaches ref v) (o : Object) (depth : Nat) :
    (s.replace ref o).expand depth v = s.expand depth v := by
  induction depth generalizing v with
  | zero => rfl
  | succ n ih =>
    refine Value.replaceShared_congr v fun other hother => ?_
    have hne : ref ≠ other := by
      rintro rfl
      exact h (.held hother)
    rw [object?_replace, if_neg hne]
    cases ho : s.object? other with
    | none => rfl
    | some o' =>
      have hmap : o'.map ((s.replace ref o).expand n) = o'.map (s.expand n) :=
        Object.map_congr fun e he => ih fun hr => h (.further ⟨other, o', e, hother, ho, he, rfl⟩ hr)
      dsimp only
      rw [hmap]

theorem expanded_replace (h : ¬ s.Reaches ref v) (o : Object) : (s.replace ref o).expanded v = s.expanded v := by
  rw [expanded, length_replace, expand_replace h, expanded]

/-- What is given to a message object that can be written changes nothing of what the fields that it has now are
told by. -/
theorem map_expanded_replace {m : Message Value} {wire : Text} (hm : s.object? ref = some (.message m))
    (hwire : Codec.serialize (m.map s.expanded) = .ok wire) (o : Object) :
    m.map (s.replace ref o).expanded = m.map s.expanded := by
  refine Message.map_congr fun e he => expanded_replace (fun hr => ?_) o
  have hfields : (m.map s.expanded).fields = m.fields.map fun e => (e.1, s.expanded e.2) :=
    Object.fields_map (s.expand_text _) (.message m)
  have hwritten : Json.Written (s.expanded e.2) := by
    refine Codec.written_of_serialize hwire (e.1, s.expanded e.2) ?_
    rw [hfields]
    exact List.mem_map_of_mem he
  exact not_reaches_of_acc (acc_of_told hwritten.not_holds) hm he hr hr

end Store

end MessageBus
