import MessageBus.Proofs.Receiving

/-!
# Questions

What a question to a value of unknown shape ends in: an answer, or a fault that says no more than that the value has
another shape (`Asked`). So end the questions to a failure, to a record and to an answer, whatever their shape; none
of them ends in an error of the bus or for lack of patience.
-/

namespace MessageBus

/-- The faults of questions: a value does not have a field, or no fields or items at all, or it cannot be put into
words. -/
inductive Fault.OfShape : Fault → Prop where
  | missingKey (key : Value) : OfShape (.missingKey key)
  | attribute : OfShape .attribute
  | type : OfShape .type
  | outOfRange (message : Text) : OfShape (.outOfRange message)
  | tooNested : OfShape .tooNested

theorem Fault.Wordless.ofShape {f : Fault} (h : f.Wordless) : f.OfShape := by
  rcases h with rfl | rfl
  · exact .tooNested
  · exact .outOfRange _

/-- A question that ends in no fault but one of shape. -/
def Asked {α : Type} (x : Except Fault α) : Prop := ∀ f, x = .error f → f.OfShape

namespace Asked

variable {α β : Type}

theorem ok (a : α) : Asked (.ok a) := nofun

theorem error {f : Fault} (h : f.OfShape) : Asked (.error f : Except Fault α) := by
  rintro _ ⟨⟩
  exact h

theorem bind {x : Except Fault α} {f : α → Except Fault β} (hx : Asked x) (hf : ∀ a, Asked (f a)) :
    Asked (x >>= f) := by
  cases x with
  | ok a => exact hf a
  | error g => exact error (hx g rfl)

theorem map {x : Except Fault α} (hx : Asked x) (f : α → β) : Asked (x.map f) := by
  cases x with
  | ok a => exact ok _
  | error g => exact error (hx g rfl)

theorem ite {p : Prop} [Decidable p] {x y : Except Fault α} (hx : Asked x) (hy : Asked y) :
    Asked (if p then x else y) := by
  split
  · exact hx
  · exact hy

theorem get (v : Value) (key : Text) (fallback : Value) : Asked (v.get key fallback) := by
  cases v with
  | dict entries => exact ok _
  | _ => exact error .attribute

theorem item (v : Value) (key : Text) : Asked (v.item key) := by
  unfold Value.item
  split
  · split
    · exact ok _
    · exact error (.missingKey _)
  · exact error .type

theorem inWords (v : Value) : Asked v.inWords := fun _ h => (Value.wordless_of_inWords h).ofShape

theorem tellsOf {values : List Value} {t : Except Fault Text} (h : TellsOf values t) : Asked t :=
  fun _ hf => (h.wordless hf).ofShape

theorem contains (v : Value) (key : Text) : Asked (v.contains key) := by
  cases v <;> first | exact ok _ | exact error .type

theorem items (v : Value) : Asked v.items := by
  cases v <;> first | exact ok _ | exact error .type

theorem first? (v : Value) : Asked v.first? := by
  unfold Value.first?
  refine ite ?_ (ok none)
  split
  · exact ok _
  · exact ok _
  · exact ok _
  · exact ok _
  · split
    · exact ok _
    · exact error (.missingKey _)
  · exact error .type

end Asked

namespace Failure

theorem retries_asked (response : Value) : Asked (retries response) := by
  refine .bind (.contains _ _) fun found => .ite ?_ (.ok [])
  refine .bind (.item _ _) fun metadata => .bind (.get _ _ _) fun reached => ?_
  split
  · exact .ite (.bind (.inWords _) fun _ => .ok _) (.ok _)
  · exact .ok _

theorem text_asked (f : Failure) : Asked f.text := by
  cases f with
  | refused response operation =>
    exact .bind (retries_asked _) fun _ => .bind (.get _ _ _) fun _ => .bind (.get _ _ _) fun _ =>
      .bind (.get _ _ _) fun _ => .bind (.inWords _) fun _ => .bind (.inWords _) fun _ => .ok _
  | unanswered words => exact .ok _
  | unmade missing => exact .error (.missingKey _)

theorem codeOf_asked (error : Value) : Asked (codeOf error) := .bind (.get _ _ _) fun _ => .ok _

theorem codesOf_asked (errors : List Value) : Asked (codesOf errors) := by
  induction errors with
  | nil => exact .ok _
  | cons error errors ih => exact .bind (codeOf_asked error) fun _ => .bind ih fun _ => .ok _

theorem codes_asked (f : Failure) : Asked f.codes := by
  cases f with
  | refused response operation =>
    refine .bind (.get _ _ _) fun _ => .bind (codeOf_asked _) fun _ => .bind (.get _ _ _) fun listed => ?_
    exact .ite (.bind (.items _) fun _ => .bind (codesOf_asked _) fun _ => .ok _) (.bind (.ok _) fun _ => .ok _)
  | _ => exact .ok _

theorem anySecurity_asked (codes : List Value) : Asked (anySecurity codes) := by
  fun_induction anySecurity codes with
  | case1 => exact .ok _
  | case2 => exact .ok _
  | case3 _ _ _ ih => exact ih
  | case4 _ _ ih => exact ih
  | case5 _ _ _ _ _ ih => exact ih
  | case6 => exact .error .type

theorem classify_asked (context : Text) (f : Failure) : Asked (f.classify context) :=
  .bind (text_asked f) fun _ => .bind (.bind (codes_asked f) anySecurity_asked) fun _ => .ok _

theorem toldIn_asked {context : Except Fault Text} (h : Asked context) (f : Failure) : Asked (f.toldIn context) :=
  .bind (text_asked f) fun _ => .bind h fun _ => classify_asked _ f

end Failure

theorem Message.property_asked {δ : Type} (m : Message δ) (key : Text) (fallback : Value) :
    Asked (m.property key fallback) := by
  unfold Message.property
  split
  · exact .ok _
  · exact .error .attribute

theorem Message.isIdDisabled_asked {δ : Type} (m : Message δ) : Asked m.isIdDisabled :=
  .map (m.property_asked _ _) _

theorem Message.withProperty_asked {δ : Type} (m : Message δ) (key : Text) (v : Value) :
    Asked (m.withProperty key v) := by
  unfold Message.withProperty
  split
  · exact .ok _
  · exact .error .type

theorem converted_asked (record queue : Value) : Asked (converted record queue) := by
  refine .bind (.item _ _) fun body => .bind (Message.isIdDisabled_asked _) fun disabled => ?_
  have hmarked (m : Message (Option Destination)) : Asked (record.item "ReceiptHandle" >>= fun handle =>
      m.withProperty receiptKey handle >>= fun m => .ok (m.mapDestination fun _ => queue)) :=
    .bind (.item _ _) fun _ => .bind (Message.withProperty_asked _ _ _) fun _ => .ok _
  exact .ite (.bind (.ok _) hmarked)
    (.bind (.item _ _) fun _ => .bind (.inWords _) fun _ => .bind (.ok _) hmarked)

theorem Action.pollContext_asked {σ : Type} (w : World σ) (queue : Value) : Asked (pollContext w queue) :=
  .map (.inWords _) _

theorem Action.lookupContext_asked {σ : Type} [Service σ] (w : World σ) (q : Queue) : Asked (lookupContext w q) :=
  .map (.inWords _) _

theorem Action.handedOut_asked (answer : Value) : Asked (handedOut answer) :=
  .bind (.get _ _ _) fun records => .bind (.first? records) fun _ => .ok _

end MessageBus
