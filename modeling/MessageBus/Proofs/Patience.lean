import MessageBus.Proofs.Questions

/-!
# Who is impatient

A world has patience for so many sleeps, and a run without patience left ends when it begins another one. Nothing
else is impatient: no question to a value, no failure and no answer, whatever their shape (`Asked`). So of a receive
neither a round (`round_patient`) nor the lookup nor the handing over is cut short, but only its loop, in a sleep.
-/

namespace MessageBus

namespace Action

variable {σ : Type} [Service σ] {c : Connector} {queue url : Value} {timeout : Int} {start : Rat}

theorem round_patient (c : Connector) (queue url : Value) (w v : World σ) :
    (round c queue url).run w ≠ .error .impatient v := by
  intro h
  have hends := roundEnds c queue url w
  rw [h] at hends
  cases hends with
  | untold _ _ he => exact nomatch Failure.toldIn_asked (pollContext_asked _ _) _ _ he
  | malformed _ _ ha => exact nomatch handedOut_asked _ _ ha
  | lost _ _ _ _ _ _ ht => exact nomatch Failure.text_asked _ _ ht
  | handleless _ _ _ _ hh => exact nomatch Asked.item _ _ _ hh

theorem resolveQueue_patient (x : Value) (w v : World σ) : (resolveQueue x).run w ≠ .error .impatient v := by
  intro h
  have hends := resolveEnds x w
  rw [h] at hends
  cases hends with
  | wordless _ _ ht => exact nomatch Asked.inWords _ _ ht
  | queue _ _ hr =>
    cases hr with
    | malformed _ _ hu => exact nomatch Asked.item _ _ _ hu
    | untold _ _ he => exact nomatch Failure.toldIn_asked (lookupContext_asked _ _) _ _ he

omit [Service σ] in
theorem handOver_patient (queue : Value) (a : Option Value) (w v : World σ) :
    (handOver queue a).run w ≠ .error .impatient v := by
  intro h
  have hends := handOverEnds queue a w
  rw [h] at hends
  cases hends with
  | nameless hid => exact nomatch Asked.item _ _ _ hid
  | bodiless _ hbody => exact nomatch Asked.item _ _ _ hbody
  | unmade _ _ hm => exact nomatch converted_asked _ _ _ hm

end Action

end MessageBus
