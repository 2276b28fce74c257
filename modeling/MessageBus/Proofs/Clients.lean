import MessageBus.Proofs.Commands
import MessageBus.Proofs.Parts

/-!
# Clients

Whatever comes of a run, it leaves a later world, with some clients built on the way (`Builds`). All that operations and
commands do, but for the building of the connector, builds none (`Clientless`, `clientless_pervades`).
-/

namespace MessageBus

/-- The client that is built, with its options. -/
def Event.client? : Event → Option (ServiceName × ClientOptions)
  | .client service options => some (service, options)
  | _ => none

variable {σ : Type}

namespace World

/-- What happened in a world since another one. -/
def since (v w : World σ) : List Entry := v.trace.drop w.trace.length

theorem since_eq {w v : World σ} {es : List Entry} (h : v.trace = w.trace ++ es) : v.since w = es := by
  rw [since, h, List.drop_left]

theorem trace_eq_since {w v : World σ} (h : w.trace <+: v.trace) : v.trace = w.trace ++ v.since w := by
  obtain ⟨es, hes⟩ := h
  rw [since_eq hes.symm, hes]

theorem since_trans {w v u : World σ} (h : w.trace <+: v.trace) (h' : v.trace <+: u.trace) :
    u.since w = v.since w ++ u.since v :=
  since_eq (by rw [trace_eq_since h', trace_eq_since h, List.append_assoc])

end World

/-- A world is later than another, and such clients were built in between. -/
structure Builds (w : World σ) (cs : List (ServiceName × ClientOptions)) (v : World σ) : Prop where
  later : w.trace <+: v.trace
  clients : (v.since w).filterMap (·.event.client?) = cs

namespace Builds

variable {w v u : World σ} {cs cs' : List (ServiceName × ClientOptions)}

theorem of_trace {es : List Entry} (h : v.trace = w.trace ++ es) :
    Builds w (es.filterMap (·.event.client?)) v :=
  ⟨⟨es, h.symm⟩, by rw [World.since_eq h]⟩

theorem of_same (h : v.trace = w.trace) : Builds w [] v := of_trace (h.trans (List.append_nil _).symm)

theorem refl (w : World σ) : Builds w [] w := of_same rfl

theorem record (w : World σ) {e : Event} (he : ∀ service options, e ≠ .client service options) :
    Builds w [] (w.record e) := by
  have hnone : e.client? = none := by
    cases e with
    | client service options => exact absurd rfl (he service options)
    | _ => rfl
  refine ⟨⟨_, (World.trace_record w e).symm⟩, ?_⟩
  rw [World.since_eq (World.trace_record w e)]
  exact List.filterMap_cons_none hnone

theorem trans (h : Builds w cs v) (h' : Builds v cs' u) : Builds w (cs ++ cs') u :=
  ⟨h.later.trans h'.later, by rw [World.since_trans h.later h'.later, List.filterMap_append, h.clients, h'.clients]⟩

end Builds

/-- Whatever comes of a part of a run, it leaves a later world and builds no client. -/
structure Clientless {ε α : Type} (x : EStateM ε (World σ) α) : Prop where
  ok : ∀ w a v, x.run w = .ok a v → Builds w [] v
  error : ∀ w e v, x.run w = .error e v → Builds w [] v

namespace Clientless

variable {ε α β : Type}

theorem pure (a : α) : Clientless (Pure.pure a : EStateM ε (World σ) α) where
  ok := by
    rintro w _ _ ⟨⟩
    exact .refl w
  error := nofun

theorem throw (e : ε) : Clientless (MonadExcept.throw e : EStateM ε (World σ) α) where
  ok := nofun
  error := by
    rintro w _ _ ⟨⟩
    exact .refl w

theorem bind {x : EStateM ε (World σ) α} {f : α → EStateM ε (World σ) β} (hx : Clientless x)
    (hf : ∀ a, Clientless (f a)) : Clientless (x >>= f) where
  ok w b u h := by
    rw [EStateM.run_bind] at h
    cases hr : x.run w with
    | ok a v =>
      rw [hr] at h
      exact (hx.ok w a v hr).trans ((hf a).ok v b u h)
    | error e v =>
      rw [hr] at h
      cases h
  error w e u h := by
    rw [EStateM.run_bind] at h
    cases hr : x.run w with
    | ok a v =>
      rw [hr] at h
      exact (hx.ok w a v hr).trans ((hf a).error v e u h)
    | error e v =>
      rw [hr] at h
      cases h
      exact hx.error w e u hr

theorem get_bind {f : World σ → EStateM ε (World σ) β} (hf : ∀ w, Clientless (f w)) : Clientless (get >>= f) where
  ok w b u h := (hf w).ok w b u h
  error w e u h := (hf w).error w e u h

/-- A part that comes to its end and adds so much to what happened. -/
theorem of_run {x : EStateM ε (World σ) α} {f : World σ → α × World σ} (hx : ∀ w, x.run w = .ok (f w).1 (f w).2)
    (hf : ∀ w, Builds w [] (f w).2) : Clientless x where
  ok w a v h := by
    cases (hx w).symm.trans h
    exact hf w
  error w e v h := by cases (hx w).symm.trans h

theorem act {x : Action σ α} (h : Clientless x) : Clientless (Command.act x) where
  ok w a v hr := by
    rw [Command.run_act] at hr
    cases hx : x.run w with
    | ok b u =>
      rw [hx] at hr
      cases hr
      exact h.ok w a v hx
    | error f u =>
      rw [hx] at hr
      cases hr
  error w abort v hr := by
    rw [Command.run_act] at hr
    cases hx : x.run w with
    | ok b u =>
      rw [hx] at hr
      cases hr
    | error f u =>
      rw [hx] at hr
      cases hr
      exact h.error w f v hx

end Clientless

theorem clientless_pervades [Service σ] : Pervasive (σ := σ) fun _ _ x => Clientless x where
  returns := .pure
  throws := .throw
  andThen := .bind
  looks _ hf := .get_bind hf
  changes _ hx hf := .of_run hx fun w => .of_same (hf w w.trace).2
  records _ h := .of_run (f := fun w => ((), w.record _)) (fun _ => rfl) fun w => .record w h
  performs q := .of_run (f := fun w => ((w.reply q).outcome, w.after q)) (fun _ => rfl) fun w =>
    .of_trace (World.trace_after w q)
  acts := .act

end MessageBus
