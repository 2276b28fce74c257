import MessageBus.Proofs.Calls

/-!
# All that a send can do

A send to a queue or a topic stamps the message, looks the destination up, writes the message and hands it
over with one request. `HandingEnds` lists the ends of what follows the stamp, and `SendEnds` those of a whole
send, each with the world that it leaves.
-/

namespace MessageBus

namespace World

variable {σ : Type}

/-- The identifier that is handed out next. -/
def nextIdentifier (w : World σ) : Text :=
  let digits := Text.ofNat (w.serial + 1)
  let zeros : Text := List.replicate (12 - digits.length) (.char '0')
  "00000000-0000-4000-8000-" ++ zeros ++ digits

theorem nextIdentifier_congr {w v : World σ} (h : v.serial = w.serial) : v.nextIdentifier = w.nextIdentifier := by
  rw [nextIdentifier, h, nextIdentifier]

/-- The world with one more identifier handed out. -/
def numbered (w : World σ) : World σ := { w with serial := w.serial + 1 }

end World

/-- The request that hands a wire form over to a destination. -/
def Object.carriage (handle : Value) (wire : Text) : Object → Request
  | .topic _ => .publish handle wire
  | _ => .sendMessage handle wire

theorem Object.handle?_carriage (handle : Value) (wire : Text) (o : Object) :
    (o.carriage handle wire).handle? = some handle := by
  cases o <;> rfl

namespace Action

variable {σ : Type}

/-- A message as it is written for a destination that was looked up, and the world by then. A message to a
topic has its ID before it is written. -/
def addressed (o : Object) (ref : Ref) (m : Message Value) (v : World σ) : Message Value × World σ :=
  match o with
  | .topic _ =>
    if m.disableMessageId.truthy then (m, v)
    else (m.identified v.nextIdentifier, v.numbered.put ref (.message (m.identified v.nextIdentifier)))
  | _ => (m, v)

/-- A message is addressed as it is, or gets the next identifier. -/
theorem addressed_cases {o : Object} {ref : Ref} {m m' : Message Value} {v u : World σ}
    (h : addressed o ref m v = (m', u)) :
    (m' = m ∧ u = v) ∨ (m' = m.identified v.nextIdentifier ∧ u = v.numbered.put ref (.message m')) := by
  unfold addressed at h
  split at h
  · split at h
    · cases h
      exact .inl ⟨rfl, rfl⟩
    · cases h
      exact .inr ⟨rfl, rfl⟩
  · cases h
    exact .inl ⟨rfl, rfl⟩

theorem makes_addressed {o : Object} {ref : Ref} {m m' : Message Value} {v u : World σ}
    (h : addressed o ref m v = (m', u)) : Makes v [] u := by
  rcases addressed_cases h with ⟨-, rfl⟩ | ⟨-, rfl⟩
  · exact .refl u
  · exact .of_trace rfl

theorem run_identifier (w : World σ) : identifier.run w = .ok w.nextIdentifier w.numbered := rfl

/-- What a publication does to a message between the lookup and the writing. -/
theorem run_addressed {ref : Ref} {m : Message Value} {v : World σ} (t : Topic)
    (k : Ref × Message Value → Action σ Unit) (hm : v.store.object? ref = some (.message m)) :
    (if !m.disableMessageId.truthy then do
        let id ← identifier
        assignId ref (.ok id)
        message (.shared ref) >>= k
      else message (.shared ref) >>= k : Action σ Unit).run v =
      (k (ref, (addressed (.topic t) ref m v).1)).run (addressed (.topic t) ref m v).2 := by
  cases hd : m.disableMessageId.truthy with
  | true =>
    have hsame : addressed (.topic t) ref m v = (m, v) := by simp [addressed, hd]
    rw [hsame]
    exact run_bind_of_ok (run_message hm)
  | false =>
    have hnamed : addressed (.topic t) ref m v =
        (m.identified v.nextIdentifier, v.numbered.put ref (.message (m.identified v.nextIdentifier))) := by
      simp [addressed, hd]
    have hassign : (assignId ref (.ok v.nextIdentifier)).run v.numbered =
        .ok () (v.numbered.put ref (.message (m.identified v.nextIdentifier))) := run_assignId hm fun _ => rfl
    rw [hnamed]
    simp only [Bool.not_false, if_true]
    rw [run_bind_of_ok (run_identifier v), run_bind_of_ok hassign]
    exact run_bind_of_ok (run_message (Store.object?_replace_self (s := v.numbered.store) hm))

/-- A stamp is on a message, or leaves the world alone. -/
theorem stampEnds (x : Value) (w : World σ) :
    (∃ f, (stamp x).run w = .error f w) ∨
      ∃ ref m m', x = .shared ref ∧ w.store.object? ref = some (.message m) ∧
        m.stamped w.wallClock = .ok m' ∧ (stamp x).run w = .ok ref (w.put ref (.message m')) := by
  by_cases hx : ∃ ref m, x = .shared ref ∧ w.store.object? ref = some (.message m)
  · obtain ⟨ref, m, rfl, hm⟩ := hx
    have hrun := run_stamp hm
    cases hs : m.stamped w.wallClock with
    | error f =>
      rw [hs] at hrun
      exact .inl ⟨f, hrun⟩
    | ok m' =>
      rw [hs] at hrun
      exact .inr ⟨ref, m, m', rfl, hm, hs, hrun⟩
  · refine .inl ⟨.attribute, ?_⟩
    rw [stamp, run_bind_of_error (run_message_foreign fun ref m href hm => hx ⟨ref, m, href, hm⟩)]

variable [Service σ]

/-- All that handing over a stamped message to a destination can do. -/
inductive HandingEnds (d : Ref) (o : Object) (ref : Ref) (m : Message Value) (w : World σ) :
    EStateM.Result Fault (World σ) Unit → Prop where
  | unfound {f : Fault} {v : World σ} (hl : LookupEnds d o w (.error f v)) :
      HandingEnds d o ref m w (.error f v)
  | unwritten {h : Value} {v u : World σ} {m' : Message Value} {e : BusError} (hl : LookupEnds d o w (.ok h v))
      (hm : addressed o ref m v = (m', u)) (hwire : Codec.serialize (m'.map u.store.expanded) = .error e) :
      HandingEnds d o ref m w (.error (.bus e) (u.record (.log .error .codec e.message)))
  | refused {h : Value} {v u u' : World σ} {m' : Message Value} {wire : Text}
      {context : Except Fault Text} {f : Fault} (hl : LookupEnds d o w (.ok h v)) (hm : addressed o ref m v = (m', u))
      (hwire : Codec.serialize (m'.map u.store.expanded) = .ok wire)
      (hr : RequestEnds context (o.carriage h wire) u (.error f u')) (hc : TellsOf [h] context) :
      HandingEnds d o ref m w (.error f u')
  /-- The answer of a queue holds no ID. -/
  | unnumbered {q : Queue} {h answer : Value} {v : World σ} {wire : Text} {f : Fault} (hq : o = .queue q)
      (hl : LookupEnds d o w (.ok h v)) (hwire : Codec.serialize (m.map v.store.expanded) = .ok wire)
      (ho : (v.reply (.sendMessage h wire)).outcome = .ok answer) (hid : answer.item "MessageId" = .error f) :
      HandingEnds d o ref m w (.error f (v.after (.sendMessage h wire)))
  /-- The answer of a queue holds an ID that cannot be put into words. -/
  | unnamed {q : Queue} {h answer id : Value} {v : World σ} {wire : Text} {f : Fault} (hq : o = .queue q)
      (hl : LookupEnds d o w (.ok h v)) (hwire : Codec.serialize (m.map v.store.expanded) = .ok wire)
      (ho : (v.reply (.sendMessage h wire)).outcome = .ok answer) (hid : answer.item "MessageId" = .ok id)
      (hwords : id.inWords = .error f) : HandingEnds d o ref m w (.error f (v.after (.sendMessage h wire)))
  | posted {q : Queue} {h answer id : Value} {v : World σ} {wire : Text} (hq : o = .queue q)
      (hl : LookupEnds d o w (.ok h v)) (hwire : Codec.serialize (m.map v.store.expanded) = .ok wire)
      (ho : (v.reply (.sendMessage h wire)).outcome = .ok answer) (hid : answer.item "MessageId" = .ok id)
      (htakes : m.Takes id) : HandingEnds d o ref m w (.ok () (posted v h wire ref m id))
  | published {t : Topic} {h answer : Value} {v u : World σ} {m' : Message Value} {wire : Text}
      {line : Except Fault Text} (ht : o = .topic t) (hl : LookupEnds d o w (.ok h v))
      (hm : addressed o ref m v = (m', u)) (hwire : Codec.serialize (m'.map u.store.expanded) = .ok wire)
      (ho : (u.reply (.publish h wire)).outcome = .ok answer) :
      HandingEnds d o ref m w (.ok () ((u.after (.publish h wire)).note .info .connector line))

theorem handingEnds_queue {d ref : Ref} {m : Message Value} {w : World σ} (q : Queue)
    (hm : w.store.object? ref = some (.message m)) (hother : d ≠ ref) :
    HandingEnds d (.queue q) ref m w ((sendToQueue d q ref).run w) := by
  have hl := lookupEnds_queue d q w
  rw [sendToQueue, EStateM.run_bind]
  cases hurl : (urlOf d q).run w with
  | error f v =>
    rw [hurl] at hl
    exact .unfound hl
  | ok h v =>
    rw [hurl] at hl
    have hv : v.store.object? ref = some (.message m) := (hl.frame hother).trans hm
    dsimp only
    rw [run_bind_of_ok (run_message hv), EStateM.run_bind, run_serialize]
    cases hwire : Codec.serialize (m.map v.store.expanded) with
    | error e => exact .unwritten hl rfl hwire
    | ok wire =>
      dsimp only
      have hr := requestEnds (h.inWords.map fun t => "Unable to send message to queue " ++ t) (.sendMessage h wire) v
      rw [EStateM.run_bind]
      cases hrequest : (request (h.inWords.map fun t => "Unable to send message to queue " ++ t)
          (.sendMessage h wire)).run v with
      | error f u =>
        rw [hrequest] at hr
        exact .refused hl rfl hwire hr (.map h _)
      | ok answer u =>
        rw [hrequest] at hr
        cases hr with
        | answered ho =>
          dsimp only
          cases hid : answer.item "MessageId" with
          | error f => exact .unnumbered rfl hl hwire ho hid
          | ok id =>
            have hafter : (v.after (.sendMessage h wire)).store.object? ref = some (.message m) := hv
            rw [run_bind_of_ok (run_lift_ok _ _)]
            rcases m.takes_or_wordless id with htakes | ⟨hd, f, hwords⟩
            · rw [run_bind_of_ok (run_assignId hafter htakes), run_logTold]
              exact .posted rfl hl hwire ho hid htakes
            · rw [hwords, run_bind_of_error (run_assignId_error hafter hd)]
              exact .unnamed rfl hl hwire ho hid hwords

theorem handingEnds_topic {d ref : Ref} {m : Message Value} {w : World σ} (t : Topic)
    (hm : w.store.object? ref = some (.message m)) (hother : d ≠ ref) :
    HandingEnds d (.topic t) ref m w ((publish d t ref).run w) := by
  have hl := lookupEnds_topic d t w
  rw [publish, EStateM.run_bind]
  cases harn : (arnOf d t).run w with
  | error f v =>
    rw [harn] at hl
    exact .unfound hl
  | ok h v =>
    rw [harn] at hl
    have hv : v.store.object? ref = some (.message m) := (hl.frame hother).trans hm
    obtain ⟨m', u, hmu⟩ : ∃ m' u, addressed (.topic t) ref m v = (m', u) := ⟨_, _, rfl⟩
    dsimp only
    rw [run_bind_of_ok (run_message hv)]
    dsimp only
    rw [run_addressed t _ hv, hmu]
    dsimp only
    rw [EStateM.run_bind, run_serialize]
    cases hwire : Codec.serialize (m'.map u.store.expanded) with
    | error e => exact .unwritten hl hmu hwire
    | ok wire =>
      dsimp only
      have hr := requestEnds (h.inWords.map fun t => "Unable to send message to topic: " ++ t) (.publish h wire) u
      rw [EStateM.run_bind]
      cases hrequest : (request (h.inWords.map fun t => "Unable to send message to topic: " ++ t)
          (.publish h wire)).run u with
      | error f u' =>
        rw [hrequest] at hr
        exact .refused hl hmu hwire hr (.map h _)
      | ok answer u' =>
        rw [hrequest] at hr
        cases hr with
        | answered ho =>
          dsimp only
          rw [run_bind_of_ok (run_words _ _), run_logTold]
          exact .published rfl hl hmu hwire ho

/-- All that a send can do. -/
inductive SendEnds (destination x : Value) (w : World σ) : EStateM.Result Fault (World σ) Unit → Prop where
  | nowhere (hd : destination.isNull = true) :
      SendEnds destination x w (.error (.bus ⟨.invalidArgument, "Destination is null", .none⟩) w)
  /-- What is sent is no message, or has no place for the note that it gets no ID. -/
  | unstamped {f : Fault} (hd : destination.isNull = false) (hs : (stamp x).run w = .error f w) :
      SendEnds destination x w (.error f w)
  | misdirected {ref : Ref} {m m' : Message Value} {context : Text} (hd : destination.isNull = false)
      (hx : x = .shared ref) (hm : w.store.object? ref = some (.message m))
      (hs : m.stamped w.wallClock = .ok m')
      (ho : ∀ d h, destination = .shared d → w.handle? d ≠ some h) :
      SendEnds destination x w (.error (.bus ⟨.internal, context, .none⟩) (w.put ref (.message m')))
  | directed {d ref : Ref} {o : Object} {h : Value} {m m' : Message Value}
      {r : EStateM.Result Fault (World σ) Unit} (hd : destination = .shared d)
      (ho : w.store.object? d = some o) (hh : o.handle? = some h) (hx : x = .shared ref)
      (hm : w.store.object? ref = some (.message m)) (hs : m.stamped w.wallClock = .ok m')
      (hr : HandingEnds d o ref m' (w.put ref (.message m')) r) : SendEnds destination x w r

theorem sendEnds (destination x : Value) (w : World σ) :
    SendEnds destination x w ((send destination x).run w) := by
  cases hd : destination.isNull with
  | true =>
    rw [send, if_pos hd]
    exact .nowhere hd
  | false =>
    have hsome : ¬ destination.isNull = true := by simp [hd]
    rw [send, if_neg hsome]
    rcases stampEnds x w with ⟨f, hs⟩ | ⟨ref, m, m', hx, hm, hs, hrun⟩
    · rw [run_bind_of_error hs]
      exact .unstamped hd hs
    · -- a message is no destination, so the stamp leaves the destination alone
      have hmessage : (w.put ref (.message m')).store.object? ref = some (.message m') :=
        Store.object?_replace_self hm
      have hput {d : Ref} {o : Object} {h : Value} (ho : (w.put ref (.message m')).store.object? d = some o)
          (hh : o.handle? = some h) : ref ≠ d ∧ w.store.object? d = some o := by
        have hother := (Store.ne_of_handle ho hh hmessage).symm
        rw [World.store_put, Store.object?_replace_other _ hother] at ho
        exact ⟨hother, ho⟩
      rw [run_bind_of_ok hrun, run_bind_of_ok (run_find? _ _)]
      split
      · next d q ho =>
        obtain ⟨hother, hq⟩ := hput ho rfl
        exact .directed rfl hq rfl hx hm hs (handingEnds_queue q hmessage hother.symm)
      · next d t ho =>
        obtain ⟨hother, ht⟩ := hput ho rfl
        exact .directed rfl ht rfl hx hm hs (handingEnds_topic t hmessage hother.symm)
      · next hqueue htopic =>
        refine .misdirected hd hx hm hs ?_
        intro d h hdest hh
        subst hdest
        rw [← World.handle?_put_message hm m'] at hh
        rcases World.object_of_handle hh with ⟨o, ho, hhandle⟩
        cases o with
        | queue q => exact hqueue d q rfl ho
        | topic t => exact htopic d t rfl ho
        | message m => cases hhandle

end Action

end MessageBus
