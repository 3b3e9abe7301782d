import Courier.Proofs.QueueVeto

namespace Courier

open Relation (ReflTransGen)

namespace Cursor

variable {active : List SubscriberId}

theorem mem_of_seek {l : List SubscriberId} {place : Nat} {p : SubscriberId × Nat}
    (h : seek active place l = some p) : p.1 ∈ active := by
  induction l generalizing place with
  | nil => exact absurd h nofun
  | cons id l ih =>
      unfold seek at h
      split at h
      · next hid => cases h; exact hid
      · exact ih h

theorem exists_next (c : Cursor) (heard : active ≠ []) :
    ∃ id ∈ active, (c.next active).1 = some id := by
  cases active with
  | nil => exact absurd rfl heard
  | cons first others =>
      rw [next]
      split
      · next id place hseek => exact ⟨id, mem_of_seek hseek, rfl⟩
      · exact ⟨first, List.mem_cons_self, rfl⟩

end Cursor

namespace Broker

variable {r : Rules} {now : UInt64} {t : TrackerRef} {active : List SubscriberRef}
  {batch : List MessageRef} {b b' : Broker} {m : MessageRef} {s : SubscriberRef}

theorem exists_nextSubscriber (b : Broker) (t : TrackerRef) (heard : active ≠ []) :
    ∃ s ∈ active, (b.nextSubscriber t active).1 = some s := by
  have hids : b.idsOf active ≠ [] := by simpa [idsOf] using heard
  obtain ⟨id, hid, hnext⟩ := (b.tracker t).cursor.exists_next hids
  obtain ⟨s, hs, rfl⟩ := List.mem_map.1 hid
  have hfind : (b.findById active (b.subscriber s).id).isSome = true :=
    List.find?_isSome.2 ⟨s, hs, decide_eq_true rfl⟩
  obtain ⟨u, hu⟩ := Option.isSome_iff_exists.1 hfind
  have hturn : (b.nextSubscriber t active).1 = some u := by
    rw [nextSubscriber, hnext]
    exact hu
  exact ⟨u, mem_of_nextSubscriber hturn, hturn⟩

theorem nextWithRoom_of_room (b : Broker) (t : TrackerRef) (heard : active ≠ [])
    (room : ∀ s ∈ active, b.hasRoom s = true) :
    nextWithRoom t active active.length b = b.nextSubscriber t active := by
  obtain ⟨s, hs, hturn⟩ := b.exists_nextSubscriber t heard
  have hpair : b.nextSubscriber t active = (some s, (b.nextSubscriber t active).2) :=
    Prod.ext hturn rfl
  have hroom : (b.nextSubscriber t active).2.hasRoom s = true := by simpa [hasRoom] using room s hs
  cases active with
  | nil => exact absurd rfl heard
  | cons u l =>
      rw [List.length_cons, nextWithRoom, hpair]
      exact if_pos hroom

theorem length_buffer_rebuffer (b : Broker) (t v : TrackerRef) (m : MessageRef) :
    ((b.rebuffer t m).tracker v).buffer.length ≤ (b.tracker v).buffer.length + 1 := by
  rw [tracker_rebuffer]
  split <;> simp

theorem length_buffer_offer (b : Broker) (r : Rules) (now : UInt64) (t : TrackerRef)
    (s : SubscriberRef) (m : MessageRef) :
    ((b.offer r now t s m).2.tracker t).buffer.length ≤ (b.tracker t).buffer.length + 1 := by
  obtain ⟨outcome, c, hc, hh⟩ := exists_handled b r now s m t .rebuffer
  unfold offer
  rw [hc]
  cases hh with
  | purged => simp [markPurged]
  | marked => exact Nat.le_succ _
  | expired => simp [markExpired]
  | vetoed => simp
  | alreadyInFlight => exact length_buffer_rebuffer b t t m
  | dispatched => simp
  | failed =>
      dsimp only
      rw [buffer_fail]
      split <;> simp

theorem PassStep.length_buffer (h : PassStep r now t active batch b b')
    (queue : (b.tracker t).isTopic = false) :
    (b'.tracker t).buffer.length ≤ (b.tracker t).buffer.length := by
  cases h with
  | turn => exact Nat.le_of_eq (congrArg List.length (tracker_nextSubscriber b t t active).2.1)
  | offer m rest s _ front =>
      have hoffer := length_buffer_offer (b.unbuffer t m) r now t s m
      rw [buffer_unbuffer_front b t m rest front] at hoffer
      rw [front]
      exact hoffer
  | discard _ _ topic | spread _ _ topic | retire _ topic =>
      exact absurd (queue.symm.trans topic) Bool.false_ne_true

theorem length_buffer_queuePass (r : Rules) (now : UInt64) (active : List SubscriberRef)
    (l : List MessageRef) (b : Broker) (queue : (b.tracker t).isTopic = false)
    (hl : (b.tracker t).buffer = l) :
    (((queuePass r now t active r.ceiling l b).2).tracker t).buffer.length ≤ l.length := by
  have hsteps : ReflTransGen (PassStep r now t active l) b
      (queuePass r now t active r.ceiling l b).2 := queuePass_steps l l b queue hl
  generalize (queuePass r now t active r.ceiling l b).2 = c at hsteps ⊢
  suffices hall : (c.tracker t).isTopic = false ∧ (c.tracker t).buffer.length ≤ l.length from hall.2
  induction hsteps with
  | refl => exact ⟨queue, Nat.le_of_eq (congrArg List.length hl)⟩
  | @tail c d _ next ih =>
      refine ⟨?_, Nat.le_trans (next.length_buffer ih.1) ih.2⟩
      obtain rfl | ⟨n, -, ht⟩ := next.touches
      · rw [Tracker.isTopic, (tracker_nextSubscriber c t t active).1]
        exact ih.1
      · rw [Tracker.isTopic, ht.key]
        exact ih.1

/-- Nothing is in the way of a dispatch: the dispatcher accepts, the ceiling is not reached,
somebody listens and all who do have room. -/
structure Ready (r : Rules) (t : TrackerRef) (b : Broker) : Prop where
  accepting : b.dispatcher.accepting = true
  below : (b.tracker t).inFlight.value < r.ceiling
  heard : b.active t ≠ []
  room : ∀ s ∈ b.active t, b.hasRoom s = true

instance (r : Rules) (t : TrackerRef) (b : Broker) : Decidable (Ready r t b) :=
  decidable_of_iff
    (b.dispatcher.accepting = true ∧ (b.tracker t).inFlight.value < r.ceiling ∧ b.active t ≠ [] ∧
      ∀ s ∈ b.active t, b.hasRoom s = true)
    ⟨fun ⟨h₁, h₂, h₃, h₄⟩ => ⟨h₁, h₂, h₃, h₄⟩, fun h => ⟨h.accepting, h.below, h.heard, h.room⟩⟩

/-- What a flush makes of a buffer that is not empty. -/
inductive Advances (t : TrackerRef) (b b' : Broker) : Prop
  | shorter (fewer : (b'.tracker t).buffer.length < (b.tracker t).buffer.length) : Advances t b b'
  /-- The front message goes to the back, as its attempt at the subscriber in turn is on record, and
  that is all. -/
  | rotated (m : MessageRef) (rest : List MessageRef) (s : SubscriberRef)
      (front : (b.tracker t).buffer = m :: rest)
      (turn : (b.nextSubscriber t (b.active t)).1 = some s)
      (recorded : (b.message m).awaits (b.subscriber s).id = false)
      (back : (b'.tracker t).buffer = rest ++ [m]) (jobs : b'.dispatcher.jobs = b.dispatcher.jobs) :
      Advances t b b'

/-- An open dispatcher refuses nothing, so a message that is offered comes back only for a
record. -/
theorem offer_front (b : Broker) (r : Rules) (now : UInt64) (s : SubscriberRef)
    {rest : List MessageRef} (front : (b.tracker t).buffer = m :: rest)
    (accepting : b.dispatcher.accepting = true) :
    (endsPass ((b.unbuffer t m).offer r now t s m).1 = false ∧
        (((b.unbuffer t m).offer r now t s m).2.tracker t).buffer = rest) ∨
      ((b.unbuffer t m).offer r now t s m).1 = .alreadyInFlight ∧
        (b.message m).awaits (b.subscriber s).id = false ∧
        (((b.unbuffer t m).offer r now t s m).2.tracker t).buffer = rest ++ [m] ∧
        ((b.unbuffer t m).offer r now t s m).2.dispatcher.jobs = b.dispatcher.jobs := by
  have hrest := buffer_unbuffer_front b t m rest front
  have hbuffered : b.isBufferedIn t m = true := (isBufferedIn_iff b t m).2 ⟨m, by simp [front], rfl⟩
  have hmessage : (b.unbuffer t m).message m = { b.message m with buffered := false } := by
    rw [message_unbuffer, if_pos ⟨rfl, hbuffered⟩]
  have hoffer := offer_buffer (b.unbuffer t m) r now t t s m
  rw [hrest] at hoffer
  obtain ⟨outcome, c, hc, hh⟩ := exists_handled (b.unbuffer t m) r now s m t .rebuffer
  unfold offer at hoffer ⊢
  rw [hc] at hoffer ⊢
  cases hh with
  | purged | marked | expired | vetoed | dispatched => exact .inl ⟨rfl, hoffer rfl⟩
  | alreadyInFlight _ held =>
      refine .inr ⟨rfl, ?_, ?_, by simp⟩
      · rwa [hmessage, (Touches.unbuffer b t m).subscriber_id] at held
      · rw [tracker_rebuffer, if_pos ⟨rfl, by rw [hmessage]⟩, hrest]
  | failed _ _ closed =>
      have hopen : (b.unbuffer t m).dispatcher.accepting = true := by simpa using accepting
      exact absurd (hopen.symm.trans closed) Bool.false_ne_true.symm

theorem queuePass_advances {rest : List MessageRef} (queue : (b.tracker t).isTopic = false)
    (ready : Ready r t b) (front : (b.tracker t).buffer = m :: rest) :
    Advances t b (queuePass r now t (b.active t) r.ceiling (m :: rest) b).2 := by
  obtain ⟨s, -, hturn⟩ := b.exists_nextSubscriber t ready.heard
  obtain ⟨c, hc⟩ : ∃ c, b.nextSubscriber t (b.active t) = (some s, c) := ⟨_, Prod.ext hturn rfl⟩
  obtain ⟨hkey, hbuffer, -⟩ := tracker_nextSubscriber b t t (b.active t)
  obtain ⟨-, hmessage, hsubscriber, -, -, -, -, -, hdispatcher⟩ :=
    nextSubscriber_frame b t (b.active t)
  rw [hc] at hkey hbuffer hmessage hsubscriber hdispatcher
  have haccepting : c.dispatcher.accepting = true := by
    rw [hdispatcher]
    exact ready.accepting
  have hoffer := c.offer_front r now s (hbuffer.trans front) haccepting
  have htouch := (Touches.unbuffer c t m).trans (Touches.offer (c.unbuffer t m) r now t s m)
  rw [queuePass, if_neg (UInt64.not_le.2 ready.below),
    nextWithRoom_of_room b t ready.heard ready.room, hc]
  dsimp only
  generalize (c.unbuffer t m).offer r now t s m = p at hoffer htouch ⊢
  obtain ⟨outcome, d⟩ := p
  have hqueue : (d.tracker t).isTopic = false := by rwa [Tracker.isTopic, htouch.key, hkey]
  obtain ⟨hgoes, hrest⟩ | ⟨rfl, hrecorded, hback, hjobs⟩ := hoffer
  · have hlength := length_buffer_queuePass r now (b.active t) rest d hqueue hrest
    refine .shorter ?_
    rw [front]
    refine Nat.lt_succ_of_le ?_
    split
    · next he => cases he; exact hlength
    · next he =>
        cases he
        rw [if_neg (by rw [hgoes]; exact Bool.false_ne_true)]
        exact hlength
  · refine .rotated m rest s front hturn ?_ hback (hjobs.trans (by rw [hdispatcher]))
    rwa [hmessage, hsubscriber] at hrecorded

/-- With nothing in its way a flush takes a message from the buffer, or puts the front one to the
back because there is a record of it for the subscriber in turn. -/
theorem flush_advances (queue : (b.tracker t).isTopic = false) (ready : Ready r t b)
    (full : (b.tracker t).buffer ≠ []) (now : UInt64) : Advances t b (b.flush r now t).2 := by
  obtain ⟨m, rest, front⟩ := List.exists_cons_of_ne_nil full
  rw [flush_heard r now ready.heard, strategyFor_of_queue r queue, deliver, front]
  exact queuePass_advances queue ready front

theorem flush_of_empty (heard : b.active t ≠ []) (hempty : (b.tracker t).buffer = []) (r : Rules)
    (now : UInt64) : (b.flush r now t).2 = b := by
  simp [flush, hempty, heard]

end Broker

end Courier
