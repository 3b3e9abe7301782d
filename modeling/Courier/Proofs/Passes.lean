import Courier.Proofs.Handling
import Mathlib.Data.List.Nodup
import Mathlib.Logic.Relation
import Mathlib.Data.List.Perm.Subperm

namespace Courier.Broker

open Relation (ReflTransGen)

variable (r : Rules) (now : UInt64) (t : TrackerRef) (active : List SubscriberRef)
  (batch : List MessageRef)

def copyPolicy : TopicStrategy → FailurePolicy
  | .discardAllowed => .discard
  | .discardNone | .slowestSubRate => .retry

theorem copyPolicy_ne_rebuffer (topics : TopicStrategy) : copyPolicy topics ≠ .rebuffer := by
  cases topics <;> simp [copyPolicy]

def spread (m : MessageRef) (policy : FailurePolicy) (s : SubscriberRef) (b : Broker) :
    Bool × Broker :=
  match b.handle r now s m t policy with
  | (.purged, b) => (false, b.unbuffer t m)
  | (.expired, b) => (false, b.unbuffer t m)
  | (.vetoed, b) => (true, b.setStatus m (b.subscriber s).id .discarded)
  | (_, b) => (true, b)

theorem broadcast_cons (m : MessageRef) (policy : FailurePolicy) (s : SubscriberRef)
    (rest : List SubscriberRef) (b : Broker) :
    broadcast r now t m policy (s :: rest) b =
      if (spread r now t m policy s b).1 then
        broadcast r now t m policy rest (spread r now t m policy s b).2
      else (false, (spread r now t m policy s b).2) := by
  obtain ⟨outcome, c, hc⟩ : ∃ o c, b.handle r now s m t policy = (o, c) := ⟨_, _, rfl⟩
  cases outcome <;> simp [broadcast, spread, hc]

/-- A step of a pass over the buffer of one tracker, which held `batch` when the pass began. -/
inductive PassStep : Broker → Broker → Prop
  | turn (b : Broker) : PassStep b (b.nextSubscriber t active).2
  | offer (b : Broker) (m : MessageRef) (rest : List MessageRef) (s : SubscriberRef)
      (queue : (b.tracker t).isTopic = false) (front : (b.tracker t).buffer = m :: rest)
      (below : (b.tracker t).inFlight.value < r.ceiling) (hs : s ∈ active)
      (room : b.hasRoom s = true) : PassStep b ((b.unbuffer t m).offer r now t s m).2
  | discard (b : Broker) (m : MessageRef) (s : SubscriberRef)
      (topic : (b.tracker t).isTopic = true) (allowed : r.topics = .discardAllowed)
      (hm : m ∈ batch) (buffered : b.isBufferedIn t m = true) (hs : s ∈ active)
      (lacks : (b.message m).awaits (b.subscriber s).id = true) (full : b.hasRoom s = false) :
      PassStep b (b.setStatus m (b.subscriber s).id .discarded)
  | spread (b : Broker) (m : MessageRef) (s : SubscriberRef)
      (topic : (b.tracker t).isTopic = true) (hm : m ∈ batch)
      (buffered : b.isBufferedIn t m = true) (hs : s ∈ active)
      (lacks : (b.message m).awaits (b.subscriber s).id = true) (room : b.hasRoom s = true) :
      PassStep b (spread r now t m (copyPolicy r.topics) s b).2
  | retire (b : Broker) (m : MessageRef) (topic : (b.tracker t).isTopic = true) (hm : m ∈ batch)
      (buffered : b.isBufferedIn t m = true)
      (handedOff : (b.message m).isHandedOffTo (b.idsOf active) = true) :
      PassStep b ((b.unbuffer t m).settleIfComplete m)

variable {r now t active batch} {b b' : Broker} {m : MessageRef} {s : SubscriberRef}
  {policy : FailurePolicy} {outcome : FilterOutcome}

theorem Handled.touches (h : Handled r now s m t policy b outcome b') : Touches m b b' := by
  cases h with
  | purged => exact (Touches.markPurged b m).trans (Touches.settle _ m)
  | marked | vetoed | alreadyInFlight => exact .refl m b
  | expired => exact (Touches.markExpired b m).trans (Touches.addExpired _ m)
  | dispatched =>
      refine (Touches.claim b s m t policy).trans ?_
      simpa using Touches.addJob (b.claim s m t policy) ⟨s, m, t, policy⟩
  | failed => exact (Touches.claim b s m t policy).trans (Touches.fail _ ⟨s, m, t, policy⟩)

theorem Touches.offer (b : Broker) (r : Rules) (now : UInt64) (t : TrackerRef) (s : SubscriberRef)
    (m : MessageRef) : Touches m b (b.offer r now t s m).2 := by
  obtain ⟨outcome, c, hc, hh⟩ := exists_handled b r now s m t .rebuffer
  unfold Broker.offer
  rw [hc]
  cases outcome with
  | vetoed => exact hh.touches.trans (Touches.settle c m)
  | alreadyInFlight => exact hh.touches.trans (Touches.rebuffer c t m)
  | purged | expired | dispatched | failed => exact hh.touches

theorem Touches.spread (b : Broker) (r : Rules) (now : UInt64) (t : TrackerRef) (m : MessageRef)
    (policy : FailurePolicy) (s : SubscriberRef) :
    Touches m b (spread r now t m policy s b).2 := by
  obtain ⟨outcome, c, hc, hh⟩ := exists_handled b r now s m t policy
  unfold Broker.spread
  rw [hc]
  cases outcome with
  | purged | expired => exact hh.touches.trans (Touches.unbuffer c t m)
  | vetoed => exact hh.touches.trans (Touches.setStatus c m _ _)
  | alreadyInFlight | dispatched | failed => exact hh.touches

theorem PassStep.touches (h : PassStep r now t active batch b b') :
    (b' = (b.nextSubscriber t active).2) ∨
      ∃ m, (m ∈ batch ∨ m ∈ (b.tracker t).buffer) ∧ Touches m b b' := by
  cases h with
  | turn => exact .inl rfl
  | offer m rest s queue front =>
      exact .inr ⟨m, .inr (by simp [front]), (Touches.unbuffer b t m).trans (Touches.offer _ r now t s m)⟩
  | discard m s topic allowed hm => exact .inr ⟨m, .inl hm, Touches.setStatus b m _ _⟩
  | spread m s topic hm => exact .inr ⟨m, .inl hm, Touches.spread b r now t m _ s⟩
  | retire m topic hm =>
      exact .inr ⟨m, .inl hm, (Touches.unbuffer b t m).trans (Touches.settleIfComplete _ m)⟩

theorem PassStep.tracked (h : PassStep r now t active batch b b') : b'.tracked = b.tracked := by
  obtain rfl | ⟨m, -, ht⟩ := h.touches
  · simp
  · exact ht.tracked

theorem Handled.jobs_eq (h : Handled r now s m t policy b outcome b') :
    b'.dispatcher.jobs = b.dispatcher.jobs ∨
      b'.dispatcher.jobs = b.dispatcher.jobs ++ [⟨s, m, t, policy⟩] := by
  cases h with
  | dispatched => simp
  | purged => simp [Broker.markPurged]
  | expired => simp [Broker.markExpired]
  | marked | vetoed | alreadyInFlight | failed => simp

def passPolicy (r : Rules) (t : Tracker) : FailurePolicy :=
  if t.isTopic then copyPolicy r.topics else .rebuffer

theorem PassStep.jobs_eq (h : PassStep r now t active batch b b') :
    b'.dispatcher.jobs = b.dispatcher.jobs ∨
      ∃ s ∈ active, ∃ m, (m ∈ batch ∨ m ∈ (b.tracker t).buffer) ∧
        b'.dispatcher.jobs = b.dispatcher.jobs ++ [⟨s, m, t, passPolicy r (b.tracker t)⟩] := by
  cases h with
  | turn | retire => simp
  | discard => simp [setStatus]
  | offer m rest s queue front below hs =>
      obtain ⟨outcome, c, hc, hh⟩ := exists_handled (b.unbuffer t m) r now s m t .rebuffer
      have hj : ((b.unbuffer t m).offer r now t s m).2.dispatcher.jobs = c.dispatcher.jobs := by
        unfold Broker.offer
        rw [hc]
        cases outcome <;> simp
      rw [hj]
      obtain h | h := hh.jobs_eq
      · exact .inl (by simp [h])
      · exact .inr ⟨s, hs, m, .inr (by simp [front]), by simp [h, passPolicy, queue]⟩
  | spread m s topic hm buffered hs =>
      obtain ⟨outcome, c, hc, hh⟩ := exists_handled b r now s m t (copyPolicy r.topics)
      have hj : (Broker.spread r now t m (copyPolicy r.topics) s b).2.dispatcher.jobs =
          c.dispatcher.jobs := by
        unfold Broker.spread
        rw [hc]
        cases outcome <;> simp [setStatus]
      rw [hj]
      obtain h | h := hh.jobs_eq
      · exact .inl h
      · exact .inr ⟨s, hs, m, .inl hm, by simp [h, passPolicy, topic]⟩

theorem mem_of_nextSubscriber (h : (b.nextSubscriber t active).1 = some s) : s ∈ active := by
  simp only [nextSubscriber, Option.bind_eq_some_iff, findById] at h
  obtain ⟨id, -, hs⟩ := h
  exact List.mem_of_find?_eq_some hs

theorem nextWithRoom_steps (r : Rules) (now : UInt64) (t : TrackerRef)
    (active : List SubscriberRef) (batch : List MessageRef) (n : Nat) (b : Broker) :
    ReflTransGen (PassStep r now t active batch) b (nextWithRoom t active n b).2 := by
  induction n generalizing b with
  | zero => exact .refl
  | succ n ih =>
      have h : PassStep r now t active batch b (b.nextSubscriber t active).2 := .turn b
      unfold nextWithRoom
      split
      · next s c hc =>
          rw [hc] at h
          split
          · exact .single h
          · exact .head h (ih c)
      · next c hc => rw [hc] at h; exact .head h (ih c)

theorem mem_of_nextWithRoom (n : Nat) (b : Broker) (h : (nextWithRoom t active n b).1 = some s) :
    s ∈ active ∧ (nextWithRoom t active n b).2.hasRoom s = true := by
  induction n generalizing b with
  | zero => simp [nextWithRoom] at h
  | succ n ih =>
      unfold nextWithRoom at h ⊢
      split at h
      · next u c hc =>
          split at h
          · next hr =>
              obtain rfl : u = s := by simpa using h
              exact ⟨mem_of_nextSubscriber (by rw [hc]), by simp [hr]⟩
          · next hr => simpa [hr] using ih c h
      · next c hc => simpa using ih c h

theorem tracker_nextWithRoom (t : TrackerRef) (active : List SubscriberRef) (n : Nat) (b : Broker)
    (v : TrackerRef) :
    ((nextWithRoom t active n b).2.tracker v).key = (b.tracker v).key ∧
      ((nextWithRoom t active n b).2.tracker v).buffer = (b.tracker v).buffer ∧
      ((nextWithRoom t active n b).2.tracker v).inFlight = (b.tracker v).inFlight := by
  induction n generalizing b with
  | zero => exact ⟨rfl, rfl, rfl⟩
  | succ n ih =>
      obtain ⟨hk, hb, hi⟩ := tracker_nextSubscriber b t v active
      unfold nextWithRoom
      split
      · next u c hc =>
          rw [hc] at hk hb hi
          split
          · exact ⟨hk, hb, hi⟩
          · exact ⟨(ih c).1.trans hk, (ih c).2.1.trans hb, (ih c).2.2.trans hi⟩
      · next c hc =>
          rw [hc] at hk hb hi
          exact ⟨(ih c).1.trans hk, (ih c).2.1.trans hb, (ih c).2.2.trans hi⟩

theorem offer_buffer (b : Broker) (r : Rules) (now : UInt64) (t v : TrackerRef) (s : SubscriberRef)
    (m : MessageRef) (h : endsPass (b.offer r now t s m).1 = false) :
    ((b.offer r now t s m).2.tracker v).buffer = (b.tracker v).buffer := by
  obtain ⟨outcome, c, hc, hh⟩ := exists_handled b r now s m t .rebuffer
  unfold Broker.offer at h ⊢
  rw [hc] at h ⊢
  cases hh with
  | purged => simp [markPurged]
  | marked => rfl
  | expired => simp [markExpired]
  | vetoed => simp
  | alreadyInFlight => simp [endsPass] at h
  | dispatched => simp
  | failed => simp [endsPass] at h

theorem Handled.buffer_of_ne (h : Handled r now s m t policy b outcome b') {v : TrackerRef}
    (hv : v ≠ t) : (b'.tracker v).buffer = (b.tracker v).buffer := by
  cases h with
  | purged => simp [Broker.markPurged]
  | expired => simp [Broker.markExpired]
  | marked | vetoed | alreadyInFlight => rfl
  | dispatched => simp
  | failed => simp [buffer_fail, hv]

theorem offer_buffer_of_ne (b : Broker) (r : Rules) (now : UInt64) (s : SubscriberRef)
    (m : MessageRef) {v : TrackerRef} (hv : v ≠ t) :
    (((b.unbuffer t m).offer r now t s m).2.tracker v).buffer = (b.tracker v).buffer := by
  obtain ⟨outcome, c, hc, hh⟩ := exists_handled (b.unbuffer t m) r now s m t .rebuffer
  have hbuf := hh.buffer_of_ne hv
  rw [tracker_unbuffer, if_neg hv] at hbuf
  unfold Broker.offer
  rw [hc, ← hbuf]
  cases outcome with
  | vetoed => simp
  | alreadyInFlight => simp [tracker_rebuffer, hv]
  | purged | expired | dispatched | failed => rfl

theorem PassStep.buffer_of_ne (h : PassStep r now t active batch b b') {v : TrackerRef}
    (hv : v ≠ t) : (b'.tracker v).buffer = (b.tracker v).buffer := by
  cases h with
  | turn => exact (tracker_nextSubscriber b t v active).2.1
  | offer m rest s => exact offer_buffer_of_ne b r now s m hv
  | discard => rfl
  | retire m => simp [tracker_unbuffer, hv]
  | spread m s =>
      obtain ⟨outcome, c, hc, hh⟩ := exists_handled b r now s m t (copyPolicy r.topics)
      have hbuffer := hh.buffer_of_ne hv
      unfold Broker.spread
      rw [hc]
      cases outcome with
      | purged | expired => simp [tracker_unbuffer, hv, hbuffer]
      | vetoed | alreadyInFlight | dispatched | failed => exact hbuffer

theorem buffer_unbuffer_front (b : Broker) (t : TrackerRef) (m : MessageRef) (rest : List MessageRef)
    (h : (b.tracker t).buffer = m :: rest) : ((b.unbuffer t m).tracker t).buffer = rest := by
  simp [tracker_unbuffer, h, sameId]

theorem queuePass_steps (batch l : List MessageRef) (b : Broker)
    (hq : (b.tracker t).isTopic = false) (hl : (b.tracker t).buffer = l) :
    ReflTransGen (PassStep r now t active batch) b (queuePass r now t active r.ceiling l b).2 := by
  induction l generalizing b with
  | nil => exact .refl
  | cons m rest ih =>
      unfold queuePass
      split
      · exact .refl
      · next hb =>
          have hsteps := nextWithRoom_steps r now t active batch active.length b
          obtain ⟨hk, hbuf, hi⟩ := tracker_nextWithRoom t active active.length b t
          split
          · next c hc => rw [hc] at hsteps; exact hsteps
          · next s c hc =>
              obtain ⟨hs, hroom⟩ := mem_of_nextWithRoom active.length b (by rw [hc])
              rw [hc] at hsteps hk hbuf hi hroom
              have hqc : (c.tracker t).isTopic = false := by rwa [Tracker.isTopic, hk]
              have hfront : (c.tracker t).buffer = m :: rest := hbuf.trans hl
              have hstep : PassStep r now t active batch c ((c.unbuffer t m).offer r now t s m).2 :=
                .offer c m rest s hqc hfront (by simpa [hi] using hb) hs hroom
              have hrest := offer_buffer (c.unbuffer t m) r now t t s m
              rw [buffer_unbuffer_front c t m rest hfront] at hrest
              have hkey := ((Touches.unbuffer c t m).trans (Touches.offer _ r now t s m)).key t
              split
              · next d hd =>
                  rw [hd] at hstep hrest hkey
                  exact (hsteps.tail hstep).trans
                    (ih d (by rwa [Tracker.isTopic, hkey]) (hrest rfl))
              · next o d _ hd =>
                  rw [hd] at hstep hrest hkey
                  split
                  · exact hsteps.tail hstep
                  · next he =>
                      exact (hsteps.tail hstep).trans
                        (ih d (by rwa [Tracker.isTopic, hkey]) (hrest (by simpa using he)))

def bufferedIds (b : Broker) (t : TrackerRef) : List UInt64 :=
  (b.tracker t).buffer.map fun m => (b.message m).id

theorem isBufferedIn_iff_mem (b : Broker) (t : TrackerRef) (m : MessageRef) :
    b.isBufferedIn t m = true ↔ (b.message m).id ∈ b.bufferedIds t := by
  simp [isBufferedIn_iff, bufferedIds]

theorem Touches.bufferedIds_eq {c : Broker} (h : Touches m b c)
    (hb : (c.tracker t).buffer = (b.tracker t).buffer) : c.bufferedIds t = b.bufferedIds t := by
  simp [bufferedIds, hb, h.id]

theorem bufferedIds_unbuffer (b : Broker) (t : TrackerRef) (m : MessageRef) :
    (b.unbuffer t m).bufferedIds t = (b.bufferedIds t).erase (b.message m).id := by
  simp only [bufferedIds, (Touches.unbuffer b t m).id, tracker_unbuffer, if_true]
  rw [List.erase_eq_eraseP', List.eraseP_map]
  congr 2

theorem Handled.buffer_sublist (h : Handled r now s m t policy b outcome b') (v : TrackerRef) :
    (b.tracker v).buffer.Sublist (b'.tracker v).buffer := by
  cases h with
  | purged => simp [markPurged]
  | marked | vetoed | alreadyInFlight => exact .refl _
  | expired => simp [markExpired]
  | dispatched => simp
  | failed =>
      rw [buffer_fail]
      split <;> simp

theorem Handled.status? (h : Handled r now s m t policy b outcome b') {id : SubscriberId}
    (hid : id ≠ (b.subscriber s).id) : (b'.message m).status? id = (b.message m).status? id := by
  cases h with
  | purged => simp [Message.status?, markPurged, message_modifyMessage]
  | marked | vetoed | alreadyInFlight => rfl
  | expired => simp [Message.status?, markExpired, message_modifyMessage]
  | dispatched => simp [message_claim, Message.status?, Message.setStatus, Dict.get?_insert, hid]
  | failed =>
      have hc := status?_fail (b.claim s m t policy) ⟨s, m, t, policy⟩ id
      have hs : ((b.claim s m t policy).subscriber s).id = (b.subscriber s).id :=
        (Touches.claim b s m t policy).subscriber_id s
      simp only [hs, hid, if_false] at hc
      rw [hc]
      simp [message_claim, Message.status?, Message.setStatus, Dict.get?_insert, hid]

theorem Handled.subscriber (h : Handled r now s m t policy b outcome b') {u : SubscriberRef}
    (hu : u ≠ s) : b'.subscriber u = b.subscriber u := by
  cases h with
  | purged => simp [markPurged]
  | marked | vetoed | alreadyInFlight => rfl
  | expired => simp [markExpired]
  | dispatched => simp [subscriber_claim, hu]
  | failed => simp [subscriber_fail, subscriber_claim, hu]

theorem bufferedIds_spread (b : Broker) (h : (spread r now t m policy s b).1 = false) :
    (spread r now t m policy s b).2.bufferedIds t = (b.bufferedIds t).erase (b.message m).id := by
  obtain ⟨outcome, c, hc, hh⟩ := exists_handled b r now s m t policy
  have hi := hh.touches
  simp only [spread, hc] at h ⊢
  cases hh with
  | purged =>
      rw [bufferedIds_unbuffer, hi.id, hi.bufferedIds_eq (by simp [markPurged])]
  | marked => exact bufferedIds_unbuffer b t m
  | expired =>
      rw [bufferedIds_unbuffer, hi.id, hi.bufferedIds_eq (by simp [markExpired])]
  | vetoed | alreadyInFlight | dispatched | failed => simp at h

structure Continues (b : Broker) (m : MessageRef) (s : SubscriberRef) (t : TrackerRef)
    (c : Broker) : Prop where
  status? : ∀ id, id ≠ (b.subscriber s).id → (c.message m).status? id = (b.message m).status? id
  subscriber : ∀ u, u ≠ s → c.subscriber u = b.subscriber u
  ids : (b.bufferedIds t).Sublist (c.bufferedIds t)

theorem continues_spread (b : Broker) (h : (spread r now t m policy s b).1 = true) :
    Continues b m s t (spread r now t m policy s b).2 := by
  obtain ⟨outcome, c, hc, hh⟩ := exists_handled b r now s m t policy
  have hids : (b.bufferedIds t).Sublist (c.bufferedIds t) := by
    simpa [bufferedIds, hh.touches.id] using (hh.buffer_sublist t).map fun m => (b.message m).id
  have hsub := hh.touches.subscriber_id s
  simp only [spread, hc] at h ⊢
  cases outcome with
  | purged | expired => simp at h
  | vetoed =>
      refine ⟨fun id hid => ?_, fun u hu => by simpa [setStatus] using hh.subscriber hu, ?_⟩
      · rw [← hh.status? hid]
        simp [setStatus, message_modifyMessage, Message.status?, Message.setStatus,
          Dict.get?_insert, hsub, hid]
      · rwa [(Touches.setStatus c m _ _).bufferedIds_eq (by simp [setStatus])]
  | alreadyInFlight | dispatched | failed =>
      exact ⟨fun id hid => hh.status? hid, fun u hu => hh.subscriber hu, hids⟩

/-- All that a pass does with one message keeps the other messages of the batch within reach: at
most one buffered message of its id is lost. -/
structure Passed (m : MessageRef) (t : TrackerRef) (b c : Broker) : Prop where
  touches : Touches m b c
  ids : ((b.bufferedIds t).erase (b.message m).id).Sublist (c.bufferedIds t)

theorem Passed.of_sublist (h : Touches m b b')
    (hs : (b.bufferedIds t).Sublist (b'.bufferedIds t)) : Passed m t b b' :=
  ⟨h, List.erase_sublist.trans hs⟩

theorem awaits_congr {x y : Message} {id : SubscriberId} (h : x.status? id = y.status? id) :
    x.awaits id = y.awaits id := by
  simp [Message.awaits, h]

theorem broadcast_steps (r : Rules) (now : UInt64) (l : List SubscriberRef) (b : Broker)
    (topic : (b.tracker t).isTopic = true) (hm : m ∈ batch) (buffered : b.isBufferedIn t m = true)
    (hl : ∀ s ∈ l, s ∈ active ∧ (b.message m).awaits (b.subscriber s).id = true ∧
      b.hasRoom s = true)
    (hn : (b.idsOf l).Nodup) :
    ReflTransGen (PassStep r now t active batch) b
        (broadcast r now t m (copyPolicy r.topics) l b).2 ∧
      Passed m t b (broadcast r now t m (copyPolicy r.topics) l b).2 ∧
      ((broadcast r now t m (copyPolicy r.topics) l b).1 = true →
        (b.bufferedIds t).Sublist
          ((broadcast r now t m (copyPolicy r.topics) l b).2.bufferedIds t)) := by
  induction l generalizing b with
  | nil => exact ⟨.refl, .of_sublist (.refl m b) (.refl _), fun _ => .refl _⟩
  | cons s l ih =>
      obtain ⟨hs, hw, hroom⟩ := hl s (by simp)
      have hstep : PassStep r now t active batch b (spread r now t m (copyPolicy r.topics) s b).2 :=
        .spread b m s topic hm buffered hs hw hroom
      have ht := Touches.spread b r now t m (copyPolicy r.topics) s
      rw [broadcast_cons]
      cases hp : (spread r now t m (copyPolicy r.topics) s b).1 with
      | false =>
          have hids := bufferedIds_spread b hp
          simp only [Bool.false_eq_true, if_false]
          exact ⟨.single hstep, ⟨ht, by rw [hids]⟩, by simp⟩
      | true =>
          have hc := continues_spread b hp
          simp only [if_true]
          generalize (spread r now t m (copyPolicy r.topics) s b).2 = c at hstep ht hc
          rw [idsOf, List.map_cons, List.nodup_cons] at hn
          have hother : ∀ u ∈ l, (b.subscriber u).id ≠ (b.subscriber s).id := fun u hu he =>
            hn.1 (he ▸ List.mem_map_of_mem hu)
          obtain ⟨hsteps, hpassed, hids⟩ := ih c (by rwa [Tracker.isTopic, ht.key])
            (by
              rw [isBufferedIn_iff_mem, ht.id]
              exact hc.ids.subset ((isBufferedIn_iff_mem _ _ _).1 buffered))
            (fun u hu => by
              obtain ⟨ha, hw, hr⟩ := hl u (by simp [hu])
              have hu' := hc.subscriber u fun he => hother u hu (he ▸ rfl)
              refine ⟨ha, ?_, by rwa [hasRoom, hu']⟩
              rw [hu', awaits_congr (hc.status? _ (hother u hu)), hw])
            (by
              have he : c.idsOf l = b.idsOf l := by simp [idsOf, ht.subscriber_id]
              rw [he]; exact hn.2)
          refine ⟨.head hstep hsteps, ⟨ht.trans hpassed.touches, ?_⟩, fun h => hc.ids.trans (hids h)⟩
          exact (hc.ids.erase _).trans (by simpa [ht.id] using hpassed.ids)

theorem retire_steps (r : Rules) (now : UInt64) (active : List SubscriberRef) (c : Broker)
    (topic : (c.tracker t).isTopic = true) (hm : m ∈ batch) :
    ReflTransGen (PassStep r now t active batch) c (c.retireIfHandedOff t (c.idsOf active) m).2 ∧
      Passed m t c (c.retireIfHandedOff t (c.idsOf active) m).2 := by
  unfold retireIfHandedOff
  split
  · next h =>
      obtain ⟨handedOff, buffered⟩ := (Bool.and_eq_true _ _).mp h
      have ht := (Touches.unbuffer c t m).trans (Touches.settleIfComplete _ m)
      refine ⟨.single (.retire c m topic hm buffered handedOff), ht, ?_⟩
      rw [(Touches.settleIfComplete _ m).bufferedIds_eq (by simp), bufferedIds_unbuffer]
  · exact ⟨.refl, .of_sublist (.refl m c) (.refl _)⟩

theorem discardFor_steps (now : UInt64) (batch : List MessageRef) (l : List SubscriberRef)
    (b : Broker) (topic : (b.tracker t).isTopic = true) (allowed : r.topics = .discardAllowed)
    (hm : m ∈ batch)
    (buffered : b.isBufferedIn t m = true)
    (hl : ∀ s ∈ l, s ∈ active ∧ (b.message m).awaits (b.subscriber s).id = true ∧
      b.hasRoom s = false)
    (hn : (b.idsOf l).Nodup) :
    ReflTransGen (PassStep r now t active batch) b (discardFor m l b) ∧
      Touches m b (discardFor m l b) ∧
      (∀ v, (discardFor m l b).tracker v = b.tracker v) ∧
      (∀ u, (discardFor m l b).subscriber u = b.subscriber u) ∧
      ∀ id, id ∉ b.idsOf l → ((discardFor m l b).message m).status? id = (b.message m).status? id := by
  induction l generalizing b with
  | nil => exact ⟨.refl, .refl m b, fun _ => rfl, fun _ => rfl, fun _ _ => rfl⟩
  | cons s l ih =>
      obtain ⟨hs, hw, hfull⟩ := hl s (by simp)
      have hstep : PassStep r now t active batch b (b.setStatus m (b.subscriber s).id .discarded) :=
        .discard b m s topic allowed hm buffered hs hw hfull
      have ht := Touches.setStatus b m (b.subscriber s).id .discarded
      have hst : ∀ id, id ≠ (b.subscriber s).id →
          ((b.setStatus m (b.subscriber s).id .discarded).message m).status? id =
            (b.message m).status? id := fun id hid => by
        simp [setStatus, message_modifyMessage, Message.status?, Message.setStatus, Dict.get?_insert, hid]
      have hsub : ∀ u, (b.setStatus m (b.subscriber s).id .discarded).subscriber u = b.subscriber u :=
        fun _ => rfl
      have htr : ∀ v, (b.setStatus m (b.subscriber s).id .discarded).tracker v = b.tracker v :=
        fun _ => rfl
      have hd : discardFor m (s :: l) b = discardFor m l (b.setStatus m (b.subscriber s).id .discarded) :=
        rfl
      rw [hd]
      generalize b.setStatus m (b.subscriber s).id .discarded = c at hstep ht hst hsub htr
      rw [idsOf, List.map_cons, List.nodup_cons] at hn
      have hother : ∀ u ∈ l, (b.subscriber u).id ≠ (b.subscriber s).id := fun u hu he =>
        hn.1 (he ▸ List.mem_map_of_mem hu)
      have hids : c.idsOf l = b.idsOf l := by simp [idsOf, hsub]
      obtain ⟨hsteps, htouch, htrackers, hsubs, hstatus⟩ := ih c (by rwa [htr])
        (by rw [isBufferedIn_iff_mem, ht.id, ht.bufferedIds_eq (by rw [htr])]
            exact (isBufferedIn_iff_mem _ _ _).1 buffered)
        (fun u hu => by
          obtain ⟨ha, hw, hf⟩ := hl u (by simp [hu])
          refine ⟨ha, ?_, by rwa [hasRoom, hsub]⟩
          rw [hsub, awaits_congr (hst _ (hother u hu)), hw])
        (by rw [hids]; exact hn.2)
      refine ⟨.head hstep hsteps, ht.trans htouch, fun v => (htrackers v).trans (htr v),
        fun u => (hsubs u).trans (hsub u), fun id hid => ?_⟩
      rw [idsOf, List.map_cons, List.mem_cons, not_or] at hid
      rw [hstatus id (by rw [hids]; exact hid.2), hst id hid.1]

theorem Touches.idsOf {c : Broker} (h : Touches m b c) (l : List SubscriberRef) :
    c.idsOf l = b.idsOf l := by
  simp [Broker.idsOf, h.subscriber_id]

theorem broadcast_retire_steps (active : List SubscriberRef) (batch : List MessageRef)
    (l : List SubscriberRef) (c : Broker)
    (topic : (c.tracker t).isTopic = true) (hm : m ∈ batch) (buffered : c.isBufferedIn t m = true)
    (hl : ∀ s ∈ l, s ∈ active ∧ (c.message m).awaits (c.subscriber s).id = true ∧
      c.hasRoom s = true)
    (hn : (c.idsOf l).Nodup) {sent : Bool} {d : Broker}
    (hd : broadcast r now t m (copyPolicy r.topics) l c = (sent, d)) :
    (ReflTransGen (PassStep r now t active batch) c d ∧ Passed m t c d) ∧
      (sent = true →
        ReflTransGen (PassStep r now t active batch) c
            (d.retireIfHandedOff t (c.idsOf active) m).2 ∧
          Passed m t c (d.retireIfHandedOff t (c.idsOf active) m).2) := by
  obtain ⟨hsteps, hp, hids⟩ := broadcast_steps r now l c topic hm buffered hl hn
  rw [hd] at hsteps hp hids
  refine ⟨⟨hsteps, hp⟩, fun h => ?_⟩
  obtain ⟨hrsteps, hrp⟩ := retire_steps r now active d
    (by rwa [Tracker.isTopic, hp.touches.key]) hm
  rw [hp.touches.idsOf] at hrsteps hrp
  refine ⟨hsteps.trans hrsteps, hp.touches.trans hrp.touches, ((hids h).erase _).trans ?_⟩
  rw [← hp.touches.id]
  exact hrp.ids

def Remaining (b : Broker) (t : TrackerRef) (l : List MessageRef) : Prop :=
  (l.map fun m => (b.message m).id).Subperm (b.bufferedIds t)

theorem Remaining.buffered {rest : List MessageRef} (h : Remaining b t (m :: rest)) :
    b.isBufferedIn t m = true :=
  (isBufferedIn_iff_mem b t m).2 (h.subset (by simp))

theorem Passed.remaining {c : Broker} {rest : List MessageRef} (h : Passed m t b c)
    (hr : Remaining b t (m :: rest)) : Remaining c t rest := by
  have he := hr.erase (b.message m).id
  rw [List.map_cons, List.erase_cons_head] at he
  have hids : rest.map (fun n => (c.message n).id) = rest.map fun n => (b.message n).id := by
    simp [h.touches.id]
  rw [Remaining, hids]
  exact he.trans h.ids.subperm

theorem idsOf_filter_nodup (hn : (b.idsOf active).Nodup) (p : SubscriberRef → Bool) :
    (b.idsOf (active.filter p)).Nodup :=
  hn.sublist (List.filter_sublist.map _)

theorem mem_awaiting : s ∈ b.awaiting active m ↔
    s ∈ active ∧ (b.message m).awaits (b.subscriber s).id = true := by
  simp [awaiting]

theorem burstPass_steps (discard : DiscardPolicy) (hp : failurePolicy discard = copyPolicy r.topics)
    (hd : discard = .discardAllowed → r.topics = .discardAllowed) (l : List MessageRef) (b : Broker)
    (topic : (b.tracker t).isTopic = true) (hl : ∀ m ∈ l, m ∈ batch) (hr : Remaining b t l)
    (hn : (b.idsOf active).Nodup) :
    ReflTransGen (PassStep r now t active batch) b
      (burstPass r now t active discard (b.idsOf active) l b).2 := by
  induction l generalizing b with
  | nil => exact .refl
  | cons m rest ih =>
      have hm : m ∈ batch := hl m (by simp)
      have hawaiting : (b.idsOf (b.awaiting active m)).Nodup := idsOf_filter_nodup hn _
      -- `c` is the broker once the copies without room are discarded; the others still wait.
      obtain ⟨c, hc, hsteps, ht, htr, hsub, hst⟩ : ∃ c,
          c = (if discard = .discardAllowed then
            discardFor m ((b.awaiting active m).filter fun s => !b.hasRoom s) b else b) ∧
          ReflTransGen (PassStep r now t active batch) b c ∧ Touches m b c ∧
          (∀ v, c.tracker v = b.tracker v) ∧ (∀ u, c.subscriber u = b.subscriber u) ∧
          ∀ s ∈ (b.awaiting active m).filter b.hasRoom,
            (c.message m).status? (b.subscriber s).id = (b.message m).status? (b.subscriber s).id := by
        refine ⟨_, rfl, ?_⟩
        split
        · next ha =>
            obtain ⟨h₁, h₂, h₃, h₄, h₅⟩ := discardFor_steps now batch
              ((b.awaiting active m).filter fun s => !b.hasRoom s) b topic (hd ha) hm hr.buffered
              (fun s hs => by
                rw [List.mem_filter, mem_awaiting, Bool.not_eq_true'] at hs
                exact ⟨hs.1.1, hs.1.2, hs.2⟩) (idsOf_filter_nodup hawaiting _)
            refine ⟨h₁, h₂, h₃, h₄, fun s hs => h₅ _ fun hmem => ?_⟩
            obtain ⟨u, hu, he⟩ := List.mem_map.1 hmem
            rw [List.mem_filter] at hs hu
            have hus : u = s := List.inj_on_of_nodup_map hawaiting hu.1 hs.1 he
            subst hus
            simp [hs.2] at hu
        · exact ⟨.refl, .refl m b, fun _ => rfl, fun _ => rfl, fun _ _ => rfl⟩
      have hcb : c.bufferedIds t = b.bufferedIds t := ht.bufferedIds_eq (by rw [htr])
      obtain ⟨sent, d, hsd⟩ : ∃ o d, broadcast r now t m (copyPolicy r.topics)
          ((b.awaiting active m).filter b.hasRoom) c = (o, d) := ⟨_, _, rfl⟩
      obtain ⟨⟨hbsteps, hbp⟩, hretire⟩ := broadcast_retire_steps active batch
        ((b.awaiting active m).filter b.hasRoom) c (by rwa [htr]) hm
        (by rw [isBufferedIn_iff_mem, ht.id, hcb]
            exact (isBufferedIn_iff_mem _ _ _).1 hr.buffered)
        (fun s hs => by
          have hw := hst s hs
          rw [List.mem_filter, mem_awaiting] at hs
          exact ⟨hs.1.1, by rw [hsub, awaits_congr hw, hs.1.2], by simpa [hasRoom, hsub] using hs.2⟩)
        (by rw [ht.idsOf]; exact idsOf_filter_nodup hawaiting _) hsd
      rw [ht.idsOf] at hretire
      have hfrom : ∀ e, Passed m t c e → Passed m t b e := fun e he =>
        ⟨ht.trans he.touches, by rw [← hcb, ← ht.id]; exact he.ids⟩
      -- However this message fared, the rest of the batch is still buffered as it was.
      have hnext : ∀ e, Passed m t b e → ReflTransGen (PassStep r now t active batch) e
          (burstPass r now t active discard (b.idsOf active) rest e).2 := fun e he => by
        rw [← he.touches.idsOf]
        exact ih e (by rwa [Tracker.isTopic, he.touches.key]) (fun n hn => hl n (by simp [hn]))
          (he.remaining hr) (by rwa [he.touches.idsOf])
      simp only [burstPass, ← hc, hp, hsd]
      cases sent with
      | false => exact (hsteps.trans hbsteps).trans (hnext d (hfrom d hbp))
      | true =>
          obtain ⟨hrsteps, hrp⟩ := hretire rfl
          have hto := hsteps.trans hrsteps
          dsimp only at hto hrp ⊢
          generalize d.retireIfHandedOff t (b.idsOf active) m = q at hto hrp ⊢
          obtain ⟨retired, e⟩ := q
          cases retired with
          | true => exact hto.trans (hnext e (hfrom e hrp))
          | false =>
              dsimp only
              split
              · exact hto
              · exact hto.trans (hnext e (hfrom e hrp))

theorem pacedPass_steps (hp : copyPolicy r.topics = .retry) (l : List MessageRef) (b : Broker)
    (topic : (b.tracker t).isTopic = true) (hl : ∀ m ∈ l, m ∈ batch) (hr : Remaining b t l)
    (hn : (b.idsOf active).Nodup) :
    ReflTransGen (PassStep r now t active batch) b
      (pacedPass r now t active (b.idsOf active) l b).2 := by
  induction l generalizing b with
  | nil => exact .refl
  | cons m rest ih =>
      have hm : m ∈ batch := hl m (by simp)
      unfold pacedPass
      dsimp only
      split
      · next hroom =>
          obtain ⟨sent, d, hsd⟩ : ∃ o d, broadcast r now t m .retry (b.awaiting active m) b = (o, d) :=
            ⟨_, _, rfl⟩
          obtain ⟨⟨hbsteps, hbp⟩, hretire⟩ := broadcast_retire_steps active batch
            (b.awaiting active m) b topic hm hr.buffered
            (fun s hs => by
              have hr := List.all_eq_true.1 hroom s hs
              rw [mem_awaiting] at hs
              exact ⟨hs.1, hs.2, hr⟩) (idsOf_filter_nodup hn _) (hp ▸ hsd)
          have hnext : ∀ e, Passed m t b e → ReflTransGen (PassStep r now t active batch) e
              (pacedPass r now t active (b.idsOf active) rest e).2 := fun e he => by
            rw [← he.touches.idsOf]
            exact ih e (by rwa [Tracker.isTopic, he.touches.key]) (fun n hn => hl n (by simp [hn]))
              (he.remaining hr) (by rwa [he.touches.idsOf])
          rw [hsd]
          cases sent with
          | false => exact hbsteps.trans (hnext d hbp)
          | true =>
              obtain ⟨hto, hrp⟩ := hretire rfl
              dsimp only at hto hrp ⊢
              generalize d.retireIfHandedOff t (b.idsOf active) m = q at hto hrp ⊢
              obtain ⟨retired, e⟩ := q
              cases retired with
              | true | false => exact hto.trans (hnext e hrp)
      · exact .refl

theorem strategyFor_of_queue (r : Rules) (queue : (b.tracker t).isTopic = false) :
    strategyFor r (b.tracker t).key.type = .queue r.ceiling := by
  unfold strategyFor
  split <;> simp_all [Tracker.isTopic]

theorem deliver_queue_steps (b : Broker) (queue : (b.tracker t).isTopic = false) :
    ReflTransGen (PassStep r now t active (b.tracker t).buffer) b
      (deliver r now t active (strategyFor r (b.tracker t).key.type) b).2 := by
  rw [strategyFor_of_queue r queue]
  exact queuePass_steps _ _ b queue rfl

theorem deliver_steps (b : Broker) (hn : (b.idsOf active).Nodup) :
    ReflTransGen (PassStep r now t active (b.tracker t).buffer) b
      (deliver r now t active (strategyFor r (b.tracker t).key.type) b).2 := by
  have hr : Remaining b t (b.tracker t).buffer := List.Subperm.refl _
  by_cases topic : (b.tracker t).key.type = .topic
  · have ht : (b.tracker t).isTopic = true := by simpa [Tracker.isTopic] using topic
    rw [topic, strategyFor]
    cases htopics : r.topics with
    | discardAllowed =>
        exact burstPass_steps .discardAllowed (by simp [htopics, failurePolicy, copyPolicy])
          (fun _ => htopics) _ b ht (fun _ h => h) hr hn
    | discardNone =>
        exact burstPass_steps .discardNone (by simp [htopics, failurePolicy, copyPolicy])
          (by simp) _ b ht (fun _ h => h) hr hn
    | slowestSubRate =>
        exact pacedPass_steps (by simp [htopics, copyPolicy]) _ b ht (fun _ h => h) hr hn
  · exact deliver_queue_steps b (by simpa [Tracker.isTopic] using topic)

theorem sendBuffered_unheard (r : Rules) (now : UInt64) (unheard : b.active t = []) :
    b.sendBuffered r now t = (0, b.evict t) := by
  simp [sendBuffered, unheard]

theorem sendBuffered_heard (r : Rules) (now : UInt64) (heard : b.active t ≠ []) :
    b.sendBuffered r now t =
      deliver r now t (b.active t) (strategyFor r (b.tracker t).key.type) b := by
  simp [sendBuffered, heard]

theorem flush_unheard (r : Rules) (now : UInt64) (unheard : b.active t = []) :
    b.flush r now t = (false, b.evict t) := by
  rw [flush, sendBuffered_unheard r now unheard, unheard]
  split <;> rfl

/-- With somebody to hear it a flush is a pass over the buffer, also over an empty one, and tells
whether the pass counted anything. -/
theorem flush_heard (r : Rules) (now : UInt64) (heard : b.active t ≠ []) :
    let p := deliver r now t (b.active t) (strategyFor r (b.tracker t).key.type) b
    b.flush r now t = (decide (0 < p.1), p.2) := by
  rw [flush, sendBuffered_heard r now heard]
  split
  · next hempty =>
      unfold deliver
      rw [List.isEmpty_iff.1 hempty, if_neg (by simpa using heard)]
      cases strategyFor r (b.tracker t).key.type <;> rfl
  · rfl

/-- A delivery lets the tracker go for want of subscribers, or is a sequence of pass steps, or
finds nothing to do. -/
inductive Delivers (r : Rules) (now : UInt64) (t : TrackerRef) (b : Broker) : Broker → Prop
  | letGo (unheard : b.active t = []) : Delivers r now t b (b.evict t)
  | pass {c : Broker} (heard : b.active t ≠ []) (full : (b.tracker t).buffer ≠ [])
      (steps : ReflTransGen (PassStep r now t (b.active t) (b.tracker t).buffer) b c) :
      Delivers r now t b c
  | nothing : Delivers r now t b b

theorem deliver_delivers (heard : b.active t ≠ []) (hn : (b.idsOf (b.active t)).Nodup) :
    Delivers r now t b
      (deliver r now t (b.active t) (strategyFor r (b.tracker t).key.type) b).2 := by
  by_cases full : (b.tracker t).buffer = []
  · unfold deliver
    rw [full]
    split <;> exact .nothing
  · exact .pass heard full (deliver_steps b hn)

theorem sendBuffered_delivers (b : Broker) (hn : (b.idsOf (b.active t)).Nodup) :
    Delivers r now t b (sendBuffered r now t b).2 := by
  by_cases heard : b.active t = []
  · rw [sendBuffered_unheard r now heard]
    exact .letGo heard
  · rw [sendBuffered_heard r now heard]
    exact deliver_delivers heard hn

theorem flush_delivers (b : Broker) (hn : (b.idsOf (b.active t)).Nodup) :
    Delivers r now t b (flush r now t b).2 := by
  by_cases heard : b.active t = []
  · rw [flush_unheard r now heard]
    exact .letGo heard
  · rw [flush_heard r now heard]
    exact deliver_delivers heard hn

end Courier.Broker
