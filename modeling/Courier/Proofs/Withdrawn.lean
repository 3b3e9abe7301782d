import Courier.Proofs.Still

namespace Courier

open Broker

def Operation.withdraws (b : Broker) (m : MessageRef) : Operation → Prop
  | .rebuffer key l => m ∈ l ∧ (b.find? key).isSome = true
  | .requeue n type => n = m ∧ (b.find? ⟨type, (b.message n).destination⟩).isSome = true
  | _ => False

def Operation.acknowledges (b : Broker) (copy : MessageRef × SubscriberId) : Operation → Prop
  | .acknowledge s m _ => (m, (b.subscriber s).id) = copy
  | _ => False

def Operation.runsNoJob : Operation → Bool
  | .runJob _ | .shutdown => false
  | _ => true

instance (b : Broker) (m : MessageRef) : (op : Operation) → Decidable (op.withdraws b m)
  | .rebuffer key l => inferInstanceAs (Decidable (m ∈ l ∧ (b.find? key).isSome = true))
  | .requeue n type =>
      inferInstanceAs (Decidable (n = m ∧
        (b.find? ⟨type, (b.message n).destination⟩).isSome = true))
  | .createSlot _ | .createMessage .. | .createSubscriber .. | .connect .. | .register _
  | .unregister _ | .track _ | .buffer .. | .flush .. | .send .. | .findNext .. | .clear _
  | .purge .. | .acknowledge .. | .runJob _ | .close | .shutdown | .deleteExpired _ => .isFalse id

instance (b : Broker) (copy : MessageRef × SubscriberId) :
    (op : Operation) → Decidable (op.acknowledges b copy)
  | .acknowledge s m _ => inferInstanceAs (Decidable ((m, (b.subscriber s).id) = copy))
  | .createSlot _ | .createMessage .. | .createSubscriber .. | .connect .. | .register _
  | .unregister _ | .track _ | .buffer .. | .rebuffer .. | .requeue .. | .flush .. | .send ..
  | .findNext .. | .clear _ | .purge .. | .runJob _ | .close | .shutdown | .deleteExpired _ =>
      .isFalse id

def untouchedTerms (r : Rules) (copy : MessageRef × SubscriberId) (b : Broker) (h : Journal)
    (op : Operation) : Prop :=
  queueTerms b h op ∧ (∀ j ∈ op.submitted r b, b.copyOf j ≠ copy) ∧ ¬ op.acknowledges b copy

instance (r : Rules) (copy : MessageRef × SubscriberId) (b : Broker) (h : Journal)
    (op : Operation) : Decidable (untouchedTerms r copy b h op) :=
  inferInstanceAs (Decidable (_ ∧ _ ∧ _))

namespace Broker

structure Inert (b b' : Broker) : Prop where
  unacked : ∀ s, (b'.subscriber s).unacked = (b.subscriber s).unacked
  inFlight : ∀ t, (b'.tracker t).inFlight = (b.tracker t).inFlight
  status? : ∀ m id, (b'.message m).status? id = (b.message m).status? id

variable {r : Rules} {b b' : Broker} {h : Journal} {m : MessageRef} {id : SubscriberId} {j : Job}
  {t : TrackerRef} {s : SubscriberRef} {now : UInt64} {op : Operation} {place : Nat}

theorem inert_fail (hp : j.policy = .rebuffer) (hnone : b.recorded j = false) :
    Inert b (b.fail j) where
  unacked s := by rw [subscriber_fail, hnone]; simp [hp]
  inFlight t := by rw [inFlight_fail, hnone]; simp
  status? n id := by
    by_cases he : n = j.message ∧ id = (b.subscriber j.subscriber).id
    · obtain ⟨rfl, rfl⟩ := he
      have hcopy : (b.message j.message).status? (b.subscriber j.subscriber).id = none := by
        simpa [recorded] using hnone
      rw [status?_fail, if_pos rfl, hp, hcopy]
      rfl
    · exact status?_fail_of_ne b j he

theorem inert_written (b : Broker) (s : SubscriberRef) (m : MessageRef) :
    Inert b (b.written s m) where
  unacked u := by
    obtain ⟨outbound, he⟩ := subscriber_written b s m u
    rw [he]
  inFlight t := by simp
  status? n id := by simp

theorem Inert.trans {c : Broker} (h : Inert b b') (h' : Inert b' c) : Inert b c :=
  ⟨fun s => (h'.unacked s).trans (h.unacked s), fun t => (h'.inFlight t).trans (h.inFlight t),
    fun m id => (h'.status? m id).trans (h.status? m id)⟩

theorem recorded_written (b : Broker) (j : Job) (s : SubscriberRef) (m : MessageRef) :
    (b.written s m).recorded j = b.recorded j := by
  obtain ⟨outbound, he⟩ := subscriber_written b s m j.subscriber
  simp [recorded, he]

theorem Queues.inert_runJob (hq : b.Queues) (hj : b.dispatcher.jobs[place]? = some j)
    (hnone : b.recorded j = false) (hfailed : (b.send j.subscriber j.message).1 ≠ .sent) :
    Inert b (b.runJob place) := by
  have hjobs : Inert b (b.withJobs (b.dispatcher.jobs.eraseIdx place)) :=
    ⟨fun _ => rfl, fun _ => rfl, fun _ _ => rfl⟩
  replace hfailed : ((b.withJobs (b.dispatcher.jobs.eraseIdx place)).send j.subscriber
    j.message).1 ≠ .sent := hfailed
  unfold Broker.runJob
  rw [hj]
  dsimp only
  rw [execute_eq, if_neg hfailed]
  refine (hjobs.trans (inert_written _ j.subscriber j.message)).trans
    (inert_fail (hq.rebuffers j (List.mem_of_getElem? hj)) ?_)
  rw [recorded_written]
  exact hnone

theorem QueueStep.status? {active : List SubscriberRef} (hstep : QueueStep r t active b b')
    (hactive : ∀ s ∈ active, b.hasSubscriber s) (hnone : (b.message m).status? id = none) :
    (b'.message m).status? id = none ∨
      ∃ j, b'.dispatcher.jobs = b.dispatcher.jobs ++ [j] ∧ b.copyOf j = (m, id) := by
  cases hstep with
  | still still => exact .inl ((still.status? m id).trans hnone)
  | dispatched s n c still hs =>
      have hid : (c.subscriber s).id = (b.subscriber s).id :=
        (congrArg Subscription.id (still.subscriber s (hactive s hs)) :)
      by_cases he : m = n ∧ id = (c.subscriber s).id
      · obtain ⟨rfl, rfl⟩ := he
        exact .inr ⟨⟨s, m, t, .rebuffer⟩, by simp [still.jobs], by rw [copyOf, hid]⟩
      · refine .inl ?_
        rw [(withJobs_frame _ _).2.1, status?_claim_of_ne c s n m t .rebuffer he, still.status?,
          hnone]
  | failed s n c still hs =>
      refine .inl ?_
      have hid := (Touches.claim c s n t .rebuffer).subscriber_id s
      by_cases he : m = n ∧ id = (c.subscriber s).id
      · obtain ⟨rfl, rfl⟩ := he
        rw [status?_fail, hid, if_pos rfl]
        rfl
      · rw [status?_fail_of_ne _ _ (by rwa [hid]), status?_claim_of_ne c s n m t .rebuffer he,
          still.status?, hnone]

theorem status?_delivers (hs : b.Sound) (hq : b.Queues) (ht : b.hasTracker t)
    (hd : Delivers r now t b b') (hnone : (b.message m).status? id = none) :
    (b'.message m).status? id = none ∨
      ∃ j ∈ b'.dispatcher.jobs.drop b.dispatcher.jobs.length, b.copyOf j = (m, id) := by
  suffices hall : ∃ new, b'.dispatcher.jobs = b.dispatcher.jobs ++ new ∧
      ((b'.message m).status? id = none ∨ ∃ j ∈ new, b.copyOf j = (m, id)) by
    obtain ⟨new, hnew, hall⟩ := hall
    rwa [hnew, List.drop_left]
  refine hs.delivery_induction ht hd (P := fun c => ∃ new, c.dispatcher.jobs =
    b.dispatcher.jobs ++ new ∧ ((c.message m).status? id = none ∨ ∃ j ∈ new, b.copyOf j = (m, id)))
    ⟨[], by simp, .inl hnone⟩ (fun _ => ?_) fun _ _ c d _ hp _ ⟨new, hnew, hall⟩ hstep => ?_
  · have hevict := Still.evict b t
    exact ⟨[], by simp [hevict.jobs], .inl ((hevict.status? m id).trans hnone)⟩
  · obtain hnone | ⟨j, hj, hcopy⟩ := hall
    · have hqueue := hstep.queueStep (by rw [Tracker.isTopic, hp.key]; exact hq.pointToPoint t)
      have hactive : ∀ s ∈ b.active t, c.hasSubscriber s := fun s hs' =>
        hp.hasSubscriber (hs.mem_active hs').1
      obtain hnone | ⟨j, hj, hcopy⟩ := hqueue.status? hactive hnone
      · obtain he | ⟨s, -, n, -, he⟩ := hstep.jobs_eq
        · exact ⟨new, he.trans hnew, .inl hnone⟩
        · exact ⟨_, by rw [he, hnew, List.append_assoc], .inl hnone⟩
      · refine ⟨new ++ [j], by rw [hj, hnew, List.append_assoc], .inr ⟨j, by simp, ?_⟩⟩
        rw [← hcopy, copyOf, copyOf, hp.subscriber_id]
    · obtain he | ⟨s, -, n, -, he⟩ := hstep.jobs_eq
      · exact ⟨new, he.trans hnew, .inr ⟨j, hj, hcopy⟩⟩
      · exact ⟨_, by rw [he, hnew, List.append_assoc], .inr ⟨j, List.mem_append_left _ hj, hcopy⟩⟩

theorem status?_execute (hp : j.policy = .rebuffer) (hnone : (b.message m).status? id = none) :
    ((b.execute j).message m).status? id = none := by
  rw [execute_eq]
  split
  · rw [message_markDelivered]
    split
    · next hs =>
        obtain ⟨rfl, hs⟩ := hs
        rw [Message.status?_setStatus, if_neg]
        · simpa using hnone
        · rintro rfl
          simp [hnone] at hs
    · simpa using hnone
  · by_cases he : m = j.message ∧ id = (b.subscriber j.subscriber).id
    · obtain ⟨rfl, rfl⟩ := he
      obtain ⟨outbound, he⟩ := subscriber_written b j.subscriber j.message j.subscriber
      rw [status?_fail, he, if_pos rfl, hp]
      rfl
    · obtain ⟨outbound, hw⟩ := subscriber_written b j.subscriber j.message j.subscriber
      rw [status?_fail_of_ne _ _ (by rwa [hw])]
      simpa using hnone

theorem status?_runJob (hq : b.Queues) (place : Nat) (hnone : (b.message m).status? id = none) :
    ((b.runJob place).message m).status? id = none := by
  unfold Broker.runJob
  split
  · next j hj => exact status?_execute (hq.rebuffers j (List.mem_of_getElem? hj)) hnone
  · exact hnone

theorem status?_returnToBuffer (hq : (b.tracker t).isTopic = false) (m : MessageRef)
    (hm : (b.message m).Tidy) (n : MessageRef) (id : SubscriberId) :
    ((b.returnToBuffer t m).message n).status? id =
      if n = m ∧ (b.message n).isHeldBy id = true then none else (b.message n).status? id := by
  rw [returnToBuffer, hq, if_neg Bool.false_ne_true, message_rebuffer, message_withdraw]
  by_cases hn : n = m
  · subst hn
    simp only [if_true, true_and]
    exact Message.status?_withdrawOutstanding hm id
  · simp [hn]

theorem status?_returned (hq : (b.tracker t).isTopic = false) (hs : ∀ m, (b.message m).Tidy)
    (l : List MessageRef) (n : MessageRef) (id : SubscriberId) :
    ((l.foldl (returnToBuffer t) b).message n).status? id =
      if n ∈ l ∧ (b.message n).isHeldBy id = true then none else (b.message n).status? id := by
  induction l generalizing b with
  | nil => simp
  | cons m l ih =>
      have hp := (Touches.returnToBuffer t b m).toPreserves
      have hm := status?_returnToBuffer hq m (hs m) n id
      rw [List.foldl_cons, ih (by rwa [Tracker.isTopic, hp.key]) fun n => hp.tidy n (hs n),
        Message.isHeldBy, hm]
      by_cases hn : n = m <;> by_cases held : (b.message n).isHeldBy id = true <;>
        by_cases hl : n ∈ l <;> simp_all [Message.isHeldBy]

theorem status?_putBack (hq : b.Queues) (hs : b.Sound) (r : Rules) (key : TrackedKey)
    (l : List MessageRef) (n : MessageRef) (id : SubscriberId) :
    (((Operation.rebuffer key l).apply r b).message n).status? id =
      if n ∈ l ∧ (b.find? key).isSome = true ∧ (b.message n).isHeldBy id = true then none
      else (b.message n).status? id := by
  rw [Operation.apply_rebuffer]
  split
  · next t ht => simp [status?_returned (hq.pointToPoint t) hs.tidy, ht]
  · next hnone => simp [hnone]

theorem status?_withdrawn (hq : b.Queues) (hs : b.Sound) (hop : op.withdraws b m)
    (held : (b.message m).isHeldBy id = true) (r : Rules) :
    ((op.apply r b).message m).status? id = none := by
  cases op with
  | rebuffer key l => rw [status?_putBack hq hs, if_pos ⟨hop.1, hop.2, held⟩]
  | requeue n type =>
      obtain ⟨rfl, hfind⟩ := hop
      exact (status?_putBack hq hs r ⟨type, (b.message n).destination⟩ [n] n id).trans
        (if_pos ⟨by simp, hfind, held⟩)
  | _ => exact hop.elim

theorem status?_apply (hq : b.Queues) (hs : b.Sound) (hu : op.uses b)
    (hnone : (b.message m).status? id = none)
    (submitted : ∀ j ∈ op.submitted r b, b.copyOf j ≠ (m, id))
    (acknowledged : ¬ op.acknowledges b (m, id)) :
    ((op.apply r b).message m).status? id = none := by
  by_cases hop : op.isStill = true
  · exact ((Operation.still_apply hop r b).status? m id).trans hnone
  · cases op with
    | flush vetoes now t =>
        obtain hstays | ⟨j, hj, hcopy⟩ :=
          status?_delivers hs hq hu (flush_delivers b (hs.active_nodup t)) hnone
        · exact hstays
        · exact absurd hcopy (submitted j hj)
    | send vetoes now t =>
        obtain hstays | ⟨j, hj, hcopy⟩ :=
          status?_delivers hs hq hu (sendBuffered_delivers b (hs.active_nodup t)) hnone
        · exact hstays
        · exact absurd hcopy (submitted j hj)
    | runJob place => exact status?_runJob hq place hnone
    | shutdown =>
        exact (shutdown_induction (h := default)
          (P := fun c _ => c.Queues ∧ (c.message m).status? id = none) ⟨hq, hnone⟩
          (fun c _ hc => ⟨hc.1.runJob 0, status?_runJob hc.1 0 hc.2⟩)
          fun c _ hc => ⟨⟨hc.1.pointToPoint, hc.1.rebuffers⟩, hc.2⟩).2
    | acknowledge s n type =>
        rw [Operation.apply, Message.status?, recipients_acknowledge]
        split
        · next hn =>
            rw [← Message.status?, Message.status?_setStatus, if_neg, hnone]
            rintro rfl
            exact acknowledged (by rw [hn]; rfl)
        · exact hnone
    | rebuffer key l => rw [status?_putBack hq hs, hnone, ite_self]
    | requeue n type =>
        refine (status?_putBack hq hs r ⟨type, (b.message n).destination⟩ [n] m id).trans ?_
        rw [hnone, ite_self]
    | _ => exact absurd rfl hop

end Broker

variable {r : Rules} {b : Broker} {h : Journal} {m : MessageRef} {id : SubscriberId} {j : Job}
  {op : Operation} {place : Nat} {l : List Operation}

/-- A run that does not touch the copy leaves it without a record. -/
theorem status?_replay (hq : b.Queues) (hs : b.Sound) (hnone : (b.message m).status? id = none)
    (hl : Follows r (untouchedTerms r (m, id)) l b h) :
    (replay r l b h).1.Queues ∧ ((replay r l b h).1.message m).status? id = none := by
  induction l generalizing b h with
  | nil => exact ⟨hq, hnone⟩
  | cons op l ih =>
      obtain ⟨⟨hu, hterms, submitted, acknowledged⟩, hl⟩ := hl
      exact ih (hq.apply hs hu hterms r) (hs.apply r op hu)
        (status?_apply hq hs hu hnone submitted acknowledged) hl

theorem subscriber_replay {terms : Broker → Journal → Operation → Prop} {s : SubscriberRef}
    (hs : b.Sound) (hl : Follows r terms l b h) (known : b.hasSubscriber s) :
    ((replay r l b h).1.subscriber s).made = (b.subscriber s).made := by
  induction l generalizing b h with
  | nil => rfl
  | cons op l ih =>
      obtain ⟨hknown, hmade⟩ := hs.subscriber_apply hl.1.1 r known
      exact (ih (hs.apply r op hl.1.1) hl.2 hknown).trans hmade

/-- A job whose attempt was withdrawn fails without giving anything back and without a change to any
record, unless its copy was dispatched again or acknowledged in between. -/
theorem withdrawn_failure_inert (hr : Reaches r queueTerms b h) (hj : j ∈ b.dispatcher.jobs)
    (held : (b.message j.message).isHeldBy (b.subscriber j.subscriber).id = true)
    (hop : op.withdraws b j.message) (hl : Follows r (untouchedTerms r (b.copyOf j)) (op :: l) b h)
    (hplace : (replay r (op :: l) b h).1.dispatcher.jobs[place]? = some j)
    (hfailed : ((replay r (op :: l) b h).1.send j.subscriber j.message).1 ≠ .sent) :
    Inert (replay r (op :: l) b h).1 ((replay r (op :: l) b h).1.runJob place) := by
  have hs := hr.sound
  have hid : ((replay r l (op.apply r b) (op.record b h)).1.subscriber j.subscriber).id =
      (b.subscriber j.subscriber).id :=
    (congrArg Subscription.id (subscriber_replay hs hl (hs.jobs j hj).1) :)
  obtain ⟨⟨hu, hterms, -⟩, hl⟩ := hl
  obtain ⟨hqueues, hnone⟩ := status?_replay (hr.queues.apply hs hu hterms r) (hs.apply r op hu)
    (status?_withdrawn hr.queues hs hop held r) hl
  refine hqueues.inert_runJob hplace ?_ hfailed
  rw [recorded, hid]
  exact Option.isSome_eq_false_iff.2 (Option.isNone_iff_eq_none.2 hnone)

def unsentRun : List Operation :=
  [.createSlot "stored", .createMessage 1 "orders" "stored" "book" 0 0,
    .createSubscriber "worker" ⟨"orders", .amqp, .queue⟩ "local" 1
      ⟨[.failed (.disconnected "worker")], .record []⟩,
    .register ⟨0⟩, .track ⟨"orders", .amqp, .queue⟩, .buffer [⟨0⟩] ⟨0⟩ ⟨0⟩, .flush [] 0 ⟨0⟩]

def withdrawnRun : List Operation :=
  unsentRun ++ [.requeue ⟨0⟩ .queue, .unregister "worker", .flush [] 0 ⟨0⟩]

theorem withdrawn_failure_inert_withdrawnRun :
    Follows workerRules queueTerms withdrawnRun default default ∧
      (replay workerRules withdrawnRun default default).1.dispatcher.jobs[0]? =
        some ⟨⟨0⟩, ⟨0⟩, ⟨0⟩, .rebuffer⟩ ∧
      ((replay workerRules withdrawnRun default default).1.send ⟨0⟩ ⟨0⟩).1 =
        .failed (.disconnected "worker") ∧
      Inert (replay workerRules withdrawnRun default default).1
        ((replay workerRules withdrawnRun default default).1.runJob 0) := by
  have hf : Follows workerRules queueTerms unsentRun default default := by decide
  have hj : Job.mk ⟨0⟩ ⟨0⟩ ⟨0⟩ .rebuffer ∈
      (replay workerRules unsentRun default default).1.dispatcher.jobs := by decide
  refine ⟨by decide, by decide, by decide, ?_⟩
  rw [withdrawnRun, replay_append]
  exact withdrawn_failure_inert (Reaches.start.replay unsentRun hf) hj (by decide) (by decide)
    (by decide) (by decide) (by decide)

/-- The order goes to the worker again before its first job fails. That failure then gives back what
the second attempt took, and erases its record. -/
theorem released_unsentRun :
    ¬ ∀ (r : Rules) (b : Broker) (h : Journal), Reaches r queueTerms b h →
      ∀ (place : Nat) (j : Job), b.dispatcher.jobs[place]? = some j →
      (b.message j.message).isHeldBy (b.subscriber j.subscriber).id = true →
      ∀ (op : Operation) (l : List Operation),
        (op.withdraws b j.message ∨ op.acknowledges b (b.copyOf j)) →
        Follows r queueTerms (op :: l) b h → (∀ o ∈ op :: l, o.runsNoJob = true) →
        ((replay r (op :: l) b h).1.send j.subscriber j.message).1 ≠ .sent →
        Inert (replay r (op :: l) b h).1 ((replay r (op :: l) b h).1.runJob place) := by
  intro hall
  have hf : Follows workerRules queueTerms unsentRun default default := by decide
  have hinert := hall _ _ _ (Reaches.start.replay _ hf) 0 ⟨⟨0⟩, ⟨0⟩, ⟨0⟩, .rebuffer⟩ (by decide)
    (by decide) (.requeue ⟨0⟩ .queue) [.flush [] 0 ⟨0⟩] (by decide) (by decide) (by decide)
    (by decide)
  exact absurd (hinert.unacked ⟨0⟩) (by decide)

end Courier
