import Courier.Proofs.Ledger

namespace Courier

open Broker

/-- Nothing but queues and durable topics is tracked, and a message is acknowledged or put back when
none of its jobs waits. -/
def idleTerms (b : Broker) (_h : Journal) : Operation → Prop
  | .track key => key.type ≠ .topic
  | .rebuffer _ l => ∀ m ∈ l, b.isIdle m
  | .requeue m _ | .acknowledge _ m _ => b.isIdle m
  | _ => True

instance (b : Broker) (h : Journal) : (op : Operation) → Decidable (idleTerms b h op)
  | .track key => inferInstanceAs (Decidable (key.type ≠ .topic))
  | .rebuffer _ l => inferInstanceAs (Decidable (∀ m ∈ l, b.isIdle m))
  | .requeue m _ | .acknowledge _ m _ => inferInstanceAs (Decidable (b.isIdle m))
  | .createSlot _ | .createMessage .. | .createSubscriber .. | .connect .. | .register _
  | .unregister _ | .buffer .. | .flush .. | .send .. | .findNext .. | .clear _ | .purge ..
  | .runJob _ | .close | .shutdown | .deleteExpired _ => .isTrue trivial

namespace Broker

def entries (b : Broker) (t : TrackerRef) : List MessageRef → List Job → List Return
  | [], _ => []
  | m :: l, out =>
      ((out.filter fun j => j.message = m).map fun j =>
        ⟨j, some t, b.findById (b.active t) (b.subscriber j.subscriber).id⟩) ++
      b.entries t l (out.filter fun j => j.message ≠ m)

def putBack (b : Broker) (key : TrackedKey) (l : List MessageRef) (out : List Job) : List Return :=
  match b.find? key with
  | some t => b.entries t l out
  | none => []

end Broker

def Operation.returns (b : Broker) (out : List Job) : Operation → List Return
  | .rebuffer key l => b.putBack key l out
  | .requeue m type => b.putBack ⟨type, (b.message m).destination⟩ [m] out
  | .acknowledge s m type =>
      (out.filter fun j => b.copyOf j = (m, (b.subscriber s).id)).map fun j =>
        ⟨j, if type = .topic then none else b.find? ⟨type, (b.message m).destination⟩, some s⟩
  | _ => []

namespace Ledger

def record (r : Rules) (b : Broker) (L : Ledger) (op : Operation) : Ledger :=
  ⟨(L.out ++ op.submitted r b).filter (op.apply r b).holds, L.returned ++ op.returns b L.out⟩

theorem record_of_jobs (r : Rules) {b : Broker} (L : Ledger) (op : Operation)
    (h : (op.apply r b).dispatcher.jobs.length ≤ b.dispatcher.jobs.length) :
    L.record r b op = ⟨L.out.filter (op.apply r b).holds, L.returned ++ op.returns b L.out⟩ := by
  rw [record, Operation.submitted_eq_nil h, List.append_nil]

def after (r : Rules) : List Operation → Broker → Ledger → Ledger
  | [], _, L => L
  | op :: rest, b, L => after r rest (op.apply r b) (L.record r b op)

end Ledger

theorem Broker.Preserves.entries {b b' : Broker} (hp : Preserves b b') (t : TrackerRef)
    (l : List MessageRef) (out : List Job) : b'.entries t l out = b.entries t l out := by
  have hfind : ∀ id, b'.findById (b'.active t) id = b.findById (b.active t) id := fun id => by
    simp only [findById, hp.active_eq, hp.subscriber_id]
  induction l generalizing out with
  | nil => rfl
  | cons m l ih => simp only [Broker.entries, ih, hfind, hp.subscriber_id]

namespace Broker.Attributed

variable {r : Rules} {now : UInt64} {limit : UInt64} {b b' : Broker} {h : Journal} {L : Ledger}
  {t : TrackerRef} {op : Operation}

theorem delivers (ha : Attributed r.ceiling b L) (hs : b.Sound) (hq : b.Queues)
    (ht : b.hasTracker t) (hd : Delivers r now t b b') :
    Attributed r.ceiling b' ⟨(L.out ++ b'.dispatcher.jobs.drop b.dispatcher.jobs.length).filter
      b'.holds, L.returned⟩ := by
  suffices hall : ∃ new, b'.dispatcher.jobs = b.dispatcher.jobs ++ new ∧
      Attributed r.ceiling b' ⟨L.out ++ new, L.returned⟩ by
    obtain ⟨new, hnew, hall⟩ := hall
    rw [hnew, List.drop_left, List.filter_eq_self.2 hall.held]
    exact hall
  refine hs.delivery_induction ht hd (P := fun c => ∃ new, c.dispatcher.jobs =
    b.dispatcher.jobs ++ new ∧ Attributed r.ceiling c ⟨L.out ++ new, L.returned⟩)
    ⟨[], by simp, by simpa using ha⟩ (fun _ => ?_) fun _ _ c d _ hp _ ⟨new, hnew, hc⟩ hstep => ?_
  · have hevict := Still.evict b t
    exact ⟨[], by simp [hevict.jobs], by simpa using ha.still hevict⟩
  · have hqueue := hstep.queueStep (by rw [Tracker.isTopic, hp.key]; exact hq.pointToPoint t)
    obtain ⟨more, hmore, hd⟩ := hc.queueStep
      (fun s hs' => hp.hasSubscriber (hs.mem_active hs').1) hqueue
    exact ⟨new ++ more, by rw [hmore, hnew, List.append_assoc], by rwa [← List.append_assoc]⟩

theorem shutdown (ha : Attributed limit b L) (hq : b.Queues) :
    Attributed limit b.shutdown ⟨L.out.filter b.shutdown.holds, L.returned⟩ := by
  refine (shutdown_induction (h := default) (P := fun c _ => c.Queues ∧
    Attributed limit c ⟨L.out.filter c.holds, L.returned⟩)
    ⟨hq, by rwa [List.filter_eq_self.2 ha.held]⟩ (fun c _ ⟨hq, hc⟩ => ⟨hq.runJob 0, ?_⟩)
    fun c _ ⟨hq, hc⟩ => ⟨⟨hq.pointToPoint, hq.rebuffers⟩, { hc with }⟩).2
  have hr := hc.runJob hq 0
  have hless : ∀ j, (c.runJob 0).holds j = true → c.holds j = true := fun j hj => by
    rw [holds, (Sound.preserves_runJob c 0).subscriber_id] at hj
    unfold Broker.runJob at hj
    split at hj
    · next i _ => exact isHeldBy_of_execute (c.withJobs (c.dispatcher.jobs.eraseIdx 0)) i _ _ hj
    · exact hj
  rwa [filter_holds hless] at hr

theorem holds_of_returned (queue : (b.tracker t).isTopic = false) (hb : ∀ m, (b.message m).Tidy)
    {l : List MessageRef} {j : Job} (h : (l.foldl (Broker.returnToBuffer t) b).holds j = true) :
    b.holds j = true := by
  have hp : Preserves b (l.foldl (Broker.returnToBuffer t) b) :=
    .foldl (fun b m => (Touches.returnToBuffer t b m).toPreserves) l b
  rw [holds, hp.subscriber_id, Message.isHeldBy, status?_returned queue hb] at h
  split at h
  · exact absurd h Bool.false_ne_true
  · exact h

theorem returned (ha : Attributed limit b L) (hs : b.Sound) (hq : b.Queues) (t : TrackerRef)
    (l : List MessageRef) (hm : ∀ m ∈ l, b.hasMessage m) (hidle : ∀ m ∈ l, b.isIdle m) :
    Attributed limit (l.foldl (Broker.returnToBuffer t) b)
      ⟨L.out.filter (l.foldl (Broker.returnToBuffer t) b).holds,
        L.returned ++ b.entries t l L.out⟩ := by
  induction l generalizing b L with
  | nil => simpa [Broker.entries, List.filter_eq_self.2 ha.held] using ha
  | cons m l ih =>
      have hp := (Touches.returnToBuffer t b m).toPreserves
      have hdispatcher := (returnToBuffer_frame t b m).2.2.2.2.2.2
      have hmine : ∀ n ∈ [m], b.hasMessage n := fun n hn => by
        rw [List.mem_singleton.1 hn]
        exact hm m List.mem_cons_self
      have hqueues : (b.returnToBuffer t m).Queues :=
        ⟨fun v => by rw [Tracker.isTopic, hp.key]; exact hq.pointToPoint v,
          by rw [hdispatcher]; exact hq.rebuffers⟩
      have hrest := ih (ha.returnToBuffer hs hq (hidle m List.mem_cons_self) t)
        (hs.returned [m] hmine t) hqueues
        (fun n hn => hp.hasMessage (hm n (List.mem_cons_of_mem _ hn)))
        fun n hn => by rw [isIdle, hdispatcher]; exact hidle n (List.mem_cons_of_mem _ hn)
      have hleft : L.out.filter (b.returnToBuffer t m).holds =
          L.out.filter fun j => j.message ≠ m := List.filter_congr fun j hj => by
        rw [holds_returnToBuffer (hq.pointToPoint t) (hs.tidy m), ha.held j hj, Bool.and_true,
          decide_not]
      have hless : ∀ j, (l.foldl (Broker.returnToBuffer t) (b.returnToBuffer t m)).holds j = true →
          (b.returnToBuffer t m).holds j = true := fun j hj =>
        holds_of_returned (hqueues.pointToPoint t) (hs.returned [m] hmine t).tidy hj
      rw [filter_holds hless, List.append_assoc, hp.entries, hleft] at hrest
      exact hrest

theorem putBack (ha : Attributed limit b L) (hs : b.Sound) (hq : b.Queues) (r : Rules)
    (key : TrackedKey) (l : List MessageRef) (hm : ∀ m ∈ l, b.hasMessage m)
    (hidle : ∀ m ∈ l, b.isIdle m) :
    Attributed limit ((Operation.rebuffer key l).apply r b)
      ⟨L.out.filter ((Operation.rebuffer key l).apply r b).holds,
        L.returned ++ b.putBack key l L.out⟩ := by
  rw [Operation.apply_rebuffer, Broker.putBack]
  cases b.find? key with
  | some t => exact ha.returned hs hq t l hm hidle
  | none => simpa [List.filter_eq_self.2 ha.held] using ha

theorem apply (ha : Attributed r.ceiling b L) (hs : b.Sound) (hq : b.Queues) (hu : op.uses b)
    (ht : idleTerms b h op) : Attributed r.ceiling (op.apply r b) (L.record r b op) := by
  by_cases hop : op.isStill = true
  · have hstill := Operation.still_apply hop r b
    have hkept : op.returns b L.out = [] := by cases op <;> first | rfl | exact absurd hop nofun
    have hafter := ha.still hstill
    rw [L.record_of_jobs r op (Nat.le_of_eq (by rw [hstill.jobs])), hkept, List.append_nil,
      List.filter_eq_self.2 hafter.held]
    exact hafter
  · cases op with
    | flush vetoes now t =>
        have hd : Delivers { r with vetoes } now t b (b.flush { r with vetoes } now t).2 :=
          flush_delivers b (hs.active_nodup t)
        have hafter := ha.delivers (r := { r with vetoes }) hs hq hu hd
        rwa [← List.append_nil L.returned] at hafter
    | send vetoes now t =>
        have hd : Delivers { r with vetoes } now t b (b.sendBuffered { r with vetoes } now t).2 :=
          sendBuffered_delivers b (hs.active_nodup t)
        have hafter := ha.delivers (r := { r with vetoes }) hs hq hu hd
        rwa [← List.append_nil L.returned] at hafter
    | runJob place =>
        have hr := ha.runJob hq place
        rw [← List.append_nil L.returned] at hr
        rw [L.record_of_jobs r (.runJob place) (length_jobs_runJob b place)]
        exact hr
    | shutdown =>
        have hd := ha.shutdown hq
        rw [← List.append_nil L.returned] at hd
        have hjobs : b.shutdown.dispatcher.jobs.length ≤ b.dispatcher.jobs.length :=
          shutdown_induction (P := fun c _ => c.dispatcher.jobs.length ≤ b.dispatcher.jobs.length)
            (h := default) (Nat.le_refl _)
            (fun c _ hc => Nat.le_trans (length_jobs_runJob c 0) hc) fun _ _ hc => hc
        rw [L.record_of_jobs r .shutdown hjobs]
        exact hd
    | acknowledge s m type =>
        rw [L.record_of_jobs r (.acknowledge s m type) (by simp [Operation.apply])]
        exact ha.acknowledge ht s type
    | rebuffer key l =>
        have hjobs := congrArg List.length (jobs_putBack r b key l)
        rw [L.record_of_jobs r (.rebuffer key l) (Nat.le_of_eq hjobs)]
        exact ha.putBack hs hq r key l hu ht
    | requeue m type =>
        have hr := ha.putBack hs hq r ⟨type, (b.message m).destination⟩ [m]
          (fun n hn => by rw [List.mem_singleton.1 hn]; exact hu)
          fun n hn => by rw [List.mem_singleton.1 hn]; exact ht
        have hjobs := congrArg List.length
          (jobs_putBack r b ⟨type, (b.message m).destination⟩ [m])
        rw [L.record_of_jobs r (.requeue m type) (Nat.le_of_eq hjobs)]
        exact hr
    | _ => exact absurd rfl hop

end Broker.Attributed

variable {r : Rules} {b : Broker} {h : Journal} {L : Ledger} {op : Operation} {l : List Operation}

theorem queueTerms_of_idleTerms (ht : idleTerms b h op) : queueTerms b h op := by
  cases op with
  | track key => exact ht
  | _ => trivial

theorem Broker.Attributed.replay (ha : Attributed r.ceiling b L) (hs : b.Sound) (hq : b.Queues)
    (hl : Follows r idleTerms l b h) :
    Attributed r.ceiling (replay r l b h).1 (Ledger.after r l b L) := by
  induction l generalizing b h L with
  | nil => exact ha
  | cons op l ih =>
      obtain ⟨⟨hu, ht⟩, hl⟩ := hl
      exact ih (ha.apply hs hq hu ht) (hs.apply r op hu)
        (hq.apply hs hu (queueTerms_of_idleTerms ht) r) hl

theorem Broker.attributed_default (limit : UInt64) : Attributed limit default default where
  known _ hj := nomatch hj
  held _ hj := nomatch hj
  once := List.nodup_nil
  complete _ _ held := absurd held Bool.false_ne_true
  queued _ hj := nomatch hj
  single := List.nodup_nil
  trackers _ := ⟨Nat.zero_le _, Nat.zero_le _⟩
  handles _ := ⟨Nat.zero_le _, Nat.zero_le _⟩
  ceiling _ := Nat.zero_le _
  window _ := Nat.zero_le _

theorem Follows.attributed (hl : Follows r idleTerms l default default) :
    Attributed r.ceiling (replay r l default default).1 (Ledger.after r l default default) :=
  (attributed_default r.ceiling).replay sound_default queues_default hl

/-- What is out through a tracker stays within the ceiling, but for what the tracker gave back that
had gone through another one. -/
theorem through_tracker_bounded (hl : Follows r idleTerms l default default)
    (hb : b = (replay r l default default).1) (hL : L = Ledger.after r l default default)
    (t : TrackerRef) :
    (L.out.map b.copyOf).Nodup ∧
      (∀ m id, (m, id) ∈ L.out.map b.copyOf ↔ (b.message m).isHeldBy id = true) ∧
      (b.tracker t).inFlight.value ≤ r.ceiling ∧
      L.Balanced Job.tracker Return.tracker t (b.tracker t).inFlight.toNat ∧
      L.holding Job.tracker t ≤ r.ceiling.toNat + L.gifts Job.tracker Return.tracker t := by
  subst hb hL
  have ha := hl.attributed
  exact ⟨ha.once, ha.mem_copies_iff, UInt64.le_iff_toNat_le.2 (ha.ceiling t), ha.trackers t,
    Nat.le_trans (ha.trackers t).covered (Nat.add_le_add_right (ha.ceiling t) _)⟩

/-- A worker leaves with an order unacknowledged, and its tracker is let go. It comes back and gets
another order through a new tracker before it acknowledges the first. -/
def lateAckRun : List Operation :=
  [.createSlot "stored", .createMessage 1 "orders" "stored" "book" 0 0,
    .createMessage 2 "orders" "stored" "pen" 0 0, .createMessage 3 "orders" "stored" "ink" 0 0,
    .createSubscriber "worker" ⟨"orders", .amqp, .queue⟩ "local" 5 default, .register ⟨0⟩,
    .track ⟨"orders", .amqp, .queue⟩, .buffer [⟨0⟩] ⟨0⟩ ⟨0⟩, .flush [] 0 ⟨0⟩, .runJob 0,
    .unregister "worker", .flush [] 0 ⟨0⟩, .register ⟨0⟩, .track ⟨"orders", .amqp, .queue⟩,
    .buffer [⟨1⟩, ⟨2⟩] ⟨0⟩ ⟨1⟩, .flush [] 0 ⟨1⟩, .runJob 0, .acknowledge ⟨0⟩ ⟨0⟩ .queue,
    .flush [] 0 ⟨1⟩]

theorem through_tracker_bounded_lateAckRun :
    Follows workerRules idleTerms lateAckRun default default ∧
      (Ledger.after workerRules lateAckRun default default).gifts Job.tracker Return.tracker ⟨1⟩ =
        1 ∧
      (Ledger.after workerRules lateAckRun default default).holding Job.tracker ⟨1⟩ ≤
        workerRules.ceiling.toNat + (Ledger.after workerRules lateAckRun default default).gifts
          Job.tracker Return.tracker ⟨1⟩ :=
  have hf : Follows workerRules idleTerms lateAckRun default default := by decide
  ⟨hf, by decide, (through_tracker_bounded hf rfl rfl ⟨1⟩).2.2.2.2⟩

/-- The acknowledgement lowers the count of the new tracker, which the order never went through. So
two orders are out through it, where the ceiling allows one. -/
theorem exceeded_lateAckRun :
    ¬ ∀ (r : Rules) (l : List Operation), Follows r idleTerms l default default →
      ∀ t, (Ledger.after r l default default).holding Job.tracker t ≤ r.ceiling.toNat := by
  intro hall
  have hf : Follows workerRules idleTerms lateAckRun default default := by decide
  exact absurd (hall _ _ hf ⟨1⟩) (by decide)

/-- What is out to a handle stays within its window, but for what the handle gave back that another
one had taken; and a handle with nothing out counts nothing, but for what went elsewhere. -/
theorem out_to_handle_bounded (hl : Follows r idleTerms l default default)
    (hb : b = (replay r l default default).1) (hL : L = Ledger.after r l default default)
    (s : SubscriberRef) :
    (L.out.map b.copyOf).Nodup ∧
      (∀ m id, (m, id) ∈ L.out.map b.copyOf ↔ (b.message m).isHeldBy id = true) ∧
      (b.subscriber s).unacked.value ≤ (b.subscriber s).window ∧
      L.Balanced Job.subscriber Return.handle s (b.subscriber s).unacked.toNat ∧
      L.holding Job.subscriber s ≤
        (b.subscriber s).window.toNat + L.gifts Job.subscriber Return.handle s ∧
      (L.holding Job.subscriber s = 0 →
        (b.subscriber s).unacked.toNat ≤ L.leaks Job.subscriber Return.handle s) := by
  subst hb hL
  have ha := hl.attributed
  refine ⟨ha.once, ha.mem_copies_iff, UInt64.le_iff_toNat_le.2 (ha.window s), ha.handles s,
    Nat.le_trans (ha.handles s).covered (Nat.add_le_add_right (ha.window s) _), fun hnone => ?_⟩
  have howned := (ha.handles s).owned
  rwa [hnone, Nat.zero_add] at howned

def manyRules : Rules := { workerRules with ceiling := 10 }

/-- A worker's handle is replaced while it has an order. The new one gets the second order, then the
first is put back. -/
def replacedRun : List Operation :=
  [.createSlot "stored", .createMessage 1 "orders" "stored" "book" 0 0,
    .createMessage 2 "orders" "stored" "pen" 0 0, .createMessage 3 "orders" "stored" "ink" 0 0,
    .createSubscriber "worker" ⟨"orders", .amqp, .queue⟩ "local" 1 default,
    .createSubscriber "worker" ⟨"orders", .amqp, .queue⟩ "local" 1 default, .register ⟨0⟩,
    .track ⟨"orders", .amqp, .queue⟩, .buffer [⟨0⟩, ⟨1⟩, ⟨2⟩] ⟨0⟩ ⟨0⟩, .flush [] 0 ⟨0⟩, .runJob 0,
    .register ⟨1⟩, .flush [] 0 ⟨0⟩, .runJob 0, .requeue ⟨0⟩ .queue, .flush [] 0 ⟨0⟩]

theorem out_to_handle_bounded_replacedRun :
    Follows manyRules idleTerms replacedRun default default ∧
      (Ledger.after manyRules replacedRun default default).holding Job.subscriber ⟨0⟩ = 0 ∧
      ((replay manyRules replacedRun default default).1.subscriber ⟨0⟩).unacked.toNat ≤
        (Ledger.after manyRules replacedRun default default).leaks Job.subscriber
          Return.handle ⟨0⟩ :=
  have hf : Follows manyRules idleTerms replacedRun default default := by decide
  have hnone : (Ledger.after manyRules replacedRun default default).holding Job.subscriber ⟨0⟩ =
      0 := by decide
  ⟨hf, hnone, (out_to_handle_bounded hf rfl rfl ⟨0⟩).2.2.2.2.2 hnone⟩

/-- The new handle gets the reservation back that the old one made: it has two orders where its
window allows one, and the old handle, with none, counts one for ever. -/
theorem misattributed_replacedRun :
    (¬ ∀ (r : Rules) (l : List Operation), Follows r idleTerms l default default →
      ∀ s, (Ledger.after r l default default).holding Job.subscriber s ≤
        ((replay r l default default).1.subscriber s).window.toNat) ∧
      ¬ ∀ (r : Rules) (l : List Operation), Follows r idleTerms l default default →
        ∀ s, (Ledger.after r l default default).holding Job.subscriber s = 0 →
          ((replay r l default default).1.subscriber s).unacked.toNat = 0 := by
  have hf : Follows manyRules idleTerms replacedRun default default := by decide
  refine ⟨fun hall => ?_, fun hall => ?_⟩
  · exact absurd (hall _ _ hf ⟨1⟩) (by decide)
  · exact absurd (hall _ _ hf ⟨0⟩ (by decide)) (by decide)

end Courier
