import Courier.Proofs.Exclusive
import Courier.Proofs.FlowControl

namespace Courier

open Broker
open Relation (ReflTransGen)

def Operation.isStill : Operation → Bool
  | .flush .. | .send .. | .runJob _ | .shutdown | .acknowledge .. | .rebuffer .. | .requeue .. =>
      false
  | _ => true

def Operation.submitted (r : Rules) (b : Broker) (op : Operation) : List Job :=
  (op.apply r b).dispatcher.jobs.drop b.dispatcher.jobs.length

theorem Operation.submitted_eq_nil {r : Rules} {b : Broker} {op : Operation}
    (h : (op.apply r b).dispatcher.jobs.length ≤ b.dispatcher.jobs.length) :
    op.submitted r b = [] :=
  List.drop_eq_nil_of_le h

namespace Broker

structure Still (b b' : Broker) : Prop where
  recipients : ∀ n, (b'.message n).recipients = (b.message n).recipients
  subscriber : ∀ s, b.hasSubscriber s → (b'.subscriber s).made = (b.subscriber s).made
  unacked : ∀ s, (b'.subscriber s).unacked = (b.subscriber s).unacked
  inFlight : ∀ t, (b'.tracker t).inFlight = (b.tracker t).inFlight
  subscribers_size : b.subscribers.size ≤ b'.subscribers.size
  jobs : b'.dispatcher.jobs = b.dispatcher.jobs

variable {home : MessageRef → DestinationType} {b b' c : Broker} {m : MessageRef}
  {s : SubscriberRef} {t : TrackerRef} {r : Rules} {now : UInt64}

theorem Quiet.still (h : Quiet home b b') : Still b b' :=
  ⟨h.recipients, fun s _ => h.subscriber s, h.unacked, h.inFlight, h.subscribers_size, h.jobs⟩

namespace Still

theorem refl (b : Broker) : Still b b :=
  ⟨fun _ => rfl, fun _ _ => rfl, fun _ => rfl, fun _ => rfl, Nat.le_refl _, rfl⟩

theorem status? (h : Still b b') (m : MessageRef) (id : SubscriberId) :
    (b'.message m).status? id = (b.message m).status? id := by
  rw [Message.status?, Message.status?, h.recipients]

theorem isHeldBy (h : Still b b') (m : MessageRef) (id : SubscriberId) :
    (b'.message m).isHeldBy id = (b.message m).isHeldBy id :=
  Message.isHeldBy_congr (h.recipients m) id

theorem hasSubscriber (h : Still b b') (hs : b.hasSubscriber s) : b'.hasSubscriber s :=
  Nat.lt_of_lt_of_le hs h.subscribers_size

theorem rebuffer (b : Broker) (t : TrackerRef) (m : MessageRef) : Still b (b.rebuffer t m) :=
  ⟨by simp, fun s _ => congrArg Subscription.made (by simp), by simp,
    fun v => inFlight_rebuffer b t v m, (Touches.rebuffer b t m).subscribers_size, by simp⟩

theorem letGo (b : Broker) (t : TrackerRef) : Still b (b.letGo t) :=
  { refl b with }

theorem trans (h : Still b b') (h' : Still b' c) : Still b c where
  recipients n := (h'.recipients n).trans (h.recipients n)
  subscriber s hs := (h'.subscriber s (h.hasSubscriber hs)).trans (h.subscriber s hs)
  unacked s := (h'.unacked s).trans (h.unacked s)
  inFlight t := (h'.inFlight t).trans (h.inFlight t)
  subscribers_size := Nat.le_trans h.subscribers_size h'.subscribers_size
  jobs := h'.jobs.trans h.jobs

theorem evict (b : Broker) (t : TrackerRef) : Still b (b.evict t) := by
  have hquiet : Quiet (fun _ => .queue) (b.letGo t)
      (((b.letGo t).drain t).settleAll (b.tracker t).buffer) :=
    (Quiet.drain _ t).trans (.settleAll _ _)
  rw [evict_eq]
  split
  · split
    · exact (letGo b t).trans hquiet.still
    · exact letGo b t
  · exact refl b

theorem addMessage (b : Broker) {x : Message} (hx : x.recipients = .empty) :
    Still b (b.addMessage x).2 :=
  { refl b with
    recipients := fun n => by
      rw [message_addMessage]
      split
      · next hn => rw [hx, message_eq_default (Nat.not_lt_of_le (Nat.le_of_eq hn.symm))]; rfl
      · rfl }

theorem addSubscriber (b : Broker) {x : Subscription} (hx : x.unacked = .zero) :
    Still b (b.addSubscriber x).2 :=
  { refl b with
    subscriber := fun s hs => by rw [subscriber_addSubscriber, if_neg (Nat.ne_of_lt hs)]
    unacked := fun s => by
      rw [subscriber_addSubscriber]
      split
      · next hs =>
          have hdefault : b.subscriber s = default :=
            b.subscribers.get_of_size_le (Nat.le_of_eq hs.symm)
          rw [hx, hdefault]
          rfl
      · rfl
    subscribers_size := by
      rw [Broker.addSubscriber, Table.size_push]
      exact Nat.le_succ _ }

theorem trackNew (b : Broker) (key : DestinationKey) : Still b (b.trackNew key) :=
  { refl b with
    inFlight := fun t => by
      rw [tracker_trackNew]
      split
      · next ht =>
          have hdefault : b.tracker t = default := b.trackers.get_of_size_le (Nat.le_of_eq ht.symm)
          rw [hdefault]
          rfl
      · rfl }

end Still

theorem jobs_runJob (b : Broker) (place : Nat) :
    (b.runJob place).dispatcher.jobs = b.dispatcher.jobs.eraseIdx place := by
  unfold runJob
  split
  · simp
  · next hnone => rw [List.eraseIdx_of_length_le (List.getElem?_eq_none_iff.1 hnone)]

theorem length_jobs_runJob (b : Broker) (place : Nat) :
    (b.runJob place).dispatcher.jobs.length ≤ b.dispatcher.jobs.length := by
  rw [jobs_runJob]
  exact List.length_eraseIdx_le _ _

/-- Only a job that fails and is to be tried again puts a message back, and only into its own
tracker's buffer. -/
theorem buffer_runJob (b : Broker) (place : Nat) (t : TrackerRef) :
    ((b.runJob place).tracker t).buffer = (b.tracker t).buffer ∨
      ∃ j ∈ b.dispatcher.jobs[place]?, j.tracker = t ∧ j.policy ≠ .discard ∧
        (b.send j.subscriber j.message).1 ≠ .sent ∧
        ((b.runJob place).tracker t).buffer = (b.tracker t).buffer ++ [j.message] := by
  unfold Broker.runJob
  cases hj : b.dispatcher.jobs[place]? with
  | none => exact .inl rfl
  | some j =>
      have hsend : ((b.withJobs (b.dispatcher.jobs.eraseIdx place)).send j.subscriber j.message).1 =
          (b.send j.subscriber j.message).1 := rfl
      dsimp only
      rw [execute_eq, hsend]
      split
      · exact .inl (by simp)
      · next hfailed =>
          rw [buffer_fail]
          split
          · next hback => exact .inr ⟨j, rfl, hback.1.symm, hback.2.1, hfailed, by simp⟩
          · exact .inl (by simp)

theorem dispatcher_returned (t : TrackerRef) (l : List MessageRef) (b : Broker) :
    (l.foldl (returnToBuffer t) b).dispatcher = b.dispatcher := by
  induction l generalizing b with
  | nil => rfl
  | cons m l ih => exact (ih _).trans (returnToBuffer_frame t b m).2.2.2.2.2.2

theorem jobs_putBack (r : Rules) (b : Broker) (key : TrackedKey) (l : List MessageRef) :
    ((Operation.rebuffer key l).apply r b).dispatcher.jobs = b.dispatcher.jobs := by
  rw [Operation.apply_rebuffer]
  split
  · rw [dispatcher_returned]
  · rfl

theorem Sound.jobs_delivers (h : Sound b) (ht : b.hasTracker t) (hd : Delivers r now t b b') :
    ∃ new, b'.dispatcher.jobs = b.dispatcher.jobs ++ new ∧
      ∀ j ∈ new, j.policy = passPolicy r (b.tracker t) := by
  refine h.delivery_induction ht hd (P := fun c => ∃ new, c.dispatcher.jobs =
    b.dispatcher.jobs ++ new ∧ ∀ j ∈ new, j.policy = passPolicy r (b.tracker t))
    ⟨[], by simp⟩ (fun _ => ⟨[], by simp [(Still.evict b t).jobs]⟩)
    fun _ _ c d _ hp _ ⟨new, hnew, hpolicy⟩ hstep => ?_
  obtain he | ⟨s, -, m, -, he⟩ := hstep.jobs_eq
  · exact ⟨new, he.trans hnew, hpolicy⟩
  · refine ⟨new ++ [⟨s, m, t, passPolicy r (c.tracker t)⟩], by rw [he, hnew, List.append_assoc],
      fun j hj => ?_⟩
    obtain hj | hj := List.mem_append.1 hj
    · exact hpolicy j hj
    · rw [List.mem_singleton.1 hj, passPolicy, Tracker.isTopic, hp.key]
      rfl

/-- What a step of a pass over a queue does to copies, counts and jobs: nothing, or it claims a copy
for which there is room and submits its job, or it claims one and, as the dispatcher is closed, gives
it up at once. -/
inductive QueueStep (r : Rules) (t : TrackerRef) (active : List SubscriberRef) (b : Broker) :
    Broker → Prop
  | still {b' : Broker} (still : Still b b') : QueueStep r t active b b'
  | dispatched (s : SubscriberRef) (m : MessageRef) (c : Broker) (still : Still b c)
      (hs : s ∈ active) (lacks : (c.message m).awaits (c.subscriber s).id = true)
      (room : c.hasRoom s = true) (below : (c.tracker t).inFlight.value < r.ceiling) :
      QueueStep r t active b
        ((c.claim s m t .rebuffer).withJobs (c.dispatcher.jobs ++ [⟨s, m, t, .rebuffer⟩]))
  | failed (s : SubscriberRef) (m : MessageRef) (c : Broker) (still : Still b c)
      (hs : s ∈ active) (lacks : (c.message m).awaits (c.subscriber s).id = true)
      (room : c.hasRoom s = true) (below : (c.tracker t).inFlight.value < r.ceiling) :
      QueueStep r t active b ((c.claim s m t .rebuffer).fail ⟨s, m, t, .rebuffer⟩)

theorem PassStep.queueStep {active : List SubscriberRef} {batch : List MessageRef}
    (hstep : PassStep r now t active batch b b') (queue : (b.tracker t).isTopic = false) :
    QueueStep r t active b b' := by
  cases hstep with
  | turn => exact .still (Quiet.nextSubscriber b t active : Quiet (fun _ => .queue) b _).still
  | discard _ _ topic | spread _ _ topic | retire _ topic =>
      exact absurd (queue.symm.trans topic) Bool.false_ne_true
  | offer m rest s _ front below hs room =>
      have hc : Still b (b.unbuffer t m) :=
        (Quiet.unbuffer b t m : Quiet (fun _ => .queue) b _).still
      have hroom : (b.unbuffer t m).hasRoom s = true := by simpa [hasRoom] using room
      have hbelow : ((b.unbuffer t m).tracker t).inFlight.value < r.ceiling := by
        rwa [inFlight_unbuffer]
      obtain ⟨outcome, d, hd, hh⟩ := exists_handled (b.unbuffer t m) r now s m t .rebuffer
      unfold Broker.offer
      rw [hd]
      cases hh with
      | purged =>
          exact .still (hc.trans ((Quiet.markPurged _ m : Quiet (fun _ => .queue) _ _).trans
            (.settle _ m)).still)
      | marked => exact .still hc
      | expired => exact .still (hc.trans (Quiet.expire _ m : Quiet (fun _ => .queue) _ _).still)
      | vetoed => exact .still (hc.trans (Quiet.settle _ m : Quiet (fun _ => .queue) _ _).still)
      | alreadyInFlight => exact .still (hc.trans (.rebuffer _ t m))
      | dispatched _ lacks => exact .dispatched s m _ hc hs lacks hroom hbelow
      | failed _ lacks => exact .failed s m _ hc hs lacks hroom hbelow

end Broker

theorem Operation.still_apply {op : Operation} (hop : op.isStill = true) (r : Rules) (b : Broker) :
    Still b (op.apply r b) := by
  cases op with
  | flush | send | runJob | shutdown | acknowledge | rebuffer | requeue => exact absurd hop nofun
  | createSlot | register | unregister | close => exact { Still.refl b with }
  | createMessage =>
      exact createMessage_induction (P := Still b) (.refl b) fun _ => .addMessage b rfl
  | createSubscriber => exact .addSubscriber b rfl
  | connect s outbound => exact (Quiet.connect b s outbound : Quiet (fun _ => .queue) b _).still
  | track key =>
      rw [apply, track_eq]
      split
      · exact .refl b
      · exact .trackNew b key
  | buffer batch p t =>
      have hq : Quiet (fun _ => (b.tracker t).key.type) b (b.bufferBatch batch p t) :=
        .bufferBatch b batch p t fun _ _ => rfl
      exact hq.still
  | findNext t active =>
      unfold apply Broker.findNext
      dsimp only
      split
      · exact .evict b t
      · exact (Quiet.nextSubscriber b t active : Quiet (fun _ => .queue) b _).still
  | clear key =>
      unfold apply Broker.clear
      dsimp only
      split
      · exact (Quiet.drain b _ : Quiet (fun _ => .queue) b _).still
      · exact .refl b
  | purge now key storageQueue =>
      have hp : Quiet (fun _ => .queue) b (b.recordPurge storageQueue now) := { Quiet.refl b with }
      unfold apply Broker.purge
      dsimp only
      split
      · exact (hp.trans ((Quiet.drain _ _).trans (.foldl .consumePurged _ _))).still
      · exact hp.still
  | deleteExpired condition =>
      exact (Quiet.deletes (b.deleteExpired_deletes condition) : Quiet (fun _ => .queue) b _).still

theorem Operation.jobs_sublist {op : Operation} (hop : op.delivery? = none) (r : Rules) (b : Broker) :
    (op.apply r b).dispatcher.jobs.Sublist b.dispatcher.jobs := by
  by_cases hstill : op.isStill = true
  · rw [(op.still_apply hstill r b).jobs]
  · cases op with
    | flush | send => exact absurd hop nofun
    | runJob place =>
        rw [apply, jobs_runJob]
        exact List.eraseIdx_sublist _ _
    | shutdown =>
        refine shutdown_induction (h := default)
          (P := fun c _ => c.dispatcher.jobs.Sublist b.dispatcher.jobs) (.refl _) (fun c _ hc => ?_)
          fun _ _ hc => hc
        rw [jobs_runJob]
        exact (List.eraseIdx_sublist _ _).trans hc
    | acknowledge s m type => rw [apply, (acknowledge_frame b s m type).2.2.2.2.2.2]
    | rebuffer key l => rw [jobs_putBack]
    | requeue m type =>
        have hback := jobs_putBack r b ⟨type, (b.message m).destination⟩ [m]
        exact hback ▸ .refl _
    | _ => exact absurd rfl hstill

theorem Broker.Sound.subscriber_apply {b : Broker} {op : Operation} (hs : b.Sound) (hu : op.uses b)
    (r : Rules) {s : SubscriberRef} (h : b.hasSubscriber s) :
    (op.apply r b).hasSubscriber s ∧
      ((op.apply r b).subscriber s).made = (b.subscriber s).made := by
  by_cases hop : op.isStill = true
  · have hstill := Operation.still_apply hop r b
    exact ⟨hstill.hasSubscriber h, hstill.subscriber s h⟩
  · have hp := hs.preserves (by cases op <;> first | rfl | exact absurd rfl hop) hu r
    exact ⟨hp.hasSubscriber h, hp.subscriber s⟩

/-- Nothing but queues and durable topics is tracked. -/
def queueTerms (_b : Broker) (_h : Journal) : Operation → Prop
  | .track key => key.type ≠ .topic
  | _ => True

instance (b : Broker) (h : Journal) : (op : Operation) → Decidable (queueTerms b h op)
  | .track key => inferInstanceAs (Decidable (key.type ≠ .topic))
  | .createSlot _ | .createMessage .. | .createSubscriber .. | .connect .. | .register _
  | .unregister _ | .buffer .. | .rebuffer .. | .requeue .. | .flush .. | .send .. | .findNext ..
  | .clear _ | .purge .. | .acknowledge .. | .runJob _ | .close | .shutdown | .deleteExpired _ =>
      .isTrue trivial

structure Broker.Queues (b : Broker) : Prop where
  pointToPoint : b.PointToPoint
  rebuffers : ∀ j ∈ b.dispatcher.jobs, j.policy = .rebuffer

variable {r : Rules} {b b' : Broker} {h : Journal} {op : Operation} {t : TrackerRef} {now : UInt64}

theorem Broker.PointToPoint.passPolicy (hq : b.PointToPoint) (r : Rules) (t : TrackerRef) :
    passPolicy r (b.tracker t) = .rebuffer := by
  simp [Broker.passPolicy, hq t]

theorem Broker.Queues.jobs_delivers (hq : b.Queues) (hs : b.Sound) (ht : b.hasTracker t)
    (hd : Delivers r now t b b') : ∀ j ∈ b'.dispatcher.jobs, j.policy = .rebuffer := by
  obtain ⟨new, hnew, hpolicy⟩ := hs.jobs_delivers ht hd
  intro j hj
  rw [hnew, List.mem_append] at hj
  obtain hj | hj := hj
  · exact hq.rebuffers j hj
  · rw [hpolicy j hj, hq.pointToPoint.passPolicy]

theorem Broker.Queues.runJob (hq : b.Queues) (place : Nat) : (b.runJob place).Queues where
  pointToPoint t := by
    rw [Tracker.isTopic, (Sound.preserves_runJob b place).key]
    exact hq.pointToPoint t
  rebuffers j hj := by
    rw [jobs_runJob] at hj
    exact hq.rebuffers j (List.mem_of_mem_eraseIdx hj)

theorem Broker.Queues.apply (hq : b.Queues) (hs : b.Sound) (hu : op.uses b)
    (ht : queueTerms b h op) (r : Rules) : (op.apply r b).Queues where
  pointToPoint t := by
    obtain he | ⟨key, rfl, -, -, he⟩ := hs.key_apply hu r t
    · rw [Tracker.isTopic, he]; exact hq.pointToPoint t
    · rw [Tracker.isTopic, he]; exact decide_eq_false ht
  rebuffers := by
    by_cases hop : op.isStill = true
    · rw [(Operation.still_apply hop r b).jobs]
      exact hq.rebuffers
    · cases op with
      | flush vetoes now t => exact hq.jobs_delivers hs hu (flush_delivers b (hs.active_nodup t))
      | send vetoes now t =>
          exact hq.jobs_delivers hs hu (sendBuffered_delivers b (hs.active_nodup t))
      | runJob place => exact (hq.runJob place).rebuffers
      | shutdown =>
          exact (shutdown_induction (P := fun c _ => c.Queues) (h := default) hq
            (fun _ _ hc => hc.runJob 0) fun _ _ hc => ⟨hc.pointToPoint, hc.rebuffers⟩).rebuffers
      | acknowledge s m type =>
          rw [Operation.apply, (acknowledge_frame b s m type).2.2.2.2.2.2]
          exact hq.rebuffers
      | rebuffer key l => rw [jobs_putBack]; exact hq.rebuffers
      | requeue m type =>
          have he := jobs_putBack r b ⟨type, (b.message m).destination⟩ [m]
          exact fun j hj => hq.rebuffers j (by rwa [← he])
      | _ => exact absurd rfl hop

theorem Broker.queues_default : Queues default := ⟨fun _ => rfl, fun _ hj => nomatch hj⟩

theorem Reaches.queues (hr : Reaches r queueTerms b h) : b.Queues := by
  induction hr with
  | start => exact queues_default
  | step op prior hu ht ih => exact ih.apply prior.sound hu ht r

end Courier
