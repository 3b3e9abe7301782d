import Courier.Proofs.Sound

namespace Courier.Broker

open Relation (ReflTransGen)

def Vetoed (r : Rules) (b : Broker) (s : SubscriberRef) (m : MessageRef) : Prop :=
  ∃ v ∈ r.vetoes, ∃ x y, x.made = (b.subscriber s).made ∧ y.made = (b.message m).made ∧
    v.rejects x y = true

def Agreed (r : Rules) (b : Broker) (s : SubscriberRef) (m : MessageRef) : Prop :=
  ∃ x y, x.made = (b.subscriber s).made ∧ y.made = (b.message m).made ∧
    ∀ v ∈ r.vetoes, v.rejects x y = false

structure Fit (b : Broker) (now : UInt64) (m : MessageRef) : Prop where
  kept : b.isPurged m = false
  unmarked : (b.message m).expired = false
  timely : (b.message m).hasExpired now = false

structure Assigned (b : Broker) (t : TrackerRef) (m : MessageRef) (s : SubscriberRef) (c : Broker) :
    Prop where
  scheduled : (c.message m).status? (b.subscriber s).id = some .scheduled
  queued : ∃ new, c.dispatcher.jobs = b.dispatcher.jobs ++ new ∧ ⟨s, m, t, .rebuffer⟩ ∈ new

inductive Fate (r : Rules) (t : TrackerRef) (active : List SubscriberRef) (m : MessageRef)
    (b c : Broker) : Prop
  | waits (same : (c.message m).settled = (b.message m).settled)
      (buffered : m ∈ (c.tracker t).buffer) : Fate r t active m b c
  | assigned (same : (c.message m).settled = (b.message m).settled) (s : SubscriberRef)
      (hs : s ∈ active) (agreed : b.Agreed r s m) (assigned : b.Assigned t m s c) :
      Fate r t active m b c
  | consumed (settled : (c.message m).settled = true) (s : SubscriberRef) (hs : s ∈ active)
      (vetoed : b.Vetoed r s m) : Fate r t active m b c

variable {r : Rules} {now : UInt64} {t : TrackerRef} {active : List SubscriberRef}
  {batch : List MessageRef} {b b' c d : Broker} {m n : MessageRef} {s : SubscriberRef}
  {vetoes : List Veto}

theorem Fit.congr (hf : b.Fit now m) (hp : c.purges = b.purges)
    (hm : (c.message m).made = (b.message m).made)
    (hpurged : (c.message m).purged = (b.message m).purged)
    (hexpired : (c.message m).expired = (b.message m).expired) : c.Fit now m where
  kept := by
    have hqueue := congrArg Message.storageQueue hm
    have harrival := congrArg Message.arrival hm
    change (c.message m).storageQueue = (b.message m).storageQueue at hqueue
    change (c.message m).arrival = (b.message m).arrival at harrival
    rw [← hf.kept, isPurged, isPurged, lastPurge, lastPurge, hp, hpurged, hqueue, harrival]
  unmarked := hexpired.trans hf.unmarked
  timely := by
    have htime := congrArg Message.expiresAt hm
    change (c.message m).expiresAt = (b.message m).expiresAt at htime
    rw [← hf.timely, Message.hasExpired, Message.hasExpired, htime]

/-- Nothing speaks against the message as long as it is in the tracker's buffer: it is neither purged
nor expired, and no veto rejects it for an active subscriber. -/
structure Unopposed (b : Broker) (vetoes : List Veto) (now : UInt64) (t : TrackerRef)
    (m : MessageRef) : Prop where
  fit : b.Fit now m
  agreed : ∀ v ∈ vetoes, ∀ s ∈ b.active t, ∀ x y, x.made = (b.subscriber s).made →
    y.made = (b.message m).made → v.rejects x y = false

namespace Unopposed

theorem congr (hu : b.Unopposed vetoes now t m) (hp : Preserves b c) (hpurges : c.purges = b.purges)
    (hpurged : (c.message m).purged = (b.message m).purged)
    (hexpired : (c.message m).expired = (b.message m).expired) : c.Unopposed vetoes now t m where
  fit := hu.fit.congr hpurges (hp.made m) hpurged hexpired
  agreed v hv s hs x y hx hy := by
    rw [hp.active_eq] at hs
    exact hu.agreed v hv s hs x y (hx.trans (hp.subscriber s)) (hy.trans (hp.made m))

theorem deliverable (hu : b.Unopposed vetoes now t m) (hs : s ∈ b.active t) :
    Deliverable { r with vetoes } now s m b :=
  ⟨hu.fit.kept, hu.fit.unmarked, hu.fit.timely, fun v hv => hu.agreed v hv s hs _ _ rfl rfl⟩

end Unopposed

namespace Fate

theorem mono (hf : Fate r t active m b c) (hm : d.message m = c.message m)
    (hb : m ∈ (c.tracker t).buffer → m ∈ (d.tracker t).buffer)
    (hj : ∃ new, d.dispatcher.jobs = c.dispatcher.jobs ++ new) : Fate r t active m b d := by
  obtain ⟨more, hmore⟩ := hj
  cases hf with
  | waits same buffered => exact .waits (by rwa [hm]) (hb buffered)
  | assigned same s hs agreed assigned =>
      obtain ⟨new, hnew, hmem⟩ := assigned.queued
      refine .assigned (by rwa [hm]) s hs agreed ⟨by rw [hm]; exact assigned.scheduled, new ++ more, ?_,
        List.mem_append_left _ hmem⟩
      rw [hmore, hnew, List.append_assoc]
  | consumed settled s hs vetoed => exact .consumed (by rwa [hm]) s hs vetoed

/-- A message that is offered again meets its fate again, but a consumed one stays so. -/
theorem trans (hf : Fate r t active m b c) (hp : Preserves b c)
    (hj : ∃ new, c.dispatcher.jobs = b.dispatcher.jobs ++ new) (hf' : Fate r t active m c d) :
    Fate r t active m b d := by
  have hearlier : (d.message m).settled = (c.message m).settled →
      (d.message m).settled = (b.message m).settled ∨ Fate r t active m b d := fun hd => by
    cases hf with
    | waits same | assigned same => exact .inl (hd.trans same)
    | consumed settled s hs vetoed => exact .inr (.consumed (hd.trans settled) s hs vetoed)
  cases hf' with
  | waits same buffered =>
      exact (hearlier same).elim (fun hd => .waits hd buffered) fun hd => hd
  | assigned same s hs agreed assigned =>
      refine (hearlier same).elim (fun hd => ?_) fun hd => hd
      obtain ⟨x, y, hx, hy, hall⟩ := agreed
      obtain ⟨old, hold⟩ := hj
      obtain ⟨new, hnew, hmem⟩ := assigned.queued
      refine .assigned hd s hs ⟨x, y, hx.trans (hp.subscriber s), hy.trans (hp.made m), hall⟩
        ⟨by rw [← hp.subscriber_id]; exact assigned.scheduled, old ++ new, ?_,
          List.mem_append_right _ hmem⟩
      rw [hnew, hold, List.append_assoc]
  | consumed settled s hs vetoed =>
      obtain ⟨v, hv, x, y, hx, hy, rejects⟩ := vetoed
      exact .consumed settled s hs
        ⟨v, hv, x, y, hx.trans (hp.subscriber s), hy.trans (hp.made m), rejects⟩

end Fate

/-- A message that is offered comes back to the buffer, is dispatched, or falls to a veto. -/
theorem offer_fate (hf : b.Fit now m) {rest : List MessageRef}
    (front : (b.tracker t).buffer = m :: rest) (hs : s ∈ active) :
    Fate r t active m b ((b.unbuffer t m).offer r now t s m).2 ∧
      ((b.unbuffer t m).offer r now t s m).2.Fit now m := by
  have ht := Touches.unbuffer b t m
  have hbuffered : b.isBufferedIn t m = true := (isBufferedIn_iff b t m).2 ⟨m, by simp [front], rfl⟩
  have hmessage : (b.unbuffer t m).message m = { b.message m with buffered := false } := by
    rw [message_unbuffer, if_pos ⟨rfl, hbuffered⟩]
  have hfit : (b.unbuffer t m).Fit now m :=
    hf.congr ht.purges (ht.made m) (by rw [hmessage]) (by rw [hmessage])
  obtain ⟨outcome, c, hc, hh⟩ := exists_handled (b.unbuffer t m) r now s m t .rebuffer
  unfold offer
  rw [hc]
  cases hh with
  | purged purged => exact absurd (hfit.kept.symm.trans purged) Bool.false_ne_true
  | marked _ marked => exact absurd (hfit.unmarked.symm.trans marked) Bool.false_ne_true
  | expired _ _ late => exact absurd (hfit.timely.symm.trans late) Bool.false_ne_true
  | vetoed _ _ _ v hv rejects =>
      refine ⟨.consumed (by simp [message_settle]) s hs
        ⟨v, hv, _, _, ht.subscriber s, ht.made m, rejects⟩, ?_⟩
      have hsettle := Touches.settle (b.unbuffer t m) m
      exact hfit.congr hsettle.purges (hsettle.made m) (by simp [message_settle])
        (by simp [message_settle])
  | alreadyInFlight =>
      refine ⟨.waits (by simp) ?_, ?_⟩
      · simp [tracker_rebuffer, hmessage]
      · have hback := Touches.rebuffer (b.unbuffer t m) t m
        exact hfit.congr hback.purges (hback.made m) (by simp [message_rebuffer]) (by simp)
  | dispatched deliverable lacks accepting =>
      have hjobs : (b.unbuffer t m).dispatcher.jobs = b.dispatcher.jobs := by simp
      refine ⟨.assigned ?_ s hs ⟨_, _, ht.subscriber s, ht.made m, deliverable.agreed⟩
        ⟨?_, [⟨s, m, t, .rebuffer⟩], ?_, List.mem_singleton.2 rfl⟩, ?_⟩
      · simp [message_claim, hmessage, Message.setStatus]
      · simp [message_claim]
      · simp
      · have hclaim := Touches.claim (b.unbuffer t m) s m t .rebuffer
        refine (hfit.congr hclaim.purges (hclaim.made m) ?_ ?_).congr rfl rfl rfl rfl <;>
          simp [message_claim, Message.setStatus]
  | failed deliverable lacks accepting =>
      have hclaim := Touches.claim (b.unbuffer t m) s m t .rebuffer
      have hfail := Touches.fail ((b.unbuffer t m).claim s m t .rebuffer) ⟨s, m, t, .rebuffer⟩
      have hafter := message_fail_rebuffer ((b.unbuffer t m).claim s m t .rebuffer)
        ⟨s, m, t, .rebuffer⟩ rfl m
      rw [if_pos rfl, message_claim, if_pos rfl, hmessage] at hafter
      refine ⟨.waits ?_ ?_, (hfit.congr hclaim.purges (hclaim.made m) ?_ ?_).congr hfail.purges
        (hfail.made m) ?_ ?_⟩
      · rw [hafter]; rfl
      · simp [buffer_fail, message_claim, hmessage, Message.setStatus]
      · simp [message_claim, Message.setStatus]
      · simp [message_claim, Message.setStatus]
      · rw [hafter, message_claim, if_pos rfl, hmessage]; rfl
      · rw [hafter, message_claim, if_pos rfl, hmessage]; rfl

theorem offer_buffer_sublist (b : Broker) (r : Rules) (now : UInt64) (t v : TrackerRef)
    (s : SubscriberRef) (m : MessageRef) :
    (b.tracker v).buffer.Sublist ((b.offer r now t s m).2.tracker v).buffer := by
  obtain ⟨outcome, c, hc, hh⟩ := exists_handled b r now s m t .rebuffer
  have hkept := hh.buffer_sublist v
  unfold offer
  rw [hc]
  cases outcome with
  | vetoed => simpa using hkept
  | alreadyInFlight =>
      refine hkept.trans ?_
      rw [tracker_rebuffer]
      split <;> simp
  | purged | expired | dispatched | failed => exact hkept

structure Underway (r : Rules) (now : UInt64) (t : TrackerRef) (active : List SubscriberRef)
    (m : MessageRef) (b c : Broker) : Prop where
  preserves : Preserves b c
  fit : c.Fit now m
  queued : ∃ new, c.dispatcher.jobs = b.dispatcher.jobs ++ new
  fate : Fate r t active m b c

namespace Underway

theorem refl (hf : b.Fit now m) (hm : m ∈ (b.tracker t).buffer) :
    Underway r now t active m b b :=
  ⟨.refl b, hf, ⟨[], by simp⟩, .waits rfl hm⟩

theorem other (hc : Underway r now t active m b c) (ht : Touches n c d)
    (hm : d.message m = c.message m) (hb : m ∈ (c.tracker t).buffer → m ∈ (d.tracker t).buffer)
    (hj : ∃ new, d.dispatcher.jobs = c.dispatcher.jobs ++ new) :
    Underway r now t active m b d where
  preserves := hc.preserves.trans ht.toPreserves
  fit := hc.fit.congr ht.purges (ht.made m) (by rw [hm]) (by rw [hm])
  queued := by
    obtain ⟨old, hold⟩ := hc.queued
    obtain ⟨new, hnew⟩ := hj
    exact ⟨old ++ new, by rw [hnew, hold, List.append_assoc]⟩
  fate := hc.fate.mono hm hb hj

theorem step (hc : Underway r now t active m b c) (queue : (b.tracker t).isTopic = false)
    (hs : PassStep r now t active batch c d) : Underway r now t active m b d := by
  have hqueue : (c.tracker t).isTopic = false := by
    rw [Tracker.isTopic, hc.preserves.key]
    exact queue
  have hmore : ∃ new, d.dispatcher.jobs = c.dispatcher.jobs ++ new := by
    obtain he | ⟨s, -, n, -, he⟩ := hs.jobs_eq
    · exact ⟨[], by rw [he, List.append_nil]⟩
    · exact ⟨_, he⟩
  cases hs with
  | turn =>
      refine hc.other (Touches.nextSubscriber m c t active) (by simp) (fun hmem => ?_) hmore
      rwa [(tracker_nextSubscriber c t t active).2.1]
  | offer n rest s _ front below hs =>
      have ht := (Touches.unbuffer c t n).trans (Touches.offer (c.unbuffer t n) r now t s n)
      by_cases hmn : m = n
      · subst hmn
        obtain ⟨hagain, hfit⟩ := offer_fate (r := r) hc.fit front hs
        obtain ⟨old, hold⟩ := hc.queued
        obtain ⟨new, hnew⟩ := hmore
        exact ⟨hc.preserves.trans ht.toPreserves, hfit,
          ⟨old ++ new, by rw [hnew, hold, List.append_assoc]⟩,
          hc.fate.trans hc.preserves hc.queued hagain⟩
      · refine hc.other ht (ht.others m hmn) (fun hmem => ?_) hmore
        -- Only the front leaves the buffer, and this message comes after it.
        rw [front, List.mem_cons] at hmem
        have hrest : m ∈ ((c.unbuffer t n).tracker t).buffer := by
          rw [buffer_unbuffer_front c t n rest front]
          exact hmem.resolve_left hmn
        exact (offer_buffer_sublist _ r now t t s n).subset hrest
  | discard _ _ topic | spread _ _ topic | retire _ topic =>
      exact absurd (hqueue.symm.trans topic) Bool.false_ne_true

end Underway

/-- A pass over the buffer of a queue meets each message with a fate of its own. -/
theorem passSteps_fate (queue : (b.tracker t).isTopic = false) (hf : b.Fit now m)
    (hm : m ∈ (b.tracker t).buffer) (steps : ReflTransGen (PassStep r now t active batch) b c) :
    Fate r t active m b c := by
  suffices hall : Underway r now t active m b c from hall.fate
  induction steps with
  | refl => exact .refl hf hm
  | tail _ next ih => exact ih.step queue next

/-- A flush loses no message of a queue or durable topic, except to a veto against a subscriber that
it is offered to. -/
theorem flush_fate (queue : (b.tracker t).isTopic = false) (heard : b.active t ≠ [])
    (hm : m ∈ (b.tracker t).buffer) (hf : b.Fit now m) (r : Rules) :
    Fate r t (b.active t) m b (b.flush r now t).2 := by
  have hfull : (b.tracker t).buffer.isEmpty = false := by
    rw [List.isEmpty_eq_false_iff]
    exact List.ne_nil_of_mem hm
  have hactive : (b.active t).isEmpty = false := by rwa [List.isEmpty_eq_false_iff]
  have hflush : (b.flush r now t).2 =
      (deliver r now t (b.active t) (strategyFor r (b.tracker t).key.type) b).2 := by
    simp [flush, sendBuffered, hfull, hactive]
  rw [hflush]
  exact passSteps_fate queue hf hm (deliver_queue_steps b queue)

end Courier.Broker

namespace Courier

open Broker

def vetoRules : Rules := { workerRules with vetoes := [⟨"first", fun x _ => decide (x.id = "first")⟩] }

def twoWorkers : Broker :=
  (replay vetoRules [.createSlot "stored", .createMessage 1 "orders" "stored" "book" 0 0,
    .createSubscriber "first" ⟨"orders", .amqp, .queue⟩ "local" 1 default,
    .createSubscriber "second" ⟨"orders", .amqp, .queue⟩ "local" 1 default,
    .register ⟨0⟩, .register ⟨1⟩, .track ⟨"orders", .amqp, .queue⟩, .buffer [⟨0⟩] ⟨0⟩ ⟨0⟩]
    default default).1

theorem flush_fate_twoWorkers :
    (twoWorkers.tracker ⟨0⟩).isTopic = false ∧ twoWorkers.active ⟨0⟩ ≠ [] ∧
      ⟨0⟩ ∈ (twoWorkers.tracker ⟨0⟩).buffer ∧ twoWorkers.Fit 0 ⟨0⟩ ∧
      Fate vetoRules ⟨0⟩ (twoWorkers.active ⟨0⟩) ⟨0⟩ twoWorkers
        (twoWorkers.flush vetoRules 0 ⟨0⟩).2 :=
  have hq : (twoWorkers.tracker ⟨0⟩).isTopic = false := by decide
  have ha : twoWorkers.active ⟨0⟩ ≠ [] := by decide
  have hm : ⟨0⟩ ∈ (twoWorkers.tracker ⟨0⟩).buffer := by decide
  have hf : twoWorkers.Fit 0 ⟨0⟩ := ⟨by decide, by decide, by decide⟩
  ⟨hq, ha, hm, hf, flush_fate hq ha hm hf vetoRules⟩

/-- The veto concerns the first worker alone, and yet the order is consumed. -/
theorem consumed_twoWorkers :
    ¬ ∀ (r : Rules) (now : UInt64) (b : Broker) (t : TrackerRef) (m : MessageRef),
      (b.tracker t).isTopic = false → m ∈ (b.tracker t).buffer → b.Fit now m →
      (∃ s ∈ b.active t, ∀ v ∈ r.vetoes, ∀ x y, x.made = (b.subscriber s).made →
        y.made = (b.message m).made → v.rejects x y = false) →
      ((b.flush r now t).2.message m).settled = (b.message m).settled := by
  intro hall
  have hagreed : ∀ v ∈ vetoRules.vetoes, ∀ x y,
      x.made = (twoWorkers.subscriber ⟨1⟩).made → y.made = (twoWorkers.message ⟨0⟩).made →
        v.rejects x y = false := by
    intro v hv x y hx _
    obtain rfl := List.mem_singleton.1 hv
    have hid : x.id = "second" := congrArg Subscription.id hx
    simp [hid]
  have hsame := hall vetoRules 0 twoWorkers ⟨0⟩ ⟨0⟩ (by decide) (by decide)
    ⟨by decide, by decide, by decide⟩ ⟨⟨1⟩, by decide, hagreed⟩
  exact absurd hsame (by decide)

end Courier
