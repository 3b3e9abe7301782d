import Courier.Proofs.Reservations
import Mathlib.Data.List.Perm.Basic

namespace Courier

open Broker
open Relation (ReflTransGen)

def Broker.isIdle (b : Broker) (m : MessageRef) : Prop := ∀ j ∈ b.dispatcher.jobs, j.message ≠ m

instance (b : Broker) (m : MessageRef) : Decidable (b.isIdle m) :=
  inferInstanceAs (Decidable (∀ j ∈ b.dispatcher.jobs, j.message ≠ m))

/-- The host registers an id once and for good, uses a message with its own destination only, and
acknowledges or puts back a message when none of its jobs waits. -/
def flowTerms (home : MessageRef → DestinationType) (b : Broker) (_h : Journal) : Operation → Prop
  | .register s => ∀ e ∈ b.registry.entries, e.id ≠ (b.subscriber s).id
  | .unregister _ => False
  | .buffer batch _ t => ∀ m ∈ b.matching t batch, home m = (b.tracker t).key.type
  | .rebuffer key l => ∀ m ∈ l, key = b.place home m ∧ b.isIdle m
  | .requeue m type => type = home m ∧ b.isIdle m
  | .findNext t active => active = b.active t
  | .acknowledge s m type => s ∈ b.registry.all ∧ type = home m ∧ b.isIdle m
  | _ => True

/-- The host also delivers through the trackers in use: through one that was let go nothing may go
out. -/
def steadyTerms (home : MessageRef → DestinationType) (b : Broker) (h : Journal)
    (op : Operation) : Prop :=
  flowTerms home b h op ∧ match op with
    | .flush _ _ t | .send _ _ t =>
        b.isTracked t = true ∨ (b.tracker t).buffer = [] ∨ b.active t = []
    | _ => True

instance instDecidableFlowTerms (home : MessageRef → DestinationType) (b : Broker) (h : Journal) :
    (op : Operation) → Decidable (flowTerms home b h op)
  | .register s => inferInstanceAs (Decidable (∀ e ∈ b.registry.entries, e.id ≠ (b.subscriber s).id))
  | .unregister _ => .isFalse id
  | .buffer batch _ t =>
      inferInstanceAs (Decidable (∀ m ∈ b.matching t batch, home m = (b.tracker t).key.type))
  | .rebuffer key l => inferInstanceAs (Decidable (∀ m ∈ l, key = b.place home m ∧ b.isIdle m))
  | .requeue m type => inferInstanceAs (Decidable (type = home m ∧ b.isIdle m))
  | .findNext t active => inferInstanceAs (Decidable (active = b.active t))
  | .acknowledge s m type =>
      inferInstanceAs (Decidable (s ∈ b.registry.all ∧ type = home m ∧ b.isIdle m))
  | .createSlot _ | .createMessage .. | .createSubscriber .. | .connect .. | .track _ | .flush ..
  | .send .. | .clear _ | .purge .. | .runJob _ | .close | .shutdown | .deleteExpired _ =>
      .isTrue trivial

instance (home : MessageRef → DestinationType) (b : Broker) (h : Journal) (op : Operation) :
    Decidable (steadyTerms home b h op) :=
  @instDecidableAnd _ _ (instDecidableFlowTerms home b h op) <| by
    cases op <;> infer_instance

namespace Broker

variable {home : MessageRef → DestinationType} {limit : UInt64} {b b' : Broker} {m : MessageRef}
  {s : SubscriberRef} {t : TrackerRef} {r : Rules} {now : UInt64} {policy : FailurePolicy}
  {outcome : FilterOutcome} {batch : List MessageRef}

structure Waiting (home : MessageRef → DestinationType) (b : Broker) (j : Job) : Prop where
  scheduled : (b.message j.message).status? (b.subscriber j.subscriber).id = some .scheduled
  active : j.subscriber ∈ b.active j.tracker
  placed : b.find? (b.place home j.message) = some j.tracker
  policy : j.policy = .rebuffer ↔ (b.tracker j.tracker).isTopic = false

theorem Waiting.preserved {j : Job} (hw : Waiting home b j) (hp : Preserves b b')
    (htracked : b'.tracked = b.tracked)
    (hstatus : (b'.message j.message).status? (b.subscriber j.subscriber).id = some .scheduled) :
    Waiting home b' j where
  scheduled := by rw [hp.subscriber_id, hstatus]
  active := by rw [hp.active_eq]; exact hw.active
  placed := by rw [hp.place, find?, htracked]; exact hw.placed
  policy := by rw [Tracker.isTopic, hp.key]; exact hw.policy

theorem Waiting.claim (hactive : s ∈ b.active t) (hfind : b.find? (b.place home m) = some t)
    (hpolicy : policy = .rebuffer ↔ (b.tracker t).isTopic = false) :
    Waiting home (b.claim s m t policy) ⟨s, m, t, policy⟩ := by
  have ht := Touches.claim b s m t policy
  refine ⟨?_, ?_, ?_, ?_⟩
  · rw [message_claim, if_pos rfl, Message.status?_setStatus, ht.subscriber_id, if_pos rfl]
  · rw [ht.toPreserves.active_eq]; exact hactive
  · rw [ht.toPreserves.place, find?, ht.tracked]; exact hfind
  · rw [Tracker.isTopic, ht.key]; exact hpolicy

theorem not_isHeldBy_fail (b : Broker) (j : Job) :
    ((b.fail j).message j.message).isHeldBy (b.subscriber j.subscriber).id = false := by
  rw [Message.isHeldBy, status?_fail, if_pos rfl]
  cases j.policy <;> rfl

theorem Counted.fail (hc : Counted home limit b) (hs : b.Sound) {j : Job}
    (hm : b.hasMessage j.message) (hw : Waiting home b j) : Counted home limit (b.fail j) := by
  have hrecorded : b.recorded j = true := by rw [recorded, hw.scheduled]; rfl
  refine hc.giveUp hs (Touches.fail b j) hm hw.active hw.placed (fun id hid => ?_) ?_
    (not_isHeldBy_fail b j) (fun v hv => ?_) (fun u => ?_) fun v => ?_
  · rw [Message.isHeldBy, status?_fail_of_ne b j fun h => hid h.2, Message.isHeldBy]
  · exact Message.isHeldBy_iff.2 (.inl hw.scheduled)
  · rw [buffer_fail] at hv
    split at hv
    · next h => exact .inr h.1
    · exact .inl hv
  · rw [subscriber_fail]
    simp only [hrecorded, implies_true, and_true]
    split <;> rfl
  · simp only [inFlight_fail, hw.policy, hrecorded, and_true]

def copyOf (b : Broker) (j : Job) : MessageRef × SubscriberId :=
  (j.message, (b.subscriber j.subscriber).id)

structure Regulated (home : MessageRef → DestinationType) (limit : UInt64) (b : Broker) : Prop
    extends Counted home limit b where
  waiting : ∀ j ∈ b.dispatcher.jobs, Waiting home b j
  once : (b.dispatcher.jobs.map b.copyOf).Nodup

theorem Preserves.map_copyOf (hp : Preserves b b') (l : List Job) :
    l.map b'.copyOf = l.map b.copyOf :=
  List.map_congr_left fun j _ => by rw [copyOf, copyOf, hp.subscriber_id]

namespace Regulated

theorem of_counted (hr : Regulated home limit b) (hc : Counted home limit b')
    (hp : Preserves b b') (htracked : b'.tracked = b.tracked)
    (hjobs : b'.dispatcher.jobs = b.dispatcher.jobs)
    (hstatus : ∀ j ∈ b.dispatcher.jobs,
      (b'.message j.message).status? (b.subscriber j.subscriber).id =
        (b.message j.message).status? (b.subscriber j.subscriber).id) : Regulated home limit b' where
  toCounted := hc
  waiting j hj := by
    rw [hjobs] at hj
    have hw := hr.waiting j hj
    exact hw.preserved hp htracked ((hstatus j hj).trans hw.scheduled)
  once := by rw [hjobs, hp.map_copyOf]; exact hr.once

theorem quiet (hr : Regulated home limit b) (hq : Quiet home b b') : Regulated home limit b' :=
  hr.of_counted (hr.toCounted.quiet hq) hq.toPreserves hq.tracked hq.jobs fun j _ => by
    rw [Message.status?, Message.status?, hq.recipients]

theorem touches (hr : Regulated home limit b) (hc : Counted home limit b') (ht : Touches m b b')
    (hjobs : b'.dispatcher.jobs = b.dispatcher.jobs) (hidle : b.isIdle m) :
    Regulated home limit b' :=
  hr.of_counted hc ht.toPreserves ht.tracked hjobs fun j hj => by rw [ht.others _ (hidle j hj)]

/-- A copy that may be dispatched has no job. -/
theorem apart (hr : Regulated home limit b) {id : SubscriberId}
    (lacks : (b.message m).awaits id = true) {j : Job} (hj : j ∈ b.dispatcher.jobs) :
    ¬ (j.message = m ∧ (b.subscriber j.subscriber).id = id) := by
  rintro ⟨rfl, rfl⟩
  rw [Message.awaits_iff, (hr.waiting j hj).scheduled] at lacks
  simp at lacks

theorem discard (hr : Regulated home limit b) (hs : b.Sound) (hm : b.hasMessage m)
    {id : SubscriberId} (lacks : (b.message m).awaits id = true) :
    Regulated home limit (b.setStatus m id .discarded) := by
  have ht := Touches.setStatus b m id .discarded
  have hmsg : ∀ n, (b.setStatus m id .discarded).message n =
      if n = m then (b.message n).setStatus id .discarded else b.message n := fun n =>
    message_modifyMessage b m n _
  refine hr.of_counted (hr.relabel hs ht hm (fun u => ?_) (fun _ h => h) (fun _ => rfl)
    fun _ => rfl) ht.toPreserves rfl rfl fun j hj => ?_
  · rw [hmsg, if_pos rfl]
    by_cases hu : u = id
    · subst hu
      rw [Message.not_isHeldBy_of_awaits lacks, Message.isHeldBy, Message.status?_setStatus,
        if_pos rfl]
      rfl
    · rw [Message.isHeldBy, Message.status?_setStatus, if_neg hu, Message.isHeldBy]
  · rw [hmsg]
    split
    · next he => rw [Message.status?_setStatus, if_neg fun hid => hr.apart lacks hj ⟨he, hid⟩]
    · rfl

theorem handled (hr : Regulated home limit b) (hs : b.Sound) (hm : b.hasMessage m)
    (hactive : s ∈ b.active t) (hfind : b.find? (b.place home m) = some t)
    (hpolicy : policy = .rebuffer ↔ (b.tracker t).isTopic = false) (room : b.hasRoom s = true)
    (below : policy = .rebuffer → (b.tracker t).inFlight.value < limit)
    (hh : Handled r now s m t policy b outcome b') : Regulated home limit b' := by
  cases hh with
  | purged => exact hr.quiet ((Quiet.markPurged b m).trans (.settle _ m))
  | marked | vetoed | alreadyInFlight => exact hr
  | expired => exact hr.quiet (.expire b m)
  | dispatched deliverable lacks =>
      have hc := hr.toCounted.claim hs hm hactive hfind hpolicy lacks room below
      have ht := Touches.claim b s m t policy
      have hold : ∀ j ∈ b.dispatcher.jobs, Waiting home (b.claim s m t policy) j := fun j hj => by
        have hw := hr.waiting j hj
        refine hw.preserved ht.toPreserves ht.tracked ?_
        rw [status?_claim_of_ne b s m _ t policy (hr.apart lacks hj), hw.scheduled]
      have hnew := Waiting.claim hactive hfind hpolicy
      have hids : (b.dispatcher.jobs ++ [Job.mk s m t policy]).map (b.claim s m t policy).copyOf =
          b.dispatcher.jobs.map b.copyOf ++ [(m, (b.subscriber s).id)] := by
        rw [ht.toPreserves.map_copyOf, List.map_append]
        rfl
      refine ⟨{ hc with }, fun j hj => ?_, ?_⟩
      · obtain hj | hj := List.mem_append.1 hj
        · exact { hold j hj with }
        · rw [List.mem_singleton.1 hj]
          exact { hnew with }
      · refine (congrArg List.Nodup hids).mpr (List.nodup_append.2 ⟨hr.once, by simp, ?_⟩)
        intro c hc d hd he
        obtain ⟨j, hj, rfl⟩ := List.mem_map.1 hc
        rw [List.mem_singleton.1 hd, copyOf, Prod.mk.injEq] at he
        exact hr.apart lacks hj he
  | failed deliverable lacks =>
      -- The job never waited: the claim makes it a copy that is out, and the failure gives it up.
      have ht := Touches.claim b s m t policy
      have hc := hr.toCounted.claim hs hm hactive hfind hpolicy lacks room below
      have hsc : (b.claim s m t policy).Sound := hs.touches ht hm fun j hj =>
        hs.jobs j (by simpa using hj)
      have hw := Waiting.claim hactive hfind hpolicy
      have hf := Touches.fail (b.claim s m t policy) ⟨s, m, t, policy⟩
      refine hr.of_counted (hc.fail hsc (ht.toPreserves.hasMessage hm) hw)
        (ht.trans hf).toPreserves (ht.trans hf).tracked (by simp) fun j hj => ?_
      have hne := hr.apart lacks hj
      rw [status?_fail_of_ne _ _ (by rwa [ht.subscriber_id]),
        status?_claim_of_ne b s m _ t policy hne]

theorem passStep (hr : Regulated home r.ceiling b) (hs : b.Sound) (htracked : b.isTracked t = true)
    {active : List SubscriberRef} (hactive : ∀ s ∈ active, s ∈ b.active t)
    (hbatch : ∀ m ∈ batch, b.hasMessage m ∧ b.place home m = (b.tracker t).key.tracked)
    (hstep : PassStep r now t active batch b b') : Regulated home r.ceiling b' := by
  have hfind : ∀ n, b.place home n = (b.tracker t).key.tracked → b.find? (b.place home n) = some t :=
    fun n hn => by rw [hn, ← isTracked_iff, htracked]
  cases hstep with
  | turn => exact hr.quiet (.nextSubscriber b t active)
  | retire m => exact hr.quiet ((Quiet.unbuffer b t m).trans (.settleIfComplete _ m))
  | discard m s topic allowed hm buffered hs' lacks => exact hr.discard hs (hbatch m hm).1 lacks
  | offer m rest s queue front below hs' room =>
      have hmem : m ∈ (b.tracker t).buffer := by simp [front]
      have hm := hs.buffered t m hmem
      have hplace := hr.buffered t m hmem
      have hq : Quiet home b (b.unbuffer t m) := .unbuffer b t m
      have hsc : (b.unbuffer t m).Sound :=
        hs.touches (Touches.unbuffer b t m) hm fun j hj => hs.jobs j (by simpa using hj)
      have hplace' : (b.unbuffer t m).place home m = ((b.unbuffer t m).tracker t).key.tracked := by
        rw [hq.toPreserves.place, hq.key, hplace]
      obtain ⟨outcome, d, hd, hh⟩ := exists_handled (b.unbuffer t m) r now s m t .rebuffer
      have hrd : Regulated home r.ceiling d := by
        refine (hr.quiet hq).handled hsc (hq.toPreserves.hasMessage hm) ?_ ?_ ?_ ?_ ?_ hh
        · rw [hq.toPreserves.active_eq]; exact hactive s hs'
        · rw [hq.toPreserves.place, find?, hq.tracked]; exact hfind m hplace
        · rw [Tracker.isTopic, hq.key]; exact iff_of_true rfl queue
        · simpa [hasRoom] using room
        · rw [hq.inFlight]; exact fun _ => below
      unfold offer
      rw [hd]
      cases outcome with
      | vetoed => exact hrd.quiet (.settle d m)
      | alreadyInFlight =>
          refine hrd.quiet (.rebuffer d t m ?_)
          rw [hh.touches.toPreserves.place, hh.touches.key, hplace']
      | purged | expired | dispatched | failed => exact hrd
  | spread m s topic hm buffered hs' lacks room =>
      obtain ⟨hm, hplace⟩ := hbatch m hm
      have hpolicy := copyPolicy_ne_rebuffer r.topics
      obtain ⟨outcome, d, hd, hh⟩ := exists_handled b r now s m t (copyPolicy r.topics)
      have hrd : Regulated home r.ceiling d :=
        hr.handled hs hm (hactive s hs') (hfind m hplace)
          (iff_of_false hpolicy (by simp [topic])) room (fun he => absurd he hpolicy) hh
      unfold spread
      rw [hd]
      cases outcome with
      | purged | expired => exact hrd.quiet (.unbuffer d t m)
      | vetoed =>
          cases hh
          exact hr.discard hs hm lacks
      | alreadyInFlight | dispatched | failed => exact hrd

theorem withJobs (hr : Regulated home limit b) {j : Job} {l : List Job}
    (hl : (j :: l).Perm b.dispatcher.jobs) : Regulated home limit (b.withJobs l) := by
  refine ⟨{ hr.toCounted with }, fun i hi => ?_, ?_⟩
  · have hw := hr.waiting i (hl.subset (List.mem_cons_of_mem _ hi))
    exact { hw with }
  · have hn : ((j :: l).map b.copyOf).Nodup := (hl.map _).nodup_iff.2 hr.once
    exact (List.nodup_cons.1 hn).2

theorem delivered (hr : Regulated home limit b) (hs : b.Sound) {j : Job}
    (hm : b.hasMessage j.message) (hw : Waiting home b j)
    (hfree : ∀ i ∈ b.dispatcher.jobs, b.copyOf i ≠ b.copyOf j) :
    Regulated home limit (b.markDelivered j.message (b.subscriber j.subscriber).id) := by
  have ht := Touches.markDelivered b j.message (b.subscriber j.subscriber).id
  have hmsg : ∀ n, (b.markDelivered j.message (b.subscriber j.subscriber).id).message n =
      if n = j.message then (b.message n).setStatus (b.subscriber j.subscriber).id .delivered
      else b.message n := fun n => by
    simp only [message_markDelivered, hw.scheduled, and_true]
  refine hr.of_counted (hr.relabel hs ht hm (fun u => ?_) (by simp) (by simp) (by simp))
    ht.toPreserves ht.tracked (by simp) fun i hi => ?_
  · rw [hmsg, if_pos rfl]
    by_cases hu : u = (b.subscriber j.subscriber).id
    · subst hu
      rw [Message.isHeldBy, Message.isHeldBy, Message.status?_setStatus, if_pos rfl, hw.scheduled]
      rfl
    · rw [Message.isHeldBy, Message.status?_setStatus, if_neg hu, Message.isHeldBy]
  · rw [hmsg]
    split
    · next he =>
        have hne : (b.subscriber i.subscriber).id ≠ (b.subscriber j.subscriber).id := fun hid =>
          hfree i hi (Prod.ext he hid)
        rw [Message.status?_setStatus, if_neg hne]
    · rfl

theorem failed (hr : Regulated home limit b) (hs : b.Sound) {j : Job}
    (hm : b.hasMessage j.message) (hw : Waiting home b j)
    (hfree : ∀ i ∈ b.dispatcher.jobs, b.copyOf i ≠ b.copyOf j) :
    Regulated home limit (b.fail j) := by
  have ht := Touches.fail b j
  refine hr.of_counted (hr.toCounted.fail hs hm hw) ht.toPreserves ht.tracked (by simp)
    fun i hi => ?_
  exact status?_fail_of_ne b j fun he => hfree i hi (Prod.ext he.1 he.2)

theorem execute (hr : Regulated home limit b) (hs : b.Sound) {j : Job} {l : List Job}
    (hl : (j :: l).Perm b.dispatcher.jobs) : Regulated home limit ((b.withJobs l).execute j) := by
  have hj : j ∈ b.dispatcher.jobs := hl.subset List.mem_cons_self
  have hrest : ∀ i ∈ l, i ∈ b.dispatcher.jobs := fun i hi => hl.subset (List.mem_cons_of_mem _ hi)
  have hm := (hs.jobs j hj).2.1
  have hw := hr.waiting j hj
  have hfree : ∀ i ∈ l, b.copyOf i ≠ b.copyOf j := fun i hi he => by
    have hn : ((j :: l).map b.copyOf).Nodup := (hl.map _).nodup_iff.2 hr.once
    exact (List.nodup_cons.1 hn).1 (he ▸ List.mem_map_of_mem hi)
  have ht := Touches.send j.message (b.withJobs l) j.subscriber j.message
  have hq : Quiet home (b.withJobs l) ((b.withJobs l).written j.subscriber j.message) :=
    { ht.toPreserves with
      recipients := by simp
      gains := fun t n hn => .inl (by simpa using hn)
      unacked := fun u => by
        obtain ⟨outbound, he⟩ := subscriber_written (b.withJobs l) j.subscriber j.message u
        rw [he]
      inFlight := by simp
      tracked := by simp
      jobs := by simp }
  have hsd : ((b.withJobs l).written j.subscriber j.message).Sound :=
    (hs.withJobs hrest).touches ht hm fun i hi => hs.jobs i (hrest i (by rwa [hq.jobs] at hi))
  rw [execute_eq]
  generalize (b.withJobs l).written j.subscriber j.message = d at hq hsd
  have hrd := (hr.withJobs hl).quiet hq
  have hwd : Waiting home d j := by
    refine Waiting.preserved (b := b.withJobs l) { hw with } hq.toPreserves hq.tracked ?_
    rw [Message.status?, hq.recipients]
    exact hw.scheduled
  have hmd : d.hasMessage j.message := hq.toPreserves.hasMessage (b := b.withJobs l) hm
  have hfreed : ∀ i ∈ d.dispatcher.jobs, d.copyOf i ≠ d.copyOf j := fun i hi => by
    rw [copyOf, copyOf, hq.subscriber_id, hq.subscriber_id]
    exact hfree i (by rwa [hq.jobs] at hi)
  split
  · have hd := hrd.delivered hsd hmd hwd hfreed
    rwa [hq.subscriber_id] at hd
  · exact hrd.failed hsd hmd hwd hfreed

theorem runJob (hr : Regulated home limit b) (hs : b.Sound) (place : Nat) :
    Regulated home limit (b.runJob place) := by
  unfold Broker.runJob
  split
  · next j hj =>
      obtain ⟨hlt, rfl⟩ := List.getElem?_eq_some_iff.1 hj
      exact hr.execute hs (List.getElem_cons_eraseIdx_perm hlt)
  · exact hr

theorem shutdown (hr : Regulated home limit b) (hs : b.Sound) :
    Regulated home limit b.shutdown := by
  refine (shutdown_induction (P := fun b _ => Regulated home limit b ∧ b.Sound) (h := default)
    ⟨hr, hs⟩ (fun b _ hb => ⟨hb.1.runJob hb.2 0, hb.2.runJob 0⟩) fun b _ hb => ⟨?_, ?_⟩).1
  · exact hb.1.quiet { Quiet.refl b with }
  · exact { hb.2 with }

theorem returnToBuffer (hr : Regulated home limit b) (hs : b.Sound) (hm : b.hasMessage m)
    (hfind : b.find? (b.place home m) = some t) (hidle : b.isIdle m) :
    Regulated home limit (b.returnToBuffer t m) := by
  have hplace := (hs.tracked _ _ hfind).2.symm
  unfold Broker.returnToBuffer
  split
  · exact hr.quiet (.rebuffer b t m hplace)
  · next queue =>
      have ht := Touches.withdraw b t m
      have hc := hr.toCounted.withdraw hs hm hfind (Bool.eq_false_iff.2 queue)
      refine (hr.touches hc ht (by simp) hidle).quiet (.rebuffer _ t m ?_)
      rw [ht.toPreserves.place, ht.key, hplace]

theorem returned (hr : Regulated home limit b) (hs : b.Sound) (l : List MessageRef)
    (hm : ∀ m ∈ l, b.hasMessage m)
    (hl : ∀ m ∈ l, b.find? (b.place home m) = some t ∧ b.isIdle m) :
    Regulated home limit (l.foldl (Broker.returnToBuffer t) b) := by
  induction l generalizing b with
  | nil => exact hr
  | cons m l ih =>
      obtain ⟨hfind, hidle⟩ := hl m List.mem_cons_self
      have hp := (Touches.returnToBuffer t b m).toPreserves
      have hd := (returnToBuffer_frame t b m).2.2.2.2.2.2
      refine ih (hr.returnToBuffer hs (hm m List.mem_cons_self) hfind hidle)
        (hs.returned [m] (fun n hn => hm n ?_) t)
        (fun n hn => hp.hasMessage (hm n (List.mem_cons_of_mem _ hn))) fun n hn => ?_
      · rw [List.mem_singleton.1 hn]
        exact List.mem_cons_self
      · obtain ⟨hfind, hidle⟩ := hl n (List.mem_cons_of_mem _ hn)
        rw [hp.place, find?, (returnToBuffer_frame t b m).2.2.1, isIdle, hd]
        exact ⟨hfind, hidle⟩

theorem putBack (hr : Regulated home limit b) (hs : b.Sound) (r : Rules) {key : TrackedKey}
    (l : List MessageRef) (hm : ∀ m ∈ l, b.hasMessage m)
    (hl : ∀ m ∈ l, key = b.place home m ∧ b.isIdle m) :
    Regulated home limit ((Operation.rebuffer key l).apply r b) := by
  rw [Operation.apply_rebuffer]
  split
  · next t hfind =>
      exact hr.returned hs l hm fun m hm => ⟨by rw [← (hl m hm).1, hfind], (hl m hm).2⟩
  · exact hr

theorem acknowledge (hr : Regulated home limit b) (hs : b.Sound) (hm : b.hasMessage m)
    (hsr : s ∈ b.registry.all) (hidle : b.isIdle m) :
    Regulated home limit (b.acknowledge s m (home m)) :=
  hr.touches (hr.toCounted.acknowledge hs hm hsr) (Touches.acknowledge b s m (home m)) (by simp)
    hidle

theorem pairsOf_eq_nil (hr : Regulated home limit b) (hs : b.Sound) {key : TrackedKey}
    (h : ∀ t, b.find? key = some t → b.active t = []) : b.pairsOf home key = [] := by
  refine List.flatMap_eq_nil_iff.2 fun m hm => ?_
  obtain ⟨-, hplace⟩ := List.mem_filter.1 hm
  have hkey : b.place home m = key := of_decide_eq_true hplace
  rw [Message.outstanding_eq_nil (hs.tidy m) fun id => ?_, List.map_nil]
  refine Bool.eq_false_iff.2 fun held => ?_
  obtain ⟨t, hfind, hid⟩ := hr.placed m id held
  rw [h t (hkey ▸ hfind)] at hid
  exact absurd hid List.not_mem_nil

theorem letGo (hr : Regulated home limit b) (hs : b.Sound) (htracked : b.isTracked t = true)
    (hnone : b.active t = []) : Regulated home limit (b.letGo t) := by
  have hkey := (isTracked_iff b t).1 htracked
  have hfind : ∀ k, (b.letGo t).find? k = if k = (b.tracker t).key.tracked then none else b.find? k :=
    fun k => Dict.get?_erase _ _ _
  have hkeep : ∀ k v, b.find? k = some v → b.active v ≠ [] → (b.letGo t).find? k = some v := by
    intro k v hk hv
    rw [hfind, if_neg, hk]
    rintro rfl
    obtain rfl := Option.some.inj (hk.symm.trans hkey)
    exact hv hnone
  have hcounts : ∀ v, (b.letGo t).countsFor v ↔ b.countsFor v ∧ v ≠ t := by
    intro v
    rw [countsFor, countsFor, isTracked_iff, isTracked_iff, hfind, (letGo_frame b t).2.2.2.1]
    by_cases he : (b.tracker v).key.tracked = (b.tracker t).key.tracked
    · rw [if_pos he, he, hkey]
      refine iff_of_false (fun h => by simpa using h.1) fun h => ?_
      exact h.2 (Option.some.inj h.1.1).symm
    · rw [if_neg he]
      exact (and_iff_left fun hv => he (by rw [hv])).symm
  refine ⟨{ hr.toCounted with
    placed := fun m id held => ?_
    inFlight := fun v hv => ?_
    idle := fun v hv => ?_ }, fun j hj => ?_, hr.once⟩
  · obtain ⟨v, hv, hid⟩ := hr.placed m id held
    refine ⟨v, hkeep _ v hv fun hnil => ?_, hid⟩
    rw [hnil] at hid
    exact absurd hid List.not_mem_nil
  · exact hr.inFlight v ((hcounts v).1 hv).1
  · by_cases hc : b.countsFor v
    · obtain rfl : v = t := by
        by_contra hne
        exact hv ((hcounts v).2 ⟨hc, hne⟩)
      have h := hr.inFlight v hc
      rw [hr.pairsOf_eq_nil hs fun u hu => by
        rw [hkey] at hu
        rw [← Option.some.inj hu, hnone]] at h
      exact h
    · exact hr.idle v hc
  · have hw := hr.waiting j hj
    exact { hw with placed := hkeep _ _ hw.placed (List.ne_nil_of_mem hw.active) }

theorem evict (hr : Regulated home limit b) (hs : b.Sound) (hnone : b.active t = []) :
    Regulated home limit (b.evict t) := by
  rw [evict_eq]
  split
  · next htracked =>
      have hg := hr.letGo hs htracked hnone
      split
      · exact hg.quiet ((Quiet.drain _ t).trans (.settleAll _ _))
      · exact hg
  · exact hr

theorem delivers (hr : Regulated home r.ceiling b) (hs : b.Sound) (ht : b.hasTracker t)
    (hopen : b.isTracked t = true ∨ (b.tracker t).buffer = [] ∨ b.active t = [])
    (r' : Rules) (hlimit : r'.ceiling = r.ceiling) (hd : Delivers r' now t b b') :
    Regulated home r.ceiling b' := by
  refine hs.delivery_induction (P := Regulated home r.ceiling) ht hd hr (hr.evict hs)
    fun heard full c d hsc hp htr hrc hstep => ?_
  have htracked := hopen.resolve_right fun h => h.elim full heard
  rw [← hlimit] at hrc ⊢
  refine hrc.passStep hsc ?_ (fun s hs' => ?_) (fun m hm => ?_) hstep
  · rw [isTracked_iff, find?, htr, hp.key]
    exact (isTracked_iff b t).1 htracked
  · rwa [hp.active_eq]
  · rw [hp.place, hp.key]
    exact ⟨hp.hasMessage (hs.buffered t m hm), hr.buffered t m hm⟩

theorem trackNew (hr : Regulated home limit b) (hs : b.Sound) {key : DestinationKey}
    (hnone : b.find? key.tracked = none) : Regulated home limit (b.trackNew key) := by
  have hfind : ∀ k, (b.trackNew key).find? k =
      if k = key.tracked then some ⟨b.trackers.size⟩ else b.find? k := find?_trackNew b key
  have hkeep : ∀ k v, b.find? k = some v →
      (b.trackNew key).find? k = some v ∧ (b.trackNew key).tracker v = b.tracker v := by
    intro k v hk
    have hv : v.index < b.trackers.size := (hs.tracked k v hk).1
    rw [hfind, tracker_trackNew, if_neg (Nat.ne_of_lt hv), if_neg, hk]
    · exact ⟨rfl, rfl⟩
    · rintro rfl
      rw [hnone] at hk
      simp at hk
  have hcounts : ∀ v : TrackerRef, v.index ≠ b.trackers.size →
      ((b.trackNew key).countsFor v ↔ b.countsFor v) := by
    intro v hv
    rw [countsFor, countsFor, isTracked_iff, isTracked_iff, tracker_trackNew, if_neg hv, hfind]
    split
    · next he =>
        rw [he, hnone]
        refine iff_of_false (fun h => hv ?_) fun h => by simpa using h.1
        exact congrArg TrackerRef.index (Option.some.inj h.1).symm
    · exact Iff.rfl
  refine ⟨{ hr.toCounted with
    placed := fun m id held => ?_
    buffered := fun v m hm => ?_
    inFlight := fun v hv => ?_
    idle := fun v hv => ?_
    ceiling := fun v => ?_ }, fun j hj => ?_, hr.once⟩
  · obtain ⟨v, hv, hid⟩ := hr.placed m id held
    obtain ⟨hv', htracker⟩ := hkeep _ v hv
    refine ⟨v, hv', ?_⟩
    rw [active, htracker]
    exact hid
  · rw [buffer_trackNew] at hm
    rw [tracker_trackNew]
    split
    · next hv =>
        have hdefault : b.tracker v = default := b.trackers.get_of_size_le (Nat.le_of_eq hv.symm)
        rw [hdefault] at hm
        exact absurd hm List.not_mem_nil
    · exact hr.buffered v m hm
  -- The new tracker counts from 0, which is exact: no copy is out where no tracker was in use.
  · by_cases hnew : v.index = b.trackers.size
    · rw [tracker_trackNew, if_pos hnew]
      have hnil : b.pairsOf home key.tracked = [] :=
        hr.pairsOf_eq_nil hs fun t ht => by simp [hnone] at ht
      exact (congrArg List.length hnil).symm
    · have h := hr.inFlight v ((hcounts v hnew).1 hv)
      rw [tracker_trackNew, if_neg hnew]
      exact h
  · rw [tracker_trackNew]
    split
    · rfl
    · next hnew => exact hr.idle v fun hc => hv ((hcounts v hnew).2 hc)
  · rw [tracker_trackNew]
    split
    · exact Nat.zero_le _
    · exact hr.ceiling v
  · have hw := hr.waiting j hj
    obtain ⟨hfind', htracker⟩ := hkeep _ _ hw.placed
    refine ⟨hw.scheduled, ?_, hfind', ?_⟩
    · rw [active, htracker]
      exact hw.active
    · rw [htracker]
      exact hw.policy

theorem register (hr : Regulated home limit b) (hs : b.Sound)
    (hnew : ∀ e ∈ b.registry.entries, e.id ≠ (b.subscriber s).id) :
    Regulated home limit (b.register s) := by
  have hentries : (b.register s).registry.entries =
      b.registry.entries ++ [⟨(b.subscriber s).key, (b.subscriber s).id, s⟩] :=
    Registry.place_eq_append fun e he h => hnew e he h.2
  have hall : (b.register s).registry.all = b.registry.all ++ [s] := by
    rw [Registry.all, hentries, List.map_append]
    rfl
  have hmore : ∀ t u, u ∈ b.active t → u ∈ (b.register s).active t := fun t u hu => by
    have hsub : b.registry.entries.Sublist (b.register s).registry.entries := by
      rw [hentries]
      exact List.sublist_append_left _ _
    exact ((hsub.filter _).map _).subset hu
  have hfree : ∀ u ∈ b.registry.all, (b.subscriber u).id ≠ (b.subscriber s).id := by
    intro u hu
    obtain ⟨e, he, rfl⟩ := List.mem_map.1 hu
    rw [(hs.registered e he).2.2]
    exact hnew e he
  have hnobody : ∀ m, (b.message m).isHeldBy (b.subscriber s).id = false := by
    refine fun m => Bool.eq_false_iff.2 fun held => ?_
    obtain ⟨t, -, hid⟩ := hr.placed m _ held
    obtain ⟨u, hu, he⟩ := List.mem_map.1 hid
    exact hfree u ((List.filter_sublist.map _).subset hu) he
  refine ⟨{ hr.toCounted with
    placed := fun m id held => ?_
    single := ?_
    unacked := fun u hu => ?_
    unregistered := fun u hu => ?_ }, fun j hj => ?_, hr.once⟩
  · obtain ⟨t, ht, hid⟩ := hr.placed m id held
    obtain ⟨u, hu, he⟩ := List.mem_map.1 hid
    exact ⟨t, ht, List.mem_map.2 ⟨u, hmore t u hu, he⟩⟩
  · rw [hentries, List.map_append]
    refine List.nodup_append.2 ⟨hr.single, by simp, fun c hc d hd he => ?_⟩
    obtain ⟨e, he', rfl⟩ := List.mem_map.1 hc
    exact hnew e he' (he.trans (List.mem_singleton.1 hd))
  · rw [hall, List.mem_append, List.mem_singleton] at hu
    obtain hu | rfl := hu
    · exact hr.unacked u hu
    · have hzero : b.heldBy (b.subscriber u).id = 0 :=
        List.countP_eq_zero.2 fun m _ => by rw [hnobody]; exact Bool.false_ne_true
      exact (hr.unregistered u fun hu => hfree u hu rfl).trans hzero.symm
  · exact hr.unregistered u fun h => hu (by rw [hall]; exact List.mem_append_left _ h)
  · have hw := hr.waiting j hj
    exact { hw with active := hmore _ _ hw.active }

theorem addMessage (hr : Regulated home limit b) (hs : b.Sound) {x : Message}
    (hx : x.recipients = .empty) : Regulated home limit (b.addMessage x).2 := by
  have hrecipients : ∀ n, ((b.addMessage x).2.message n).recipients = (b.message n).recipients := by
    intro n
    rw [message_addMessage]
    split
    · next hn => rw [hx, message_eq_default (Nat.not_lt_of_le (Nat.le_of_eq hn.symm))]; rfl
    · rfl
  have hplace : ∀ n, b.hasMessage n → (b.addMessage x).2.place home n = b.place home n :=
    fun n hn => by rw [Broker.place, message_addMessage, if_neg (Nat.ne_of_lt hn)]; rfl
  have hsize : b.messages.size ≤ (b.addMessage x).2.messages.size := by
    rw [Broker.addMessage, Table.size_push]
    exact Nat.le_succ _
  refine ⟨{ hr.toCounted with
    placed := fun m id held => ?_
    buffered := fun t m hm => ?_
    unacked := fun u hu => ?_
    inFlight := fun t ht => ?_ }, fun j hj => ?_, hr.once⟩
  · rw [Message.isHeldBy, Message.status?, hrecipients] at held
    have hm : b.hasMessage m := by
      by_contra hm
      rw [message_eq_default hm] at held
      exact Bool.false_ne_true held
    rw [hplace m hm]
    exact hr.placed m id held
  · rw [hplace m (hs.buffered t m hm)]
    exact hr.buffered t m hm
  · rw [heldBy_congr hsize hrecipients]
    exact hr.unacked u hu
  · rw [length_pairsOf_congr hsize hrecipients hplace]
    exact hr.inFlight t ht
  · have hw := hr.waiting j hj
    refine ⟨?_, hw.active, ?_, hw.policy⟩
    · rw [Message.status?, hrecipients]
      exact hw.scheduled
    · rw [hplace _ (hs.jobs j hj).2.1]
      exact hw.placed

theorem addSubscriber (hr : Regulated home limit b) (hs : b.Sound) {x : Subscription}
    (hx : x.unacked = .zero) : Regulated home limit (b.addSubscriber x).2 := by
  have hold : ∀ u, b.hasSubscriber u → (b.addSubscriber x).2.subscriber u = b.subscriber u :=
    fun u hu => by rw [subscriber_addSubscriber, if_neg (Nat.ne_of_lt hu)]
  have hall : ∀ u ∈ b.registry.all, b.hasSubscriber u := by
    intro u hu
    obtain ⟨e, he, rfl⟩ := List.mem_map.1 hu
    exact (hs.registered e he).1
  have hids : ∀ t, (b.addSubscriber x).2.idsOf (b.active t) = b.idsOf (b.active t) := fun t =>
    List.map_congr_left fun u hu => by rw [hold u (hs.mem_active hu).1]
  refine ⟨{ hr.toCounted with
    placed := fun m id held => ?_
    unacked := fun u hu => ?_
    unregistered := fun u hu => ?_
    window := fun u => ?_ }, fun j hj => ?_, ?_⟩
  · obtain ⟨t, ht, hid⟩ := hr.placed m id held
    exact ⟨t, ht, by rw [← hids] at hid; exact hid⟩
  · rw [hold u (hall u hu)]
    exact hr.unacked u hu
  · rw [subscriber_addSubscriber]
    split
    · rw [hx]; rfl
    · exact hr.unregistered u hu
  · rw [subscriber_addSubscriber]
    split
    · rw [hx]; exact Nat.zero_le _
    · exact hr.window u
  · have hw := hr.waiting j hj
    refine ⟨?_, hw.active, hw.placed, hw.policy⟩
    rw [hold _ (hs.jobs j hj).1]
    exact hw.scheduled
  · have hcopies : b.dispatcher.jobs.map (b.addSubscriber x).2.copyOf =
        b.dispatcher.jobs.map b.copyOf :=
      List.map_congr_left fun j hj => by rw [copyOf, copyOf, hold _ (hs.jobs j hj).1]
    exact (congrArg List.Nodup hcopies).mpr hr.once

theorem apply (hr : Regulated home r.ceiling b) (hs : b.Sound) {h : Journal} (op : Operation)
    (hu : op.uses b) (ht : steadyTerms home b h op) :
    Regulated home r.ceiling (op.apply r b) := by
  cases op with
  | createSlot => exact hr.quiet { Quiet.refl b with }
  | createMessage =>
      exact Operation.createMessage_induction (P := Regulated home r.ceiling) hr
        fun _ => hr.addMessage hs rfl
  | createSubscriber => exact hr.addSubscriber hs rfl
  | connect s outbound => exact hr.quiet (.connect b s outbound)
  | register s => exact hr.register hs ht.1
  | unregister => exact ht.1.elim
  | track key =>
      unfold Operation.apply
      dsimp only
      rw [track_eq]
      split
      · exact hr
      · next hnone => exact hr.trackNew hs hnone
  | buffer batch p t => exact hr.quiet (.bufferBatch b batch p t ht.1)
  | rebuffer key l => exact hr.putBack hs r l hu ht.1
  | requeue m type =>
      obtain ⟨⟨rfl, hidle⟩, -⟩ := ht
      refine hr.putBack hs r [m] (fun n hn => ?_) fun n hn => ?_
      · rw [List.mem_singleton.1 hn]
        exact hu
      · rw [List.mem_singleton.1 hn]
        exact ⟨rfl, hidle⟩
  | flush vetoes now t =>
      exact hr.delivers hs hu ht.2 { r with vetoes } rfl (flush_delivers b (hs.active_nodup t))
  | send vetoes now t =>
      exact hr.delivers hs hu ht.2 { r with vetoes } rfl
        (sendBuffered_delivers b (hs.active_nodup t))
  | findNext t active =>
      obtain ⟨rfl, -⟩ := ht
      unfold Operation.apply findNext
      dsimp only
      split
      · next hnone => exact hr.evict hs (List.isEmpty_iff.1 hnone)
      · exact hr.quiet (.nextSubscriber b t _)
  | clear key =>
      unfold Operation.apply clear
      dsimp only
      split
      · exact hr.quiet (.drain b _)
      · exact hr
  | purge now key storageQueue =>
      have hp : Quiet home b (b.recordPurge storageQueue now) := { Quiet.refl b with }
      unfold Operation.apply purge
      dsimp only
      split
      · exact hr.quiet ((hp.trans (.drain _ _)).trans (.foldl .consumePurged _ _))
      · exact hr.quiet hp
  | acknowledge s m type =>
      obtain ⟨⟨hsr, rfl, hidle⟩, -⟩ := ht
      exact hr.acknowledge hs hu.2 hsr hidle
  | runJob place => exact hr.runJob hs place
  | close => exact hr.quiet { Quiet.refl b with }
  | shutdown => exact hr.shutdown hs
  | deleteExpired condition => exact hr.quiet (.deletes (b.deleteExpired_deletes condition))

end Regulated

end Broker

variable {home : MessageRef → DestinationType} {r : Rules} {b : Broker} {h : Journal}

theorem Reaches.regulated (hr : Reaches r (steadyTerms home) b h) :
    Regulated home r.ceiling b := by
  induction hr with
  | start =>
      refine ⟨⟨fun m s hm => ?_, List.nodup_nil, fun t m hm => ?_, fun s hs => ?_, fun _ _ => rfl,
        fun _ _ => rfl, fun _ _ => rfl, fun _ => Nat.zero_le _, fun _ => Nat.zero_le _⟩,
        fun j hj => absurd hj List.not_mem_nil, List.nodup_nil⟩
      · exact absurd hm Bool.false_ne_true
      · exact absurd hm List.not_mem_nil
      · exact absurd hs List.not_mem_nil
  | step op prior hu ht ih => exact ih.apply prior.sound op hu ht

/-- Flow control is exact and bounded: the window of a subscriber counts the messages that are
scheduled for it or delivered to it, the count of a queue or durable topic counts the copies of its
messages that are out, and both stay within their bounds. Other trackers, those of topics and those
that were let go, count nothing. -/
theorem reservations_exact (hr : Reaches r (steadyTerms home) b h) :
    (∀ s ∈ b.registry.all, (b.subscriber s).unacked.toNat =
        (b.references.filter fun m =>
          (b.message m).status? (b.subscriber s).id = some .scheduled ∨
            (b.message m).status? (b.subscriber s).id = some .delivered).length) ∧
      (∀ s, s ∉ b.registry.all → (b.subscriber s).unacked.toNat = 0) ∧
      (∀ s, (b.subscriber s).unacked.value ≤ (b.subscriber s).window) ∧
      (∀ t, b.isTracked t = true → (b.tracker t).isTopic = false →
        ∃ pairs : List (MessageRef × SubscriberId), pairs.Nodup ∧
          (∀ m id, (m, id) ∈ pairs ↔ b.hasMessage m ∧
            (home m = (b.tracker t).key.type ∧
              (b.message m).destination = (b.tracker t).key.destination) ∧
            ((b.message m).status? id = some .scheduled ∨
              (b.message m).status? id = some .delivered)) ∧
          (b.tracker t).inFlight.toNat = pairs.length) ∧
      (∀ t, b.isTracked t = false ∨ (b.tracker t).isTopic = true →
        (b.tracker t).inFlight.toNat = 0) ∧
      ∀ t, (b.tracker t).inFlight.value ≤ r.ceiling := by
  have hreg := hr.regulated
  refine ⟨fun s hs => ?_, hreg.unregistered, fun s => UInt64.le_iff_toNat_le.2 (hreg.window s),
    fun t htracked topic => ⟨b.pairsOf home (b.tracker t).key.tracked,
      b.pairsOf_nodup hr.sound.tidy _, fun m id => ?_, hreg.inFlight t ⟨htracked, topic⟩⟩,
    fun t ht => ?_,
    fun t => UInt64.le_iff_toNat_le.2 (hreg.ceiling t)⟩
  · rw [hreg.unacked s hs, heldBy, List.countP_eq_length_filter]
    congr 1
    refine List.filter_congr fun m _ => ?_
    rw [Bool.eq_iff_iff, Message.isHeldBy_iff, decide_eq_true_iff]
  · rw [mem_pairsOf hr.sound.tidy, Message.isHeldBy_iff, Broker.place, DestinationKey.tracked,
      TrackedKey.mk.injEq]
  · refine hreg.idle t fun hc => ?_
    obtain ht | ht := ht
    · simp [hc.1] at ht
    · simp [hc.2] at ht

theorem reservations_exact_workerRun :
    Follows workerRules (steadyTerms fun _ => .queue) workerRun default default ∧
      ((replay workerRules workerRun default default).1.subscriber ⟨0⟩).unacked.value = 1 ∧
      ((replay workerRules workerRun default default).1.tracker ⟨0⟩).inFlight.value = 1 ∧
      ((replay workerRules workerRun default default).1.tracker ⟨0⟩).inFlight.value ≤
        workerRules.ceiling :=
  have hf : Follows workerRules (steadyTerms fun _ => .queue) workerRun default default := by
    decide
  ⟨hf, by decide, by decide,
    (reservations_exact (Reaches.start.replay workerRun hf)).2.2.2.2.2 ⟨0⟩⟩

/-- A tracker is let go before its first subscriber comes. Then there are two for one destination,
and one of them gets the message. -/
def staleRun (t : TrackerRef) : List Operation :=
  [.createSlot "stored", .createMessage 1 "orders" "stored" "book" 0 0,
    .createSubscriber "worker" ⟨"orders", .amqp, .queue⟩ "local" 1 default,
    .track ⟨"orders", .amqp, .queue⟩, .flush [] 0 ⟨0⟩, .register ⟨0⟩,
    .track ⟨"orders", .amqp, .queue⟩, .buffer [⟨0⟩] ⟨0⟩ t, .flush [] 0 t]

/-- A delivery through a tracker that was let go escapes the tracker in use, and a tracker that was
let go does not count what the one in use delivers. -/
theorem uncounted_staleRun :
    (¬ ∀ (home : MessageRef → DestinationType) (r : Rules) (b : Broker) (h : Journal),
      Reaches r (flowTerms home) b h → ∀ t, b.isTracked t = true →
        (b.tracker t).isTopic = false →
          (b.tracker t).inFlight.toNat = (b.pairsOf home (b.tracker t).key.tracked).length) ∧
      ¬ ∀ (home : MessageRef → DestinationType) (r : Rules) (b : Broker) (h : Journal),
        Reaches r (steadyTerms home) b h → ∀ t, b.hasTracker t →
          (b.tracker t).isTopic = false →
            (b.tracker t).inFlight.toNat = (b.pairsOf home (b.tracker t).key.tracked).length := by
  refine ⟨fun hall => ?_, fun hall => ?_⟩
  · have hf : Follows workerRules (flowTerms fun _ => .queue) (staleRun ⟨0⟩) default default := by
      decide
    have h := hall _ _ _ _ (Reaches.start.replay _ hf) ⟨1⟩ (by decide) (by decide)
    exact absurd h (by decide)
  · have hf : Follows workerRules (steadyTerms fun _ => .queue) (staleRun ⟨1⟩) default default := by
      decide
    have h := hall _ _ _ _ (Reaches.start.replay _ hf) ⟨0⟩ (by decide) (by decide)
    exact absurd h (by decide)

end Courier
