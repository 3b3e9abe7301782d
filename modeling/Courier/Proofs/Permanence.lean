import Courier.Lists
import Courier.Proofs.Still

namespace Courier

open Broker
open Relation (ReflTransGen)

namespace Broker

section

variable (now : UInt64) (s : SubscriberRef) (m : MessageRef)

def visited : List Stage → Broker → List Stage
  | [], _ => []
  | .purge :: rest, b => .purge :: if (b.purgeStage m).1 = none then visited rest b else []
  | .expiry :: rest, b => .expiry :: if (b.expiryStage now m).1 = none then visited rest b else []
  | .veto v :: rest, b => .veto v :: if b.vetoStage v s m = none then visited rest b else []
  | .dispatch :: _, _ => [.dispatch]

/-- What a pass does not come to makes no difference. -/
theorem runStages_visited (t : TrackerRef) (policy : FailurePolicy) (stages : List Stage)
    (b : Broker) :
    b.runStages now s m t policy (b.visited now s m stages) =
      b.runStages now s m t policy stages := by
  induction stages with
  | nil => rfl
  | cons stage rest ih =>
      cases stage with
      | purge =>
          by_cases hp : b.isPurged m = true
          · simp [visited, runStages, purgeStage, hp]
          · simpa [visited, runStages, purgeStage, hp] using ih
      | expiry =>
          by_cases he : (b.message m).expired = true
          · simp [visited, runStages, expiryStage, he]
          · by_cases hx : (b.message m).hasExpired now = true
            · simp [visited, runStages, expiryStage, he, hx]
            · simpa [visited, runStages, expiryStage, he, hx] using ih
      | veto v =>
          by_cases hv : v.rejects (b.subscriber s) (b.message m) = true
          · simp [visited, runStages, vetoStage, hv]
          · simpa [visited, runStages, vetoStage, hv] using ih
      | dispatch => rfl

end

def Overtaken (b : Broker) (m : MessageRef) : Prop :=
  ∃ time, b.lastPurge (b.message m).storageQueue = some time ∧ (b.message m).arrival ≤ time

variable {r : Rules} {now : UInt64} {s : SubscriberRef} {t : TrackerRef} {m n : MessageRef}
  {policy : FailurePolicy} {b b' : Broker} {outcome : FilterOutcome} {active : List SubscriberRef}
  {batch : List MessageRef} {op : Operation}

theorem Overtaken.isPurged (ho : b.Overtaken m) : b.isPurged m = true := by
  obtain ⟨time, hlast, hearly⟩ := ho
  simp [Broker.isPurged, hlast, hearly]

theorem Overtaken.congr (ho : b.Overtaken m) (hp : Preserves b b') (hpurges : b'.purges = b.purges) :
    b'.Overtaken m := by
  obtain ⟨time, hlast, hearly⟩ := ho
  have hqueue : (b'.message m).storageQueue = (b.message m).storageQueue :=
    (congrArg Message.storageQueue (hp.made m) :)
  have harrival : (b'.message m).arrival = (b.message m).arrival :=
    (congrArg Message.arrival (hp.made m) :)
  exact ⟨time, by rwa [lastPurge, hpurges, hqueue], by rwa [harrival]⟩

theorem handle_of_isPurged (hp : b.isPurged m = true) (r : Rules) (now : UInt64) (s : SubscriberRef)
    (t : TrackerRef) (policy : FailurePolicy) :
    b.visited now s m r.stages = [.purge] ∧
      b.handle r now s m t policy = (.purged, (b.markPurged m).settle m) := by
  simp [visited, handle, Rules.stages, runStages, purgeStage, hp]

def jobsOf (b : Broker) (m : MessageRef) : List Job :=
  b.dispatcher.jobs.filter fun j => j.message = m

structure Spares (m : MessageRef) (b b' : Broker) : Prop where
  jobs : b'.jobsOf m = b.jobsOf m
  expired : b'.expired.count m = b.expired.count m

theorem Spares.of_frame (hd : b'.dispatcher = b.dispatcher) (he : b'.expired = b.expired) :
    Spares m b b' :=
  ⟨by rw [jobsOf, hd, jobsOf], by rw [he]⟩

theorem Spares.trans {c : Broker} (h : Spares m b b') (h' : Spares m b' c) : Spares m b c :=
  ⟨h'.jobs.trans h.jobs, h'.expired.trans h.expired⟩

theorem Handled.spares (hh : Handled r now s n t policy b outcome b') (hp : b.isPurged m = true) :
    Spares m b b' := by
  have hother : b.isPurged n = false → n ≠ m := by
    rintro hkept rfl
    exact absurd (hkept.symm.trans hp) Bool.false_ne_true
  cases hh with
  | purged => exact .of_frame (by simp [Broker.markPurged]) (by simp [Broker.markPurged])
  | marked | vetoed | alreadyInFlight => exact .of_frame rfl rfl
  | expired kept =>
      refine ⟨by simp [jobsOf, Broker.markExpired], ?_⟩
      simp [Broker.addExpired, Broker.markExpired, List.count_append, hother kept]
  | dispatched deliverable =>
      refine ⟨?_, by simp⟩
      simp [jobsOf, List.filter_append, hother deliverable.kept]
  | failed => exact .of_frame (by simp) (by simp)

theorem Spares.offer (hp : b.isPurged m = true) (r : Rules) (now : UInt64) (t : TrackerRef)
    (s : SubscriberRef) (n : MessageRef) : Spares m b (b.offer r now t s n).2 := by
  obtain ⟨outcome, c, hc, hh⟩ := exists_handled b r now s n t .rebuffer
  rw [Broker.offer, hc]
  have hspares := hh.spares hp
  cases outcome with
  | vetoed => exact hspares.trans (.of_frame (by simp) (by simp))
  | alreadyInFlight => exact hspares.trans (.of_frame (by simp) (by simp))
  | purged | expired | dispatched | failed => exact hspares

theorem Spares.spread (hp : b.isPurged m = true) (r : Rules) (now : UInt64) (t : TrackerRef)
    (n : MessageRef) (policy : FailurePolicy) (s : SubscriberRef) :
    Spares m b (spread r now t n policy s b).2 := by
  obtain ⟨outcome, c, hc, hh⟩ := exists_handled b r now s n t policy
  rw [Broker.spread, hc]
  have hspares := hh.spares hp
  cases outcome with
  | purged | expired => exact hspares.trans (.of_frame (by simp) (by simp))
  | vetoed => exact hspares.trans (.of_frame (by simp [setStatus]) (by simp [setStatus]))
  | alreadyInFlight | dispatched | failed => exact hspares

theorem PassStep.spares (hstep : PassStep r now t active batch b b') (ho : b.Overtaken m) :
    Spares m b b' := by
  cases hstep with
  | turn => exact .of_frame (by simp) (by simp)
  | discard => exact .of_frame (by simp [setStatus]) (by simp [setStatus])
  | retire => exact .of_frame (by simp) (by simp)
  | offer n rest s =>
      have htaken : (b.unbuffer t n).Overtaken m :=
        ho.congr (Touches.unbuffer b t n).toPreserves (Touches.unbuffer b t n).purges
      have hunbuffer : Spares m b (b.unbuffer t n) := .of_frame (by simp) (by simp)
      exact hunbuffer.trans (.offer htaken.isPurged r now t s n)
  | spread n s => exact .spread ho.isPurged r now t n _ s

theorem PassStep.purges (hstep : PassStep r now t active batch b b') : b'.purges = b.purges := by
  obtain rfl | ⟨n, -, htouch⟩ := hstep.touches
  · simp
  · exact htouch.purges

theorem Sound.purges_delivers (hs : b.Sound) (ht : b.hasTracker t) (hd : Delivers r now t b b') :
    b'.purges = b.purges := by
  exact hs.delivery_induction ht hd (P := fun c => c.purges = b.purges) rfl
    (fun _ => (evict_frame b t).2.2) fun _ _ c d _ _ _ hc hstep => hstep.purges.trans hc

theorem Sound.spares_delivers (hs : b.Sound) (ht : b.hasTracker t) (hd : Delivers r now t b b')
    (ho : b.Overtaken m) : Spares m b b' := by
  have hall : Spares m b b' ∧ b'.purges = b.purges := by
    refine hs.delivery_induction ht hd (P := fun c => Spares m b c ∧ c.purges = b.purges)
      ⟨.of_frame rfl rfl, rfl⟩ (fun _ => ?_) fun _ _ c d _ hp _ ⟨hc, hpurges⟩ hstep => ?_
    · obtain ⟨hdispatcher, hexpired, hpurges⟩ := evict_frame b t
      exact ⟨.of_frame hdispatcher hexpired, hpurges⟩
    · exact ⟨hc.trans (hstep.spares (ho.congr hp hpurges)), hstep.purges.trans hpurges⟩
  exact hall.1

theorem foldl_aside {f : Broker → MessageRef → Broker}
    (hf : ∀ b m, (f b m).purges = b.purges ∧ (f b m).expired = b.expired) (l : List MessageRef)
    (b : Broker) : (l.foldl f b).purges = b.purges ∧ (l.foldl f b).expired = b.expired := by
  induction l generalizing b with
  | nil => exact ⟨rfl, rfl⟩
  | cons m l ih => exact ⟨(ih _).1.trans (hf b m).1, (ih _).2.trans (hf b m).2⟩

theorem putBack_aside (r : Rules) (b : Broker) (key : TrackedKey) (l : List MessageRef) :
    ((Operation.rebuffer key l).apply r b).purges = b.purges ∧
      ((Operation.rebuffer key l).apply r b).expired = b.expired := by
  rw [Operation.apply_rebuffer]
  split
  · exact foldl_aside (fun b m => by simp) l b
  · exact ⟨rfl, rfl⟩

theorem runJob_aside (b : Broker) (place : Nat) :
    (b.runJob place).purges = b.purges ∧ (b.runJob place).expired = b.expired := by
  rw [runJob]
  split <;> simp

theorem purges_purge (b : Broker) (now : UInt64) (key : TrackedKey) (storageQueue : String) :
    (b.purge now key storageQueue).2.purges = (b.recordPurge storageQueue now).purges := by
  rw [Broker.purge]
  dsimp only
  split
  · next t _ =>
      rw [(foldl_aside (fun b m => by simp [consumePurged, markPurged]) _ _).1]
      simp
  · rfl

theorem purges_deletes {condition : StoreCondition} (hd : Deletes b condition b') :
    b'.purges = b.purges := by
  cases hd with
  | deleted | refused | lost => simp

theorem expired_deletes {condition : StoreCondition} (hd : Deletes b condition b') :
    b'.expired.Sublist b.expired := by
  cases hd with
  | deleted | refused | lost => simp

end Broker

theorem Operation.apply_aside {op : Operation} (hop : op.delivery? = none)
    (hpurge : ∀ now key storageQueue, op ≠ .purge now key storageQueue)
    (hdelete : ∀ condition, op ≠ .deleteExpired condition) (r : Rules) (b : Broker) :
    (op.apply r b).purges = b.purges ∧ (op.apply r b).expired = b.expired := by
  cases op with
  | flush | send => exact absurd hop nofun
  | purge => exact absurd rfl (hpurge _ _ _)
  | deleteExpired => exact absurd rfl (hdelete _)
  | createMessage =>
      exact createMessage_induction (P := fun c => c.purges = b.purges ∧ c.expired = b.expired)
        ⟨rfl, rfl⟩ fun _ => ⟨rfl, rfl⟩
  | createSlot | createSubscriber | connect | register | unregister | close => exact ⟨rfl, rfl⟩
  | track key =>
      rw [apply, track_eq]
      split <;> simp
  | buffer batch p t =>
      exact foldl_aside (fun b m => by simp) batch (b.raiseSlot p (.ofNat batch.length))
  | rebuffer key l => exact putBack_aside r b key l
  | requeue m type => exact putBack_aside r b ⟨type, (b.message m).destination⟩ [m]
  | findNext t active =>
      rw [apply, Broker.findNext]
      split
      · obtain ⟨-, hexpired, hpurges⟩ := evict_frame b t
        exact ⟨hpurges, hexpired⟩
      · simp
  | clear key =>
      rw [apply, Broker.clear]
      split <;> simp
  | acknowledge s m type => simp [apply]
  | runJob place => exact runJob_aside b place
  | shutdown =>
      exact shutdown_induction (h := default)
        (P := fun c _ => c.purges = b.purges ∧ c.expired = b.expired) ⟨rfl, rfl⟩
        (fun c _ hc => ⟨(runJob_aside c 0).1.trans hc.1, (runJob_aside c 0).2.trans hc.2⟩)
        fun _ _ hc => hc

namespace Broker.Sound

variable {b : Broker} {op : Operation} {m : MessageRef} {d : Deed}

theorem purges_apply (hs : b.Sound) (hu : op.uses b) (r : Rules)
    (hpurge : ∀ now key storageQueue, op ≠ .purge now key storageQueue) :
    (op.apply r b).purges = b.purges := by
  cases op with
  | flush vetoes now t => exact hs.purges_delivers hu (flush_delivers b (hs.active_nodup t))
  | send vetoes now t => exact hs.purges_delivers hu (sendBuffered_delivers b (hs.active_nodup t))
  | deleteExpired condition => exact purges_deletes (b.deleteExpired_deletes condition)
  | purge => exact absurd rfl (hpurge _ _ _)
  | _ => exact (Operation.apply_aside rfl (by nofun) (by nofun) r b).1

theorem expired_apply (hs : b.Sound) (hu : op.uses b) (r : Rules) (ho : b.Overtaken m) :
    (op.apply r b).expired.count m ≤ b.expired.count m := by
  cases op with
  | flush vetoes now t =>
      exact Nat.le_of_eq (hs.spares_delivers hu (flush_delivers b (hs.active_nodup t)) ho).expired
  | send vetoes now t =>
      exact Nat.le_of_eq (hs.spares_delivers hu (sendBuffered_delivers b (hs.active_nodup t)) ho).expired
  | deleteExpired condition =>
      exact (expired_deletes (b.deleteExpired_deletes condition)).count_le m
  | purge now key storageQueue =>
      rw [Operation.apply, Broker.purge]
      split <;> simp [Broker.recordPurge]
  | _ =>
      refine Nat.le_of_eq (congrArg _ (Operation.apply_aside rfl ?_ ?_ r b).2)
      · simp
      · simp

theorem jobsOf_apply (hs : b.Sound) (hu : op.uses b) (r : Rules) (ho : b.Overtaken m) :
    ((op.apply r b).jobsOf m).Sublist (b.jobsOf m) := by
  cases op with
  | flush vetoes now t =>
      exact (hs.spares_delivers hu (flush_delivers b (hs.active_nodup t)) ho).jobs ▸ .refl _
  | send vetoes now t =>
      exact (hs.spares_delivers hu (sendBuffered_delivers b (hs.active_nodup t)) ho).jobs ▸ .refl _
  | _ => exact (Operation.jobs_sublist rfl r b).filter _

end Broker.Sound

def timesOf (storageQueue : String) (purges : List (String × UInt64)) : List UInt64 :=
  (purges.filter fun e => e.1 = storageQueue).map Prod.snd

namespace Broker

variable {b b' : Broker} {purges : List (String × UInt64)}

theorem lastPurge_recordPurge (b : Broker) (storageQueue : String) (time : UInt64) (queue : String) :
    (b.recordPurge storageQueue time).lastPurge queue =
      if queue = storageQueue then some (((b.lastPurge storageQueue).map (max · time)).getD time)
      else b.lastPurge queue := by
  rw [lastPurge, recordPurge, Dict.get?_insert]
  cases b.lastPurge storageQueue <;> rfl

def Remembers (b : Broker) (purges : List (String × UInt64)) : Prop :=
  ∀ queue, b.lastPurge queue = (timesOf queue purges).max?

theorem Remembers.recordPurge (hx : b.Remembers purges) (storageQueue : String) (time : UInt64) :
    (b.recordPurge storageQueue time).Remembers (purges ++ [(storageQueue, time)]) := by
  intro queue
  rw [lastPurge_recordPurge, hx, hx]
  split
  · next h => simp [timesOf, h, max?_append_singleton]
  · next h => simp [timesOf, Ne.symm h]

theorem Remembers.congr (hx : b.Remembers purges) (hp : b'.purges = b.purges) :
    b'.Remembers purges := by
  intro queue
  rw [lastPurge, hp]
  exact hx queue

end Broker

def Deed.recorded : Deed → List (String × UInt64)
  | operation _ (.purge now _ storageQueue) => [(storageQueue, now)]
  | _ => []

theorem Broker.Remembers.deed {b : Broker} {purges : List (String × UInt64)} {d : Deed}
    (hx : b.Remembers purges) (hs : b.Sound) (hd : d.Refers b) :
    (d.apply b).Remembers (purges ++ d.recorded) := by
  have hsame : ∀ {c : Broker}, c.purges = b.purges → c.Remembers (purges ++ []) := fun hc => by
    rw [List.append_nil]
    exact hx.congr hc
  cases d with
  | standAlone key seed => exact hsame rfl
  | submit j => exact hsame (Touches.submit b j).purges
  | operation r op =>
      have hother : (∀ now key storageQueue, op ≠ .purge now key storageQueue) →
          (op.apply r b).Remembers (purges ++ []) := fun hop => hsame (hs.purges_apply hd r hop)
      cases op with
      | purge now key storageQueue =>
          have hpurged := purges_purge b now key storageQueue
          exact (hx.recordPurge storageQueue now).congr hpurged
      | _ => exact hother (by nofun)

/-- The states that a run comes to, those in the midst of a pass among them, and the purges that
were recorded on the way. -/
inductive Course : Broker → List (String × UInt64) → Prop
  | start : Course default []
  | deed {b : Broker} {purges : List (String × UInt64)} (d : Deed) (prior : Course b purges)
      (refers : d.Refers b) : Course (d.apply b) (purges ++ d.recorded)
  | recorded {b : Broker} {purges : List (String × UInt64)} (storageQueue : String) (time : UInt64)
      (prior : Course b purges) :
      Course (b.recordPurge storageQueue time) (purges ++ [(storageQueue, time)])
  | step {b c : Broker} {purges : List (String × UInt64)} {r : Rules} {now : UInt64}
      {t : TrackerRef} {active : List SubscriberRef} {batch : List MessageRef}
      (prior : Course b purges) (ht : b.hasTracker t) (hactive : ∀ s ∈ active, b.hasSubscriber s)
      (hbatch : ∀ m ∈ batch, b.hasMessage m) (step : PassStep r now t active batch b c) :
      Course c purges
  | taken {b : Broker} {purges : List (String × UInt64)} (t : TrackerRef) (m : MessageRef)
      (prior : Course b purges) (hm : b.hasMessage m) : Course (b.unbuffer t m) purges
  | handled {b : Broker} {purges : List (String × UInt64)} (r : Rules) (now : UInt64)
      (s : SubscriberRef) (m : MessageRef) (t : TrackerRef) (policy : FailurePolicy)
      (prior : Course b purges) (hj : b.hasJob ⟨s, m, t, policy⟩) :
      Course (b.handle r now s m t policy).2 purges

namespace Course

variable {b : Broker} {purges : List (String × UInt64)}

theorem sound (hc : Course b purges) : b.Sound := by
  induction hc with
  | start => exact sound_default
  | deed d _ refers ih => exact ih.deed d refers
  | recorded storageQueue time _ ih => exact ih.recordPurge storageQueue time
  | step _ ht hactive hbatch step ih => exact (ih.passStep step ht hactive hbatch).1
  | taken t m _ hm ih =>
      exact ih.touches (Touches.unbuffer _ t m) hm fun j hj => ih.jobs j (by simpa using hj)
  | @handled b _ r now s m t policy _ hj ih =>
      obtain ⟨outcome, c, hc, hh⟩ := exists_handled b r now s m t policy
      rw [hc]
      refine ih.touches hh.touches hj.2.1 fun j hjob => ?_
      obtain he | he := hh.jobs_eq
      · exact ih.jobs j (he ▸ hjob)
      · rw [he, List.mem_append, List.mem_singleton] at hjob
        obtain hjob | rfl := hjob
        · exact ih.jobs j hjob
        · exact hj

theorem remembers (hc : Course b purges) : b.Remembers purges := by
  induction hc with
  | start => exact fun _ => rfl
  | deed d prior refers ih => exact ih.deed prior.sound refers
  | recorded storageQueue time _ ih => exact ih.recordPurge storageQueue time
  | step _ _ _ _ step ih => exact ih.congr step.purges
  | taken t m _ _ ih => exact ih.congr (Touches.unbuffer _ t m).purges
  | @handled b _ r now s m t policy _ _ ih =>
      exact ih.congr (handle_handled b r now s m t policy).touches.purges

theorem overtaken (hc : Course b purges) {time : UInt64} {m : MessageRef}
    (purged : ((b.message m).storageQueue, time) ∈ purges) (early : (b.message m).arrival ≤ time) :
    b.Overtaken m := by
  have hmem : time ∈ timesOf (b.message m).storageQueue purges :=
    List.mem_map.2 ⟨_, List.mem_filter.2 ⟨purged, by simp⟩, rfl⟩
  obtain ⟨latest, hlatest⟩ := Option.isSome_iff_exists.1 (List.isSome_max?_of_mem hmem)
  refine ⟨latest, (hc.remembers _).trans hlatest, UInt64.le_trans early ?_⟩
  exact (List.max?_eq_some_iff.1 hlatest).2 time hmem

theorem all {l : List Deed} (hc : Course b purges) (hl : Deed.AllRefer l b) :
    Course (Deed.all l b) (purges ++ l.flatMap Deed.recorded) := by
  induction l generalizing b purges with
  | nil =>
      rw [List.flatMap_nil, List.append_nil]
      exact hc
  | cons d l ih =>
      rw [List.flatMap_cons, ← List.append_assoc]
      exact ih (hc.deed d hl.1) hl.2

end Course

/-- The registry knows the latest purge of every storage queue. Whatever arrived in a storage queue
by the time of one of its purges is delivered to nobody from then on: in every state that a run
comes to, a pass of such a message ends at its first stage and leaves it settled, and whatever the
host does, no job is submitted for it and it is not queued for deletion. -/
theorem purge_is_permanent {b : Broker} {purges : List (String × UInt64)} (hc : Course b purges)
    {m : MessageRef} {time : UInt64} (purged : ((b.message m).storageQueue, time) ∈ purges)
    (early : (b.message m).arrival ≤ time) :
    (∀ storageQueue, b.lastPurge storageQueue = (timesOf storageQueue purges).max?) ∧
    (∀ (r : Rules) (now : UInt64) (s : SubscriberRef) (t : TrackerRef) (policy : FailurePolicy),
      b.visited now s m r.stages = [.purge] ∧
        (b.handle r now s m t policy).1 = .purged ∧
        ((b.handle r now s m t policy).2.message m).settled = true ∧
        (b.handle r now s m t policy).2.dispatcher = b.dispatcher ∧
        (b.handle r now s m t policy).2.expired = b.expired) ∧
    ∀ d : Deed, d.Refers b → d.isSubmit = false →
      ((d.apply b).jobsOf m).Sublist (b.jobsOf m) ∧
        (d.apply b).expired.count m ≤ b.expired.count m := by
  have ho := hc.overtaken purged early
  refine ⟨hc.remembers, fun r now s t policy => ?_, fun d hd plain => ?_⟩
  · obtain ⟨hvisited, hhandle⟩ := handle_of_isPurged ho.isPurged r now s t policy
    rw [hhandle]
    exact ⟨hvisited, rfl, by simp [message_settle], by simp [markPurged], by simp [markPurged]⟩
  · cases d with
    | operation r op => exact ⟨hc.sound.jobsOf_apply hd r ho, hc.sound.expired_apply hd r ho⟩
    | standAlone => exact ⟨.refl _, Nat.le_refl _⟩
    | submit => cases plain

def overtakenRun : List Deed :=
  List.map (Deed.operation workerRules)
    [.createSlot "stored", .createMessage 1 "orders" "stored" "book" 4 0,
      .createSubscriber "worker" ⟨"orders", .amqp, .queue⟩ "local" 1 ⟨[.panicked], .record []⟩,
      .register ⟨0⟩, .track ⟨"orders", .amqp, .queue⟩, .buffer [⟨0⟩] ⟨0⟩ ⟨0⟩, .flush [] 0 ⟨0⟩,
      .purge 5 ⟨.queue, "orders"⟩ "stored", .purge 3 ⟨.queue, "orders"⟩ "stored",
      .purge 2 ⟨.topic, "news"⟩ "archive", .runJob 0]

theorem purge_is_permanent_overtakenRun :
    ((Deed.all overtakenRun default).tracker ⟨0⟩).buffer = [⟨0⟩] ∧
      (Deed.all overtakenRun default).lastPurge "stored" = some 5 ∧
      ((Deed.all overtakenRun default).handle workerRules 0 ⟨0⟩ ⟨0⟩ ⟨0⟩ .rebuffer).1 = .purged ∧
      ((Deed.all overtakenRun default).handle workerRules 0 ⟨0⟩ ⟨0⟩ ⟨0⟩ .rebuffer).2.dispatcher =
        (Deed.all overtakenRun default).dispatcher := by
  have hcourse : Course (Deed.all overtakenRun default)
      ([] ++ overtakenRun.flatMap Deed.recorded) := Course.start.all (by decide)
  have hpurged : (((Deed.all overtakenRun default).message ⟨0⟩).storageQueue, 5) ∈
      [] ++ overtakenRun.flatMap Deed.recorded := by decide
  obtain ⟨hlast, hpass, -⟩ := purge_is_permanent hcourse hpurged (by decide)
  obtain ⟨-, hpurged, -, hdispatcher, -⟩ := hpass workerRules 0 ⟨0⟩ ⟨0⟩ .rebuffer
  exact ⟨by decide, (hlast "stored").trans (by decide), hpurged, hdispatcher⟩

end Courier
