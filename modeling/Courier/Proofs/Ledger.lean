import Courier.Lists
import Courier.Proofs.Withdrawn

namespace Courier

open Broker

structure Return where
  dispatch : Job
  tracker : Option TrackerRef
  handle : Option SubscriberRef
  deriving DecidableEq

/-- The dispatches of queues and durable topics. When one ends, the tracker and the handle that get a
reservation back are looked up by name and id, and need not be those that it was made through. -/
structure Ledger where
  /-- The dispatches that are out: neither acknowledged nor withdrawn, and none that failed. -/
  out : List Job
  /-- Those that were acknowledged or withdrawn. -/
  returned : List Return
  deriving DecidableEq

instance : Inhabited Ledger := ⟨⟨[], []⟩⟩

namespace Ledger

section

variable {κ : Type} [DecidableEq κ] (taken : Job → κ) (given : Return → Option κ)

def holding (L : Ledger) (k : κ) : Nat := L.out.countP fun j => taken j = k

/-- How often the counter got back what another one had taken. -/
def gifts (L : Ledger) (k : κ) : Nat :=
  L.returned.countP fun e => given e = some k ∧ taken e.dispatch ≠ k

/-- How often the counter did not get back what it had taken. -/
def leaks (L : Ledger) (k : κ) : Nat :=
  L.returned.countP fun e => taken e.dispatch = k ∧ given e ≠ some k

/-- A count of `n` is what is out, but for gifts and leaks. -/
structure Balanced (L : Ledger) (k : κ) (n : Nat) : Prop where
  covered : L.holding taken k ≤ n + L.gifts taken given k
  owned : n ≤ L.holding taken k + L.leaks taken given k

variable {taken given} {L : Ledger} {k : κ} {n : Nat}

theorem Balanced.charge (hb : L.Balanced taken given k n) (j : Job) :
    Balanced taken given ⟨L.out ++ [j], L.returned⟩ k (n + if taken j = k then 1 else 0) := by
  obtain ⟨h₁, h₂⟩ := hb
  have hout : (L.out ++ [j]).countP (fun j => taken j = k) =
      L.holding taken k + if taken j = k then 1 else 0 := by
    simp [holding, List.countP_append, List.countP_cons]
  constructor
  · rw [holding, hout]
    simp only [gifts] at h₁ ⊢
    omega
  · rw [holding, hout]
    simp only [leaks] at h₂ ⊢
    omega

theorem Balanced.end (hb : L.Balanced taken given k n) {out : List Job} {ended : List Return}
    (hout : L.out.Perm (ended.map Return.dispatch ++ out)) :
    Balanced taken given ⟨out, L.returned ++ ended⟩ k
      (n - ended.countP fun e => given e = some k) := by
  obtain ⟨h₁, h₂⟩ := hb
  have hperm : L.holding taken k =
      (ended.countP fun e => taken e.dispatch = k) + out.countP fun j => taken j = k := by
    rw [holding, hout.countP_eq, List.countP_append, List.countP_map]
    rfl
  have hgiven := countP_le_add (p := fun e => given e = some k)
    (q := fun e => taken e.dispatch = k)
    (s := fun e => given e = some k ∧ taken e.dispatch ≠ k) (by grind) ended
  have htaken := countP_le_add (p := fun e => taken e.dispatch = k)
    (q := fun e => given e = some k)
    (s := fun e => taken e.dispatch = k ∧ given e ≠ some k) (by grind) ended
  constructor
  · simp only [holding, gifts, List.countP_append] at h₁ hperm ⊢
    omega
  · simp only [holding, leaks, List.countP_append] at h₂ hperm ⊢
    omega

/-- What a counter gets back that took it needs no entry. -/
theorem Balanced.own {out : List Job} {returned : List Return} {e : Return}
    (he : given e = some (taken e.dispatch))
    (hb : Balanced taken given ⟨out, returned ++ [e]⟩ k n) :
    Balanced taken given ⟨out, returned⟩ k n := by
  obtain ⟨h₁, h₂⟩ := hb
  constructor
  · simpa [holding, gifts, List.countP_append, List.countP_cons, he] using h₁
  · simpa [holding, leaks, List.countP_append, List.countP_cons, he] using h₂

end

end Ledger

namespace Broker

def holds (b : Broker) (j : Job) : Bool :=
  (b.message j.message).isHeldBy (b.subscriber j.subscriber).id

/-- The ledger is right: what it has as out is all that is out, each copy once and every queued job
among it, and both kinds of counters balance and are within their bounds. -/
structure Attributed (limit : UInt64) (b : Broker) (L : Ledger) : Prop where
  known : ∀ j ∈ L.out, b.hasSubscriber j.subscriber
  held : ∀ j ∈ L.out, b.holds j = true
  once : (L.out.map b.copyOf).Nodup
  complete : ∀ m id, (b.message m).isHeldBy id = true → (m, id) ∈ L.out.map b.copyOf
  queued : ∀ j ∈ b.dispatcher.jobs, j ∈ L.out
  single : (b.dispatcher.jobs.map b.copyOf).Nodup
  trackers : ∀ t, L.Balanced Job.tracker Return.tracker t (b.tracker t).inFlight.toNat
  handles : ∀ s, L.Balanced Job.subscriber Return.handle s (b.subscriber s).unacked.toNat
  ceiling : ∀ t, (b.tracker t).inFlight.toNat ≤ limit.toNat
  window : ∀ s, (b.subscriber s).unacked.toNat ≤ (b.subscriber s).window.toNat

variable {limit : UInt64} {b b' : Broker} {L : Ledger} {m : MessageRef} {s : SubscriberRef}
  {t : TrackerRef} {j : Job}

theorem isHeldBy_fail (b : Broker) (j : Job) (m : MessageRef) (id : SubscriberId) :
    ((b.fail j).message m).isHeldBy id =
      (!decide ((m, id) = b.copyOf j) && (b.message m).isHeldBy id) := by
  by_cases he : m = j.message ∧ id = (b.subscriber j.subscriber).id
  · obtain ⟨rfl, rfl⟩ := he
    rw [not_isHeldBy_fail, copyOf, decide_eq_true rfl]
    rfl
  · rw [Message.isHeldBy, status?_fail_of_ne b j he, decide_eq_false (by simpa [copyOf] using he)]
    rfl

theorem holds_fail (b : Broker) (j i : Job) :
    (b.fail j).holds i = (!decide (b.copyOf i = b.copyOf j) && b.holds i) := by
  rw [holds, (Touches.fail b j).subscriber_id, isHeldBy_fail]
  rfl

theorem isHeldBy_markDelivered (b : Broker) (m : MessageRef) (id : SubscriberId) (n : MessageRef)
    (u : SubscriberId) :
    ((b.markDelivered m id).message n).isHeldBy u = (b.message n).isHeldBy u := by
  rw [message_markDelivered]
  split
  · next hm =>
      obtain ⟨rfl, hs⟩ := hm
      rw [Message.isHeldBy_setStatus]
      split
      · next hid => rw [Message.isHeldBy, hid, hs]; rfl
      · rfl
  · rfl

theorem isHeldBy_of_execute (b : Broker) (j : Job) (m : MessageRef) (id : SubscriberId)
    (h : ((b.execute j).message m).isHeldBy id = true) : (b.message m).isHeldBy id = true := by
  rw [execute_eq] at h
  split at h
  · rw [isHeldBy_markDelivered] at h
    simpa using h
  · rw [isHeldBy_fail] at h
    simpa using (Bool.and_eq_true _ _ ▸ h).2

theorem isHeldBy_returnToBuffer (queue : (b.tracker t).isTopic = false) (hm : (b.message m).Tidy)
    (n : MessageRef) (id : SubscriberId) :
    ((b.returnToBuffer t m).message n).isHeldBy id =
      (!decide (n = m) && (b.message n).isHeldBy id) := by
  rw [Message.isHeldBy, status?_returnToBuffer queue m hm]
  by_cases hn : n = m <;> cases held : (b.message n).isHeldBy id <;> simp [hn] <;>
    simpa [Message.isHeldBy, hn] using held

theorem filter_holds {l : List Job} (h : ∀ j, b'.holds j = true → b.holds j = true) :
    (l.filter b.holds).filter b'.holds = l.filter b'.holds := by
  rw [List.filter_filter]
  refine List.filter_congr fun j _ => ?_
  cases hj : b'.holds j with
  | true => rw [h j hj, Bool.and_self]
  | false => rw [Bool.false_and]

theorem holds_returnToBuffer (queue : (b.tracker t).isTopic = false) (hm : (b.message m).Tidy)
    (j : Job) : (b.returnToBuffer t m).holds j = (!decide (j.message = m) && b.holds j) := by
  rw [holds, (Touches.returnToBuffer t b m).subscriber_id, isHeldBy_returnToBuffer queue hm]
  rfl

namespace Attributed

theorem mem_copies_iff (ha : Attributed limit b L) (m : MessageRef) (id : SubscriberId) :
    (m, id) ∈ L.out.map b.copyOf ↔ (b.message m).isHeldBy id = true := by
  refine ⟨fun h => ?_, ha.complete m id⟩
  obtain ⟨j, hj, he⟩ := List.mem_map.1 h
  obtain ⟨rfl, rfl⟩ := Prod.mk.inj he
  exact ha.held j hj

theorem count_copies (ha : Attributed limit b L) (m : MessageRef) (id : SubscriberId) :
    (L.out.countP fun j => b.copyOf j = (m, id)) = ((b.message m).isHeldBy id).toNat := by
  have hcount : (L.out.countP fun j => b.copyOf j = (m, id)) =
      (L.out.map b.copyOf).count (m, id) := by
    rw [List.count, List.countP_map]
    congr 1
    funext j
    simp [beq_eq_decide]
  have hmem := ha.mem_copies_iff m id
  rw [hcount]
  cases held : (b.message m).isHeldBy id with
  | true => exact List.count_eq_one_of_mem ha.once (hmem.2 held)
  | false =>
      refine List.count_eq_zero.2 fun h => ?_
      rw [hmem.1 h] at held
      exact absurd held.symm Bool.false_ne_true

theorem congr (ha : Attributed limit b L)
    (subscriber : ∀ s, b.hasSubscriber s → (b'.subscriber s).made = (b.subscriber s).made)
    (size : b.subscribers.size ≤ b'.subscribers.size)
    (held : ∀ m id, (b'.message m).isHeldBy id = (b.message m).isHeldBy id)
    (unacked : ∀ s, (b'.subscriber s).unacked = (b.subscriber s).unacked)
    (inFlight : ∀ t, (b'.tracker t).inFlight = (b.tracker t).inFlight)
    (jobs : b'.dispatcher.jobs = b.dispatcher.jobs) : Attributed limit b' L := by
  have hid : ∀ j ∈ L.out, (b'.subscriber j.subscriber).id = (b.subscriber j.subscriber).id :=
    fun j hj => (congrArg Subscription.id (subscriber _ (ha.known j hj)) :)
  have hcopy : ∀ j ∈ L.out, b'.copyOf j = b.copyOf j := fun j hj => Prod.ext rfl (hid j hj)
  have hcopies : L.out.map b'.copyOf = L.out.map b.copyOf := List.map_congr_left hcopy
  refine ⟨fun j hj => Nat.lt_of_lt_of_le (ha.known j hj) size, fun j hj => ?_, ?_, fun m id h => ?_,
    fun j hj => ha.queued j (jobs ▸ hj), ?_, fun t => ?_, fun s => ?_, fun t => ?_, fun s => ?_⟩
  · rw [holds, hid j hj, held]
    exact ha.held j hj
  · rw [hcopies]
    exact ha.once
  · rw [hcopies]
    exact ha.complete m id (by rwa [← held])
  · rw [jobs, List.map_congr_left fun j hj => hcopy j (ha.queued j hj)]
    exact ha.single
  · rw [inFlight]
    exact ha.trackers t
  · rw [unacked]
    exact ha.handles s
  · rw [inFlight]
    exact ha.ceiling t
  · rw [unacked]
    by_cases hs : b.hasSubscriber s
    · have hwindow : (b'.subscriber s).window = (b.subscriber s).window :=
        (congrArg Subscription.window (subscriber s hs) :)
      rw [hwindow]
      exact ha.window s
    · have hdefault : b.subscriber s = default := b.subscribers.get_of_size_le (Nat.le_of_not_lt hs)
      rw [hdefault]
      exact Nat.zero_le _

theorem still (ha : Attributed limit b L) (h : Still b b') : Attributed limit b' L :=
  ha.congr h.subscriber h.subscribers_size h.isHeldBy h.unacked h.inFlight h.jobs

theorem claim (ha : Attributed limit b L) (hs : b.hasSubscriber s)
    (lacks : (b.message m).awaits (b.subscriber s).id = true) (room : b.hasRoom s = true)
    (below : (b.tracker t).inFlight.value < limit) :
    Attributed limit (b.claim s m t .rebuffer) ⟨L.out ++ [⟨s, m, t, .rebuffer⟩], L.returned⟩ := by
  have hp := (Touches.claim b s m t .rebuffer).toPreserves
  have hroom := toNat_lt_of_hasRoom room
  have hbelow : (b.tracker t).inFlight.toNat < limit.toNat := UInt64.lt_iff_toNat_lt.1 below
  have hheld : ∀ n id, ((b.claim s m t .rebuffer).message n).isHeldBy id =
      (decide (n = m ∧ id = (b.subscriber s).id) || (b.message n).isHeldBy id) := fun n id => by
    by_cases hn : n = m
    · subst hn
      simp [isHeldBy_claim]
    · simp [message_claim, hn]
  have hunacked : ∀ u, ((b.claim s m t .rebuffer).subscriber u).unacked.toNat =
      (b.subscriber u).unacked.toNat + if s = u then 1 else 0 := fun u => by
    rw [subscriber_claim]
    by_cases hu : u = s
    · subst hu
      rw [if_pos rfl, if_pos rfl]
      exact Tally.toNat_raise_one hroom
    · rw [if_neg hu, if_neg (Ne.symm hu)]
      rfl
  have hinFlight : ∀ v, ((b.claim s m t .rebuffer).tracker v).inFlight.toNat =
      (b.tracker v).inFlight.toNat + if t = v then 1 else 0 := fun v => by
    rw [inFlight_claim]
    by_cases hv : v = t
    · subst hv
      rw [if_pos ⟨rfl, rfl⟩, if_pos rfl]
      exact Tally.toNat_raise_one hbelow
    · rw [if_neg fun h => hv h.1, if_neg (Ne.symm hv)]
      rfl
  have hcopies : (L.out ++ [Job.mk s m t .rebuffer]).map (b.claim s m t .rebuffer).copyOf =
      L.out.map b.copyOf ++ [(m, (b.subscriber s).id)] := by
    rw [hp.map_copyOf, List.map_append]
    rfl
  refine ⟨fun j hj => ?_, fun j hj => ?_, ?_, fun n id held => ?_, fun j hj => ?_, ?_, fun v => ?_,
    fun u => ?_, fun v => ?_, fun u => ?_⟩
  · obtain hj | hj := List.mem_append.1 hj
    · exact hp.hasSubscriber (ha.known j hj)
    · rw [List.mem_singleton.1 hj]
      exact hp.hasSubscriber hs
  · rw [holds, hp.subscriber_id, hheld]
    obtain hj | hj := List.mem_append.1 hj
    · rw [show (b.message j.message).isHeldBy (b.subscriber j.subscriber).id = true from
        ha.held j hj, Bool.or_true]
    · rw [List.mem_singleton.1 hj, decide_eq_true ⟨rfl, rfl⟩, Bool.true_or]
  · -- The copy is new: it could be dispatched, so it was not out.
    rw [hcopies]
    refine List.nodup_append.2 ⟨ha.once, by simp, fun c hc d hd he => ?_⟩
    rw [he, List.mem_singleton.1 hd, ha.mem_copies_iff, Message.not_isHeldBy_of_awaits lacks] at hc
    exact absurd hc Bool.false_ne_true
  · rw [hcopies, List.mem_append, List.mem_singleton, Prod.mk.injEq]
    rw [hheld, Bool.or_eq_true, decide_eq_true_eq] at held
    exact held.symm.imp_left (ha.complete n id)
  · exact List.mem_append_left _ (ha.queued j (by simpa using hj))
  · rw [hp.map_copyOf, (claim_frame b s m t .rebuffer).2.2.2.2]
    exact ha.single
  · rw [hinFlight]
    exact (ha.trackers v).charge _
  · rw [hunacked]
    exact (ha.handles u).charge _
  · rw [hinFlight]
    split
    · next hv => exact hv ▸ hbelow
    · exact ha.ceiling v
  · rw [hunacked, hp.window]
    split
    · next hu => exact hu ▸ hroom
    · exact ha.window u

theorem withJobs (ha : Attributed limit b L) {l : List Job} (hl : ∀ j ∈ l, j ∈ L.out)
    (hn : (l.map b.copyOf).Nodup) : Attributed limit (b.withJobs l) L :=
  { ha with queued := hl, single := hn }

theorem ended (ha : Attributed limit b L) (hp : Preserves b b') (ended : List Return)
    (hended : (ended.map Return.dispatch).Perm (L.out.filter fun j => !b'.holds j))
    (held : ∀ m id, (b'.message m).isHeldBy id = true → (b.message m).isHeldBy id = true)
    (queued : ∀ j ∈ b.dispatcher.jobs, b'.holds j = true)
    (inFlight : ∀ t, (b'.tracker t).inFlight.toNat =
      (b.tracker t).inFlight.toNat - ended.countP fun e => e.tracker = some t)
    (unacked : ∀ s, (b'.subscriber s).unacked.toNat =
      (b.subscriber s).unacked.toNat - ended.countP fun e => e.handle = some s)
    (jobs : b'.dispatcher.jobs = b.dispatcher.jobs) :
    Attributed limit b' ⟨L.out.filter b'.holds, L.returned ++ ended⟩ := by
  have hout : L.out.Perm (ended.map Return.dispatch ++ L.out.filter b'.holds) := by
    refine List.Perm.symm (List.Perm.trans (hended.append_right _) ?_)
    refine List.Perm.trans List.perm_append_comm ?_
    exact List.filter_append_perm b'.holds L.out
  refine ⟨fun j hj => ?_, fun j hj => ?_, ?_, fun m id h => ?_, fun j hj => ?_, ?_, fun t => ?_,
    fun s => ?_, fun t => ?_, fun s => ?_⟩
  · exact hp.hasSubscriber (ha.known j (List.mem_filter.1 hj).1)
  · exact (List.mem_filter.1 hj).2
  · rw [hp.map_copyOf]
    exact ha.once.sublist (List.filter_sublist.map _)
  · obtain ⟨j, hj, he⟩ := List.mem_map.1 (ha.complete m id (held m id h))
    obtain ⟨rfl, rfl⟩ := Prod.mk.inj he
    rw [hp.map_copyOf]
    refine List.mem_map.2 ⟨j, List.mem_filter.2 ⟨hj, ?_⟩, rfl⟩
    rw [holds, hp.subscriber_id]
    exact h
  · rw [jobs] at hj
    exact List.mem_filter.2 ⟨ha.queued j hj, queued j hj⟩
  · rw [jobs, hp.map_copyOf]
    exact ha.single
  · rw [inFlight]
    exact (ha.trackers t).end hout
  · rw [unacked]
    exact (ha.handles s).end hout
  · rw [inFlight]
    exact Nat.le_trans (Nat.sub_le _ _) (ha.ceiling t)
  · rw [unacked, hp.window]
    exact Nat.le_trans (Nat.sub_le _ _) (ha.window s)

theorem fail (ha : Attributed limit b L) (hj : j ∈ L.out) (hpolicy : j.policy = .rebuffer)
    (hfree : ∀ i ∈ b.dispatcher.jobs, b.copyOf i ≠ b.copyOf j) :
    Attributed limit (b.fail j) ⟨L.out.filter (b.fail j).holds, L.returned⟩ := by
  have hp := (Touches.fail b j).toPreserves
  have hrecorded : b.recorded j = true := by
    have hstatus := Message.isHeldBy_iff.1 (ha.held j hj)
    obtain h | h := hstatus <;> simp [recorded, h]
  have hperm : ([Return.mk j (some j.tracker) (some j.subscriber)].map Return.dispatch).Perm
      (L.out.filter fun i => !(b.fail j).holds i) := by
    refine (List.perm_ext_iff_of_nodup (by simp) (ha.once.of_map.filter _)).2 fun i => ?_
    rw [List.map_singleton, List.mem_singleton, List.mem_filter, holds_fail]
    constructor
    · rintro rfl
      exact ⟨hj, by simp⟩
    · rintro ⟨hi, he⟩
      have hsame : b.copyOf i = b.copyOf j := by simpa [ha.held i hi] using he
      exact List.inj_on_of_nodup_map ha.once hi hj hsame
  have h := ha.ended hp _ hperm (fun m id h => ?_) (fun i hi => ?_) (fun v => ?_) (fun u => ?_)
    (by simp)
  · exact ⟨h.known, h.held, h.once, h.complete, h.queued, h.single,
      fun v => (h.trackers v).own rfl, fun u => (h.handles u).own rfl, h.ceiling, h.window⟩
  · rw [isHeldBy_fail] at h
    exact (Bool.and_eq_true _ _ ▸ h).2
  · rw [holds_fail, decide_eq_false (hfree i hi), ha.held i (ha.queued i hi)]
    rfl
  · rw [inFlight_fail, hrecorded]
    by_cases hv : v = j.tracker <;> simp [hv, hpolicy, Tally.toNat_lower, Ne.symm]
  · rw [subscriber_fail, hrecorded]
    by_cases hu : u = j.subscriber <;>
      simp [hu, Subscription.release, Tally.toNat_lower, Ne.symm]

theorem dispatched (ha : Attributed limit b L) (hs : b.hasSubscriber s)
    (lacks : (b.message m).awaits (b.subscriber s).id = true) (room : b.hasRoom s = true)
    (below : (b.tracker t).inFlight.value < limit) :
    Attributed limit
      ((b.claim s m t .rebuffer).withJobs (b.dispatcher.jobs ++ [⟨s, m, t, .rebuffer⟩]))
      ⟨L.out ++ [⟨s, m, t, .rebuffer⟩], L.returned⟩ := by
  have hc := ha.claim hs lacks room below
  have hjobs : (b.claim s m t .rebuffer).dispatcher.jobs = b.dispatcher.jobs := by simp
  have hn := hc.once
  rw [List.map_append, List.nodup_append] at hn
  refine hc.withJobs (fun j hj => ?_) ?_
  · exact (List.mem_append.1 hj).elim (fun hj => List.mem_append_left _ (ha.queued j hj))
      (List.mem_append_right _)
  · rw [List.map_append]
    refine List.nodup_append.2 ⟨hjobs ▸ hc.single, by simp, fun c hc' d hd => ?_⟩
    obtain ⟨i, hi, rfl⟩ := List.mem_map.1 hc'
    exact hn.2.2 _ (List.mem_map_of_mem (ha.queued i hi)) d hd

theorem refused (ha : Attributed limit b L) (hs : b.hasSubscriber s)
    (lacks : (b.message m).awaits (b.subscriber s).id = true) (room : b.hasRoom s = true)
    (below : (b.tracker t).inFlight.value < limit) :
    Attributed limit ((b.claim s m t .rebuffer).fail ⟨s, m, t, .rebuffer⟩) L := by
  have hc := ha.claim hs lacks room below
  have hn := hc.once
  rw [List.map_append, List.nodup_append] at hn
  have hapart : ∀ i ∈ L.out, (b.claim s m t .rebuffer).copyOf i ≠
      (b.claim s m t .rebuffer).copyOf ⟨s, m, t, .rebuffer⟩ := fun i hi =>
    hn.2.2 _ (List.mem_map_of_mem hi) _ (by simp)
  have hfree : ∀ i ∈ (b.claim s m t .rebuffer).dispatcher.jobs,
      (b.claim s m t .rebuffer).copyOf i ≠
        (b.claim s m t .rebuffer).copyOf ⟨s, m, t, .rebuffer⟩ := fun i hi =>
    hapart i (ha.queued i (by simpa using hi))
  have hf := hc.fail (j := ⟨s, m, t, .rebuffer⟩) (by simp) rfl hfree
  have hout : (L.out ++ [Job.mk s m t .rebuffer]).filter
      ((b.claim s m t .rebuffer).fail ⟨s, m, t, .rebuffer⟩).holds = L.out := by
    rw [List.filter_append, List.filter_eq_self.2 fun i hi => ?_, List.filter_eq_nil_iff.2 ?_,
      List.append_nil]
    · intro i hi
      rw [List.mem_singleton.1 hi, holds_fail]
      simp
    · rw [holds_fail, decide_eq_false (hapart i hi), hc.held i (List.mem_append_left _ hi)]
      rfl
  rwa [hout] at hf

theorem queueStep {r : Rules} {active : List SubscriberRef} (ha : Attributed r.ceiling b L)
    (hactive : ∀ s ∈ active, b.hasSubscriber s) (hstep : QueueStep r t active b b') :
    ∃ new, b'.dispatcher.jobs = b.dispatcher.jobs ++ new ∧
      Attributed r.ceiling b' ⟨L.out ++ new, L.returned⟩ := by
  cases hstep with
  | still still => exact ⟨[], by simp [still.jobs], by simpa using ha.still still⟩
  | dispatched s m c still hs lacks room below =>
      exact ⟨[⟨s, m, t, .rebuffer⟩], by simp [still.jobs],
        (ha.still still).dispatched (still.hasSubscriber (hactive s hs)) lacks room below⟩
  | failed s m c still hs lacks room below =>
      exact ⟨[], by simp [still.jobs], by
        simpa using (ha.still still).refused (still.hasSubscriber (hactive s hs)) lacks room below⟩

theorem execute (ha : Attributed limit b L) (hj : j ∈ L.out) (hpolicy : j.policy = .rebuffer)
    (hfree : ∀ i ∈ b.dispatcher.jobs, b.copyOf i ≠ b.copyOf j) :
    Attributed limit (b.execute j) ⟨L.out.filter (b.execute j).holds, L.returned⟩ := by
  have hwritten : Still b (b.written j.subscriber j.message) :=
    { Still.refl b with
      recipients := by simp
      subscriber := fun s _ => by
        obtain ⟨outbound, he⟩ := subscriber_written b j.subscriber j.message s
        rw [he]
        rfl
      unacked := (inert_written b j.subscriber j.message).unacked
      subscribers_size := (Touches.send j.message b j.subscriber j.message).subscribers_size
      jobs := by simp }
  have hcopy : (b.written j.subscriber j.message).copyOf = b.copyOf := by
    funext i
    have hsend := Touches.send j.message b j.subscriber j.message
    exact Prod.ext rfl (hsend.subscriber_id i.subscriber)
  have hw := ha.still hwritten
  rw [execute_eq]
  generalize b.written j.subscriber j.message = c at hwritten hcopy hw
  split
  · -- A copy whose write has ended is out as before.
    have hd := Touches.markDelivered c j.message (b.subscriber j.subscriber).id
    have hsame : Attributed limit (c.markDelivered j.message (b.subscriber j.subscriber).id) L :=
      hw.congr (fun s _ => hd.subscriber s) hd.subscribers_size
        (isHeldBy_markDelivered c j.message _) (by simp) (by simp) (by simp)
    rwa [List.filter_eq_self.2 hsame.held]
  · refine hw.fail hj hpolicy fun i hi => ?_
    rw [hcopy]
    exact hfree i (by rwa [hwritten.jobs] at hi)

theorem runJob (ha : Attributed limit b L) (hq : b.Queues) (place : Nat) :
    Attributed limit (b.runJob place) ⟨L.out.filter (b.runJob place).holds, L.returned⟩ := by
  unfold Broker.runJob
  split
  · next j hj =>
      obtain ⟨hlt, rfl⟩ := List.getElem?_eq_some_iff.1 hj
      have hperm := List.getElem_cons_eraseIdx_perm hlt
      have hn := (hperm.map b.copyOf).nodup_iff.2 ha.single
      rw [List.map_cons, List.nodup_cons] at hn
      have hmem : b.dispatcher.jobs[place] ∈ b.dispatcher.jobs := List.getElem_mem hlt
      refine (ha.withJobs (fun i hi => ha.queued i (List.mem_of_mem_eraseIdx hi)) hn.2).execute
        (ha.queued _ hmem) (hq.rebuffers _ hmem) fun i hi he => hn.1 ?_
      exact he ▸ List.mem_map_of_mem hi
  · rwa [List.filter_eq_self.2 ha.held]

theorem length_outstanding (ha : Attributed limit b L) (hm : (b.message m).Tidy) :
    (b.message m).outstanding.length = L.out.countP fun j => j.message = m := by
  have hids : ((L.out.filter fun j => j.message = m).map fun j =>
      (b.subscriber j.subscriber).id).Perm (b.message m).outstanding := by
    refine (List.perm_ext_iff_of_nodup ?_ (Message.outstanding_nodup hm)).2 fun id => ?_
    · refine List.Nodup.of_map (fun id => (m, id)) ?_
      rw [List.map_map]
      have honce := ha.once.sublist
        ((List.filter_sublist (p := fun j => decide (j.message = m))).map b.copyOf)
      refine (List.map_congr_left fun j hj => ?_).subst honce
      rw [← of_decide_eq_true (List.mem_filter.1 hj).2]
      rfl
    · rw [Message.mem_outstanding hm]
      refine Iff.trans ?_ (ha.mem_copies_iff m id)
      simp [copyOf, and_assoc]
  rw [List.countP_eq_length_filter, ← hids.length_eq, List.length_map]

theorem returnToBuffer (ha : Attributed limit b L) (hs : b.Sound) (hq : b.Queues)
    (hidle : b.isIdle m) (t : TrackerRef) :
    Attributed limit (b.returnToBuffer t m) ⟨L.out.filter (b.returnToBuffer t m).holds,
      L.returned ++ (L.out.filter fun j => j.message = m).map fun j =>
        ⟨j, some t, b.findById (b.active t) (b.subscriber j.subscriber).id⟩⟩ := by
  have hp := (Touches.returnToBuffer t b m).toPreserves
  have htidy := hs.tidy m
  have heq : b.returnToBuffer t m = (b.withdraw t m).rebuffer t m := by
    rw [Broker.returnToBuffer, hq.pointToPoint t, if_neg Bool.false_ne_true]
  refine ha.ended hp _ ?_ (fun n id h => ?_) (fun j hj => ?_) (fun v => ?_) (fun u => ?_) (by simp)
  · rw [List.map_map, Function.comp_def, List.map_id']
    refine List.Perm.of_eq (List.filter_congr fun j hj => ?_)
    rw [holds_returnToBuffer (hq.pointToPoint t) htidy, ha.held j hj]
    simp
  · rw [isHeldBy_returnToBuffer (hq.pointToPoint t) htidy] at h
    exact (Bool.and_eq_true _ _ ▸ h).2
  · rw [holds_returnToBuffer (hq.pointToPoint t) htidy, decide_eq_false (hidle j hj),
      ha.held j (ha.queued j hj)]
    rfl
  · rw [heq, inFlight_rebuffer, inFlight_withdraw, ha.length_outstanding htidy, List.countP_map,
      List.countP_filter]
    by_cases hv : v = t <;> simp [hv, Ne.symm]
  · -- Only the handle that is found under its own id can be given anything, for its own copy.
    have hfound : ∀ id, b.findById (b.active t) id = some u → (b.subscriber u).id = id :=
      fun id h => by simpa using List.find?_some h
    rw [heq, (rebuffer_frame _ t m).2.1, unacked_withdraw b t m htidy, List.countP_map,
      List.countP_filter]
    by_cases hu : b.findById (b.active t) (b.subscriber u).id = some u
    · have hcount : (L.out.countP fun j => b.copyOf j = (m, (b.subscriber u).id)) =
          L.out.countP fun j => decide (b.findById (b.active t) (b.subscriber j.subscriber).id =
            some u) && decide (j.message = m) := by
        refine List.countP_congr fun j _ => ?_
        simp only [copyOf, Prod.mk.injEq, Bool.and_eq_true, decide_eq_true_eq]
        exact ⟨fun h => ⟨h.2 ▸ hu, h.1⟩, fun h => ⟨h.2, (hfound _ h.1).symm⟩⟩
      refine congrArg _ (Eq.trans ?_ (hcount.symm.trans (ha.count_copies m _)).symm)
      have hmem := Message.mem_outstanding htidy (b.subscriber u).id
      cases held : (b.message m).isHeldBy (b.subscriber u).id with
      | true => exact if_pos ⟨hu, hmem.2 held⟩
      | false => exact if_neg fun h => Bool.eq_false_iff.1 held (hmem.1 h.2)
    · rw [if_neg fun h => hu h.1, List.countP_eq_zero.2 fun j _ h => hu ?_]
      have h := of_decide_eq_true ((Bool.and_eq_true _ _).mp h).1
      rwa [hfound _ h]

theorem count_ended (ha : Attributed limit b L) (m : MessageRef) (id : SubscriberId)
    (v : Option TrackerRef) (u : Option SubscriberRef) :
    (∀ t, (((L.out.filter fun j => b.copyOf j = (m, id)).map fun j => Return.mk j v u).countP
        fun e => e.tracker = some t) = (decide (v = some t) && (b.message m).isHeldBy id).toNat) ∧
      ∀ s, (((L.out.filter fun j => b.copyOf j = (m, id)).map fun j => Return.mk j v u).countP
        fun e => e.handle = some s) = (decide (u = some s) && (b.message m).isHeldBy id).toNat := by
  have hcount := ha.count_copies m id
  refine ⟨fun t => ?_, fun s => ?_⟩
  · rw [List.countP_map, List.countP_filter]
    by_cases hv : v = some t
    · simpa [hv] using hcount
    · simp [hv]
  · rw [List.countP_map, List.countP_filter]
    by_cases hu : u = some s
    · simpa [hu] using hcount
    · simp [hu]

theorem acknowledge (ha : Attributed limit b L) (hidle : b.isIdle m) (s : SubscriberRef)
    (type : DestinationType) :
    Attributed limit (b.acknowledge s m type) ⟨L.out.filter (b.acknowledge s m type).holds,
      L.returned ++ (L.out.filter fun j => b.copyOf j = (m, (b.subscriber s).id)).map fun j =>
        ⟨j, if type = .topic then none else b.find? ⟨type, (b.message m).destination⟩,
          some s⟩⟩ := by
  have ht := Touches.acknowledge b s m type
  have hp := ht.toPreserves
  have hheld : ∀ n id, ((b.acknowledge s m type).message n).isHeldBy id =
      (!decide ((n, id) = (m, (b.subscriber s).id)) && (b.message n).isHeldBy id) := fun n id => by
    by_cases hn : n = m
    · subst hn
      rw [isHeldBy_acknowledge]
      simp
    · rw [ht.others n hn]
      simp [hn]
  have hholds : ∀ j, (b.acknowledge s m type).holds j =
      (!decide (b.copyOf j = (m, (b.subscriber s).id)) && b.holds j) :=
    fun j => by rw [holds, hp.subscriber_id, hheld]; rfl
  have hany : ((b.message m).status? (b.subscriber s).id).any RecipientStatus.isOutstanding =
      (b.message m).isHeldBy (b.subscriber s).id := rfl
  have hcount := ha.count_ended m (b.subscriber s).id
    (if type = .topic then none else b.find? ⟨type, (b.message m).destination⟩) (some s)
  refine ha.ended hp _ ?_ (fun n id h => ?_) (fun j hj => ?_) (fun v => ?_) (fun u => ?_) (by simp)
  · rw [List.map_map, Function.comp_def, List.map_id']
    refine List.Perm.of_eq (List.filter_congr fun j hj => ?_)
    rw [hholds, ha.held j hj]
    simp
  · rw [hheld] at h
    exact (Bool.and_eq_true _ _ ▸ h).2
  · rw [hholds, decide_eq_false fun h : b.copyOf j = _ => hidle j hj (Prod.mk.inj h).1,
      ha.held j (ha.queued j hj)]
    rfl
  · rw [inFlight_acknowledge, hany, hcount.1]
    by_cases htopic : type = .topic
    · simp [htopic]
    · by_cases hv : b.find? ⟨type, (b.message m).destination⟩ = some v <;>
        cases (b.message m).isHeldBy (b.subscriber s).id <;> simp [htopic, hv, Tally.toNat_lower]
  · rw [subscriber_acknowledge, hany, hcount.2]
    by_cases hu : u = s <;> cases (b.message m).isHeldBy (b.subscriber s).id <;>
      simp [hu, Ne.symm, Subscription.release, Tally.toNat_lower]

end Attributed

end Broker

end Courier
