import Courier.Proofs.Scanning
import Courier.Proofs.Reservations
import Mathlib.Algebra.BigOperators.Group.Finset.Basic
import Mathlib.Algebra.Order.BigOperators.Group.List
import Mathlib.Algebra.Order.Ring.Nat

namespace Courier.Broker

variable {r : Rules} {now : UInt64} {t : TrackerRef} {active : List SubscriberRef} {b c d : Broker}
  {m : MessageRef} {s : SubscriberRef} {ceiling : UInt64}

structure Free (r : Rules) (now : UInt64) (active : List SubscriberRef) (b : Broker)
    (m : MessageRef) : Prop where
  fit : b.Fit now m
  agreed : ∀ s ∈ active, ∀ u : Tally, (b.subscriber s).unacked.toNat ≤ u.toNat →
    u.value < (b.subscriber s).window → ∀ v ∈ r.vetoes,
      v.rejects { b.subscriber s with unacked := u } { b.message m with buffered := false } = false
  lacks : ∀ s ∈ active, (b.message m).awaits (b.subscriber s).id = true

theorem Free.congr (hf : b.Free r now active m) (hmessage : c.message m = b.message m)
    (hpurges : c.purges = b.purges)
    (hsubscriber : ∀ s, ∃ u : Tally, c.subscriber s = { b.subscriber s with unacked := u } ∧
      (b.subscriber s).unacked.toNat ≤ u.toNat) : c.Free r now active m where
  fit := hf.fit.congr hpurges (by rw [hmessage]) (by rw [hmessage]) (by rw [hmessage])
  agreed s hs u hu hroom v hv := by
    obtain ⟨u', hu', hle⟩ := hsubscriber s
    rw [hu'] at hu hroom ⊢
    rw [hmessage]
    exact hf.agreed s hs u (Nat.le_trans hle hu) hroom v hv
  lacks s hs := by
    obtain ⟨u', hu', -⟩ := hsubscriber s
    rw [hu', hmessage]
    exact hf.lacks s hs

structure HandsOver (t : TrackerRef) (b : Broker) (m : MessageRef) (s : SubscriberRef) (c : Broker) :
    Prop where
  jobs : c.dispatcher.jobs = b.dispatcher.jobs ++ [⟨s, m, t, .rebuffer⟩]
  accepting : c.dispatcher.accepting = b.dispatcher.accepting
  front : (b.tracker t).buffer = m :: (c.tracker t).buffer
  inFlight : (c.tracker t).inFlight = (b.tracker t).inFlight.raise 1
  others : ∀ n, n ≠ m → c.message n = b.message n
  subscriber : ∀ u, c.subscriber u = if u = s then (b.subscriber u).reserve else b.subscriber u
  purges : c.purges = b.purges

theorem offer_free (free : b.Free r now active m) {rest : List MessageRef}
    (front : (b.tracker t).buffer = m :: rest) (hs : s ∈ active) (room : b.hasRoom s = true)
    (accepting : b.dispatcher.accepting = true) :
    ((b.unbuffer t m).offer r now t s m).1 = .dispatched ∧
      HandsOver t b m s ((b.unbuffer t m).offer r now t s m).2 := by
  have hbuffered : b.isBufferedIn t m = true := (isBufferedIn_iff b t m).2 ⟨m, by simp [front], rfl⟩
  have hmessage : (b.unbuffer t m).message m = { b.message m with buffered := false } := by
    rw [message_unbuffer, if_pos ⟨rfl, hbuffered⟩]
  have hsubscriber : (b.unbuffer t m).subscriber s = b.subscriber s := by simp
  have hfit : (b.unbuffer t m).Fit now m :=
    free.fit.congr (by simp) (by rw [hmessage]; rfl) (by rw [hmessage]) (by rw [hmessage])
  have hdeliverable : Deliverable r now s m (b.unbuffer t m) :=
    ⟨hfit.kept, hfit.unmarked, hfit.timely, fun v hv => by
      rw [hmessage, hsubscriber]
      exact free.agreed s hs (b.subscriber s).unacked (Nat.le_refl _) (of_decide_eq_true room) v hv⟩
  have hlacks : ((b.unbuffer t m).message m).awaits ((b.unbuffer t m).subscriber s).id = true := by
    rw [hmessage, hsubscriber]
    exact free.lacks s hs
  have hhandle : (b.unbuffer t m).handle r now s m t .rebuffer = _ :=
    handle_of_deliverable hdeliverable hlacks (by simpa using accepting)
  have hdispatcher : (b.unbuffer t m).dispatcher = b.dispatcher := by simp
  unfold offer
  rw [hhandle, hdispatcher]
  refine ⟨rfl, rfl, ?_, ?_, ?_, fun n hn => ?_, fun u => ?_, ?_⟩
  · simp
  · simp [front, buffer_unbuffer_front b t m rest front]
  · simp [tracker_claim, tracker_unbuffer]
  · simp [message_claim, message_unbuffer, hn]
  · simp [subscriber_claim]
  · exact ((Touches.unbuffer b t m).trans (Touches.claim _ s m t .rebuffer)).purges

/-- A pass handed over the first messages of the buffer by these new jobs, and did nothing else. -/
structure Shared (ceiling : UInt64) (t : TrackerRef) (active : List SubscriberRef) (b : Broker)
    (new : List Job) (c : Broker) : Prop where
  jobs : c.dispatcher.jobs = b.dispatcher.jobs ++ new
  accepting : c.dispatcher.accepting = b.dispatcher.accepting
  front : (b.tracker t).buffer = new.map Job.message ++ (c.tracker t).buffer
  takers : ∀ j ∈ new, j.subscriber ∈ active ∧ j.tracker = t ∧ j.policy = .rebuffer
  inFlight : (c.tracker t).inFlight.toNat = (b.tracker t).inFlight.toNat + new.length
  below : new.length ≤ ceiling.toNat - (b.tracker t).inFlight.toNat
  others : ∀ m, m ∉ new.map Job.message → c.message m = b.message m
  subscriber : ∀ s, ∃ u : Tally, c.subscriber s = { b.subscriber s with unacked := u } ∧
    u.toNat = (b.subscriber s).unacked.toNat + (new.map Job.subscriber).count s
  window : ∀ s, (new.map Job.subscriber).count s ≤
    (b.subscriber s).window.toNat - (b.subscriber s).unacked.toNat

theorem Shared.refl (b : Broker) : Shared ceiling t active b [] b where
  jobs := by rw [List.append_nil]
  accepting := rfl
  front := rfl
  takers := nofun
  inFlight := rfl
  below := Nat.zero_le _
  others _ _ := rfl
  subscriber _ := ⟨_, rfl, rfl⟩
  window _ := Nat.zero_le _

theorem Shared.congr {new : List Job} (h : Shared ceiling t active c new d)
    (hdispatcher : c.dispatcher = b.dispatcher)
    (hbuffer : (c.tracker t).buffer = (b.tracker t).buffer)
    (hinFlight : (c.tracker t).inFlight = (b.tracker t).inFlight)
    (hmessage : ∀ m, c.message m = b.message m) (hsubscriber : ∀ s, c.subscriber s = b.subscriber s) :
    Shared ceiling t active b new d where
  jobs := hdispatcher ▸ h.jobs
  accepting := hdispatcher ▸ h.accepting
  front := hbuffer ▸ h.front
  takers := h.takers
  inFlight := hinFlight ▸ h.inFlight
  below := hinFlight ▸ h.below
  others m hm := (h.others m hm).trans (hmessage m)
  subscriber s := hsubscriber s ▸ h.subscriber s
  window s := hsubscriber s ▸ h.window s

theorem Shared.cons {new : List Job} (h : HandsOver t b m s c) (hs : s ∈ active)
    (room : b.hasRoom s = true) (below : (b.tracker t).inFlight.value < ceiling)
    (hshared : Shared ceiling t active c new d) :
    Shared ceiling t active b (⟨s, m, t, .rebuffer⟩ :: new) d := by
  have hroom := toNat_lt_of_hasRoom room
  have hbelow : (b.tracker t).inFlight.toNat < ceiling.toNat := UInt64.lt_iff_toNat_lt.1 below
  have hinFlight : (c.tracker t).inFlight.toNat = (b.tracker t).inFlight.toNat + 1 := by
    rw [h.inFlight, Tally.toNat_raise_one hbelow]
  have hunacked : ((b.subscriber s).reserve).unacked.toNat = (b.subscriber s).unacked.toNat + 1 :=
    Tally.toNat_raise_one hroom
  refine ⟨?_, ?_, ?_, ?_, ?_, ?_, fun n hn => ?_, fun u => ?_, fun u => ?_⟩
  · rw [hshared.jobs, h.jobs, List.append_assoc]
    rfl
  · rw [hshared.accepting, h.accepting]
  · rw [h.front, hshared.front]
    rfl
  · exact List.forall_mem_cons.2 ⟨⟨hs, rfl, rfl⟩, hshared.takers⟩
  · rw [hshared.inFlight, hinFlight, List.length_cons]
    omega
  · have hrest := hshared.below
    rw [hinFlight] at hrest
    rw [List.length_cons]
    omega
  · rw [List.map_cons, List.mem_cons, not_or] at hn
    rw [hshared.others n hn.2, h.others n hn.1]
  · obtain ⟨x, hx, hcount⟩ := hshared.subscriber u
    rw [h.subscriber] at hx hcount
    refine ⟨x, ?_, ?_⟩
    · rw [hx]
      split <;> rfl
    · rw [hcount, List.map_cons]
      by_cases hu : u = s
      · rw [if_pos hu, hu, hunacked, List.count_cons_self]
        omega
      · rw [if_neg hu, List.count_cons_of_ne (Ne.symm hu)]
  · have hrest := hshared.window u
    rw [h.subscriber] at hrest
    rw [List.map_cons]
    by_cases hu : u = s
    · rw [if_pos hu, hu, hunacked] at hrest
      rw [hu, List.count_cons_self]
      change _ ≤ (b.subscriber s).window.toNat - _ at hrest
      omega
    · rw [if_neg hu] at hrest
      rwa [List.count_cons_of_ne (Ne.symm hu)]

theorem HandsOver.free (h : HandsOver t b m s c) (room : b.hasRoom s = true) {n : MessageRef}
    (hn : n ≠ m) (free : b.Free r now active n) : c.Free r now active n := by
  refine free.congr (h.others n hn) h.purges fun u => ?_
  rw [h.subscriber]
  split
  · next hu =>
      refine ⟨_, rfl, ?_⟩
      rw [hu]
      exact Nat.le_trans (Nat.le_succ _)
        (Nat.le_of_eq (Tally.toNat_raise_one (toNat_lt_of_hasRoom room)).symm)
  · exact ⟨_, rfl, Nat.le_refl _⟩

theorem queuePass_shared (r : Rules) (now : UInt64) (ceiling : UInt64) (l : List MessageRef)
    (b : Broker) (hl : (b.tracker t).buffer = l) (apart : l.Nodup)
    (free : ∀ m ∈ l, b.Free r now active m) (accepting : b.dispatcher.accepting = true) :
    ∃ new : List Job, (queuePass r now t active ceiling l b).1 = new.length ∧
      Shared ceiling t active b new (queuePass r now t active ceiling l b).2 := by
  induction l generalizing b with
  | nil => exact ⟨[], rfl, .refl b⟩
  | cons m rest ih =>
      unfold queuePass
      split
      · exact ⟨[], rfl, .refl b⟩
      · next below =>
          obtain ⟨hmessage, hsubscriber, hpurges, hdispatcher⟩ :=
            nextWithRoom_frame t active active.length b
          obtain ⟨-, hbuffer, hinFlight⟩ := tracker_nextWithRoom t active active.length b t
          have hmem : ∀ s, (nextWithRoom t active active.length b).1 = some s →
              s ∈ active ∧ (nextWithRoom t active active.length b).2.hasRoom s = true :=
            fun s hs => mem_of_nextWithRoom active.length b hs
          generalize nextWithRoom t active active.length b = p at *
          obtain ⟨_ | s, c⟩ := p
          · exact ⟨[], rfl, (Shared.refl c).congr hdispatcher hbuffer hinFlight hmessage hsubscriber⟩
          · obtain ⟨hs, room⟩ := hmem s rfl
            have hfree : ∀ n ∈ m :: rest, c.Free r now active n := fun n hn =>
              (free n hn).congr (hmessage n) hpurges fun u => ⟨_, hsubscriber u, Nat.le_refl _⟩
            obtain ⟨hout, hover⟩ := offer_free (hfree m List.mem_cons_self) (hbuffer.trans hl) hs room
              (by rwa [hdispatcher])
            dsimp only at hinFlight ⊢
            generalize (c.unbuffer t m).offer r now t s m = p at *
            obtain ⟨outcome, d⟩ := p
            obtain rfl : outcome = .dispatched := hout
            obtain ⟨hnot, hrest⟩ := List.nodup_cons.1 apart
            have hfront : m :: (d.tracker t).buffer = m :: rest :=
              hover.front.symm.trans (hbuffer.trans hl)
            obtain ⟨new, hcount, hshared⟩ := ih d (List.cons.inj hfront).2 hrest
              (fun n hn => hover.free room (fun he => hnot (he ▸ hn)) (hfree n (.tail _ hn)))
              (by rw [hover.accepting, hdispatcher, accepting])
            refine ⟨⟨s, m, t, .rebuffer⟩ :: new, congrArg Nat.succ hcount, ?_⟩
            refine Shared.congr ?_ hdispatcher hbuffer hinFlight hmessage hsubscriber
            exact hshared.cons hover hs room (by rw [hinFlight]; exact UInt64.not_le.1 below)

def freeWindow (b : Broker) (s : SubscriberRef) : Nat :=
  (b.subscriber s).window.toNat - (b.subscriber s).unacked.toNat

def passLimit (b : Broker) (ceiling : UInt64) (t : TrackerRef) (active : List SubscriberRef) : Nat :=
  min (b.tracker t).buffer.length
    (min (ceiling.toNat - (b.tracker t).inFlight.toNat) (active.map b.freeWindow).sum)

theorem sum_count (hn : active.Nodup) {l : List SubscriberRef} (hl : ∀ s ∈ l, s ∈ active) :
    (active.map fun s => l.count s).sum = l.length := by
  rw [← List.sum_toFinset _ hn]
  simpa using Multiset.sum_count_eq_card (m := l) fun s hs => List.mem_toFinset.2 (hl s hs)

theorem Shared.sum_count {new : List Job} (h : Shared ceiling t active b new c)
    (distinct : (b.idsOf active).Nodup) :
    (active.map fun s => (new.map Job.subscriber).count s).sum = new.length := by
  rw [Broker.sum_count (nodup_of_idsOf distinct), List.length_map]
  intro s hs
  obtain ⟨j, hj, rfl⟩ := List.mem_map.1 hs
  exact (h.takers j hj).1

theorem Shared.length_le {new : List Job} (h : Shared ceiling t active b new c)
    (distinct : (b.idsOf active).Nodup) : new.length ≤ b.passLimit ceiling t active := by
  refine Nat.le_min.2 ⟨?_, Nat.le_min.2 ⟨h.below, ?_⟩⟩
  · rw [h.front, List.length_append, List.length_map]
    exact Nat.le_add_right _ _
  · rw [← h.sum_count distinct]
    exact List.sum_le_sum fun s _ => h.window s

/-- A pass that goes as far as it can reaches one of its limits. -/
theorem Shared.length_eq {new : List Job} (h : Shared ceiling t active b new c)
    (distinct : (b.idsOf active).Nodup) (apart : (b.tracker t).buffer.Nodup)
    (free : ∀ m ∈ (b.tracker t).buffer, b.Free r now active m)
    (accepting : b.dispatcher.accepting = true) (hrests : Rests ceiling t active c) :
    new.length = b.passLimit ceiling t active := by
  refine Nat.le_antisymm (h.length_le distinct) ?_
  cases hrests with
  | emptied empty =>
      refine Nat.le_trans (Nat.min_le_left _ _) ?_
      rw [h.front, empty, List.append_nil, List.length_map]
  | ceiling reached =>
      refine Nat.le_trans (Nat.min_le_right _ _) (Nat.le_trans (Nat.min_le_left _ _) ?_)
      have hreached : ceiling.toNat ≤ (c.tracker t).inFlight.toNat := UInt64.le_iff_toNat_le.1 reached
      rw [h.inFlight] at hreached
      omega
  | saturated full =>
      refine Nat.le_trans (Nat.min_le_right _ _) (Nat.le_trans (Nat.min_le_right _ _) ?_)
      rw [← h.sum_count distinct]
      refine List.sum_le_sum fun s hs => ?_
      obtain ⟨u, hu, hcount⟩ := h.subscriber s
      have hfull : ¬ u.value < (b.subscriber s).window := by
        have hnone := full s hs
        rw [hasRoom, hu] at hnone
        exact of_decide_eq_false hnone
      have hle : (b.subscriber s).window.toNat ≤ u.toNat :=
        UInt64.le_iff_toNat_le.1 (UInt64.not_lt.1 hfull)
      rw [freeWindow]
      omega
  | closed closed =>
      exact absurd (closed.symm.trans (h.accepting.trans accepting)) Bool.false_ne_true
  | recorded l m s back hs held =>
      have hfront := h.front
      rw [back] at hfront
      have hm : m ∈ (b.tracker t).buffer := by simp [hfront]
      have hnew : m ∉ new.map Job.message := fun hmem => by
        rw [hfront] at apart
        exact List.disjoint_of_nodup_append apart hmem (List.mem_append_right l List.mem_cons_self)
      obtain ⟨u, hu, -⟩ := h.subscriber s
      rw [h.others m hnew, hu] at held
      exact absurd (held.symm.trans ((free m hm).lacks s hs)) Bool.false_ne_true

theorem Shared.sum_unacked {new : List Job} (h : Shared ceiling t active b new c)
    (distinct : (b.idsOf active).Nodup) :
    (active.map fun s => (c.subscriber s).unacked.toNat).sum =
      (active.map fun s => (b.subscriber s).unacked.toNat).sum + new.length := by
  rw [← h.sum_count distinct, ← List.sum_map_add]
  refine congrArg List.sum (List.map_congr_left fun s _ => ?_)
  obtain ⟨u, hu, hcount⟩ := h.subscriber s
  rw [hu]
  exact hcount

/-- A pass over a queue whose messages nothing speaks against sends the first of them, one job each.
The sum of the windows' fill and the count in flight rise by as many, no subscriber gets more than
its window lets in, and neither buffer nor ceiling nor windows are overdrawn. If the order remembered
is that of the active subscribers, one of these three limits is reached wherever the cursor stands. -/
theorem deliver_queue_exact (ceiling : UInt64) (accepting : b.dispatcher.accepting = true)
    (distinct : (b.idsOf active).Nodup) (apart : (b.bufferedIds t).Nodup)
    (free : ∀ m ∈ (b.tracker t).buffer, b.Free r now active m) :
    ∃ new : List Job, let c := (deliver r now t active (.queue ceiling) b).2
      (deliver r now t active (.queue ceiling) b).1 = new.length ∧
        c.dispatcher.jobs = b.dispatcher.jobs ++ new ∧
        (∀ j ∈ new, j.subscriber ∈ active ∧ j.tracker = t ∧ j.policy = .rebuffer) ∧
        new.map Job.message = (b.tracker t).buffer.take new.length ∧
        (c.tracker t).buffer = (b.tracker t).buffer.drop new.length ∧
        (c.tracker t).inFlight.toNat = (b.tracker t).inFlight.toNat + new.length ∧
        (active.map fun s => (c.subscriber s).unacked.toNat).sum =
          (active.map fun s => (b.subscriber s).unacked.toNat).sum + new.length ∧
        (∀ s, (new.map Job.subscriber).count s ≤ b.freeWindow s) ∧
        new.length ≤ b.passLimit ceiling t active ∧
        ((b.tracker t).cursor.order = b.idsOf active →
          new.length = b.passLimit ceiling t active) := by
  have hapart : (b.tracker t).buffer.Nodup := List.Nodup.of_map _ apart
  obtain ⟨new, hcount, hshared⟩ :=
    queuePass_shared r now ceiling (b.tracker t).buffer b rfl hapart free accepting
  have hlength : (new.map Job.message).length = new.length := List.length_map _
  refine ⟨new, hcount, hshared.jobs, hshared.takers, ?_, ?_, hshared.inFlight,
    hshared.sum_unacked distinct, hshared.window, hshared.length_le distinct, fun horder => ?_⟩
  · rw [hshared.front, List.take_left' hlength]
  · rw [hshared.front, List.drop_left' hlength]
    rfl
  · have inTurn := inTurn_of_order horder distinct
    exact hshared.length_eq distinct hapart free accepting
      (queuePass_rests r now ceiling _ b rfl inTurn distinct)

def stocked : Broker := (replay fourRules (joinedRun.take 12) default default).1

theorem deliver_queue_exact_stocked :
    stocked.dispatcher.accepting = true ∧ (stocked.idsOf (stocked.active ⟨0⟩)).Nodup ∧
      (stocked.bufferedIds ⟨0⟩).Nodup ∧
      (∀ m ∈ (stocked.tracker ⟨0⟩).buffer, stocked.Free fourRules 0 (stocked.active ⟨0⟩) m) ∧
      (stocked.tracker ⟨0⟩).cursor.order = stocked.idsOf (stocked.active ⟨0⟩) ∧
      stocked.passLimit 4 ⟨0⟩ (stocked.active ⟨0⟩) = 3 ∧
      (deliver fourRules 0 ⟨0⟩ (stocked.active ⟨0⟩) (.queue 4) stocked).1 = 3 := by
  have accepting : stocked.dispatcher.accepting = true := by decide
  have distinct : (stocked.idsOf (stocked.active ⟨0⟩)).Nodup := by decide
  have apart : (stocked.bufferedIds ⟨0⟩).Nodup := by decide
  have hkept : ∀ m ∈ (stocked.tracker ⟨0⟩).buffer, stocked.isPurged m = false ∧
      (stocked.message m).expired = false ∧ (stocked.message m).hasExpired 0 = false := by decide
  have hlacks : ∀ m ∈ (stocked.tracker ⟨0⟩).buffer, ∀ s ∈ stocked.active ⟨0⟩,
      (stocked.message m).awaits (stocked.subscriber s).id = true := by decide
  have free : ∀ m ∈ (stocked.tracker ⟨0⟩).buffer,
      stocked.Free fourRules 0 (stocked.active ⟨0⟩) m := fun m hm =>
    { fit := ⟨(hkept m hm).1, (hkept m hm).2.1, (hkept m hm).2.2⟩
      agreed := fun _ _ _ _ _ _ hv => nomatch hv
      lacks := hlacks m hm }
  have horder : (stocked.tracker ⟨0⟩).cursor.order = stocked.idsOf (stocked.active ⟨0⟩) := by decide
  have hlimit : stocked.passLimit 4 ⟨0⟩ (stocked.active ⟨0⟩) = 3 := by decide
  obtain ⟨new, hcount, -, -, -, -, -, -, -, -, hexact⟩ :=
    deliver_queue_exact 4 accepting distinct apart free
  exact ⟨accepting, distinct, apart, free, horder, hlimit, by rw [hcount, hexact horder, hlimit]⟩

end Courier.Broker
