import Courier.Proofs.Turns
import Courier.Proofs.Reservations

namespace Courier.Broker

variable {r : Rules} {now : UInt64} {t : TrackerRef} {active l l' : List SubscriberRef}
  {b c d : Broker} {m n : MessageRef} {s : SubscriberRef}

def jobsFor (b : Broker) (m : MessageRef) (s : SubscriberRef) : List Job :=
  b.dispatcher.jobs.filter fun j => decide (j.message = m ∧ j.subscriber = s)

theorem Touches.jobsFor (h : Touches m b c) (hn : n ≠ m) (s : SubscriberRef) :
    c.jobsFor n s = b.jobsFor n s := by
  have hfilter : ∀ jobs : List Job,
      jobs.filter (fun j => decide (j.message = n ∧ j.subscriber = s)) =
        (jobs.filter fun j => decide (j.message ≠ m)).filter fun j =>
          decide (j.message = n ∧ j.subscriber = s) := fun jobs => by
    rw [List.filter_filter]
    refine List.filter_congr fun j _ => ?_
    by_cases hj : j.message = n
    · simp [hj, hn]
    · simp [hj]
  rw [Broker.jobsFor, Broker.jobsFor, hfilter, hfilter b.dispatcher.jobs, h.jobs]

structure Bounded (m : MessageRef) (b c : Broker) : Prop extends Touches m b c where
  window : ∀ u, (c.subscriber u).unacked = (b.subscriber u).unacked ∨
    (c.subscriber u).unacked.toNat ≤ (b.subscriber u).window.toNat

theorem Bounded.of_subscriber (h : Touches m b c) (hs : ∀ u, c.subscriber u = b.subscriber u) :
    Bounded m b c :=
  ⟨h, fun u => .inl (by rw [hs])⟩

theorem Bounded.window_trans (h : Bounded m b c) (s : SubscriberRef)
    (hs : (d.subscriber s).unacked = (c.subscriber s).unacked ∨
      (d.subscriber s).unacked.toNat ≤ (c.subscriber s).window.toNat) :
    (d.subscriber s).unacked = (b.subscriber s).unacked ∨
      (d.subscriber s).unacked.toNat ≤ (b.subscriber s).window.toNat := by
  obtain hs | hs := hs
  · rw [hs]
    exact h.window s
  · rw [h.toPreserves.window] at hs
    exact .inr hs

theorem Bounded.trans (h : Bounded m b c) (h' : Bounded m c d) : Bounded m b d where
  toTouches := h.toTouches.trans h'.toTouches
  window s := h.window_trans s (h'.window s)

structure Confined (t : TrackerRef) (m : MessageRef) (l : List SubscriberRef) (b c : Broker) : Prop
    extends Bounded m b c where
  copies : ∀ id, id ∉ b.idsOf l → (c.message m).status? id = (b.message m).status? id
  holders : ∀ u, u ∉ l → c.subscriber u = b.subscriber u
  queued : ∀ u, u ∉ l → c.jobsFor m u = b.jobsFor m u
  place : (c.tracker t).buffer = (b.tracker t).buffer
  progress : ∃ x, c.message m = { b.message m with recipients := x }

namespace Confined

theorem refl (t : TrackerRef) (m : MessageRef) (b : Broker) : Confined t m [] b b :=
  ⟨.of_subscriber (.refl m b) fun _ => rfl, fun _ _ => rfl, fun _ _ => rfl, fun _ _ => rfl, rfl, _, rfl⟩

theorem trans (h : Confined t m l b c) (h' : Confined t m l' c d) : Confined t m (l ++ l') b d where
  toBounded := h.toBounded.trans h'.toBounded
  copies id hid := by
    rw [idsOf, List.map_append, List.mem_append, not_or] at hid
    rw [h'.copies id (by rw [h.toTouches.idsOf]; exact hid.2), h.copies id hid.1]
  holders u hu := by
    rw [List.mem_append, not_or] at hu
    rw [h'.holders u hu.2, h.holders u hu.1]
  queued u hu := by
    rw [List.mem_append, not_or] at hu
    rw [h'.queued u hu.2, h.queued u hu.1]
  place := h'.place.trans h.place
  progress := by
    obtain ⟨x, hx⟩ := h.progress
    obtain ⟨y, hy⟩ := h'.progress
    exact ⟨y, by rw [hy, hx]⟩

theorem fit (h : Confined t m l b c) : c.Fit now m ↔ b.Fit now m := by
  obtain ⟨x, hx⟩ := h.progress
  refine ⟨fun hf => ?_, fun hf => ?_⟩
  · exact hf.congr h.purges.symm (h.made m).symm (by rw [hx]) (by rw [hx])
  · exact hf.congr h.purges (h.made m) (by rw [hx]) (by rw [hx])

end Confined

theorem discard_confined (b : Broker) (t : TrackerRef) (m : MessageRef) (s : SubscriberRef) :
    Confined t m [s] b (b.setStatus m (b.subscriber s).id .discarded) where
  toBounded := .of_subscriber (Touches.setStatus b m _ _) fun _ => rfl
  copies id hid := by
    have hne : id ≠ (b.subscriber s).id := fun he => hid (he ▸ List.mem_cons_self)
    simp [setStatus, message_modifyMessage, hne]
  holders _ _ := rfl
  queued _ _ := rfl
  place := rfl
  progress := ⟨((b.message m).setStatus (b.subscriber s).id .discarded).recipients, by
    simp [setStatus, message_modifyMessage, Message.setStatus]⟩

theorem discardFor_confined (t : TrackerRef) (m : MessageRef) (l : List SubscriberRef) (b : Broker) :
    Confined t m l b (discardFor m l b) ∧ (discardFor m l b).dispatcher = b.dispatcher ∧
      (∀ u, (discardFor m l b).subscriber u = b.subscriber u) ∧
      ∀ id ∈ b.idsOf l, ((discardFor m l b).message m).status? id = some .discarded := by
  induction l generalizing b with
  | nil => exact ⟨.refl t m b, rfl, fun _ => rfl, nofun⟩
  | cons s l ih =>
      have hfirst := b.discard_confined t m s
      obtain ⟨hrest, hjobs, hsubscriber, hstatus⟩ := ih (b.setStatus m (b.subscriber s).id .discarded)
      refine ⟨hfirst.trans hrest, hjobs, hsubscriber, fun id hid => ?_⟩
      have hids : (b.setStatus m (b.subscriber s).id .discarded).idsOf l = b.idsOf l := rfl
      rw [hids] at hstatus
      by_cases hmem : id ∈ b.idsOf l
      · exact hstatus id hmem
      · obtain rfl : id = (b.subscriber s).id := (List.mem_cons.1 hid).resolve_right hmem
        refine (hrest.copies _ hmem).trans ?_
        simp [setStatus, message_modifyMessage]

/-- What becomes of a copy that is offered when the broker is at `e`. -/
inductive Taken (r : Rules) (t : TrackerRef) (m : MessageRef) (s : SubscriberRef) (e b c : Broker) :
    Prop
  | sent (agreed : ∀ v ∈ r.vetoes, v.rejects (e.subscriber s) (e.message m) = false)
      (scheduled : (c.message m).status? (b.subscriber s).id = some .scheduled)
      (queued : c.jobsFor m s = b.jobsFor m s ++ [⟨s, m, t, .discard⟩]) : Taken r t m s e b c
  | vetoed (v : Veto) (hv : v ∈ r.vetoes)
      (rejects : v.rejects (e.subscriber s) (e.message m) = true)
      (discarded : (c.message m).status? (b.subscriber s).id = some .discarded)
      (unqueued : c.jobsFor m s = b.jobsFor m s) : Taken r t m s e b c

theorem dispatch_confined (b : Broker) (t : TrackerRef) (m : MessageRef) (s : SubscriberRef)
    (room : b.hasRoom s = true)
    (htouch : Touches m b
      ((b.claim s m t .discard).withJobs (b.dispatcher.jobs ++ [⟨s, m, t, .discard⟩]))) :
    Confined t m [s] b
      ((b.claim s m t .discard).withJobs (b.dispatcher.jobs ++ [⟨s, m, t, .discard⟩])) where
  toTouches := htouch
  window u := by
    by_cases hu : u = s
    · refine .inr ?_
      have hroom := toNat_lt_of_hasRoom room
      have hreserve : ((b.subscriber s).reserve).unacked.toNat = (b.subscriber s).unacked.toNat + 1 :=
        Tally.toNat_raise_one hroom
      simp only [withJobs_frame, subscriber_claim, hu, if_true, hreserve]
      exact hroom
    · exact .inl (by simp [subscriber_claim, hu])
  copies id hid := by
    have hne : id ≠ (b.subscriber s).id := fun he => hid (he ▸ List.mem_cons_self)
    simp [message_claim, hne]
  holders u hu := by simp [subscriber_claim, List.ne_of_not_mem_cons hu]
  queued u hu := by
    simp [jobsFor, List.filter_append, Ne.symm (List.ne_of_not_mem_cons hu)]
  place := by simp
  progress := ⟨((b.message m).setStatus (b.subscriber s).id .scheduled).recipients, by
    simp [message_claim, Message.setStatus]⟩

theorem spread_taken (lacks : (b.message m).awaits (b.subscriber s).id = true)
    (room : b.hasRoom s = true) (accepting : b.dispatcher.accepting = true)
    (kept : (spread r now t m .discard s b).1 = true) :
    Confined t m [s] b (spread r now t m .discard s b).2 ∧
      Taken r t m s b b (spread r now t m .discard s b).2 := by
  obtain ⟨outcome, c, hc, hh⟩ := exists_handled b r now s m t .discard
  have htouch := hh.touches
  unfold spread at kept ⊢
  rw [hc] at kept ⊢
  cases hh with
  | purged | marked | expired => exact nomatch kept
  | alreadyInFlight _ held => exact absurd (lacks.symm.trans held) nofun
  | failed _ _ closed => exact absurd (accepting.symm.trans closed) nofun
  | vetoed _ _ _ v hv rejects =>
      refine ⟨b.discard_confined t m s, .vetoed v hv rejects ?_ rfl⟩
      simp [setStatus, message_modifyMessage]
  | dispatched deliverable =>
      refine ⟨b.dispatch_confined t m s room htouch, .sent deliverable.agreed ?_ ?_⟩
      · simp [message_claim]
      · simp [jobsFor, List.filter_append]

/-- What becomes of a copy does not depend on the work before and after it on other copies. -/
theorem Taken.frame {e b' c' : Broker} (h : Taken r t m s e b c)
    (hid : (b'.subscriber s).id = (b.subscriber s).id) (hbefore : b.jobsFor m s = b'.jobsFor m s)
    (hstatus : (c'.message m).status? (b.subscriber s).id = (c.message m).status? (b.subscriber s).id)
    (hafter : c'.jobsFor m s = c.jobsFor m s) : Taken r t m s e b' c' := by
  cases h with
  | sent agreed scheduled queued =>
      exact .sent agreed (by rw [hid, hstatus, scheduled]) (by rw [hafter, queued, hbefore])
  | vetoed v hv rejects discarded unqueued =>
      exact .vetoed v hv rejects (by rw [hid, hstatus, discarded]) (by rw [hafter, unqueued, hbefore])

theorem Confined.recipients (h : Confined t m [s] b c) (distinct : (b.idsOf (s :: l)).Nodup) :
    (c.idsOf l).Nodup ∧ (∀ u ∈ l, u ≠ s ∧ c.subscriber u = b.subscriber u ∧
      (c.message m).awaits (c.subscriber u).id = (b.message m).awaits (b.subscriber u).id) := by
  rw [idsOf_cons, List.nodup_cons] at distinct
  obtain ⟨hnot, hdistinct⟩ := distinct
  refine ⟨by rwa [h.toTouches.idsOf], fun u hu => ?_⟩
  have hne : u ≠ s := fun he => hnot (he ▸ List.mem_map_of_mem hu)
  have hid : (b.subscriber u).id ∉ b.idsOf [s] := fun hmem => by
    have he : (b.subscriber u).id = (b.subscriber s).id := List.mem_singleton.1 hmem
    exact hnot (he ▸ List.mem_map_of_mem hu)
  have hsubscriber := h.holders u fun hmem => hne (List.mem_singleton.1 hmem)
  exact ⟨hne, hsubscriber, by rw [hsubscriber, awaits_congr (h.copies _ hid)]⟩

theorem broadcast_taken (l : List SubscriberRef) (b : Broker) (distinct : (b.idsOf l).Nodup)
    (hl : ∀ s ∈ l, (b.message m).awaits (b.subscriber s).id = true ∧ b.hasRoom s = true)
    (accepting : b.dispatcher.accepting = true)
    (kept : (broadcast r now t m .discard l b).1 = true) :
    Confined t m l b (broadcast r now t m .discard l b).2 ∧
      ∀ s ∈ l, Taken r t m s (broadcast r now t m .discard (l.takeWhile (· ≠ s)) b).2 b
        (broadcast r now t m .discard l b).2 := by
  induction l generalizing b with
  | nil => exact ⟨.refl t m b, nofun⟩
  | cons s l ih =>
      rw [broadcast_cons] at kept ⊢
      split at kept
      · next hgoes =>
          obtain ⟨hlacks, hroom⟩ := hl s List.mem_cons_self
          obtain ⟨hfirst, htaken⟩ := spread_taken hlacks hroom accepting hgoes
          have hcons : ∀ l, broadcast r now t m .discard (s :: l) b =
              broadcast r now t m .discard l (spread r now t m .discard s b).2 := fun l => by
            rw [broadcast_cons, if_pos hgoes]
          rw [if_pos hgoes]
          generalize (spread r now t m .discard s b).2 = c at kept hfirst htaken hcons ⊢
          obtain ⟨hdistinct, hothers⟩ := hfirst.recipients distinct
          obtain ⟨hrest, hall⟩ := ih c hdistinct
            (fun u hu => by
              obtain ⟨-, hsubscriber, hawaits⟩ := hothers u hu
              rw [hawaits, hasRoom, hsubscriber]
              exact hl u (List.mem_cons_of_mem s hu))
            (hfirst.accepting.trans accepting) kept
          refine ⟨hfirst.trans hrest, List.forall_mem_cons.2 ⟨?_, fun u hu => ?_⟩⟩
          · have hnot : s ∉ l := fun hmem => (hothers s hmem).1 rfl
            have hid : (b.subscriber s).id ∉ c.idsOf l := by
              rw [hfirst.toTouches.idsOf]
              exact (List.nodup_cons.1 distinct).1
            rw [List.takeWhile_cons_of_neg (by simp)]
            exact htaken.frame rfl rfl (hrest.copies _ hid) (hrest.queued s hnot)
          · obtain ⟨hne, hsubscriber, -⟩ := hothers u hu
            rw [List.takeWhile_cons_of_pos (by simpa using hne.symm), hcons]
            exact (hall u hu).frame (by rw [hsubscriber])
              (hfirst.queued u fun hmem => hne (List.mem_singleton.1 hmem)) rfl rfl
      · exact absurd kept Bool.false_ne_true

theorem spread_kept (b : Broker) (r : Rules) (now : UInt64) (t : TrackerRef) (m : MessageRef)
    (policy : FailurePolicy) (s : SubscriberRef) :
    (spread r now t m policy s b).1 = true ↔ b.Fit now m := by
  obtain ⟨outcome, c, hc, hh⟩ := exists_handled b r now s m t policy
  unfold spread
  rw [hc]
  cases hh with
  | purged purged =>
      exact ⟨nofun, fun hf => absurd (hf.kept.symm.trans purged) nofun⟩
  | marked _ marked => exact ⟨nofun, fun hf => absurd (hf.unmarked.symm.trans marked) nofun⟩
  | expired _ _ late => exact ⟨nofun, fun hf => absurd (hf.timely.symm.trans late) nofun⟩
  | vetoed kept unmarked timely => exact ⟨fun _ => ⟨kept, unmarked, timely⟩, fun _ => rfl⟩
  | alreadyInFlight hd | dispatched hd | failed hd =>
      exact ⟨fun _ => ⟨hd.kept, hd.unmarked, hd.timely⟩, fun _ => rfl⟩

theorem broadcast_kept (l : List SubscriberRef) (b : Broker) (distinct : (b.idsOf l).Nodup)
    (hl : ∀ s ∈ l, (b.message m).awaits (b.subscriber s).id = true ∧ b.hasRoom s = true)
    (accepting : b.dispatcher.accepting = true) :
    (broadcast r now t m .discard l b).1 = true ↔ l = [] ∨ b.Fit now m := by
  induction l generalizing b with
  | nil => exact ⟨fun _ => .inl rfl, fun _ => rfl⟩
  | cons s l ih =>
      rw [broadcast_cons, or_iff_right (List.cons_ne_nil s l), ← spread_kept b r now t m .discard s]
      split
      · next hgoes =>
          refine ⟨fun _ => hgoes, fun _ => ?_⟩
          obtain ⟨hlacks, hroom⟩ := hl s List.mem_cons_self
          obtain ⟨hfirst, -⟩ := spread_taken hlacks hroom accepting hgoes
          have hfit := hfirst.fit.2 ((spread_kept b r now t m .discard s).1 hgoes)
          generalize (spread r now t m .discard s b).2 = c at hfirst hfit ⊢
          obtain ⟨hdistinct, hothers⟩ := hfirst.recipients distinct
          refine (ih c hdistinct (fun u hu => ?_) (hfirst.accepting.trans accepting)).2 (.inr hfit)
          obtain ⟨-, hsubscriber, hawaits⟩ := hothers u hu
          rw [hawaits, hasRoom, hsubscriber]
          exact hl u (List.mem_cons_of_mem s hu)
      · next hstops =>
          exact ⟨fun h => absurd h Bool.false_ne_true, fun hgoes => absurd hgoes hstops⟩

theorem spread_dropped {rest : List MessageRef} (front : (b.tracker t).buffer = m :: rest)
    (dropped : (spread r now t m .discard s b).1 = false) :
    Bounded m b (spread r now t m .discard s b).2 ∧
      ((spread r now t m .discard s b).2.tracker t).buffer = rest := by
  have htouch := Touches.spread b r now t m .discard s
  obtain ⟨outcome, c, hc, hh⟩ := exists_handled b r now s m t .discard
  unfold spread at dropped htouch ⊢
  rw [hc] at dropped htouch ⊢
  cases hh with
  | purged =>
      exact ⟨.of_subscriber htouch fun u => by simp [markPurged],
        buffer_unbuffer_front _ t m rest (by simpa [markPurged] using front)⟩
  | marked =>
      exact ⟨.of_subscriber htouch fun u => by simp, buffer_unbuffer_front _ t m rest front⟩
  | expired =>
      exact ⟨.of_subscriber htouch fun u => by simp [markExpired],
        buffer_unbuffer_front _ t m rest (by simpa [markExpired] using front)⟩
  | vetoed | alreadyInFlight | dispatched | failed =>
      exact absurd dropped.symm Bool.false_ne_true

theorem broadcast_dropped (l : List SubscriberRef) (b : Broker) (distinct : (b.idsOf l).Nodup)
    (hl : ∀ s ∈ l, (b.message m).awaits (b.subscriber s).id = true ∧ b.hasRoom s = true)
    (accepting : b.dispatcher.accepting = true) {rest : List MessageRef}
    (front : (b.tracker t).buffer = m :: rest)
    (dropped : (broadcast r now t m .discard l b).1 = false) :
    Bounded m b (broadcast r now t m .discard l b).2 ∧
      ((broadcast r now t m .discard l b).2.tracker t).buffer = rest := by
  have hkept : (broadcast r now t m .discard l b).1 = true ↔ l = [] ∨ b.Fit now m :=
    broadcast_kept l b distinct hl accepting
  rw [dropped, Bool.false_eq_true, false_iff, not_or] at hkept
  cases l with
  | nil => exact absurd rfl hkept.1
  | cons s l =>
      have hfirst : (spread r now t m .discard s b).1 = false :=
        Bool.eq_false_iff.2 fun hgoes => hkept.2 ((spread_kept b r now t m .discard s).1 hgoes)
      rw [broadcast_cons, if_neg (by rw [hfirst]; exact Bool.false_ne_true)]
      exact spread_dropped front hfirst

def readyFor (b : Broker) (active : List SubscriberRef) (m : MessageRef) : List SubscriberRef :=
  (b.awaiting active m).filter b.hasRoom

def saturatedFor (b : Broker) (active : List SubscriberRef) (m : MessageRef) : List SubscriberRef :=
  (b.awaiting active m).filter fun s => !b.hasRoom s

def offerCopies (r : Rules) (now : UInt64) (t : TrackerRef) (active : List SubscriberRef)
    (m : MessageRef) (l : List SubscriberRef) (b : Broker) : Bool × Broker :=
  broadcast r now t m .discard l (discardFor m (b.saturatedFor active m) b)

/-- What the pass makes of one copy. The broker is at `b` when the pass begins, at `d` when the
message comes up, at `e` when the copy does, and at `c` in the end. -/
inductive CopyFate (r : Rules) (t : TrackerRef) (m : MessageRef) (s : SubscriberRef)
    (b d e c : Broker) : Prop
  | sent (pending : (b.message m).awaits (b.subscriber s).id = true) (room : d.hasRoom s = true)
      (agreed : ∀ v ∈ r.vetoes, v.rejects (e.subscriber s) (e.message m) = false)
      (scheduled : (c.message m).status? (b.subscriber s).id = some .scheduled)
      (queued : c.jobsFor m s = b.jobsFor m s ++ [⟨s, m, t, .discard⟩])
  | discarded (pending : (b.message m).awaits (b.subscriber s).id = true)
      (cause : d.hasRoom s = false ∨
        ∃ v ∈ r.vetoes, v.rejects (e.subscriber s) (e.message m) = true)
      (discarded : (c.message m).status? (b.subscriber s).id = some .discarded)
      (unqueued : c.jobsFor m s = b.jobsFor m s)
  | untouched (done : (b.message m).awaits (b.subscriber s).id = false)
      (same : (c.message m).status? (b.subscriber s).id = (b.message m).status? (b.subscriber s).id)
      (unqueued : c.jobsFor m s = b.jobsFor m s)

theorem mem_readyFor : s ∈ b.readyFor active m ↔
    s ∈ active ∧ (b.message m).awaits (b.subscriber s).id = true ∧ b.hasRoom s = true := by
  rw [readyFor, List.mem_filter, mem_awaiting, and_assoc]

theorem mem_saturatedFor : s ∈ b.saturatedFor active m ↔
    s ∈ active ∧ (b.message m).awaits (b.subscriber s).id = true ∧ b.hasRoom s = false := by
  rw [saturatedFor, List.mem_filter, mem_awaiting, and_assoc, Bool.not_eq_true']

theorem id_not_mem (distinct : (b.idsOf active).Nodup) (hl : ∀ u ∈ l, u ∈ active) (hs : s ∈ active)
    (hnot : s ∉ l) : (b.subscriber s).id ∉ b.idsOf l := fun hmem => by
  obtain ⟨u, hu, hid⟩ := List.mem_map.1 hmem
  exact hnot (eq_of_idsOf_nodup distinct (hl u hu) hs hid ▸ hu)

theorem id_not_mem_saturatedFor (distinct : (b.idsOf active).Nodup) (hs : s ∈ active)
    (hnot : s ∉ b.saturatedFor active m) :
    (b.subscriber s).id ∉ b.idsOf (b.saturatedFor active m) :=
  id_not_mem distinct (fun _ hu => (mem_saturatedFor.1 hu).1) hs hnot

theorem readyFor_discarded (distinct : (b.idsOf active).Nodup) (t : TrackerRef) (m : MessageRef) :
    ((discardFor m (b.saturatedFor active m) b).idsOf (b.readyFor active m)).Nodup ∧
      ∀ s ∈ b.readyFor active m,
        ((discardFor m (b.saturatedFor active m) b).message m).awaits
            ((discardFor m (b.saturatedFor active m) b).subscriber s).id = true ∧
          (discardFor m (b.saturatedFor active m) b).hasRoom s = true := by
  obtain ⟨hdiscards, -, hsubscriber, -⟩ := discardFor_confined t m (b.saturatedFor active m) b
  refine ⟨?_, fun s hs => ?_⟩
  · rw [hdiscards.toTouches.idsOf]
    exact idsOf_filter_nodup (idsOf_filter_nodup distinct _) _
  · obtain ⟨hactive, hlacks, hroom⟩ := mem_readyFor.1 hs
    have hnot : s ∉ b.saturatedFor active m := fun hmem =>
      absurd (hroom.symm.trans (mem_saturatedFor.1 hmem).2.2) nofun
    have hid := id_not_mem_saturatedFor distinct hactive hnot
    rw [hsubscriber, hasRoom, hsubscriber, awaits_congr (hdiscards.copies _ hid)]
    exact ⟨hlacks, hroom⟩

theorem offerCopies_fate (distinct : (b.idsOf active).Nodup)
    (accepting : b.dispatcher.accepting = true)
    (kept : (offerCopies r now t active m (b.readyFor active m) b).1 = true) :
    (∃ l, Confined t m l b (offerCopies r now t active m (b.readyFor active m) b).2) ∧
      ∀ s ∈ active, CopyFate r t m s b b
        (offerCopies r now t active m ((b.readyFor active m).takeWhile (· ≠ s)) b).2
        (offerCopies r now t active m (b.readyFor active m) b).2 := by
  obtain ⟨hdiscards, hdispatcher, hsubscriber, hstatus⟩ :=
    discardFor_confined t m (b.saturatedFor active m) b
  obtain ⟨hnodup, hready⟩ := readyFor_discarded distinct t m
  unfold offerCopies at kept ⊢
  obtain ⟨hoffers, htaken⟩ := broadcast_taken _ _ hnodup hready
    (by rw [hdispatcher]; exact accepting) kept
  refine ⟨⟨_, hdiscards.trans hoffers⟩, fun s hs => ?_⟩
  have hjobs : (discardFor m (b.saturatedFor active m) b).jobsFor m s = b.jobsFor m s := by
    rw [jobsFor, hdispatcher, jobsFor]
  have hsame : s ∉ b.readyFor active m →
      ((broadcast r now t m .discard (b.readyFor active m)
          (discardFor m (b.saturatedFor active m) b)).2.message m).status? (b.subscriber s).id =
        ((discardFor m (b.saturatedFor active m) b).message m).status? (b.subscriber s).id ∧
      (broadcast r now t m .discard (b.readyFor active m)
        (discardFor m (b.saturatedFor active m) b)).2.jobsFor m s = b.jobsFor m s := fun hnot => by
    refine ⟨hoffers.copies _ ?_, (hoffers.queued s hnot).trans hjobs⟩
    rw [hdiscards.toTouches.idsOf]
    exact id_not_mem distinct (fun _ hu => (mem_readyFor.1 hu).1) hs hnot
  cases hlacks : (b.message m).awaits (b.subscriber s).id with
  | false =>
      have hnot : s ∉ b.saturatedFor active m := fun hmem =>
        absurd ((mem_saturatedFor.1 hmem).2.1.symm.trans hlacks) nofun
      obtain ⟨hcopy, hunqueued⟩ := hsame fun hmem =>
        absurd ((mem_readyFor.1 hmem).2.1.symm.trans hlacks) nofun
      exact .untouched hlacks
        (hcopy.trans (hdiscards.copies _ (id_not_mem_saturatedFor distinct hs hnot))) hunqueued
  | true =>
      cases hroom : b.hasRoom s with
      | false =>
          obtain ⟨hcopy, hunqueued⟩ := hsame fun hmem =>
            absurd ((mem_readyFor.1 hmem).2.2.symm.trans hroom) nofun
          have hmem : s ∈ b.saturatedFor active m := mem_saturatedFor.2 ⟨hs, hlacks, hroom⟩
          exact .discarded hlacks (.inl hroom)
            (hcopy.trans (hstatus _ (List.mem_map_of_mem hmem))) hunqueued
      | true =>
          cases htaken s (mem_readyFor.2 ⟨hs, hlacks, hroom⟩) with
          | sent agreed scheduled queued =>
              rw [hsubscriber] at scheduled
              exact .sent hlacks hroom agreed scheduled (by rw [queued, hjobs])
          | vetoed v hv rejects discarded unqueued =>
              rw [hsubscriber] at discarded
              exact .discarded hlacks (.inr ⟨v, hv, rejects⟩) discarded (unqueued.trans hjobs)

theorem offerCopies_kept (distinct : (b.idsOf active).Nodup)
    (accepting : b.dispatcher.accepting = true) :
    (offerCopies r now t active m (b.readyFor active m) b).1 = true ↔
      b.readyFor active m = [] ∨ b.Fit now m := by
  obtain ⟨hdiscards, hdispatcher, -, -⟩ := discardFor_confined t m (b.saturatedFor active m) b
  obtain ⟨hnodup, hready⟩ := readyFor_discarded distinct t m
  rw [offerCopies, broadcast_kept _ _ hnodup hready (by rw [hdispatcher]; exact accepting),
    hdiscards.fit]

theorem offerCopies_dropped (distinct : (b.idsOf active).Nodup)
    (accepting : b.dispatcher.accepting = true) {rest : List MessageRef}
    (front : (b.tracker t).buffer = m :: rest)
    (dropped : (offerCopies r now t active m (b.readyFor active m) b).1 = false) :
    Bounded m b (offerCopies r now t active m (b.readyFor active m) b).2 ∧
      ((offerCopies r now t active m (b.readyFor active m) b).2.tracker t).buffer = rest := by
  obtain ⟨hdiscards, hdispatcher, -, -⟩ := discardFor_confined t m (b.saturatedFor active m) b
  obtain ⟨hnodup, hready⟩ := readyFor_discarded distinct t m
  obtain ⟨hbounded, hrest⟩ := broadcast_dropped _ _ hnodup hready
    (by rw [hdispatcher]; exact accepting) (hdiscards.place.trans front) dropped
  exact ⟨hdiscards.toBounded.trans hbounded, hrest⟩

theorem handedOff_of_not_awaits {x : Message} {id : SubscriberId} (h : x.awaits id = false) :
    (x.status? id).any RecipientStatus.isHandedOff = true := by
  unfold Message.awaits at h
  cases hstatus : x.status? id with
  | none => simp [hstatus] at h
  | some status =>
      cases status with
      | failed => simp [hstatus] at h
      | scheduled | delivered | acknowledged | discarded => rfl

theorem CopyFate.handedOff {e : Broker} (h : CopyFate r t m s b d e c) :
    ((c.message m).status? (b.subscriber s).id).any RecipientStatus.isHandedOff = true := by
  cases h with
  | sent _ _ _ scheduled => rw [scheduled]; rfl
  | discarded _ _ discarded => rw [discarded]; rfl
  | untouched done same => rw [same, handedOff_of_not_awaits done]

theorem CopyFate.frame {e b' c' : Broker} (h : CopyFate r t m s b d e c)
    (hsubscriber : (b'.subscriber s).id = (b.subscriber s).id)
    (hmessage : b'.message m = b.message m) (hbefore : b'.jobsFor m s = b.jobsFor m s)
    (hstatus : (c'.message m).recipients = (c.message m).recipients)
    (hafter : c'.jobsFor m s = c.jobsFor m s) : CopyFate r t m s b' d e c' := by
  have hcopy : ∀ id, (c'.message m).status? id = (c.message m).status? id := fun id => by
    rw [Message.status?, hstatus, Message.status?]
  cases h with
  | sent pending room agreed scheduled queued =>
      refine .sent ?_ room agreed ?_ ?_
      · rwa [hmessage, hsubscriber]
      · rwa [hcopy, hsubscriber]
      · rw [hafter, hbefore, queued]
  | discarded pending cause discarded unqueued =>
      refine .discarded ?_ cause ?_ ?_
      · rwa [hmessage, hsubscriber]
      · rwa [hcopy, hsubscriber]
      · rw [hafter, hbefore, unqueued]
  | untouched done same unqueued =>
      refine .untouched ?_ ?_ ?_
      · rwa [hmessage, hsubscriber]
      · rwa [hcopy, hmessage, hsubscriber]
      · rw [hafter, hbefore, unqueued]

def burstStep (r : Rules) (now : UInt64) (t : TrackerRef) (active : List SubscriberRef)
    (ids : List SubscriberId) (b : Broker) (m : MessageRef) : Broker :=
  match offerCopies r now t active m (b.readyFor active m) b with
  | (false, c) => c
  | (true, c) => (c.retireIfHandedOff t ids m).2

theorem burstPass_eq_foldl (r : Rules) (now : UInt64) (t : TrackerRef) (active : List SubscriberRef)
    (ids : List SubscriberId) (l : List MessageRef) (b : Broker) :
    (burstPass r now t active .discardAllowed ids l b).2 =
      l.foldl (burstStep r now t active ids) b := by
  induction l generalizing b with
  | nil => rfl
  | cons m l ih =>
      rw [List.foldl_cons, ← ih, burstStep, offerCopies, readyFor, saturatedFor, burstPass]
      dsimp only [failurePolicy]
      rw [if_pos rfl]
      generalize broadcast r now t m .discard _ _ = p
      obtain ⟨_ | _, c⟩ := p
      · rfl
      · dsimp only
        generalize c.retireIfHandedOff t ids m = q
        obtain ⟨_ | _, d⟩ := q <;> rfl

/-- The message leaves the buffer, dropped or not, and then every copy has its fate. -/
theorem burstStep_fate (r : Rules) (now : UInt64) (distinct : (b.idsOf active).Nodup)
    (accepting : b.dispatcher.accepting = true) {rest : List MessageRef}
    (front : (b.tracker t).buffer = m :: rest) :
    Bounded m b (burstStep r now t active (b.idsOf active) b m) ∧
      ((burstStep r now t active (b.idsOf active) b m).tracker t).buffer = rest ∧
      ((offerCopies r now t active m (b.readyFor active m) b).1 = true → ∀ s ∈ active,
        CopyFate r t m s b b
          (offerCopies r now t active m ((b.readyFor active m).takeWhile (· ≠ s)) b).2
          (burstStep r now t active (b.idsOf active) b m)) := by
  unfold burstStep
  cases hkept : (offerCopies r now t active m (b.readyFor active m) b).1 with
  | false =>
      obtain ⟨hbounded, hrest⟩ := offerCopies_dropped distinct accepting front hkept
      generalize offerCopies r now t active m (b.readyFor active m) b = p at *
      obtain ⟨kept, c⟩ := p
      obtain rfl : kept = false := hkept
      exact ⟨hbounded, hrest, nofun⟩
  | true =>
      obtain ⟨⟨l, hconfined⟩, hfate⟩ := offerCopies_fate distinct accepting hkept
      generalize offerCopies r now t active m (b.readyFor active m) b = p at *
      obtain ⟨kept, c⟩ := p
      obtain rfl : kept = true := hkept
      dsimp only at hconfined hfate ⊢
      have hfront : (c.tracker t).buffer = m :: rest := hconfined.place.trans front
      have hbuffered : c.isBufferedIn t m = true := (isBufferedIn_iff c t m).2 ⟨m, by simp [hfront], rfl⟩
      have hhanded : (c.message m).isHandedOffTo (b.idsOf active) = true :=
        List.all_eq_true.2 fun id hid => by
          obtain ⟨s, hs, rfl⟩ := List.mem_map.1 hid
          exact (hfate s hs).handedOff
      have hretire : (c.retireIfHandedOff t (b.idsOf active) m).2 =
          (c.unbuffer t m).settleIfComplete m := by
        rw [retireIfHandedOff, hhanded, hbuffered]
        rfl
      have htouch := (Touches.unbuffer c t m).trans (Touches.settleIfComplete _ m)
      rw [hretire]
      refine ⟨hconfined.toBounded.trans (.of_subscriber htouch fun u => by simp), ?_,
        fun _ s hs => (hfate s hs).frame rfl rfl rfl ?_ ?_⟩
      · simpa using buffer_unbuffer_front c t m rest hfront
      · simp
      · simp [jobsFor]

structure Swept (l : List MessageRef) (b c : Broker) : Prop extends Preserves b c where
  others : ∀ n, n ∉ l → c.message n = b.message n
  queued : ∀ n, n ∉ l → ∀ s, c.jobsFor n s = b.jobsFor n s
  purges : c.purges = b.purges
  accepting : c.dispatcher.accepting = b.dispatcher.accepting
  window : ∀ u, (c.subscriber u).unacked = (b.subscriber u).unacked ∨
    (c.subscriber u).unacked.toNat ≤ (b.subscriber u).window.toNat

theorem Swept.refl (b : Broker) : Swept [] b b :=
  ⟨.refl b, fun _ _ => rfl, fun _ _ _ => rfl, rfl, rfl, fun _ => .inl rfl⟩

theorem Bounded.sweep {rest : List MessageRef} (h : Bounded m b c) (h' : Swept rest c d) :
    Swept (m :: rest) b d where
  toPreserves := h.toPreserves.trans h'.toPreserves
  others n hn := by
    rw [List.mem_cons, not_or] at hn
    rw [h'.others n hn.2, h.others n hn.1]
  queued n hn s := by
    rw [List.mem_cons, not_or] at hn
    rw [h'.queued n hn.2, h.toTouches.jobsFor hn.1]
  purges := h'.purges.trans h.purges
  accepting := h'.accepting.trans h.accepting
  window s := h.window_trans s (h'.window s)

theorem burstPass_swept (r : Rules) (now : UInt64) (l l' : List MessageRef) (b : Broker)
    (distinct : (b.idsOf active).Nodup)
    (accepting : b.dispatcher.accepting = true) (hl : (b.tracker t).buffer = l ++ l') :
    Swept l b (burstPass r now t active .discardAllowed (b.idsOf active) l b).2 ∧
      ((burstPass r now t active .discardAllowed (b.idsOf active) l b).2.tracker t).buffer = l' := by
  rw [burstPass_eq_foldl]
  induction l generalizing b with
  | nil => exact ⟨.refl b, hl⟩
  | cons m l ih =>
      obtain ⟨hstep, hrest, -⟩ := burstStep_fate r now distinct accepting hl
      have hids := hstep.toTouches.idsOf active
      obtain ⟨hswept, hbuffer⟩ := ih _ (by rwa [hids]) (hstep.accepting.trans accepting) hrest
      rw [hids] at hswept hbuffer
      exact ⟨hstep.sweep hswept, hbuffer⟩

theorem Swept.fit {l : List MessageRef} (h : Swept l b c) (hm : m ∉ l) :
    c.Fit now m ↔ b.Fit now m := by
  have hmessage := h.others m hm
  refine ⟨fun hf => ?_, fun hf => ?_⟩
  · exact hf.congr h.purges.symm (by rw [hmessage]) (by rw [hmessage]) (by rw [hmessage])
  · exact hf.congr h.purges (by rw [hmessage]) (by rw [hmessage]) (by rw [hmessage])

/-- When a message comes up in the pass it is either dropped, or every active subscriber's copy has
its fate. -/
theorem burstPass_fate (l l' : List MessageRef) (b : Broker) (distinct : (b.idsOf active).Nodup)
    (accepting : b.dispatcher.accepting = true) (hl : (b.tracker t).buffer = l ++ m :: l')
    (before : m ∉ l) (after : m ∉ l') :
    let d := (burstPass r now t active .discardAllowed (b.idsOf active) l b).2
    ((offerCopies r now t active m (d.readyFor active m) d).1 = true ↔
        d.readyFor active m = [] ∨ b.Fit now m) ∧
      ((offerCopies r now t active m (d.readyFor active m) d).1 = true →
        ∀ s ∈ active, CopyFate r t m s b d
          (offerCopies r now t active m ((d.readyFor active m).takeWhile (· ≠ s)) d).2
          (burstPass r now t active .discardAllowed (b.idsOf active) (l ++ m :: l') b).2) := by
  have hfirst := burstPass_swept r now l (m :: l') b distinct accepting hl
  dsimp only
  rw [burstPass_eq_foldl] at hfirst
  rw [burstPass_eq_foldl, burstPass_eq_foldl, List.foldl_append, List.foldl_cons]
  generalize l.foldl (burstStep r now t active (b.idsOf active)) b = d at hfirst ⊢
  obtain ⟨hswept, hbuffer⟩ := hfirst
  have hids : d.idsOf active = b.idsOf active := by simp [idsOf, hswept.subscriber_id]
  have hdistinct : (d.idsOf active).Nodup := by rwa [hids]
  have haccepting := hswept.accepting.trans accepting
  refine ⟨(offerCopies_kept hdistinct haccepting).trans (or_congr_right (hswept.fit before)),
    fun kept s hs => ?_⟩
  obtain ⟨hstep, hrest, hfate⟩ := burstStep_fate r now hdistinct haccepting hbuffer
  obtain ⟨hlast, -⟩ := burstPass_swept r now l' [] (burstStep r now t active (d.idsOf active) d m)
    (by rwa [hstep.toTouches.idsOf]) (hstep.accepting.trans haccepting)
    (by rw [List.append_nil]; exact hrest)
  rw [burstPass_eq_foldl, hstep.toTouches.idsOf, hids] at hlast
  rw [hids] at hfate
  refine (hfate kept s hs).frame (hswept.subscriber_id s).symm (hswept.others m before).symm
    (hswept.queued m before s).symm ?_ (hlast.queued m after s)
  rw [hlast.others m after]

/-- A burst that may drop copies empties the buffer. When a message comes up it is dropped only if
it is purged or expired and somebody is ready for it. Otherwise each active subscriber that lacks it
is sent its copy by one job, if it has room then and no veto rejects it, or else loses its copy; and
whoever has been sent it before is left alone. No window is filled beyond its size. -/
theorem burst_settles_copies (r : Rules) (now : UInt64) (accepting : b.dispatcher.accepting = true)
    (distinct : (b.idsOf active).Nodup) (apart : (b.bufferedIds t).Nodup) :
    let c := (deliver r now t active (.burst .discardAllowed) b).2
    (c.tracker t).buffer = [] ∧
      (∀ l m l', (b.tracker t).buffer = l ++ m :: l' →
        let d := (burstPass r now t active .discardAllowed (b.idsOf active) l b).2
        ((offerCopies r now t active m (d.readyFor active m) d).1 = true ↔
            d.readyFor active m = [] ∨ b.Fit now m) ∧
          ((offerCopies r now t active m (d.readyFor active m) d).1 = true →
            ∀ s ∈ active, CopyFate r t m s b d
              (offerCopies r now t active m ((d.readyFor active m).takeWhile (· ≠ s)) d).2 c)) ∧
      ∀ s, (c.subscriber s).unacked = (b.subscriber s).unacked ∨
        (c.subscriber s).unacked.toNat ≤ (b.subscriber s).window.toNat := by
  have hapart : (b.tracker t).buffer.Nodup := List.Nodup.of_map _ apart
  obtain ⟨hswept, hempty⟩ := burstPass_swept r now (b.tracker t).buffer [] b distinct accepting
    (List.append_nil _).symm
  refine ⟨hempty, fun l m l' hl => ?_, hswept.window⟩
  have hm : m ∉ l ++ l' := (List.nodup_middle.1 (hl ▸ hapart)).notMem
  rw [List.mem_append, not_or] at hm
  rw [deliver, hl]
  exact burstPass_fate l l' b distinct accepting hl hm.1 hm.2

def published : Broker :=
  (replay ⟨1, .discardAllowed, []⟩
    [.createSlot "stored", .createMessage 1 "news" "stored" "story" 0 0,
      .createMessage 2 "news" "stored" "report" 0 0,
      .createSubscriber "quick" ⟨"news", .amqp, .topic⟩ "local" 2 default,
      .createSubscriber "slow" ⟨"news", .amqp, .topic⟩ "local" 1 default, .register ⟨0⟩, .register ⟨1⟩,
      .track ⟨"news", .amqp, .topic⟩, .buffer [⟨0⟩, ⟨1⟩] ⟨0⟩ ⟨0⟩]
    default default).1

theorem burst_settles_copies_published :
    let r : Rules := ⟨1, .discardAllowed, []⟩
    let c := (deliver r 0 ⟨0⟩ (published.active ⟨0⟩) (.burst .discardAllowed) published).2
    published.dispatcher.accepting = true ∧ (published.idsOf (published.active ⟨0⟩)).Nodup ∧
      (published.bufferedIds ⟨0⟩).Nodup ∧ (c.tracker ⟨0⟩).buffer = [] ∧
      ∃ d e, CopyFate r ⟨0⟩ ⟨1⟩ ⟨1⟩ published d e c ∧ d.hasRoom ⟨1⟩ = false ∧
        (c.message ⟨1⟩).status? "slow" = some .discarded := by
  have accepting : published.dispatcher.accepting = true := by decide
  have distinct : (published.idsOf (published.active ⟨0⟩)).Nodup := by decide
  have apart : (published.bufferedIds ⟨0⟩).Nodup := by decide
  obtain ⟨hempty, hfate, -⟩ :=
    burst_settles_copies ⟨1, .discardAllowed, []⟩ 0 accepting distinct apart
  have hslow := (hfate [⟨0⟩] ⟨1⟩ [] (by decide)).2 (by decide) ⟨1⟩ (by decide)
  exact ⟨accepting, distinct, apart, hempty, _, _, hslow, by decide, by decide⟩

end Courier.Broker
