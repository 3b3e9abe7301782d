import Courier.Proofs.Turns

namespace Courier

open Broker
open Relation (ReflTransGen)

def Operation.takesTurns : Operation → Bool
  | .flush .. | .send .. | .findNext .. => true
  | _ => false

namespace Broker

def SameTurn (b c : Broker) : Prop := ∀ v, (c.tracker v).cursor = (b.tracker v).cursor

variable {r : Rules} {now : UInt64} {t : TrackerRef} {active : List SubscriberRef}
  {batch : List MessageRef} {b c d : Broker} {m : MessageRef} {s : SubscriberRef}

namespace SameTurn

theorem refl (b : Broker) : SameTurn b b := fun _ => rfl

theorem trans (h : SameTurn b c) (h' : SameTurn c d) : SameTurn b d := fun v =>
  (h' v).trans (h v)

theorem foldl {α : Type} {f : Broker → α → Broker} (hf : ∀ b a, SameTurn b (f b a)) (l : List α)
    (b : Broker) : SameTurn b (l.foldl f b) := by
  induction l generalizing b with
  | nil => exact refl b
  | cons a l ih => exact (hf b a).trans (ih (f b a))

theorem of_tracker (h : ∀ v, c.tracker v = b.tracker v) : SameTurn b c := fun v =>
  congrArg Tracker.cursor (h v)

theorem modifyTracker (b : Broker) (t : TrackerRef) (f : Tracker → Tracker)
    (hf : ∀ x, (f x).cursor = x.cursor) : SameTurn b (b.modifyTracker t f) := fun v => by
  rw [tracker_modifyTracker]
  split
  · exact hf _
  · rfl

theorem releaseInFlight (b : Broker) (t : TrackerRef) : SameTurn b (b.releaseInFlight t) :=
  modifyTracker b t _ fun _ => rfl

theorem rebuffer (b : Broker) (t : TrackerRef) (m : MessageRef) : SameTurn b (b.rebuffer t m) :=
  fun v => by
    rw [tracker_rebuffer]
    split <;> rfl

theorem unbuffer (b : Broker) (t : TrackerRef) (m : MessageRef) : SameTurn b (b.unbuffer t m) :=
  fun v => by
    rw [tracker_unbuffer]
    split <;> rfl

theorem drain (b : Broker) (t : TrackerRef) : SameTurn b (b.drain t) := fun v => by
  rw [tracker_drain]
  split <;> rfl

theorem accept (p : SlotRef) (t : TrackerRef) (b : Broker) (m : MessageRef) :
    SameTurn b (b.accept p t m) := fun v => by
  rw [tracker_accept]
  split <;> rfl

theorem fail (b : Broker) (j : Job) : SameTurn b (b.fail j) := by
  unfold Broker.fail
  cases j.policy with
  | rebuffer =>
      refine SameTurn.trans (fun v => ?_) (rebuffer _ _ _)
      split
      · exact releaseInFlight _ _ v
      · rfl
  | retry => exact SameTurn.trans (fun _ => rfl) (rebuffer _ _ _)
  | discard => exact of_tracker fun v => by simp [setStatus, release]

theorem execute (b : Broker) (j : Job) : SameTurn b (b.execute j) := by
  have hwritten : SameTurn b (b.written j.subscriber j.message) := of_tracker fun v => by simp
  rw [execute_eq]
  split
  · exact hwritten.trans (of_tracker fun v => by simp)
  · exact hwritten.trans (fail _ j)

theorem runJob (b : Broker) (place : Nat) : SameTurn b (b.runJob place) := by
  unfold Broker.runJob
  split
  · exact SameTurn.trans (of_tracker fun v => by simp) (execute _ _)
  · exact refl b

theorem returnToBuffer (t : TrackerRef) (b : Broker) (m : MessageRef) :
    SameTurn b (b.returnToBuffer t m) := by
  unfold Broker.returnToBuffer withdraw
  refine SameTurn.trans ?_ (rebuffer _ _ _)
  split
  · exact refl b
  · exact SameTurn.trans (c := b.modifyMessage m Message.withdrawOutstanding) (fun _ => rfl)
      (foldl (fun b id => by rw [giveBack_eq]; split <;> exact releaseInFlight b t) _ _)

theorem settleAll (b : Broker) (l : List MessageRef) : SameTurn b (b.settleAll l) :=
  of_tracker fun v => by simp

theorem evict (b : Broker) (t : TrackerRef) : SameTurn b (b.evict t) := by
  rw [evict_eq]
  split
  · split
    · exact (SameTurn.trans (of_tracker fun v => by simp) (drain _ t)).trans (settleAll _ _)
    · exact of_tracker fun v => by simp
  · exact refl b

theorem handled {outcome : FilterOutcome} {policy : FailurePolicy}
    (h : Handled r now s m t policy b outcome c) : SameTurn b c := by
  have hclaim : SameTurn b (b.claim s m t policy) := fun v => by
    rw [tracker_claim]
    split <;> rfl
  cases h with
  | purged => exact of_tracker fun v => by simp [markPurged]
  | marked | vetoed | alreadyInFlight => exact refl b
  | expired => exact of_tracker fun v => by simp [markExpired]
  | dispatched => exact hclaim.trans (of_tracker fun v => by simp)
  | failed => exact hclaim.trans (fail _ _)

theorem offer (b : Broker) (r : Rules) (now : UInt64) (t : TrackerRef) (s : SubscriberRef)
    (m : MessageRef) : SameTurn b (b.offer r now t s m).2 := by
  obtain ⟨outcome, c, hc, hh⟩ := exists_handled b r now s m t .rebuffer
  unfold Broker.offer
  rw [hc]
  cases outcome with
  | vetoed => exact (handled hh).trans (of_tracker fun v => by simp)
  | alreadyInFlight => exact (handled hh).trans (rebuffer c t m)
  | purged | expired | dispatched | failed => exact handled hh

theorem passStep (h : PassStep r now t active batch b c) :
    SameTurn b c ∨ c = (b.nextSubscriber t active).2 := by
  cases h with
  | turn => exact .inr rfl
  | offer m rest s => exact .inl ((unbuffer b t m).trans (offer _ r now t s m))
  | discard m s => exact .inl fun _ => rfl
  | spread m s =>
      refine .inl ?_
      obtain ⟨outcome, d, hd, hh⟩ := exists_handled b r now s m t (copyPolicy r.topics)
      unfold Broker.spread
      rw [hd]
      cases outcome with
      | purged | expired => exact (handled hh).trans (unbuffer _ t m)
      | vetoed => exact (handled hh).trans fun _ => rfl
      | alreadyInFlight | dispatched | failed => exact handled hh
  | retire m => exact .inl ((unbuffer b t m).trans (of_tracker fun v => by simp))

theorem deletes {condition : StoreCondition} (h : Deletes b condition c) : SameTurn b c := by
  cases h with
  | deleted store => exact of_tracker fun v => by simp
  | refused | lost => exact fun _ => rfl

theorem releaseTracked (b : Broker) (key : TrackedKey) : SameTurn b (b.releaseTracked key) := by
  unfold Broker.releaseTracked
  split
  · exact releaseInFlight b _
  · exact refl b

theorem acknowledge (b : Broker) (s : SubscriberRef) (m : MessageRef) (type : DestinationType) :
    SameTurn b (b.acknowledge s m type) := fun v => by
  simp only [Broker.acknowledge]
  split <;> split <;> simp [setStatus, release, (releaseTracked _ _) v]

theorem consumePurged (b : Broker) (m : MessageRef) : SameTurn b (b.consumePurged m) :=
  of_tracker fun v => by simp [Broker.consumePurged, markPurged]

end SameTurn

theorem sameTurn_apply (r : Rules) (b : Broker) {op : Operation} (hw : op.isWork = true)
    (hturns : op.takesTurns = false) : SameTurn b (op.apply r b) := by
  have hback : ∀ key l, SameTurn b ((Operation.rebuffer key l).apply r b) := fun key l => by
    rw [Operation.apply_rebuffer]
    split
    · exact SameTurn.foldl (SameTurn.returnToBuffer _) l b
    · exact SameTurn.refl b
  cases op with
  | flush | send | findNext => exact absurd hturns.symm Bool.false_ne_true
  | createMessage | createSubscriber | register | unregister | track => exact absurd hw nofun
  | createSlot | connect | close => exact fun _ => rfl
  | buffer batch p t =>
      exact SameTurn.trans (fun _ => rfl) (SameTurn.foldl (SameTurn.accept p t) batch _)
  | rebuffer key l => exact hback key l
  | requeue m type => exact hback ⟨type, (b.message m).destination⟩ [m]
  | clear key =>
      unfold Operation.apply clear
      dsimp only
      split
      · exact SameTurn.drain b _
      · exact SameTurn.refl b
  | purge now key storageQueue =>
      unfold Operation.apply purge
      dsimp only
      split
      · exact (SameTurn.drain (b.recordPurge storageQueue now) _).trans
          (SameTurn.foldl SameTurn.consumePurged _ _)
      · exact fun _ => rfl
  | acknowledge s m type => exact SameTurn.acknowledge b s m type
  | runJob place => exact SameTurn.runJob b place
  | shutdown =>
      exact shutdown_induction (P := fun c _ => SameTurn b c) (h := default) (SameTurn.refl b)
        (fun c _ hc => hc.trans (SameTurn.runJob c 0)) fun _ _ hc => hc.trans fun _ => rfl
  | deleteExpired condition => exact SameTurn.deletes (b.deleteExpired_deletes condition)

theorem map_place (x : Registration) (l : List Registration) :
    (Registry.place x l).map (fun e => (e.key, e.id)) =
      if (x.key, x.id) ∈ l.map (fun e => (e.key, e.id)) then l.map fun e => (e.key, e.id)
      else (l.map fun e => (e.key, e.id)) ++ [(x.key, x.id)] := by
  induction l with
  | nil => simp [Registry.place]
  | cons d l ih =>
      rw [Registry.place]
      split
      · next hd => simp [hd.1, hd.2]
      · next hd =>
          have hne : (x.key, x.id) ≠ (d.key, d.id) := fun he => by
            rw [Prod.mk.injEq] at he
            exact hd ⟨he.1.symm, he.2.symm⟩
          rw [List.map_cons, ih]
          simp only [List.map_cons, List.mem_cons, or_iff_right hne]
          split <;> rfl

theorem ids_of_map (key : DestinationKey) (l : List Registration) :
    (l.filter fun e => e.key = key).map Registration.id =
      ((l.map fun e => (e.key, e.id)).filter fun p => decide (p.1 = key)).map Prod.snd := by
  rw [List.filter_map, List.map_map]
  rfl

theorem idsOf_active_register (h : Sound b) (hs : b.hasSubscriber s) (t : TrackerRef) :
    (b.register s).idsOf ((b.register s).active t) =
      if (b.tracker t).key = (b.subscriber s).key ∧ (b.subscriber s).id ∉ b.idsOf (b.active t) then
        b.idsOf (b.active t) ++ [(b.subscriber s).id]
      else b.idsOf (b.active t) := by
  have hnew : (b.register s).idsOf ((b.register s).active t) =
      ((Registry.place ⟨(b.subscriber s).key, (b.subscriber s).id, s⟩ b.registry.entries).filter
        fun e => e.key = (b.tracker t).key).map Registration.id :=
    (h.register hs).idsOf_active (b.tracker t).key
  have hold : b.idsOf (b.active t) =
      (b.registry.entries.filter fun e => e.key = (b.tracker t).key).map Registration.id :=
    h.idsOf_active (b.tracker t).key
  have hmem : (b.subscriber s).key = (b.tracker t).key →
      (((b.subscriber s).key, (b.subscriber s).id) ∈
        b.registry.entries.map (fun e => (e.key, e.id)) ↔ (b.subscriber s).id ∈ b.idsOf (b.active t)) :=
    fun hkey => by
      rw [hold, ids_of_map, hkey]
      simp
  rw [hnew, ids_of_map, map_place, apply_ite (List.filter _), apply_ite (List.map _),
    List.filter_append, List.map_append, ← ids_of_map, ← hold]
  by_cases hkey : (b.subscriber s).key = (b.tracker t).key
  · simp only [hmem hkey]
    by_cases hid : (b.subscriber s).id ∈ b.idsOf (b.active t) <;> simp [hkey, hid]
  · simp [hkey, Ne.symm hkey]

theorem idsOf_active_unregister (h : Sound b) (id : SubscriberId) (t : TrackerRef) :
    (b.unregister id).idsOf ((b.unregister id).active t) =
      (b.idsOf (b.active t)).filter fun i => decide (i ≠ id) := by
  have hnew : (b.unregister id).idsOf ((b.unregister id).active t) =
      ((b.registry.entries.filter fun e => e.id ≠ id).filter
        fun e => e.key = (b.tracker t).key).map Registration.id :=
    (h.unregister id).idsOf_active (b.tracker t).key
  have hold : b.idsOf (b.active t) =
      (b.registry.entries.filter fun e => e.key = (b.tracker t).key).map Registration.id :=
    h.idsOf_active (b.tracker t).key
  rw [hnew, hold, List.filter_filter, List.filter_map, List.filter_filter]
  refine congrArg _ (List.filter_congr fun e _ => ?_)
  rw [Function.comp_apply, Bool.and_comm]

structure Cyclic (b : Broker) (t : TrackerRef) : Prop where
  nodup : (b.tracker t).cursor.order.Nodup
  inTurn : b.InTurn t (b.active t)

theorem Cyclic.congr (hc : b.Cyclic t) (hs : Sound b) (hs' : Sound c)
    (hcursor : (c.tracker t).cursor = (b.tracker t).cursor)
    (hids : c.idsOf (c.active t) = b.idsOf (b.active t)) : c.Cyclic t where
  nodup := hcursor ▸ hc.nodup
  inTurn := by
    rw [inTurn_iff (hs'.active_nodup t), hcursor, hids]
    exact (inTurn_iff (hs.active_nodup t)).1 hc.inTurn

theorem Cyclic.preserved (hc : b.Cyclic t) (hs : Sound b) (hs' : Sound c) (hp : Preserves b c)
    (hturn : SameTurn b c) : c.Cyclic t := by
  refine hc.congr hs hs' (hturn t) ?_
  rw [hp.active_eq, idsOf, idsOf]
  exact List.map_congr_left fun s _ => hp.subscriber_id s

theorem order_nextSubscriber (b : Broker) (t : TrackerRef) (active : List SubscriberRef) :
    ((b.nextSubscriber t active).2.tracker t).cursor.order = (b.tracker t).cursor.order ∨
      ((b.nextSubscriber t active).2.tracker t).cursor.order = b.idsOf active := by
  rw [cursor_nextSubscriber]
  generalize b.idsOf active = ids
  cases ids with
  | nil => exact .inl rfl
  | cons first others =>
      rw [Cursor.next]
      split
      · exact .inl rfl
      · exact .inr rfl

theorem Cyclic.nextSubscriber (hc : b.Cyclic t) (hs : Sound b) :
    (b.nextSubscriber t (b.active t)).2.Cyclic t where
  nodup := by
    obtain ho | ho := b.order_nextSubscriber t (b.active t)
    · exact ho ▸ hc.nodup
    · exact ho ▸ hs.active_nodup t
  inTurn := by
    rw [(Touches.nextSubscriber ⟨0⟩ b t (b.active t)).active_eq]
    exact hc.inTurn.nextSubscriber (hs.active_nodup t)

theorem Cyclic.register (hc : b.Cyclic t) (h : Sound b) (hs : b.hasSubscriber s)
    (hterms : (b.tracker t).key = (b.subscriber s).key →
      (b.subscriber s).id ∈ b.idsOf (b.active t) ∨ b.due t (b.active t) = []) :
    (b.register s).Cyclic t := by
  have hids := idsOf_active_register h hs t
  split at hids
  · next hnew =>
      obtain ⟨hkey, hid⟩ := hnew
      refine ⟨hc.nodup, ?_⟩
      rw [inTurn_iff ((h.register hs).active_nodup t), hids]
      -- Of those still to come nobody was active, so it can only be the one who joins.
      have hnone : (b.tracker t).cursor.remaining (b.idsOf (b.active t)) = [] := by
        rw [← idsOf_due, (hterms hkey).resolve_left hid]
        rfl
      have hremaining : (b.tracker t).cursor.remaining
          (b.idsOf (b.active t) ++ [(b.subscriber s).id]) =
          (b.tracker t).cursor.upcoming.filter fun id => decide (id = (b.subscriber s).id) := by
        refine List.filter_congr fun id hmem => ?_
        have hleft := List.filter_eq_nil_iff.1 hnone id hmem
        simp only [decide_eq_true_eq] at hleft
        simp [hleft]
      have hfew : (b.tracker t).cursor.upcoming.Nodup := hc.nodup.sublist (List.drop_sublist _ _)
      change (b.tracker t).cursor.remaining _ <:+ _
      rw [hremaining, List.filter_eq]
      obtain hcount | hcount := Nat.le_one_iff_eq_zero_or_eq_one.1
        (List.nodup_iff_count_le_one.1 hfew (b.subscriber s).id)
      · rw [hcount]
        exact List.nil_suffix
      · rw [hcount]
        exact List.suffix_append _ _
  · exact hc.congr h (h.register hs) rfl hids

theorem Cyclic.unregister (hc : b.Cyclic t) (h : Sound b) (id : SubscriberId) :
    (b.unregister id).Cyclic t := by
  refine ⟨hc.nodup, ?_⟩
  have hids := idsOf_active_unregister h id t
  rw [inTurn_iff ((h.unregister id).active_nodup t), hids]
  have hremaining : (b.tracker t).cursor.remaining
      ((b.idsOf (b.active t)).filter fun i => decide (i ≠ id)) =
      ((b.tracker t).cursor.remaining (b.idsOf (b.active t))).filter fun i => decide (i ≠ id) := by
    rw [Cursor.remaining, Cursor.remaining, List.filter_filter]
    refine List.filter_congr fun i _ => ?_
    rw [← Bool.decide_and, decide_eq_decide, List.mem_filter, decide_eq_true_eq, and_comm]
  change (b.tracker t).cursor.remaining _ <:+ _
  rw [hremaining]
  exact ((inTurn_iff (h.active_nodup t)).1 hc.inTurn).filter _

theorem cyclic_track (hc : ∀ t, b.Cyclic t) (h : Sound b) (key : DestinationKey) (t : TrackerRef) :
    (b.track key).2.Cyclic t := by
  have hs := h.track key
  obtain hsame | hnew : (b.track key).2 = b ∨ (b.track key).2 = b.trackNew key := by
    rw [track_eq]
    split
    · exact .inl rfl
    · exact .inr rfl
  · rw [hsame]
    exact hc t
  · rw [hnew] at hs ⊢
    by_cases ht : t.index = b.trackers.size
    · have hactive : (b.trackNew key).active t = b.registry.active key := by
        rw [active, tracker_trackNew, if_pos ht]
        rfl
      have hcursor : ((b.trackNew key).tracker t).cursor =
          .start (b.idsOf (b.registry.active key)) := by
        rw [tracker_trackNew, if_pos ht]
        rfl
      have hnodup := hs.active_nodup t
      rw [hactive] at hnodup
      refine ⟨hcursor ▸ hnodup, ?_⟩
      rw [hactive]
      exact inTurn_of_order (by rw [hcursor]; rfl) hnodup
    · refine (hc t).congr h hs ?_ ?_
      · rw [tracker_trackNew, if_neg ht]
      · rw [active, tracker_trackNew, if_neg ht]
        rfl

end Broker

/-- Nobody joins a destination before all that its trackers remember have had their turn, and turns
are taken among the active subscribers. -/
def cycleTerms (b : Broker) (_ : Journal) : Operation → Prop
  | .register s => ∀ i < b.trackers.size, (b.tracker ⟨i⟩).key = (b.subscriber s).key →
      (b.subscriber s).id ∈ b.idsOf (b.active ⟨i⟩) ∨ b.due ⟨i⟩ (b.active ⟨i⟩) = []
  | .findNext t active => active = b.active t
  | _ => True

instance (b : Broker) (h : Journal) : (op : Operation) → Decidable (cycleTerms b h op)
  | .register s => inferInstanceAs (Decidable (∀ i < b.trackers.size,
      (b.tracker ⟨i⟩).key = (b.subscriber s).key →
        (b.subscriber s).id ∈ b.idsOf (b.active ⟨i⟩) ∨ b.due ⟨i⟩ (b.active ⟨i⟩) = []))
  | .findNext t active => inferInstanceAs (Decidable (active = b.active t))
  | .createSlot _ | .createMessage .. | .createSubscriber .. | .connect .. | .unregister _ | .track _
  | .buffer .. | .rebuffer .. | .requeue .. | .flush .. | .send .. | .clear _ | .purge ..
  | .acknowledge .. | .runJob _ | .close | .shutdown | .deleteExpired _ => .isTrue trivial

namespace Broker

variable {r : Rules} {now : UInt64} {t : TrackerRef} {b c : Broker} {op : Operation} {h : Journal}

theorem cyclic_nextSubscriber (hc : ∀ t, b.Cyclic t) (hs : Sound b)
    (hs' : Sound (b.nextSubscriber t (b.active t)).2) (v : TrackerRef) :
    (b.nextSubscriber t (b.active t)).2.Cyclic v := by
  by_cases hv : v = t
  · exact hv ▸ (hc t).nextSubscriber hs
  · refine (hc v).congr hs hs' ?_ ?_
    · simp [Broker.nextSubscriber, tracker_modifyTracker, hv]
    · rw [(Touches.nextSubscriber ⟨0⟩ b t (b.active t)).active_eq, idsOf_nextSubscriber]

theorem cyclic_delivers (hc : ∀ t, b.Cyclic t) (hs : Sound b) (ht : b.hasTracker t)
    (hd : Delivers r now t b c) (v : TrackerRef) : c.Cyclic v := by
  refine hs.delivery_induction ht hd (P := fun c => ∀ v, c.Cyclic v) hc
    (fun _ v => (hc v).preserved hs (hs.evict t) (Sound.preserves_evict b t) (SameTurn.evict b t)) ?_ v
  intro _ _ d e hsd hp _ hd hstep v
  have hactive : b.active t = d.active t := (hp.active_eq t).symm
  obtain ⟨hse, hpe⟩ := hsd.passStep hstep (hp.hasTracker ht)
    (fun s hmem => (hsd.mem_active (hactive ▸ hmem)).1) fun m hm => hp.hasMessage (hs.buffered t m hm)
  obtain hsame | rfl := SameTurn.passStep hstep
  · exact (hd v).preserved hsd hse hpe hsame
  · rw [hactive] at hse ⊢
    exact cyclic_nextSubscriber hd hsd hse v

theorem cyclic_findNext (hc : ∀ t, b.Cyclic t) (hs : Sound b)
    (hs' : Sound (b.findNext t (b.active t)).2) (v : TrackerRef) :
    (b.findNext t (b.active t)).2.Cyclic v := by
  unfold findNext at hs' ⊢
  split at hs'
  · next unheard =>
      rw [if_pos unheard]
      exact (hc v).preserved hs hs' (Sound.preserves_evict b t) (SameTurn.evict b t)
  · next heard =>
      rw [if_neg heard]
      exact cyclic_nextSubscriber hc hs hs' v

theorem cyclic_apply (hc : ∀ t, b.Cyclic t) (hs : Sound b) (hu : op.uses b)
    (hterms : cycleTerms b h op) (v : TrackerRef) : (op.apply r b).Cyclic v := by
  have hs' : Sound (op.apply r b) := hs.apply r op hu
  cases op with
  | createMessage =>
      refine Operation.createMessage_induction (P := fun c => Sound c → c.Cyclic v) (fun _ => hc v)
        (fun _ hs' => (hc v).congr hs hs' rfl ?_) hs'
      have hnew := hs'.idsOf_active (b.tracker v).key
      exact hnew.trans (hs.idsOf_active (b.tracker v).key).symm
  | createSubscriber =>
      refine (hc v).congr hs hs' rfl ?_
      have hnew := hs'.idsOf_active (b.tracker v).key
      exact hnew.trans (hs.idsOf_active (b.tracker v).key).symm
  | register s =>
      refine (hc v).register hs hu fun hkey => ?_
      by_cases hv : v.index < b.trackers.size
      · exact hterms v.index hv hkey
      · have hnew : b.tracker v = default := b.trackers.get_of_size_le (Nat.le_of_not_lt hv)
        refine .inr ?_
        rw [due, hnew]
        rfl
  | unregister id => exact (hc v).unregister hs id
  | track key => exact cyclic_track hc hs key v
  | flush vetoes now t => exact cyclic_delivers hc hs hu (flush_delivers b (hs.active_nodup t)) v
  | send vetoes now t =>
      exact cyclic_delivers hc hs hu (sendBuffered_delivers b (hs.active_nodup t)) v
  | findNext t active =>
      obtain rfl : active = b.active t := hterms
      exact cyclic_findNext hc hs hs' v
  | createSlot | connect | buffer | rebuffer | requeue | clear | purge | acknowledge | runJob | close
  | shutdown | deleteExpired =>
      exact (hc v).preserved hs hs' (hs.preserves rfl hu r)
        (sameTurn_apply r b rfl rfl)

end Broker

theorem cyclic_default (t : TrackerRef) : (default : Broker).Cyclic t where
  nodup := List.nodup_nil
  inTurn := inTurn_of_due_nil rfl

/-- However a run under these terms got there, every cursor is in its cycle. -/
theorem Reaches.cyclic {r : Rules} {b : Broker} {h : Journal} (hr : Reaches r cycleTerms b h)
    (t : TrackerRef) : b.Cyclic t := by
  suffices hall : ∀ t, b.Cyclic t from hall t
  induction hr with
  | start => exact cyclic_default
  | step op prior hu hterms ih => exact cyclic_apply ih prior.sound hu hterms

end Courier
