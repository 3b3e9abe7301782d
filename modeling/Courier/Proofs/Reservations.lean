import Courier.Proofs.HeldCopies

namespace Courier

namespace Broker

variable {home : MessageRef → DestinationType} {limit : UInt64} {b b' : Broker} {m : MessageRef}
  {s : SubscriberRef} {t : TrackerRef} {r : Rules} {now : UInt64} {policy : FailurePolicy}
  {outcome : FilterOutcome} {batch : List MessageRef}

namespace Quiet

theorem settle (b : Broker) (m : MessageRef) : Quiet home b (b.settle m) :=
  { (Touches.settle b m).toPreserves with
    recipients := by simp
    gains := fun t n hn => .inl (by simpa using hn)
    unacked := by simp
    inFlight := by simp
    tracked := by simp
    jobs := by simp }

theorem settleIfComplete (b : Broker) (m : MessageRef) : Quiet home b (b.settleIfComplete m) := by
  obtain h | h := b.settleIfComplete_eq m
  · rw [h]; exact refl b
  · rw [h]; exact settle b m

theorem settleAll (b : Broker) (l : List MessageRef) : Quiet home b (b.settleAll l) :=
  foldl settle l b

theorem modifyMessage (b : Broker) (m : MessageRef) (f : Message → Message)
    (hf : ∀ x, (f x).made = x.made) (hr : ∀ x, (f x).recipients = x.recipients) :
    Quiet home b (b.modifyMessage m f) :=
  { (Touches.modifyMessage b m f hf fun x hx => by rwa [Message.Tidy, hr]).toPreserves with
    recipients := fun n => by rw [message_modifyMessage]; split <;> simp [hr]
    gains := fun _ _ h => .inl h
    unacked := fun _ => rfl
    inFlight := fun _ => rfl
    tracked := rfl
    jobs := rfl }

theorem markPurged (b : Broker) (m : MessageRef) : Quiet home b (b.markPurged m) :=
  modifyMessage b m _ (fun _ => rfl) fun _ => rfl

theorem consumePurged (b : Broker) (m : MessageRef) : Quiet home b (b.consumePurged m) :=
  (markPurged b m).trans (settle _ m)

theorem expire (b : Broker) (m : MessageRef) :
    Quiet home b ((b.markExpired m).addExpired m) :=
  (modifyMessage b m (fun x => { x with expired := true }) (fun _ => rfl) fun _ => rfl).trans
    { refl (b.markExpired m) with }

theorem unbuffer (b : Broker) (t : TrackerRef) (m : MessageRef) :
    Quiet home b (b.unbuffer t m) :=
  { (Touches.unbuffer b t m).toPreserves with
    recipients := by simp
    gains := fun v n hn => by
      rw [tracker_unbuffer] at hn
      split at hn
      · exact .inl (List.mem_of_mem_eraseP hn)
      · exact .inl hn
    unacked := by simp
    inFlight := fun v => inFlight_unbuffer b t v m
    tracked := by simp
    jobs := by simp }

theorem rebuffer (b : Broker) (t : TrackerRef) (m : MessageRef)
    (hplace : b.place home m = (b.tracker t).key.tracked) : Quiet home b (b.rebuffer t m) :=
  { (Touches.rebuffer b t m).toPreserves with
    recipients := by simp
    gains := fun v n hn => by
      rw [tracker_rebuffer] at hn
      split at hn
      · next hv =>
          obtain hn | hn := List.mem_append.1 hn
          · exact .inl hn
          · rw [List.mem_singleton.1 hn, hv.1]
            exact .inr hplace
      · exact .inl hn
    unacked := by simp
    inFlight := fun v => inFlight_rebuffer b t v m
    tracked := by simp
    jobs := by simp }

theorem drain (b : Broker) (t : TrackerRef) : Quiet home b (b.drain t) :=
  { Preserves.drain b t with
    recipients := fun n => by rw [message_drain]; split <;> rfl
    gains := fun v n hn => by
      rw [tracker_drain] at hn
      split at hn
      · exact absurd hn List.not_mem_nil
      · exact .inl hn
    unacked := by simp
    inFlight := fun v => by rw [tracker_drain]; split <;> rfl
    tracked := by simp
    jobs := by simp }

theorem withExpired (b : Broker) (l : List MessageRef) (store : MessageStore) :
    Quiet home b (b.withExpired l store) :=
  { refl b with }

theorem nextSubscriber (b : Broker) (t : TrackerRef) (active : List SubscriberRef) :
    Quiet home b (b.nextSubscriber t active).2 :=
  { (Touches.nextSubscriber ⟨0⟩ b t active).toPreserves with
    recipients := by simp
    gains := fun v n hn => .inl (by rwa [(tracker_nextSubscriber b t v active).2.1] at hn)
    unacked := by simp
    inFlight := fun v => (tracker_nextSubscriber b t v active).2.2
    tracked := by simp
    jobs := by simp }

theorem connect (b : Broker) (s : SubscriberRef) (outbound : Outbound) :
    Quiet home b (b.modifySubscriber s fun x => { x with outbound }) :=
  { (Touches.modifySubscriber ⟨0⟩ b s (fun x => { x with outbound }) fun _ => rfl).toPreserves with
    recipients := fun _ => rfl
    gains := fun _ _ h => .inl h
    unacked := fun u => by rw [subscriber_modifySubscriber]; split <;> rfl
    inFlight := fun _ => rfl
    tracked := rfl
    jobs := rfl }

theorem accept (p : SlotRef) (t : TrackerRef) (b : Broker) (m : MessageRef)
    (hplace : (b.message m).destination = (b.tracker t).key.destination →
      home m = (b.tracker t).key.type) : Quiet home b (b.accept p t m) :=
  { (Touches.accept p t b m).toPreserves with
    recipients := fun n => by rw [message_accept]; split <;> rfl
    gains := fun v n hn => by
      rw [tracker_accept] at hn
      split at hn
      · next hv =>
          obtain hn | hn := List.mem_append.1 hn
          · exact .inl hn
          · rw [List.mem_singleton.1 hn, hv.1, Broker.place, hplace hv.2, hv.2]
            exact .inr rfl
      · exact .inl hn
    unacked := by simp
    inFlight := fun v => by rw [tracker_accept]; split <;> rfl
    tracked := by simp
    jobs := by simp }

theorem bufferBatch (b : Broker) (l : List MessageRef) (p : SlotRef) (t : TrackerRef)
    (hl : ∀ m ∈ b.matching t l, home m = (b.tracker t).key.type) :
    Quiet home b (b.bufferBatch l p t) := by
  have hraise : Quiet home b (b.raiseSlot p (.ofNat l.length)) := { refl b with }
  refine hraise.trans ?_
  unfold Broker.bufferBatch
  replace hl : ∀ m ∈ (b.raiseSlot p (.ofNat l.length)).matching t l,
      home m = ((b.raiseSlot p (.ofNat l.length)).tracker t).key.type := hl
  generalize b.raiseSlot p (.ofNat l.length) = c at hl
  clear hraise
  induction l generalizing c with
  | nil => exact refl c
  | cons m l ih =>
      have hp := (Touches.accept p t c m).toPreserves
      rw [matching_cons] at hl
      refine (accept p t c m fun hd => hl m (by simp [hd])).trans (ih _ fun n hn => ?_)
      rw [hp.matching] at hn
      rw [hp.key]
      refine hl n ?_
      split
      · exact List.mem_cons_of_mem _ hn
      · exact hn

theorem deletes {condition : StoreCondition} (hd : Deletes b condition b') : Quiet home b b' := by
  cases hd with
  | deleted store => exact (withExpired b [] store).trans (settleAll _ _)
  | refused | lost => exact withExpired b _ _

end Quiet

theorem toNat_lt_of_hasRoom (h : b.hasRoom s = true) :
    (b.subscriber s).unacked.toNat < (b.subscriber s).window.toNat :=
  UInt64.lt_iff_toNat_lt.1 (of_decide_eq_true h)

theorem Tally.toNat_raise_one {x : Tally} {bound : UInt64} (h : x.toNat < bound.toNat) :
    (x.raise 1).toNat = x.toNat + 1 :=
  x.toNat_raise 1 (Nat.lt_of_le_of_lt h bound.toNat_lt)

theorem isHeldBy_claim (b : Broker) (s : SubscriberRef) (m : MessageRef) (t : TrackerRef)
    (policy : FailurePolicy) (id : SubscriberId) :
    ((b.claim s m t policy).message m).isHeldBy id =
      (decide (id = (b.subscriber s).id) || (b.message m).isHeldBy id) := by
  rw [message_claim, if_pos rfl, Message.isHeldBy, Message.status?_setStatus]
  by_cases hid : id = (b.subscriber s).id
  · rw [if_pos hid, decide_eq_true hid]
    rfl
  · rw [if_neg hid, decide_eq_false hid]
    rfl

theorem inFlight_claim (b : Broker) (s : SubscriberRef) (m : MessageRef) (t v : TrackerRef)
    (policy : FailurePolicy) :
    ((b.claim s m t policy).tracker v).inFlight =
      if v = t ∧ policy = .rebuffer then (b.tracker v).inFlight.raise 1
      else (b.tracker v).inFlight := by
  rw [tracker_claim]
  split <;> rfl

theorem Counted.claim (hc : Counted home limit b) (hs : b.Sound) (hm : b.hasMessage m)
    (hactive : s ∈ b.active t) (hfind : b.find? (b.place home m) = some t)
    (hpolicy : policy = .rebuffer ↔ (b.tracker t).isTopic = false)
    (lacks : (b.message m).awaits (b.subscriber s).id = true) (room : b.hasRoom s = true)
    (below : policy = .rebuffer → (b.tracker t).inFlight.value < limit) :
    Counted home limit (b.claim s m t policy) := by
  have hbefore := Message.not_isHeldBy_of_awaits lacks
  have hroom := toNat_lt_of_hasRoom room
  have hafter := isHeldBy_claim b s m t policy
  refine hc.copy hs (Touches.claim b s m t policy) hm hactive hfind (fun id hid => ?_)
    (fun v hv => .inl (by simpa using hv)) (fun u => ?_) (fun v => ?_) (fun u => ?_) fun v => ?_
  · rw [hafter, decide_eq_false hid, Bool.false_or]
  · rw [hafter, hbefore, decide_eq_true rfl, subscriber_claim]
    split
    · next hu => subst hu; exact Tally.toNat_raise_one hroom
    · rfl
  · simp only [hafter, hbefore, decide_true, Bool.true_or, inFlight_claim, ← hpolicy]
    split
    · next hv =>
        have hbelow := UInt64.lt_iff_toNat_lt.1 (below hv.2)
        rw [hv.1]
        exact Tally.toNat_raise_one hbelow
    · rfl
  · rw [subscriber_claim]
    split
    · next hu =>
        subst hu
        exact Nat.le_trans (Nat.le_of_eq (Tally.toNat_raise_one hroom)) hroom
    · exact hc.window u
  · rw [inFlight_claim]
    split
    · next hv =>
        have hbelow := UInt64.lt_iff_toNat_lt.1 (below hv.2)
        rw [hv.1]
        exact Nat.le_trans (Nat.le_of_eq (Tally.toNat_raise_one hbelow)) hbelow
    · exact hc.ceiling v

theorem Counted.findById_active (hc : Counted home limit b) (hs : b.Sound)
    (hactive : s ∈ b.active t) : b.findById (b.active t) (b.subscriber s).id = some s := by
  have hall : ∀ u ∈ b.active t, u ∈ b.registry.all := fun u hu =>
    (List.filter_sublist.map _).subset hu
  unfold findById
  cases hf : (b.active t).find? fun u => (b.subscriber u).id = (b.subscriber s).id with
  | none => simpa using List.find?_eq_none.1 hf s hactive
  | some u =>
      have hid : (b.subscriber u).id = (b.subscriber s).id := by simpa using List.find?_some hf
      rw [hc.eq_of_id hs (hall u (List.mem_of_find?_eq_some hf)) (hall s hactive) hid]

/-- A registered subscriber that has a message is active where the message belongs. -/
theorem Counted.active_of_held (hc : Counted home limit b) (hs : b.Sound)
    (hsr : s ∈ b.registry.all) (held : (b.message m).isHeldBy (b.subscriber s).id = true) :
    ∃ t, b.find? (b.place home m) = some t ∧ s ∈ b.active t := by
  obtain ⟨t, hfind, hmem⟩ := hc.placed m _ held
  obtain ⟨u, hu, hid⟩ := List.mem_map.1 hmem
  obtain rfl := hc.eq_of_id hs ((List.filter_sublist.map _).subset hu) hsr hid
  exact ⟨t, hfind, hu⟩

theorem not_isHeldBy_withdraw (b : Broker) (t : TrackerRef) (m : MessageRef)
    (hm : (b.message m).Tidy) (id : SubscriberId) :
    ((b.withdraw t m).message m).isHeldBy id = false := by
  rw [message_withdraw, if_pos rfl, Message.isHeldBy, Message.status?_withdrawOutstanding hm]
  split
  · rfl
  · next h => exact Bool.eq_false_iff.2 h

theorem Counted.withdraw (hc : Counted home limit b) (hs : b.Sound) (hm : b.hasMessage m)
    (hfind : b.find? (b.place home m) = some t) (queue : (b.tracker t).isTopic = false) :
    Counted home limit (b.withdraw t m) := by
  have ht := Touches.withdraw b t m
  have hafter := not_isHeldBy_withdraw b t m (hs.tidy m)
  have hnil := Message.outstanding_eq_nil (ht.tidy m (hs.tidy m)) hafter
  refine hc.touches ht hm (fun id hid => absurd hid (Bool.eq_false_iff.1 (hafter id)))
    (fun v hv => .inl (by simpa using hv)) (fun u => ?_) (fun v => ?_) (fun u => ?_) fun v => ?_
  · have hmem := Message.mem_outstanding (hs.tidy m) (b.subscriber u).id
    rw [share, share, hafter, unacked_withdraw b t m (hs.tidy m)]
    by_cases hu : u ∈ b.registry.all
    · rw [if_pos hu, if_pos hu]
      cases held : (b.message m).isHeldBy (b.subscriber u).id with
      | true =>
          obtain ⟨v, hv, hactive⟩ := hc.active_of_held hs hu held
          obtain rfl : v = t := Option.some.inj (hv.symm.trans hfind)
          have h₁ := hc.unacked u hu
          have h₂ := ht.heldBy_add hm (b.subscriber u).id
          rw [held, hafter, Bool.toNat_true, Bool.toNat_false] at h₂
          rw [if_pos ⟨hc.findById_active hs hactive, hmem.2 held⟩, Bool.toNat_true, Bool.toNat_false]
          omega
      | false =>
          rw [if_neg fun h => Bool.eq_false_iff.1 held (hmem.1 h.2)]
          rfl
    · rw [if_neg hu, if_neg hu, hc.unregistered u hu, Nat.zero_sub]
  · rw [inFlight_withdraw]
    simp only [load, countsFor_place hs hfind, queue, and_true, hnil]
    split
    · next hv =>
        obtain ⟨hcounts, hplace⟩ := (countsFor_place hs hfind v).2 ⟨hv, queue⟩
        have h₁ := hc.inFlight v hcounts
        have h₂ := ht.length_pairsOf_add home hm (b.tracker v).key.tracked
        rw [if_pos hplace, if_pos hplace, hnil] at h₂
        rw [List.length_nil] at h₂ ⊢
        omega
    · rfl
  · rw [unacked_withdraw b t m (hs.tidy m)]
    exact Nat.le_trans (Nat.sub_le _ _) (hc.window u)
  · rw [inFlight_withdraw]
    exact Nat.le_trans (Nat.sub_le _ _) (hc.ceiling v)

theorem isHeldBy_acknowledge (b : Broker) (s : SubscriberRef) (m : MessageRef)
    (type : DestinationType) (id : SubscriberId) :
    ((b.acknowledge s m type).message m).isHeldBy id =
      (!decide (id = (b.subscriber s).id) && (b.message m).isHeldBy id) := by
  rw [Message.isHeldBy, Message.status?, recipients_acknowledge, if_pos rfl, ← Message.status?,
    Message.status?_setStatus]
  by_cases hid : id = (b.subscriber s).id
  · rw [if_pos hid, decide_eq_true hid]
    rfl
  · rw [if_neg hid, decide_eq_false hid]
    rfl

theorem Counted.acknowledge (hc : Counted home limit b) (hs : b.Sound) (hm : b.hasMessage m)
    (hsr : s ∈ b.registry.all) : Counted home limit (b.acknowledge s m (home m)) := by
  have ht := Touches.acknowledge b s m (home m)
  have hafter := isHeldBy_acknowledge b s m (home m)
  have hany : ((b.message m).status? (b.subscriber s).id).any RecipientStatus.isOutstanding =
      (b.message m).isHeldBy (b.subscriber s).id := rfl
  cases held : (b.message m).isHeldBy (b.subscriber s).id with
  | true =>
      obtain ⟨t, hfind, hactive⟩ := hc.active_of_held hs hsr held
      have htopic : home m ≠ .topic ↔ (b.tracker t).isTopic = false := by
        have hkey : (b.tracker t).key.type = home m :=
          congrArg TrackedKey.type (hs.tracked _ _ hfind).2
        rw [Tracker.isTopic, hkey, decide_eq_false_iff_not]
      refine hc.giveUp hs ht hm hactive hfind (fun id hid => ?_) held ?_
        (fun v hv => .inl (by simpa using hv)) (fun u => ?_) fun v => ?_
      · rw [hafter, decide_eq_false hid]
        rfl
      · rw [hafter, decide_eq_true rfl]
        rfl
      · simp only [subscriber_acknowledge, hany, held, and_true]
        split <;> rfl
      · have hv : b.find? ⟨home m, (b.message m).destination⟩ = some v ↔ v = t := by
          rw [← Broker.place, hfind, Option.some.injEq, eq_comm]
        simp only [inFlight_acknowledge, hany, held, true_and, hv, htopic, and_comm]
  | false =>
      refine hc.relabel hs ht hm (fun id => ?_) (fun v hv => by simpa using hv) (fun u => ?_)
        fun v => ?_
      · rw [hafter]
        by_cases hid : id = (b.subscriber s).id
        · rw [hid, held, Bool.and_false]
        · rw [decide_eq_false hid]
          rfl
      · simp only [subscriber_acknowledge, hany, held, Bool.false_eq_true, and_false, if_false]
      · simp only [inFlight_acknowledge, hany, held, Bool.false_eq_true, false_and, if_false]

end Broker

end Courier
