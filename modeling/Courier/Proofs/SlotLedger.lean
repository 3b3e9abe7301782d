import Courier.Proofs.Sound

namespace Courier

namespace Table

variable {α : Type} [Inhabited α]

omit [Inhabited α] in
theorem countP_cons_toNat (q : α → Bool) (a : α) (l : List α) :
    (a :: l).countP q = l.countP q + (q a).toNat := by
  cases h : q a <;> simp [h]

theorem countP_modify (t : Table α) (n : Nat) (f : α → α) (q : α → Bool) (hq : q default = false) :
    (t.modify n f).items.countP q + (q (t.get n)).toNat =
      t.items.countP q + (q (f (t.get n))).toNat := by
  obtain ⟨l⟩ := t
  simp only [modify, get]
  induction n generalizing l with
  | zero =>
      cases l with
      | nil => simp [update, lookup, countP_cons_toNat, hq]
      | cons a l => simp only [update, lookup, countP_cons_toNat]; omega
  | succ n ih =>
      cases l with
      | nil =>
          have h := ih []
          rw [lookup_of_length_le _ _ (Nat.zero_le _)] at h
          simpa [update, lookup, countP_cons_toNat, hq] using h
      | cons a l =>
          have h := ih l
          simp only [update, lookup, countP_cons_toNat]
          omega

end Table

namespace Broker

def isUnsettledIn (p : SlotRef) (x : Message) : Bool := decide (x.slot = some p) && !x.settled

def unsettledIn (b : Broker) (p : SlotRef) : Nat := b.messages.items.countP (isUnsettledIn p)

def Balanced (b : Broker) : Prop := ∀ p, (b.slot p).pending.toNat = b.unsettledIn p

theorem unsettledIn_modifyMessage (b : Broker) (m : MessageRef) (f : Message → Message)
    (p : SlotRef) :
    (b.modifyMessage m f).unsettledIn p + (isUnsettledIn p (b.message m)).toNat =
      b.unsettledIn p + (isUnsettledIn p (f (b.message m))).toNat :=
  b.messages.countP_modify m.index f _ rfl

theorem unsettledIn_settle (b : Broker) (m : MessageRef) (p : SlotRef)
    (hm : isUnsettledIn p (b.message m) = true) :
    (b.settle m).unsettledIn p + 1 = b.unsettledIn p := by
  have hs : (b.message m).settled = false := by
    simp only [isUnsettledIn, Bool.and_eq_true, Bool.not_eq_true'] at hm
    exact hm.2
  have he : (b.settle m).unsettledIn p =
      (b.modifyMessage m fun x => { x with settled := true }).unsettledIn p := by
    rw [settle, if_neg (by simp [hs])]
    cases (b.message m).slot <;> rfl
  have h := b.unsettledIn_modifyMessage m (fun x => { x with settled := true }) p
  have hf : isUnsettledIn p { b.message m with settled := true } = false := by simp [isUnsettledIn]
  rw [hm, hf, Bool.toNat_true, Bool.toNat_false] at h
  omega

structure SettlesOnly (b b' : Broker) : Prop where
  balanced : b.Balanced → b'.Balanced
  slot : ∀ m, (b'.message m).slot = (b.message m).slot
  size : b.slots.size ≤ b'.slots.size

theorem unsettledIn_modifyMessage_eq (b : Broker) (m : MessageRef) (f : Message → Message)
    (hs : ∀ x, (f x).slot = x.slot) (hf : ∀ x, (f x).settled = x.settled) (p : SlotRef) :
    (b.modifyMessage m f).unsettledIn p = b.unsettledIn p := by
  have h := b.unsettledIn_modifyMessage m f p
  simp only [isUnsettledIn, hs, hf] at h
  omega

namespace SettlesOnly

variable {b b' c : Broker}

theorem refl (b : Broker) : SettlesOnly b b := ⟨id, fun _ => rfl, Nat.le_refl _⟩

theorem trans (h : SettlesOnly b b') (h' : SettlesOnly b' c) : SettlesOnly b c :=
  ⟨fun hb => h'.balanced (h.balanced hb), fun m => (h'.slot m).trans (h.slot m),
    Nat.le_trans h.size h'.size⟩

theorem foldl {α : Type} {f : Broker → α → Broker} (hf : ∀ b a, SettlesOnly b (f b a))
    (l : List α) (b : Broker) : SettlesOnly b (l.foldl f b) := by
  induction l generalizing b with
  | nil => exact refl b
  | cons a l ih => exact (hf b a).trans (ih _)

theorem of_eq (hs : b'.slots = b.slots) (hm : b'.messages = b.messages) : SettlesOnly b b' :=
  ⟨fun hb p => by simpa only [Broker.slot, unsettledIn, hs, hm] using hb p,
    fun m => by rw [message, hm]; rfl, Nat.le_of_eq (by rw [hs])⟩

theorem modifyMessage (b : Broker) (m : MessageRef) (f : Message → Message)
    (hs : ∀ x, (f x).slot = x.slot) (hf : ∀ x, (f x).settled = x.settled) :
    SettlesOnly b (b.modifyMessage m f) := by
  refine ⟨fun hb p => ?_, fun n => by rw [message_modifyMessage]; split <;> simp [hs], Nat.le_refl _⟩
  rw [(modifyMessage_frame b m f).1, hb p, b.unsettledIn_modifyMessage_eq m f hs hf p]

theorem size_settle (b : Broker) (m : MessageRef) : b.slots.size ≤ (b.settle m).slots.size := by
  unfold Broker.settle releaseSlot
  split
  · exact Nat.le_refl _
  · cases (b.message m).slot with
    | none => exact Nat.le_refl _
    | some p => exact Table.size_le_modify _ _ _

theorem settle (b : Broker) (m : MessageRef) : SettlesOnly b (b.settle m) := by
  refine ⟨fun hb p => ?_, fun n => by rw [message_settle]; split <;> rfl, size_settle b m⟩
  unfold Broker.settle
  split
  · exact hb p
  · next hm =>
      have h := b.unsettledIn_modifyMessage m (fun x => { x with settled := true }) p
      cases hslot : (b.message m).slot with
      | none =>
          simp only [isUnsettledIn, hslot] at h
          simpa [releaseSlot, hb p] using h.symm
      | some q =>
          have hlow : ((b.modifyMessage m fun x => { x with settled := true }).releaseSlot
              (some q)).unsettledIn p = (b.modifyMessage m fun x =>
                { x with settled := true }).unsettledIn p := rfl
          rw [hlow]
          simp only [releaseSlot, lowerSlot, slot_modifySlot, modifyMessage_frame]
          have hq := hb p
          by_cases hp : p = q
          · subst hp
            simp [isUnsettledIn, hslot, hm] at h
            simp only [if_true, Tally.toNat_lower]
            omega
          · have hne : ¬ q = p := fun he => hp he.symm
            simp [isUnsettledIn, hslot, hne] at h
            simp only [hp, if_false]
            omega

theorem settleIfComplete (b : Broker) (m : MessageRef) : SettlesOnly b (b.settleIfComplete m) := by
  obtain h | h := b.settleIfComplete_eq m
  · rw [h]; exact refl b
  · rw [h]; exact settle b m

theorem setStatus (b : Broker) (m : MessageRef) (id : SubscriberId) (status : RecipientStatus) :
    SettlesOnly b (b.setStatus m id status) :=
  modifyMessage b m _ (fun _ => rfl) fun _ => rfl

theorem setBuffered (b : Broker) (m : MessageRef) (flag : Bool) :
    SettlesOnly b (b.setBuffered m flag) :=
  modifyMessage b m _ (fun _ => rfl) fun _ => rfl

theorem rebuffer (b : Broker) (t : TrackerRef) (m : MessageRef) :
    SettlesOnly b (b.rebuffer t m) := by
  unfold Broker.rebuffer
  split
  · exact refl b
  · exact (setBuffered b m true).trans (of_eq rfl rfl)

theorem unbuffer (b : Broker) (t : TrackerRef) (m : MessageRef) :
    SettlesOnly b (b.unbuffer t m) := by
  unfold Broker.unbuffer
  split
  · have h : SettlesOnly b (b.modifyTracker t fun x =>
        { x with buffer := x.buffer.eraseP (b.sameId m) }) := of_eq rfl rfl
    exact h.trans (setBuffered _ m false)
  · exact refl b

theorem markPurged (b : Broker) (m : MessageRef) : SettlesOnly b (b.markPurged m) :=
  modifyMessage b m _ (fun _ => rfl) fun _ => rfl

theorem markExpired (b : Broker) (m : MessageRef) : SettlesOnly b (b.markExpired m) :=
  modifyMessage b m _ (fun _ => rfl) fun _ => rfl

theorem consumePurged (b : Broker) (m : MessageRef) : SettlesOnly b (b.consumePurged m) :=
  (markPurged b m).trans (settle _ m)

theorem claim (b : Broker) (s : SubscriberRef) (m : MessageRef) (t : TrackerRef)
    (policy : FailurePolicy) : SettlesOnly b (b.claim s m t policy) := by
  refine (setStatus b m (b.subscriber s).id .scheduled).trans ?_
  unfold Broker.claim
  dsimp only
  split <;> exact of_eq rfl rfl

theorem fail (b : Broker) (j : Job) : SettlesOnly b (b.fail j) := by
  have hrelease : SettlesOnly b (b.release j.subscriber) := of_eq rfl rfl
  unfold Broker.fail
  cases j.policy with
  | rebuffer =>
      have h : SettlesOnly b (b.modifyMessage j.message fun x =>
          x.forget (b.subscriber j.subscriber).id) := modifyMessage b _ _ (fun _ => rfl) fun _ => rfl
      refine h.trans (SettlesOnly.trans ?_ (rebuffer _ j.tracker j.message))
      split <;> exact of_eq rfl rfl
  | retry => exact (hrelease.trans (setStatus _ _ _ _)).trans (rebuffer _ _ _)
  | discard => exact (hrelease.trans (setStatus _ _ _ _)).trans (settleIfComplete _ _)

theorem execute (b : Broker) (j : Job) : SettlesOnly b (b.execute j) := by
  have h : SettlesOnly b (b.written j.subscriber j.message) := of_eq rfl rfl
  rw [execute_eq]
  split
  · refine h.trans ?_
    unfold markDelivered
    split
    · exact setStatus _ _ _ _
    · exact refl _
  · exact h.trans (fail _ j)

theorem runJob (b : Broker) (place : Nat) : SettlesOnly b (b.runJob place) := by
  unfold Broker.runJob
  split
  · next j _ =>
      have h : SettlesOnly b (b.withJobs (b.dispatcher.jobs.eraseIdx place)) := of_eq rfl rfl
      exact h.trans (execute _ j)
  · exact refl b

theorem withdraw (b : Broker) (t : TrackerRef) (m : MessageRef) :
    SettlesOnly b (b.withdraw t m) := by
  have h : SettlesOnly b (b.modifyMessage m Message.withdrawOutstanding) :=
    modifyMessage b m _ (fun x => x.withdrawOutstanding_progress.2.2.2.2)
      fun x => x.withdrawOutstanding_progress.2.2.2.1
  refine h.trans (foldl (fun b id => ?_) _ _)
  rw [giveBack_eq]
  split <;> exact of_eq rfl rfl

theorem returnToBuffer (t : TrackerRef) (b : Broker) (m : MessageRef) :
    SettlesOnly b (b.returnToBuffer t m) := by
  unfold Broker.returnToBuffer
  split
  · exact rebuffer b t m
  · exact (withdraw b t m).trans (rebuffer _ t m)

theorem releaseTracked (b : Broker) (key : TrackedKey) :
    SettlesOnly b (b.releaseTracked key) := by
  unfold Broker.releaseTracked
  split
  · exact of_eq rfl rfl
  · exact refl b

theorem acknowledge (b : Broker) (s : SubscriberRef) (m : MessageRef) (type : DestinationType) :
    SettlesOnly b (b.acknowledge s m type) := by
  simp only [Broker.acknowledge]
  generalize ((b.message m).status? (b.subscriber s).id).any RecipientStatus.isOutstanding = o
  have h : SettlesOnly b (if o = true then b.release s else b) := by
    split
    · exact of_eq rfl rfl
    · exact refl b
  have hs := h.trans (setStatus _ m (b.subscriber s).id .acknowledged)
  split
  · exact hs.trans (settleIfComplete _ m)
  · refine hs.trans (SettlesOnly.trans ?_ (settle _ m))
    split
    · exact releaseTracked _ _
    · exact refl _

theorem handled {r : Rules} {now : UInt64} {s : SubscriberRef} {m : MessageRef} {t : TrackerRef}
    {policy : FailurePolicy} {outcome : FilterOutcome}
    (h : Handled r now s m t policy b outcome b') : SettlesOnly b b' := by
  cases h with
  | purged => exact consumePurged b m
  | marked | vetoed | alreadyInFlight => exact refl b
  | expired => exact (markExpired b m).trans (of_eq rfl rfl)
  | dispatched => exact (claim b s m t policy).trans (of_eq rfl rfl)
  | failed => exact (claim b s m t policy).trans (fail _ _)

theorem passStep {r : Rules} {now : UInt64} {t : TrackerRef} {active : List SubscriberRef}
    {batch : List MessageRef} (h : PassStep r now t active batch b b') : SettlesOnly b b' := by
  cases h with
  | turn => exact of_eq rfl rfl
  | discard m s => exact setStatus b m _ _
  | retire m => exact (unbuffer b t m).trans (settleIfComplete _ m)
  | offer m rest s =>
      obtain ⟨outcome, c, hc, hh⟩ := exists_handled (b.unbuffer t m) r now s m t .rebuffer
      refine (unbuffer b t m).trans ((handled hh).trans ?_)
      unfold offer
      rw [hc]
      cases outcome with
      | vetoed => exact settle c m
      | alreadyInFlight => exact rebuffer c t m
      | purged | expired | dispatched | failed => exact refl c
  | spread m s =>
      obtain ⟨outcome, c, hc, hh⟩ := exists_handled b r now s m t (copyPolicy r.topics)
      refine (handled hh).trans ?_
      unfold spread
      rw [hc]
      cases outcome with
      | purged | expired => exact unbuffer c t m
      | vetoed => exact setStatus c m _ _
      | alreadyInFlight | dispatched | failed => exact refl c

theorem passSteps {r : Rules} {now : UInt64} {t : TrackerRef} {active : List SubscriberRef}
    {batch : List MessageRef} (h : Relation.ReflTransGen (PassStep r now t active batch) b b') :
    SettlesOnly b b' := by
  induction h with
  | refl => exact refl b
  | tail _ hs ih => exact ih.trans (passStep hs)

theorem settleAll (b : Broker) (l : List MessageRef) : SettlesOnly b (b.settleAll l) :=
  foldl settle l b

theorem drain (b : Broker) (t : TrackerRef) : SettlesOnly b (b.drain t) := by
  have h : SettlesOnly b (b.modifyTracker t fun x => { x with buffer := [] }) := of_eq rfl rfl
  exact h.trans (foldl (fun b m => setBuffered b m false) _ _)

theorem evict (b : Broker) (t : TrackerRef) : SettlesOnly b (b.evict t) := by
  have h : SettlesOnly b (b.letGo t) := of_eq rfl rfl
  rw [evict_eq]
  split
  · split
    · exact (h.trans (drain _ t)).trans (settleAll _ _)
    · exact h
  · exact refl b

theorem deletes {condition : StoreCondition} (hd : Deletes b condition c) : SettlesOnly b c := by
  cases hd with
  | deleted store =>
      have h : SettlesOnly b (b.withExpired [] store) := of_eq rfl rfl
      exact h.trans (settleAll _ _)
  | refused | lost => exact of_eq rfl rfl

theorem shutdown (b : Broker) : SettlesOnly b b.shutdown :=
  shutdown_induction (P := fun c _ => SettlesOnly b c) (h := default) (refl b)
    (fun _ _ h => h.trans (runJob _ 0)) fun _ _ h => h.trans (of_eq rfl rfl)

theorem putBack (b : Broker) (r : Rules) (key : TrackedKey) (l : List MessageRef) :
    SettlesOnly b ((Operation.rebuffer key l).apply r b) := by
  rw [Operation.apply_rebuffer]
  split
  · exact foldl (returnToBuffer _) l b
  · exact refl b

theorem delivers {r : Rules} {now : UInt64} {t : TrackerRef} (h : Delivers r now t b c) :
    SettlesOnly b c := by
  cases h with
  | letGo => exact evict b t
  | pass _ _ steps => exact passSteps steps
  | nothing => exact refl b

/-- Nothing but a batch attaches messages to a slot, and nothing but the host makes new ones. -/
theorem apply (hs : b.Sound) (r : Rules) (op : Operation)
    (hslot : ∀ q, op ≠ .createSlot q) (hmessage : ∀ id d q x a l, op ≠ .createMessage id d q x a l)
    (hbuffer : ∀ l p t, op ≠ .buffer l p t) : SettlesOnly b (op.apply r b) := by
  cases op with
  | createSlot q => exact absurd rfl (hslot q)
  | createMessage id d q x a l => exact absurd rfl (hmessage id d q x a l)
  | buffer l p t => exact absurd rfl (hbuffer l p t)
  | createSubscriber | connect | register | unregister | close => exact of_eq rfl rfl
  | track key =>
      unfold Operation.apply
      dsimp only
      rw [track_eq]
      split
      · exact refl b
      · exact of_eq rfl rfl
  | rebuffer key l => exact putBack b r key l
  | requeue m type => exact putBack b r _ [m]
  | flush vetoes now t => exact delivers (flush_delivers b (hs.active_nodup t))
  | send vetoes now t => exact delivers (sendBuffered_delivers b (hs.active_nodup t))
  | findNext t active =>
      unfold Operation.apply findNext
      dsimp only
      split
      · exact evict b t
      · exact of_eq rfl rfl
  | clear key =>
      unfold Operation.apply clear
      dsimp only
      split
      · exact drain b _
      · exact refl b
  | purge now key storageQueue =>
      have h : SettlesOnly b (b.recordPurge storageQueue now) := of_eq rfl rfl
      unfold Operation.apply purge
      dsimp only
      split
      · exact h.trans ((drain _ _).trans (foldl consumePurged _ _))
      · exact h
  | acknowledge s m type => exact acknowledge b s m type
  | runJob place => exact runJob b place
  | shutdown => exact shutdown b
  | deleteExpired condition => exact deletes (b.deleteExpired_deletes condition)

end SettlesOnly

end Broker

end Courier
