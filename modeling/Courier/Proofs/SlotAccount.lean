import Courier.Proofs.SlotLedger

namespace Courier

namespace Broker

variable {b : Broker} {p : SlotRef} {t : TrackerRef}

theorem unsettledIn_accept (m : MessageRef)
    (hd : (b.message m).destination = (b.tracker t).key.destination)
    (hm : (b.message m).slot = none ∧ (b.message m).settled = false) (q : SlotRef) :
    (b.accept p t m).unsettledIn q = b.unsettledIn q + if q = p then 1 else 0 := by
  have h := b.unsettledIn_modifyMessage m (fun x => { x with slot := some p }) q
  have he : (b.accept p t m).unsettledIn q =
      (b.modifyMessage m fun x => { x with slot := some p }).unsettledIn q := by
    rw [accept, if_pos hd]
    exact unsettledIn_modifyMessage_eq _ m (fun x => { x with buffered := true }) (fun _ => rfl)
      (fun _ => rfl) q
  rw [he]
  by_cases hq : q = p
  · subst hq
    simp [isUnsettledIn, hm] at h
    simp [h]
  · have hn : ¬ p = q := fun he => hq he.symm
    simp [isUnsettledIn, hm, hn] at h
    simp [h, hq]

theorem unsettledIn_accept_of_ne (m : MessageRef)
    (hd : (b.message m).destination ≠ (b.tracker t).key.destination) (q : SlotRef) :
    (b.accept p t m).unsettledIn q = b.unsettledIn q := by
  rw [accept, if_neg hd]
  rfl

theorem slot_accept (m : MessageRef) (q : SlotRef) :
    (b.accept p t m).slot q =
      if q = p ∧ (b.message m).destination ≠ (b.tracker t).key.destination then
        { b.slot q with pending := (b.slot q).pending.lower }
      else b.slot q := by
  unfold accept
  split
  · next h => simp [h, attachSlot, buffer, append, setBuffered]
  · next h => simp [h, lowerSlot, slot_modifySlot]

/-- The count runs ahead of the messages by what is left of the batch, until nothing is left. -/
theorem balanced_foldl_accept (l : List MessageRef) (b : Broker)
    (hb : ∀ q, (b.slot q).pending.toNat = b.unsettledIn q + if q = p then l.length else 0)
    (hn : (b.matching t l).Nodup)
    (hm : ∀ m ∈ b.matching t l, (b.message m).slot = none ∧ (b.message m).settled = false) :
    (l.foldl (accept p t) b).Balanced ∧
      (∀ m, ((l.foldl (accept p t) b).message m).slot =
        if m ∈ b.matching t l then some p else (b.message m).slot) ∧
      ∀ q, (l.foldl (accept p t) b).unsettledIn q =
        b.unsettledIn q + if q = p then (b.matching t l).length else 0 := by
  induction l generalizing b with
  | nil => exact ⟨fun q => by simpa using hb q, by simp [matching], by simp [matching]⟩
  | cons m l ih =>
      have hp := (Touches.accept p t b m).toPreserves.matching t l
      have hpending := slot_accept (b := b) (p := p) (t := t) m
      have hmsg := message_accept p t b m
      rw [matching_cons] at hn hm ⊢
      rw [List.foldl_cons]
      by_cases hd : (b.message m).destination = (b.tracker t).key.destination
      · rw [if_pos hd] at hn hm ⊢
        have hun := unsettledIn_accept (p := p) (t := t) m hd (hm m (by simp))
        obtain ⟨h₁, h₂, h₃⟩ := ih (b.accept p t m)
          (fun q => by
            have := hb q
            rw [hpending, hun]
            by_cases hq : q = p <;> simp_all
            omega)
          (by rw [hp]; exact (List.nodup_cons.1 hn).2)
          (fun n hnl => by
            rw [hp] at hnl
            have hne : n ≠ m := fun he => (List.nodup_cons.1 hn).1 (he ▸ hnl)
            rw [hmsg]
            simpa [hne] using hm n (by simp [hnl]))
        refine ⟨h₁, fun n => ?_, fun q => ?_⟩
        · rw [h₂, hp, hmsg]
          by_cases hnm : n = m <;> by_cases hnl : n ∈ b.matching t l <;> simp [hnm, hnl, hd]
        · rw [h₃, hp, hun]
          by_cases hq : q = p <;> simp [hq]
          omega
      -- A message of another destination gives its place in the count back at once.
      · rw [if_neg hd] at hn hm ⊢
        have hun := unsettledIn_accept_of_ne (p := p) (t := t) m hd
        obtain ⟨h₁, h₂, h₃⟩ := ih (b.accept p t m)
          (fun q => by
            have := hb q
            rw [hpending, hun]
            by_cases hq : q = p <;> simp_all [Tally.toNat_lower])
          (by rw [hp]; exact hn)
          (fun n hnl => by
            rw [hmsg]
            simpa [hd] using hm n (hp ▸ hnl))
        refine ⟨h₁, fun n => ?_, fun q => ?_⟩
        · rw [h₂, hp, hmsg]
          simp [hd]
        · rw [h₃, hp, hun]

theorem size_foldl_accept (l : List MessageRef) (b : Broker) :
    b.slots.size ≤ (l.foldl (accept p t) b).slots.size := by
  induction l generalizing b with
  | nil => exact Nat.le_refl _
  | cons m l ih =>
      refine Nat.le_trans ?_ (ih (b.accept p t m))
      unfold accept
      split
      · exact Nat.le_refl _
      · exact Table.size_le_modify _ _ _

theorem toNat_raise_ofNat (x : Tally) (n : Nat) (h : x.toNat + n < UInt64.size) :
    (x.raise (.ofNat n)).toNat = x.toNat + n := by
  have hn : (UInt64.ofNat n).toNat = n := UInt64.toNat_ofNat_of_lt' (by omega)
  rw [Tally.toNat_raise _ _ (by omega), hn]

theorem balanced_bufferBatch (hb : b.Balanced) (batch : List MessageRef) (p : SlotRef)
    (t : TrackerRef) (hfits : b.unsettledIn p + batch.length < UInt64.size)
    (hn : (b.matching t batch).Nodup)
    (hm : ∀ m ∈ b.matching t batch, (b.message m).slot = none ∧ (b.message m).settled = false) :
    (b.bufferBatch batch p t).Balanced ∧
      (∀ m, ((b.bufferBatch batch p t).message m).slot =
        if m ∈ b.matching t batch then some p else (b.message m).slot) ∧
      ∀ q, (b.bufferBatch batch p t).unsettledIn q =
        b.unsettledIn q + if q = p then (b.matching t batch).length else 0 := by
  refine balanced_foldl_accept batch (b.raiseSlot p (.ofNat batch.length)) (fun q => ?_) hn hm
  rw [raiseSlot, slot_modifySlot]
  split
  · next hq =>
      subst hq
      rw [← hb q] at hfits
      rw [toNat_raise_ofNat _ _ hfits, hb q]
      rfl
  · exact hb q

end Broker

open Broker

/-- What the account of a slot rests on: a message is accepted once, unsettled, and the messages of
the slot and the batch are few enough to be counted. -/
def slotTerms (b : Broker) (h : Journal) : Operation → Prop
  | .buffer batch p t => (b.matching t batch).Nodup ∧
      (∀ m ∈ b.matching t batch, m ∉ h.accepted ∧ (b.message m).settled = false) ∧
      b.unsettledIn p + batch.length < UInt64.size
  | _ => True

instance (b : Broker) (h : Journal) : (op : Operation) → Decidable (slotTerms b h op)
  | .buffer batch p t => inferInstanceAs (Decidable ((b.matching t batch).Nodup ∧
      (∀ m ∈ b.matching t batch, m ∉ h.accepted ∧ (b.message m).settled = false) ∧
      b.unsettledIn p + batch.length < UInt64.size))
  | .createSlot _ | .createMessage .. | .createSubscriber .. | .connect .. | .register _
  | .unregister _ | .track _ | .rebuffer .. | .requeue .. | .flush .. | .send .. | .findNext ..
  | .clear _ | .purge .. | .acknowledge .. | .runJob _ | .close | .shutdown
  | .deleteExpired _ => .isTrue trivial

structure Accounted (b : Broker) (h : Journal) : Prop where
  balanced : b.Balanced
  attached : ∀ m p, (b.message m).slot = some p → b.hasSlot p
  accepted : ∀ m, m ∈ h.accepted ↔ (b.message m).slot ≠ none
  nodup : h.accepted.Nodup

namespace Accounted

variable {b b' : Broker} {h : Journal}

theorem settlesOnly (ha : Accounted b h) (hs : SettlesOnly b b') : Accounted b' h where
  balanced := hs.balanced ha.balanced
  attached m p hp := Nat.lt_of_lt_of_le (ha.attached m p (by rwa [← hs.slot])) hs.size
  accepted m := by rw [hs.slot]; exact ha.accepted m
  nodup := ha.nodup

theorem addSlot (ha : Accounted b h) (storageQueue : String) :
    Accounted (b.addSlot ⟨storageQueue, .zero⟩).2 h where
  balanced p := by
    have hu : (b.addSlot ⟨storageQueue, .zero⟩).2.unsettledIn p = b.unsettledIn p := rfl
    rw [hu, slot_addSlot]
    split
    · next hp =>
        have h := ha.balanced p
        have hdefault : b.slot p = default := b.slots.get_of_size_le (Nat.le_of_eq hp.symm)
        rw [hdefault] at h
        exact h
    · exact ha.balanced p
  attached m p hp := by
    have hsize : (b.addSlot ⟨storageQueue, .zero⟩).2.slots.size = b.slots.size + 1 :=
      Table.size_push _ _
    rw [hasSlot, hsize]
    exact Nat.lt_succ_of_lt (ha.attached m p hp)
  accepted := ha.accepted
  nodup := ha.nodup

theorem addMessage (ha : Accounted b h) {x : Message} (hx : x.slot = none) :
    Accounted (b.addMessage x).2 h := by
  have hslot : ∀ m, ((b.addMessage x).2.message m).slot = (b.message m).slot := fun m => by
    rw [message_addMessage]
    split
    · next hm =>
        have hdefault : b.message m = default :=
          b.messages.get_of_size_le (Nat.le_of_eq hm.symm)
        rw [hdefault, hx]
        rfl
    · rfl
  refine ⟨fun p => ?_, fun m p hp => ha.attached m p (by rwa [← hslot]), fun m => ?_, ha.nodup⟩
  · have hu : (b.addMessage x).2.unsettledIn p = b.unsettledIn p := by
      simp [unsettledIn, Broker.addMessage, Table.push, isUnsettledIn, hx]
    rw [hu]
    exact ha.balanced p
  · rw [hslot]
    exact ha.accepted m

theorem bufferBatch (ha : Accounted b h) {batch : List MessageRef} {p : SlotRef} {t : TrackerRef}
    (hp : b.hasSlot p) (ht : slotTerms b h (.buffer batch p t)) :
    Accounted (b.bufferBatch batch p t)
      { h with accepted := h.accepted ++ b.matching t batch } := by
  obtain ⟨hn, hm, hfits⟩ := ht
  have hnew : ∀ m ∈ b.matching t batch, (b.message m).slot = none := fun m hmem => by
    by_contra hslot
    exact (hm m hmem).1 ((ha.accepted m).2 hslot)
  obtain ⟨h₁, h₂, -⟩ := balanced_bufferBatch ha.balanced batch p t hfits hn fun m hmem =>
    ⟨hnew m hmem, (hm m hmem).2⟩
  have hsize : b.slots.size ≤ (b.bufferBatch batch p t).slots.size :=
    Nat.le_trans (Table.size_le_modify b.slots p.index _) (size_foldl_accept batch (b.raiseSlot p _))
  refine ⟨h₁, fun m q hq => ?_, fun m => ?_, ?_⟩
  · rw [h₂] at hq
    refine Nat.lt_of_lt_of_le ?_ hsize
    split at hq
    · rwa [← Option.some.inj hq]
    · exact ha.attached m q hq
  · rw [List.mem_append, ha.accepted, h₂]
    split <;> simp_all
  · exact List.nodup_append.2 ⟨ha.nodup, hn, fun m hm' n hn' he => (hm n hn').1 (he ▸ hm')⟩

theorem apply (ha : Accounted b h) (hs : b.Sound) (r : Rules) (op : Operation) (hu : op.uses b)
    (ht : slotTerms b h op) : Accounted (op.apply r b) (op.record b h) := by
  have hrecord : (∀ l p t, op ≠ .buffer l p t) → (op.record b h).accepted = h.accepted := by
    intro hop
    cases op with
    | buffer l p t => exact absurd rfl (hop l p t)
    | clear key => unfold Operation.record; dsimp only; split <;> rfl
    | runJob place => exact (Journal.runJob_frame h b place).1
    | shutdown => exact (Journal.run_frame _ b h).1
    | _ => rfl
  have hother : (∀ q, op ≠ .createSlot q) → (∀ id d q x a l, op ≠ .createMessage id d q x a l) →
      (∀ l p t, op ≠ .buffer l p t) → Accounted (op.apply r b) (op.record b h) := by
    intro h₁ h₂ h₃
    obtain ⟨hb, hat, hac, hn⟩ := ha.settlesOnly (SettlesOnly.apply hs r op h₁ h₂ h₃)
    rw [← hrecord h₃] at hac hn
    exact ⟨hb, hat, hac, hn⟩
  cases op with
  | createSlot storageQueue => exact ha.addSlot storageQueue
  | createMessage =>
      exact Operation.createMessage_induction (P := fun c => Accounted c h) ha
        fun _ => ha.addMessage rfl
  | buffer batch p t => exact ha.bufferBatch hu.2.1 ht
  | _ => exact hother (by simp) (by simp) (by simp)

end Accounted

theorem Reaches.accounted {r : Rules} {b : Broker} {h : Journal} (hr : Reaches r slotTerms b h) :
    Accounted b h := by
  induction hr with
  | start =>
      have hslot : ∀ m, ((default : Broker).message m).slot = none := fun _ => rfl
      exact ⟨fun _ => rfl, fun m p hp => by simp [hslot] at hp, fun m =>
        ⟨fun hm => absurd hm List.not_mem_nil, fun hm => absurd (hslot m) hm⟩, List.nodup_nil⟩
  | step op prior hu ht ih => exact ih.apply prior.sound r op hu ht

theorem Table.items_eq {α : Type} [Inhabited α] (t : Table α) :
    t.items = (List.range t.size).map t.get := by
  have hlookup : ∀ (l : List α) (n : Nat) (hn : n < l.length), l[n] = lookup l n := by
    intro l n hn
    induction n generalizing l with
    | zero =>
        cases l with
        | nil => exact absurd hn (Nat.lt_irrefl 0)
        | cons a l => rfl
    | succ n ih =>
        cases l with
        | nil => exact absurd hn (Nat.not_lt_zero _)
        | cons a l => exact ih l (Nat.lt_of_succ_lt_succ hn)
  exact List.ext_getElem (by simp [size]) fun n hn _ => by simpa [get] using hlookup _ n hn

theorem Broker.length_filter_references (b : Broker) (p : SlotRef) :
    (b.references.filter fun m => isUnsettledIn p (b.message m)).length = b.unsettledIn p := by
  rw [unsettledIn, b.messages.items_eq, ← List.countP_eq_length_filter, references,
    List.countP_map, List.countP_map]
  rfl

theorem Broker.slot_of_isUnsettledIn {x : Message} {p : SlotRef}
    (hx : isUnsettledIn p x = true) : x.slot = some p := by
  simp only [isUnsettledIn, Bool.and_eq_true, decide_eq_true_eq] at hx
  exact hx.1

theorem Accounted.countP_accepted {b : Broker} {h : Journal} (ha : Accounted b h) (p : SlotRef) :
    h.accepted.countP (fun m => isUnsettledIn p (b.message m)) = b.unsettledIn p := by
  rw [← b.length_filter_references, List.countP_eq_length_filter]
  refine List.Perm.length_eq ((List.perm_ext_iff_of_nodup (ha.nodup.filter _)
    (b.references_nodup.filter _)).2 fun m => ?_)
  simp only [List.mem_filter, and_congr_left_iff]
  intro hm
  have hslot := slot_of_isUnsettledIn hm
  have hheld : b.hasMessage m := by
    by_contra hlt
    rw [message, b.messages.get_of_size_le (Nat.le_of_not_lt hlt)] at hslot
    exact absurd hslot (by simp only [show (default : Message).slot = none from rfl, reduceCtorEq,
      not_false_eq_true])
  simp only [ha.accepted, hslot, mem_references]
  exact ⟨fun _ => hheld, fun _ => by simp⟩

theorem Broker.unsettledIn_add_length_le {b : Broker} {p : SlotRef} {batch : List MessageRef}
    (hn : batch.Nodup) (hm : ∀ m ∈ batch, b.hasMessage m ∧ (b.message m).slot ≠ some p) :
    b.unsettledIn p + batch.length ≤ b.messages.size := by
  have hall : ((b.references.filter fun m => isUnsettledIn p (b.message m)) ++ batch).Nodup := by
    refine List.nodup_append.2 ⟨b.references_nodup.filter _, hn, fun m hl n hb he => ?_⟩
    exact (hm n hb).2 (he ▸ slot_of_isUnsettledIn (List.mem_filter.1 hl).2)
  have hsub : ((b.references.filter fun m => isUnsettledIn p (b.message m)) ++ batch) ⊆
      b.references := by
    intro m hmem
    obtain hl | hb := List.mem_append.1 hmem
    · exact (List.mem_filter.1 hl).1
    · exact mem_references.2 (hm m hb).1
  have hle := (List.subperm_of_subset hall hsub).length_le
  rw [List.length_append, b.length_filter_references] at hle
  simpa [references] using hle

/-- While there are fewer messages than the counter can hold, a batch of different messages that
are neither accepted nor settled keeps to the terms. -/
theorem Accounted.slotTerms_of_new {b : Broker} {h : Journal} (ha : Accounted b h)
    {batch : List MessageRef} (hn : batch.Nodup)
    (hm : ∀ m ∈ batch, b.hasMessage m ∧ m ∉ h.accepted ∧ (b.message m).settled = false)
    (hsize : b.messages.size < UInt64.size) (p : SlotRef) (t : TrackerRef) :
    slotTerms b h (.buffer batch p t) := by
  refine ⟨hn.filter _, fun m hmem => (hm m (List.mem_filter.1 hmem).1).2, ?_⟩
  refine Nat.lt_of_le_of_lt (unsettledIn_add_length_le hn fun m hb => ⟨(hm m hb).1, ?_⟩) hsize
  exact fun hslot => (hm m hb).2.1 ((ha.accepted m).2 (by simp [hslot]))

/-- Slot accounting. The count of a slot is exactly the number of its messages that are not
settled; it is zero when the last accepted message of the slot is settled and not before; each
settled one has been struck off once; no message is struck off a count of zero; and a batch adds
as many as match the destination, whatever else it holds. -/
theorem pending_eq_unsettled {r : Rules} {b : Broker} {h : Journal}
    (hr : Reaches r slotTerms b h) (p : SlotRef) :
    (b.slot p).pending.toNat = b.unsettledIn p ∧
      ((b.slot p).pending.toNat = 0 ↔
        ∀ m ∈ h.accepted, (b.message m).slot = some p → (b.message m).settled = true) ∧
      (b.slot p).pending.toNat + h.accepted.countP (fun m =>
          (b.message m).settled && decide ((b.message m).slot = some p)) =
        h.accepted.countP (fun m => decide ((b.message m).slot = some p)) ∧
      (∀ m, isUnsettledIn p (b.message m) = true →
        ((b.settle m).slot p).pending.toNat + 1 = (b.slot p).pending.toNat) ∧
      ∀ batch t, slotTerms b h (.buffer batch p t) →
        ((b.bufferBatch batch p t).slot p).pending.toNat =
          (b.slot p).pending.toNat + (b.matching t batch).length := by
  have ha := hr.accounted
  have hcount := ha.countP_accepted p
  refine ⟨ha.balanced p, ?_, ?_, fun m hm => ?_, fun batch t ht => ?_⟩
  · rw [ha.balanced p, ← hcount, List.countP_eq_zero]
    simp [isUnsettledIn]
  · rw [ha.balanced p, ← hcount]
    induction h.accepted with
    | nil => rfl
    | cons m l ih =>
        simp only [Table.countP_cons_toNat, isUnsettledIn] at ih ⊢
        cases hs : (b.message m).settled <;> cases decide ((b.message m).slot = some p) <;>
          simp <;> omega
  · rw [(SettlesOnly.settle b m).balanced ha.balanced p, ha.balanced p, unsettledIn_settle b m p hm]
  · obtain ⟨hn, hm, hfits⟩ := ht
    obtain ⟨h₁, -, h₃⟩ := balanced_bufferBatch ha.balanced batch p t hfits hn fun m hmem =>
      ⟨by_contra fun hslot => (hm m hmem).1 ((ha.accepted m).2 hslot), (hm m hmem).2⟩
    rw [h₁ p, h₃ p, ha.balanced p, if_pos rfl]

theorem pending_eq_unsettled_workerRun :
    Follows workerRules slotTerms workerRun default default ∧
      ((replay workerRules workerRun default default).1.slot ⟨0⟩).pending.toNat = 1 :=
  have hf : Follows workerRules slotTerms workerRun default default := by decide
  ⟨hf, (pending_eq_unsettled (Reaches.start.replay workerRun hf) ⟨0⟩).1.trans (by decide)⟩

end Courier
