import Courier.Proofs.Timeless

namespace Courier

open Broker
open Relation (ReflTransGen)

namespace Message

variable {x y : Message} {now later : UInt64}

def KeepsTime (x : Message) (arrival ttl : UInt64) : Prop :=
  ∀ now : UInt64, x.hasExpired now = true ↔ 0 < ttl.toNat ∧ arrival.toNat + ttl.toNat ≤ now.toNat

theorem withTtl_eq_some_iff (x : Message) (ttl : UInt64) :
    x.withTtl ttl = some y ↔ x.arrival.toNat + ttl.toNat < UInt64.size ∧
      y = { x with expiresAt := if ttl = 0 then none else some (x.arrival + ttl) } := by
  have harrival := x.arrival.toNat_lt
  unfold withTtl
  by_cases hzero : ttl = 0
  · subst hzero
    simpa [eq_comm] using fun _ => harrival
  · by_cases hfits : x.arrival.toNat + ttl.toNat < UInt64.size
    · simp [hzero, hfits, eq_comm]
    · simp [hzero, hfits]

theorem isSome_withTtl (x : Message) (ttl : UInt64) :
    (x.withTtl ttl).isSome ↔ x.arrival.toNat + ttl.toNat < UInt64.size := by
  simp [Option.isSome_iff_exists, withTtl_eq_some_iff]

theorem keepsTime_of_withTtl {ttl : UInt64} (hy : x.withTtl ttl = some y) :
    y.KeepsTime x.arrival ttl := by
  intro now
  obtain ⟨hfits, rfl⟩ := (withTtl_eq_some_iff x ttl).1 hy
  have hzero : ttl = 0 ↔ ttl.toNat = 0 := UInt64.toNat_inj.symm
  unfold hasExpired
  by_cases h : ttl = 0
  · simp [h]
  · have hpos : 0 < ttl.toNat := Nat.pos_of_ne_zero fun he => h (hzero.2 he)
    simp [h, hpos, UInt64.le_iff_toNat_le, Nat.mod_eq_of_lt hfits]

theorem hasExpired_mono (hle : now ≤ later) (hx : x.hasExpired now = true) :
    x.hasExpired later = true := by
  unfold hasExpired at hx ⊢
  split
  · next h => simp [h] at hx
  · next time h =>
      simp only [h, decide_eq_true_eq] at hx ⊢
      exact UInt64.le_trans hx hle

theorem hasExpired_congr (h : x.made = y.made) (now : UInt64) :
    x.hasExpired now = y.hasExpired now := by
  have htime : x.expiresAt = y.expiresAt := (congrArg expiresAt h :)
  rw [hasExpired, htime, hasExpired]

end Message

namespace Broker

variable {r : Rules} {now latest : UInt64} {b b' c : Broker} {t : TrackerRef} {m : MessageRef}
  {op : Operation} {h : Journal}

/-- A pass queues a message for deletion if it finds it expired for the first time, and never
otherwise. -/
theorem expired_handle (b : Broker) (r : Rules) (now : UInt64) (s : SubscriberRef) (m : MessageRef)
    (t : TrackerRef) (policy : FailurePolicy) :
    (b.handle r now s m t policy).2.expired = b.expired ++
      if b.isPurged m = false ∧ (b.message m).expired = false ∧
        (b.message m).hasExpired now = true then [m] else [] := by
  obtain ⟨outcome, c, hc, hh⟩ := exists_handled b r now s m t policy
  rw [hc]
  by_cases houtcome : outcome = .expired
  · subst houtcome
    cases hh with
    | marked kept marked => simp [marked]
    | expired kept unmarked late => simp [kept, unmarked, late, markExpired]
  · rw [(hh.timeless houtcome).expired, if_neg, List.append_nil]
    rintro ⟨kept, unmarked, late⟩
    cases hh with
    | purged purged => exact absurd (kept.symm.trans purged) Bool.false_ne_true
    | marked | expired => exact houtcome rfl
    | vetoed _ _ timely => exact absurd (timely.symm.trans late) Bool.false_ne_true
    | alreadyInFlight deliverable | dispatched deliverable | failed deliverable =>
        exact absurd (deliverable.timely.symm.trans late) Bool.false_ne_true

def Due (latest : UInt64) (b : Broker) : Prop :=
  ∀ m, (b.message m).expired = true ∨ m ∈ b.expired → (b.message m).hasExpired latest = true

namespace Due

theorem hasMessage (hx : b.Due latest) (hm : (b.message m).expired = true ∨ m ∈ b.expired) :
    b.hasMessage m := by
  by_contra hnone
  have hlate := hx m hm
  rw [message_eq_default hnone] at hlate
  cases hlate

theorem timeless (hx : b.Due latest) (ht : Timeless b b')
    (hmade : ∀ m, b.hasMessage m → (b'.message m).made = (b.message m).made) : b'.Due latest := by
  intro m hm
  rw [ht.marked, ht.expired] at hm
  rw [Message.hasExpired_congr (hmade m (hx.hasMessage hm))]
  exact hx m hm

theorem handle (hx : b.Due latest) (hnow : now ≤ latest) (r : Rules) (s : SubscriberRef)
    (m : MessageRef) (t : TrackerRef) (policy : FailurePolicy) :
    (b.handle r now s m t policy).2.Due latest := by
  obtain ⟨outcome, c, hc, hh⟩ := exists_handled b r now s m t policy
  rw [hc]
  by_cases houtcome : outcome = .expired
  · subst houtcome
    cases hh with
    | marked => exact hx
    | expired kept unmarked late =>
        intro n hn
        have hsame : ((b.markExpired m).message n).made = (b.message n).made :=
          (Touches.markExpired b m).made n
        rw [(addExpired_frame _ m).2.1, Message.hasExpired_congr hsame]
        by_cases hnm : n = m
        · rw [hnm]
          exact Message.hasExpired_mono hnow late
        · refine hx n (hn.imp (fun h => ?_) fun h => ?_)
          · simpa [markExpired, message_modifyMessage, hnm] using h
          · simpa [markExpired, hnm] using h
  · exact hx.timeless (hh.timeless houtcome) fun n _ => hh.touches.made n

theorem passStep {active : List SubscriberRef} {batch : List MessageRef} (hx : b.Due latest)
    (hnow : now ≤ latest) (hs : b.Sound) (hbatch : ∀ m ∈ batch, b.hasMessage m)
    (hp : Preserves b c) (hstep : PassStep r now t active batch b c) : c.Due latest := by
  obtain hquiet | ⟨s, m, policy, d, hd, hbefore, -, hafter⟩ := hstep.around hs hbatch
  · exact hx.timeless hquiet fun n _ => hp.made n
  · have hdue := (hx.timeless hbefore fun n _ => hd.made n).handle hnow r s m t policy
    have hpass : Preserves d (d.handle r now s m t policy).2 := by
      obtain ⟨outcome, e, he, hh⟩ := exists_handled d r now s m t policy
      rw [he]
      exact hh.touches.toPreserves
    refine hdue.timeless hafter fun n _ => ?_
    rw [hp.made, hpass.made, hd.made]

theorem delivers (hx : b.Due latest) (hnow : now ≤ latest) (hs : b.Sound) (ht : b.hasTracker t)
    (hd : Delivers r now t b b') : b'.Due latest := by
  refine hs.delivery_induction ht hd (P := Due latest) hx
    (fun _ => hx.timeless (.evict b t) fun n _ => (Sound.preserves_evict b t).made n)
    fun _ _ c d hc hp _ hdue hstep => ?_
  have hkept := (hc.passStep hstep (hp.hasTracker ht)
    (fun s h => hp.hasSubscriber (hs.mem_active h).1) fun m h => hp.hasMessage (hs.buffered t m h)).2
  exact hdue.passStep hnow hc (fun m h => hp.hasMessage (hs.buffered t m h)) hkept hstep

theorem deletes {condition : StoreCondition} (hx : b.Due latest) (hd : Deletes b condition b') :
    b'.Due latest := by
  intro m hm
  rw [Message.hasExpired_congr ((Sound.preserves_deletes hd).made m)]
  refine hx m ?_
  cases hd with
  | deleted store =>
      refine .inl (hm.elim (fun h => ?_) fun h => by simp at h)
      rw [message_settleAll] at h
      split at h <;> exact h
  | refused cause store => exact hm
  | lost store => exact .inl (hm.resolve_right List.not_mem_nil)

end Due

theorem Sound.made_apply (hs : b.Sound) (hu : op.uses b) (r : Rules) (hm : b.hasMessage m) :
    ((op.apply r b).message m).made = (b.message m).made := by
  by_cases hw : op.isWork = true
  · exact (hs.preserves hw hu r).made m
  · cases op with
    | createMessage =>
        refine Operation.createMessage_induction (P := fun c => (c.message m).made = _) rfl
          fun _ => ?_
        rw [message_addMessage, if_neg (Nat.ne_of_lt hm)]
    | createSubscriber | register | unregister => rfl
    | track key =>
        rw [Operation.apply, track_eq]
        split <;> rfl
    | _ => exact absurd rfl hw

end Broker

/-- No pass is made after this time. -/
def clockTerms (latest : UInt64) (_b : Broker) (_h : Journal) : Operation → Prop
  | .flush _ now _ | .send _ now _ => now ≤ latest
  | _ => True

instance (latest : UInt64) (b : Broker) (h : Journal) :
    (op : Operation) → Decidable (clockTerms latest b h op)
  | .flush _ now _ | .send _ now _ => inferInstanceAs (Decidable (now ≤ latest))
  | .createSlot _ | .createMessage .. | .createSubscriber .. | .connect .. | .register _
  | .unregister _ | .track _ | .buffer .. | .rebuffer .. | .requeue .. | .findNext .. | .clear _
  | .purge .. | .acknowledge .. | .runJob _ | .close | .shutdown | .deleteExpired _ =>
      .isTrue trivial

theorem Broker.Due.apply {r : Rules} {latest : UInt64} {b : Broker} {h : Journal} {op : Operation}
    (hx : b.Due latest) (hs : b.Sound) (hu : op.uses b) (ht : clockTerms latest b h op) :
    (op.apply r b).Due latest := by
  cases op with
  | flush vetoes now t => exact hx.delivers ht hs hu (flush_delivers b (hs.active_nodup t))
  | send vetoes now t => exact hx.delivers ht hs hu (sendBuffered_delivers b (hs.active_nodup t))
  | deleteExpired condition => exact hx.deletes (b.deleteExpired_deletes condition)
  | _ => exact hx.timeless (Operation.timeless rfl (by nofun) r b) fun _ => hs.made_apply hu r

theorem Reaches.due {r : Rules} {latest : UInt64} {b : Broker} {h : Journal}
    (hr : Reaches r (clockTerms latest) b h) : b.Due latest := by
  induction hr with
  | start => exact fun m hm => hm.elim nofun nofun
  | step op prior hu ht ih => exact ih.apply prior.sound hu ht

/-- A message can be made exactly if its arrival and its time to live add up to a 64-bit number; if
they do not, the broker stays as it was. A message that was made has expired once that sum is past,
and never without a time to live. A pass queues it for deletion if it is the first to find it
expired and it is not purged, and never otherwise. Whatever the host does, a message that is marked
as expired or waits to be deleted was due at the time of the latest pass. -/
theorem expires_at_sum (id : UInt64) (destination storageQueue payload : String)
    (arrival ttl : UInt64) :
    (((Message.new id destination storageQueue payload arrival).withTtl ttl).isSome ↔
        arrival.toNat + ttl.toNat < UInt64.size) ∧
      (UInt64.size ≤ arrival.toNat + ttl.toNat → ∀ r b,
        (Operation.createMessage id destination storageQueue payload arrival ttl).apply r b = b) ∧
      ∀ x, (Message.new id destination storageQueue payload arrival).withTtl ttl = some x →
        x.KeepsTime arrival ttl ∧
        (∀ (b : Broker) (m : MessageRef), (b.message m).made = x →
          ∀ (r : Rules) (now : UInt64) (s : SubscriberRef) (t : TrackerRef)
            (policy : FailurePolicy), (b.handle r now s m t policy).2.expired = b.expired ++
              if b.isPurged m = false ∧ (b.message m).expired = false ∧ x.hasExpired now = true
              then [m] else []) ∧
        ∀ (r : Rules) (latest : UInt64) (b : Broker) (h : Journal),
          Reaches r (clockTerms latest) b h → ∀ m, (b.message m).made = x →
            (b.message m).expired = true ∨ m ∈ b.expired →
              0 < ttl.toNat ∧ arrival.toNat + ttl.toNat ≤ latest.toNat := by
  let bare := Message.new id destination storageQueue payload arrival
  refine ⟨bare.isSome_withTtl ttl, fun hlarge r b => ?_, fun x hx => ?_⟩
  · have hnone : bare.withTtl ttl = none := by
      rw [← Option.not_isSome_iff_eq_none, bare.isSome_withTtl]
      exact Nat.not_lt_of_le hlarge
    rw [Operation.apply, hnone]
  · have htime : x.KeepsTime arrival ttl := Message.keepsTime_of_withTtl hx
    have hmade : x.made = x := by
      obtain ⟨-, rfl⟩ := (Message.withTtl_eq_some_iff bare ttl).1 hx
      rfl
    have hsame : ∀ (b : Broker) (m : MessageRef), (b.message m).made = x →
        ∀ now, (b.message m).hasExpired now = x.hasExpired now := fun b m hm now =>
      Message.hasExpired_congr (hm.trans hmade.symm) now
    refine ⟨htime, fun b m hm r now s t policy => ?_, fun r latest b h hr m hm hlate => ?_⟩
    · rw [expired_handle, hsame b m hm]
    · have hdue := hr.due m hlate
      rw [hsame b m hm] at hdue
      exact (htime latest).1 hdue

def dueRun (arrival ttl now : UInt64) : List Operation :=
  [.createSlot "stored", .createMessage 1 "orders" "stored" "book" arrival ttl,
    .createSubscriber "worker" ⟨"orders", .amqp, .queue⟩ "local" 1 default, .register ⟨0⟩,
    .track ⟨"orders", .amqp, .queue⟩, .buffer [⟨0⟩] ⟨0⟩ ⟨0⟩, .flush [] now ⟨0⟩]

theorem expires_at_sum_dueRun :
    Follows workerRules (clockTerms 9) (dueRun 4 5 9) default default ∧
      (replay workerRules (dueRun 4 5 9) default default).1.expired = [⟨0⟩] ∧
      ((Message.new 1 "orders" "stored" "book" 4).withTtl 5).isSome ∧
      (replay workerRules (dueRun 4 5 8) default default).1.expired = [] ∧
      (4 : UInt64).toNat + (5 : UInt64).toNat ≤ (9 : UInt64).toNat := by
  have hf : Follows workerRules (clockTerms 9) (dueRun 4 5 9) default default := by decide
  obtain ⟨hfits, -, hmade⟩ := expires_at_sum 1 "orders" "stored" "book" 4 5
  have hbook : (Message.new 1 "orders" "stored" "book" 4).withTtl 5 =
      some { Message.new 1 "orders" "stored" "book" 4 with expiresAt := some 9 } := by decide
  obtain ⟨-, -, hruns⟩ := hmade _ hbook
  have hqueued : (replay workerRules (dueRun 4 5 9) default default).1.expired = [⟨0⟩] := by decide
  have hdue := hruns workerRules 9 _ _ (Reaches.start.replay _ hf) ⟨0⟩ (by decide) (.inr (by decide))
  exact ⟨hf, hqueued, hfits.2 (by decide), by decide, hdue.2⟩

/-- An order that may wait for longer than any time cannot be made, and there is none to be
delivered. -/
theorem unmade_lastingOrder :
    (¬ ∀ (id : UInt64) (destination storageQueue payload : String) (arrival ttl : UInt64),
      ∃ x, (Message.new id destination storageQueue payload arrival).withTtl ttl = some x ∧
        x.KeepsTime arrival ttl) ∧
      ∀ r b, (Operation.createMessage 1 "orders" "stored" "book" 1000 18446744073709551615).apply r b
        = b := by
  refine ⟨fun hall => ?_, fun r b => rfl⟩
  obtain ⟨x, hx, -⟩ := hall 1 "orders" "stored" "book" 1000 18446744073709551615
  exact absurd hx (by simp [Message.withTtl_eq_some_iff, Message.new, UInt64.size])

end Courier
