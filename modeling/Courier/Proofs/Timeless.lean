import Courier.Proofs.Permanence

namespace Courier

open Broker

namespace Broker

structure Timeless (b b' : Broker) : Prop where
  id : ∀ m, b.hasMessage m → (b'.message m).id = (b.message m).id
  marked : ∀ m, (b'.message m).expired = (b.message m).expired
  settled : ∀ m, (b.message m).settled = true → (b'.message m).settled = true
  messages_size : b.messages.size ≤ b'.messages.size
  expired : b'.expired = b.expired
  deletions : b'.store.deletions = b.store.deletions

variable {b b' c : Broker} {m : MessageRef} {r : Rules} {now : UInt64} {s : SubscriberRef}
  {t : TrackerRef} {policy : FailurePolicy} {outcome : FilterOutcome}

namespace Timeless

theorem refl (b : Broker) : Timeless b b :=
  ⟨fun _ _ => rfl, fun _ => rfl, fun _ h => h, Nat.le_refl _, rfl, rfl⟩

theorem hasMessage (h : Timeless b b') (hm : b.hasMessage m) : b'.hasMessage m :=
  Nat.lt_of_lt_of_le hm h.messages_size

theorem trans (h : Timeless b b') (h' : Timeless b' c) : Timeless b c where
  id m hm := (h'.id m (h.hasMessage hm)).trans (h.id m hm)
  marked m := (h'.marked m).trans (h.marked m)
  settled m hm := h'.settled m (h.settled m hm)
  messages_size := Nat.le_trans h.messages_size h'.messages_size
  expired := h'.expired.trans h.expired
  deletions := h'.deletions.trans h.deletions

theorem of_messages (hm : b'.messages = b.messages) (he : b'.expired = b.expired)
    (hd : b'.store.deletions = b.store.deletions) : Timeless b b' := by
  have hmessage : ∀ m, b'.message m = b.message m := fun m => by rw [message, hm, message]
  exact ⟨fun m _ => by rw [hmessage], fun m => by rw [hmessage], fun m h => by rwa [hmessage],
    Nat.le_of_eq (by rw [hm]), he, hd⟩

theorem of_preserves (hp : Preserves b b')
    (marked : ∀ m, (b'.message m).expired = (b.message m).expired)
    (settled : ∀ m, (b.message m).settled = true → (b'.message m).settled = true)
    (expired : b'.expired = b.expired) (store : b'.store = b.store) : Timeless b b' :=
  ⟨fun m _ => hp.id m, marked, settled, hp.messages_size, expired, by rw [store]⟩

theorem foldl {f : Broker → MessageRef → Broker} (hf : ∀ b m, Timeless b (f b m))
    (l : List MessageRef) (b : Broker) : Timeless b (l.foldl f b) := by
  induction l generalizing b with
  | nil => exact refl b
  | cons m l ih => exact (hf b m).trans (ih _)

theorem modifyMessage (b : Broker) (m : MessageRef) (f : Message → Message)
    (hf : ∀ x, (f x).id = x.id ∧ (f x).expired = x.expired)
    (hs : ∀ x, x.settled = true → (f x).settled = true) : Timeless b (b.modifyMessage m f) where
  id n _ := by rw [message_modifyMessage]; split <;> simp [hf]
  marked n := by rw [message_modifyMessage]; split <;> simp [hf]
  settled n hn := by
    rw [message_modifyMessage]
    split
    · exact hs _ hn
    · exact hn
  messages_size := Table.size_le_modify _ _ _
  expired := rfl
  deletions := rfl

theorem setStatus (b : Broker) (m : MessageRef) (id : SubscriberId) (status : RecipientStatus) :
    Timeless b (b.setStatus m id status) :=
  modifyMessage b m _ (fun _ => ⟨rfl, rfl⟩) fun _ h => h

theorem markPurged (b : Broker) (m : MessageRef) : Timeless b (b.markPurged m) :=
  modifyMessage b m _ (fun _ => ⟨rfl, rfl⟩) fun _ h => h

theorem settle (b : Broker) (m : MessageRef) : Timeless b (b.settle m) := by
  refine of_preserves (Touches.settle b m).toPreserves (by simp) (fun n hn => ?_) (by simp)
    (by simp)
  rw [message_settle]
  split
  · rfl
  · exact hn

theorem settleIfComplete (b : Broker) (m : MessageRef) : Timeless b (b.settleIfComplete m) := by
  obtain h | h := b.settleIfComplete_eq m
  · rw [h]; exact refl b
  · rw [h]; exact settle b m

theorem rebuffer (b : Broker) (t : TrackerRef) (m : MessageRef) : Timeless b (b.rebuffer t m) :=
  of_preserves (Touches.rebuffer b t m).toPreserves (by simp) (by simp) (by simp) (by simp)

theorem unbuffer (b : Broker) (t : TrackerRef) (m : MessageRef) : Timeless b (b.unbuffer t m) :=
  of_preserves (Touches.unbuffer b t m).toPreserves (by simp) (by simp) (by simp) (by simp)

theorem claim (b : Broker) (s : SubscriberRef) (m : MessageRef) (t : TrackerRef)
    (policy : FailurePolicy) : Timeless b (b.claim s m t policy) := by
  refine (setStatus b m (b.subscriber s).id .scheduled).trans ?_
  cases policy <;> exact of_messages rfl rfl rfl

theorem fail (b : Broker) (j : Job) : Timeless b (b.fail j) := by
  rw [Broker.fail]
  cases j.policy with
  | rebuffer =>
      have hforgotten := modifyMessage b j.message
        (fun x => x.forget (b.subscriber j.subscriber).id) (fun _ => ⟨rfl, rfl⟩) fun _ h => h
      refine (hforgotten.trans ?_).trans (rebuffer _ _ _)
      split <;> exact of_messages rfl rfl rfl
  | retry =>
      have hreleased : Timeless b (b.release j.subscriber) := of_messages rfl rfl rfl
      exact (hreleased.trans (setStatus _ _ _ _)).trans (rebuffer _ _ _)
  | discard =>
      have hreleased : Timeless b (b.release j.subscriber) := of_messages rfl rfl rfl
      exact (hreleased.trans (setStatus _ _ _ _)).trans (settleIfComplete _ _)

theorem execute (b : Broker) (j : Job) : Timeless b (b.execute j) := by
  have hwritten : Timeless b (b.written j.subscriber j.message) := of_messages rfl rfl rfl
  rw [execute_eq]
  refine hwritten.trans ?_
  split
  · rw [markDelivered]
    split
    · exact setStatus _ _ _ _
    · exact refl _
  · exact fail _ j

theorem drain (b : Broker) (t : TrackerRef) : Timeless b (b.drain t) := by
  refine of_preserves (.drain b t) (fun m => ?_) (fun m hm => ?_) (by simp) (by simp) <;>
    rw [message_drain] <;> split
  · rfl
  · rfl
  · exact hm
  · exact hm

theorem evict (b : Broker) (t : TrackerRef) : Timeless b (b.evict t) := by
  have hgone : Timeless b (b.letGo t) := of_messages rfl rfl rfl
  rw [evict_eq]
  split
  · split
    · exact (hgone.trans (drain _ t)).trans (foldl settle _ _)
    · exact hgone
  · exact refl b

theorem acknowledge (b : Broker) (s : SubscriberRef) (m : MessageRef) (type : DestinationType) :
    Timeless b (b.acknowledge s m type) := by
  simp only [Broker.acknowledge]
  generalize ((b.message m).status? (b.subscriber s).id).any RecipientStatus.isOutstanding = held
  have hreleased : Timeless b (if held = true then b.release s else b) := by
    split <;> exact of_messages rfl rfl rfl
  have hset := hreleased.trans (setStatus _ m (b.subscriber s).id .acknowledged)
  split
  · exact hset.trans (settleIfComplete _ m)
  · refine (hset.trans ?_).trans (settle _ m)
    split
    · rw [releaseTracked]
      split <;> exact of_messages rfl rfl rfl
    · exact refl _

theorem accept (p : SlotRef) (t : TrackerRef) (b : Broker) (m : MessageRef) :
    Timeless b (b.accept p t m) := by
  refine of_preserves (Touches.accept p t b m).toPreserves (fun n => ?_) (fun n hn => ?_) (by simp)
    (by simp) <;> rw [message_accept] <;> split
  · rfl
  · rfl
  · exact hn
  · exact hn

theorem returnToBuffer (t : TrackerRef) (b : Broker) (m : MessageRef) :
    Timeless b (b.returnToBuffer t m) :=
  of_preserves (Touches.returnToBuffer t b m).toPreserves (by simp) (by simp) (by simp) (by simp)

theorem putBack (r : Rules) (b : Broker) (key : TrackedKey) (l : List MessageRef) :
    Timeless b ((Operation.rebuffer key l).apply r b) := by
  rw [Operation.apply_rebuffer]
  split
  · exact foldl (returnToBuffer _) l b
  · exact refl b

theorem purge (b : Broker) (now : UInt64) (key : TrackedKey) (storageQueue : String) :
    Timeless b (b.purge now key storageQueue).2 := by
  have hrecorded : Timeless b (b.recordPurge storageQueue now) := of_messages rfl rfl rfl
  rw [Broker.purge]
  dsimp only
  split
  · refine (hrecorded.trans (drain _ _)).trans (foldl (fun b m => ?_) _ _)
    exact (markPurged b m).trans (settle _ m)
  · exact hrecorded

theorem runJob (b : Broker) (place : Nat) : Timeless b (b.runJob place) := by
  rw [Broker.runJob]
  split
  · next j _ =>
      have htaken : Timeless b (b.withJobs (b.dispatcher.jobs.eraseIdx place)) := of_messages rfl rfl rfl
      exact htaken.trans (execute _ j)
  · exact refl b

theorem addMessage (b : Broker) {x : Message} (hx : x.expired = false) :
    Timeless b (b.addMessage x).2 where
  id m hm := by rw [message_addMessage, if_neg (Nat.ne_of_lt hm)]
  marked m := by
    rw [message_addMessage]
    split
    · next hm => rw [hx, message_eq_default (Nat.not_lt_of_le (Nat.le_of_eq hm.symm))]; rfl
    · rfl
  settled m hs := by
    rw [message_addMessage]
    split
    · next hm =>
        rw [message_eq_default (Nat.not_lt_of_le (Nat.le_of_eq hm.symm))] at hs
        cases hs
    · exact hs
  messages_size := by
    rw [Broker.addMessage, Table.size_push]
    exact Nat.le_succ _
  expired := rfl
  deletions := rfl

end Timeless

theorem Handled.timeless (hh : Handled r now s m t policy b outcome b')
    (houtcome : outcome ≠ .expired) : Timeless b b' := by
  cases hh with
  | purged => exact (Timeless.markPurged b m).trans (.settle _ m)
  | marked | expired => exact absurd rfl houtcome
  | vetoed | alreadyInFlight => exact .refl b
  | dispatched => exact (Timeless.claim b s m t policy).trans (.of_messages rfl rfl rfl)
  | failed => exact (Timeless.claim b s m t policy).trans (.fail _ _)

/-- A step of a delivery is a pass, with the buffer and the copies seen to before and after it, or
there is no pass in it. -/
theorem PassStep.around {active : List SubscriberRef} {batch : List MessageRef} (hs : b.Sound)
    (hbatch : ∀ m ∈ batch, b.hasMessage m) (hstep : PassStep r now t active batch b c) :
    Timeless b c ∨ ∃ s m policy d, Preserves b d ∧ Timeless b d ∧ d.hasMessage m ∧
      Timeless (d.handle r now s m t policy).2 c := by
  cases hstep with
  | turn => exact .inl (.of_messages rfl rfl rfl)
  | discard m s => exact .inl (.setStatus b m _ _)
  | retire m => exact .inl ((Timeless.unbuffer b t m).trans (.settleIfComplete _ m))
  | offer m rest s queue front =>
      have hm : b.hasMessage m := hs.buffered t m (front ▸ List.mem_cons_self)
      have htaken := Timeless.unbuffer b t m
      refine .inr ⟨s, m, .rebuffer, _, (Touches.unbuffer b t m).toPreserves, htaken,
        htaken.hasMessage hm, ?_⟩
      rw [Broker.offer]
      generalize (b.unbuffer t m).handle r now s m t .rebuffer = result
      obtain ⟨outcome, d⟩ := result
      cases outcome with
      | vetoed => exact .settle d m
      | alreadyInFlight => exact .rebuffer d t m
      | purged | expired | dispatched | failed => exact .refl d
  | spread m s topic hm =>
      refine .inr ⟨s, m, copyPolicy r.topics, b, .refl b, .refl b, hbatch m hm, ?_⟩
      rw [Broker.spread]
      generalize b.handle r now s m t (copyPolicy r.topics) = result
      obtain ⟨outcome, d⟩ := result
      cases outcome with
      | purged | expired => exact .unbuffer d t m
      | vetoed => exact .setStatus d m _ _
      | alreadyInFlight | dispatched | failed => exact .refl d

end Broker

theorem Operation.timeless {op : Operation} (hop : op.delivery? = none)
    (hdelete : ∀ condition, op ≠ .deleteExpired condition) (r : Rules) (b : Broker) :
    Timeless b (op.apply r b) := by
  cases op with
  | flush | send => exact absurd hop nofun
  | deleteExpired => exact absurd rfl (hdelete _)
  | createMessage =>
      exact createMessage_induction (P := Timeless b) (.refl b) fun _ => .addMessage b rfl
  | createSlot | createSubscriber | connect | register | unregister | close =>
      exact .of_messages rfl rfl rfl
  | track key =>
      rw [apply, track_eq]
      split <;> exact .of_messages rfl rfl rfl
  | buffer batch p t =>
      have hraised : Timeless b (b.raiseSlot p (.ofNat batch.length)) := .of_messages rfl rfl rfl
      exact hraised.trans (.foldl (.accept p t) batch _)
  | rebuffer key l => exact .putBack r b key l
  | requeue m type => exact .putBack r b ⟨type, (b.message m).destination⟩ [m]
  | findNext t active =>
      rw [apply, Broker.findNext]
      split
      · exact .evict b t
      · exact .of_messages rfl rfl rfl
  | clear key =>
      rw [apply, Broker.clear]
      split
      · exact .drain b _
      · exact .refl b
  | purge now key storageQueue => exact .purge b now key storageQueue
  | acknowledge s m type => exact .acknowledge b s m type
  | runJob place => exact .runJob b place
  | shutdown =>
      exact shutdown_induction (h := default) (P := fun c _ => Timeless b c) (.refl b)
        (fun c _ hc => hc.trans (.runJob c 0)) fun _ _ hc => hc.trans (.of_messages rfl rfl rfl)

end Courier
