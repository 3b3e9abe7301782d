import Courier.Lists
import Courier.Proofs.Frame

namespace Courier

namespace Broker

structure Preserves (b b' : Broker) : Prop where
  made : ∀ n, (b'.message n).made = (b.message n).made
  tidy : ∀ n, (b.message n).Tidy → (b'.message n).Tidy
  subscriber : ∀ s, (b'.subscriber s).made = (b.subscriber s).made
  key : ∀ t, (b'.tracker t).key = (b.tracker t).key
  registry : b'.registry = b.registry
  messages_size : b.messages.size ≤ b'.messages.size
  subscribers_size : b.subscribers.size ≤ b'.subscribers.size
  trackers_size : b.trackers.size ≤ b'.trackers.size

/-- The second state comes from the first by work on the message `m`. Other messages stay as they
were and where they were, except that a buffer may lose one with the id of `m`. -/
structure Touches (m : MessageRef) (b b' : Broker) : Prop extends Preserves b b' where
  others : ∀ n, n ≠ m → b'.message n = b.message n
  gains : ∀ t n, n ∈ (b'.tracker t).buffer → n ∈ (b.tracker t).buffer ∨ n = m
  count : ∀ t n, (b.message n).id ≠ (b.message m).id →
    (b'.tracker t).buffer.count n = (b.tracker t).buffer.count n
  expired : ∀ n, n ∈ b'.expired → n ∈ b.expired ∨ n = m
  pending : ∀ n, n ∈ b.expired → n ∈ b'.expired
  tracked : b'.tracked = b.tracked
  purges : b'.purges = b.purges
  size : m.index < b.messages.size → b'.messages.size = b.messages.size
  accepting : b'.dispatcher.accepting = b.dispatcher.accepting
  jobs : b'.dispatcher.jobs.filter (fun j => j.message ≠ m) =
    b.dispatcher.jobs.filter fun j => j.message ≠ m

namespace Preserves

variable {b b' c : Broker}

theorem id (h : Preserves b b') (n : MessageRef) : (b'.message n).id = (b.message n).id :=
  (congrArg Message.id (h.made n) :)

theorem destination (h : Preserves b b') (n : MessageRef) :
    (b'.message n).destination = (b.message n).destination :=
  (congrArg Message.destination (h.made n) :)

theorem subscriber_id (h : Preserves b b') (s : SubscriberRef) :
    (b'.subscriber s).id = (b.subscriber s).id :=
  (congrArg Subscription.id (h.subscriber s) :)

theorem refl (b : Broker) : Preserves b b where
  made _ := rfl
  tidy _ h := h
  subscriber _ := rfl
  key _ := rfl
  registry := rfl
  messages_size := Nat.le_refl _
  subscribers_size := Nat.le_refl _
  trackers_size := Nat.le_refl _

theorem trans (h : Preserves b b') (h' : Preserves b' c) : Preserves b c where
  made n := (h'.made n).trans (h.made n)
  tidy n hn := h'.tidy n (h.tidy n hn)
  subscriber s := (h'.subscriber s).trans (h.subscriber s)
  key t := (h'.key t).trans (h.key t)
  registry := h'.registry.trans h.registry
  messages_size := Nat.le_trans h.messages_size h'.messages_size
  subscribers_size := Nat.le_trans h.subscribers_size h'.subscribers_size
  trackers_size := Nat.le_trans h.trackers_size h'.trackers_size

end Preserves

namespace Touches

variable {m : MessageRef} {b b' c : Broker}

theorem refl (m : MessageRef) (b : Broker) : Touches m b b :=
  { Preserves.refl b with
    others := fun _ _ => rfl
    gains := fun _ _ h => .inl h
    count := fun _ _ _ => rfl
    expired := fun _ h => .inl h
    pending := fun _ h => h
    tracked := rfl
    purges := rfl
    size := fun _ => rfl
    accepting := rfl
    jobs := rfl }

theorem trans (h : Touches m b b') (h' : Touches m b' c) : Touches m b c :=
  { h.toPreserves.trans h'.toPreserves with
    others := fun n hn => (h'.others n hn).trans (h.others n hn)
    gains := fun t n hn => (h'.gains t n hn).elim (h.gains t n) .inr
    count := fun t n hid => (h'.count t n (by rwa [h.id, h.id])).trans (h.count t n hid)
    expired := fun n hn => (h'.expired n hn).elim (h.expired n) .inr
    pending := fun n hn => h'.pending n (h.pending n hn)
    tracked := h'.tracked.trans h.tracked
    purges := h'.purges.trans h.purges
    size := fun hm => (h'.size (by rwa [h.size hm])).trans (h.size hm)
    accepting := h'.accepting.trans h.accepting
    jobs := h'.jobs.trans h.jobs }

theorem keeps (h : Touches m b b') (t : TrackerRef) (n : MessageRef)
    (hn : n ∈ (b.tracker t).buffer) (hid : (b.message n).id ≠ (b.message m).id) :
    n ∈ (b'.tracker t).buffer := by
  rw [← List.count_pos_iff] at hn ⊢
  rwa [h.count t n hid]

theorem modifyMessage (b : Broker) (m : MessageRef) (f : Message → Message)
    (hf : ∀ x, (f x).made = x.made) (ht : ∀ x, x.Tidy → (f x).Tidy) :
    Touches m b (b.modifyMessage m f) :=
  { refl m b with
    others := fun n hn => by simp [message_modifyMessage, hn]
    made := fun n => by rw [message_modifyMessage]; split <;> simp [hf]
    tidy := fun n hn => by rw [message_modifyMessage]; split <;> simp_all
    messages_size := Table.size_le_modify _ _ _
    size := Table.size_modify_of_lt _ _ }

theorem modifySlot (m : MessageRef) (b : Broker) (p : SlotRef) (f : Slot → Slot) :
    Touches m b (b.modifySlot p f) :=
  { refl m b with }

theorem modifySubscriber (m : MessageRef) (b : Broker) (s : SubscriberRef)
    (f : Subscription → Subscription) (hf : ∀ x, (f x).made = x.made) :
    Touches m b (b.modifySubscriber s f) :=
  { refl m b with
    subscriber := fun u => by rw [subscriber_modifySubscriber]; split <;> simp [hf]
    subscribers_size := Table.size_le_modify _ _ _ }

theorem modifyTracker (m : MessageRef) (b : Broker) (t : TrackerRef) (f : Tracker → Tracker)
    (hk : ∀ x, (f x).key = x.key) (hg : ∀ x, ∀ n ∈ (f x).buffer, n ∈ x.buffer ∨ n = m)
    (hb : ∀ x n, (b.message n).id ≠ (b.message m).id → (f x).buffer.count n = x.buffer.count n) :
    Touches m b (b.modifyTracker t f) :=
  { refl m b with
    key := fun v => by rw [tracker_modifyTracker]; split <;> simp [hk]
    gains := fun v n hn => by
      rw [tracker_modifyTracker] at hn
      split at hn
      · exact hg _ n hn
      · exact .inl hn
    count := fun v n hid => by
      rw [tracker_modifyTracker]
      split
      · exact hb _ n hid
      · rfl
    trackers_size := Table.size_le_modify _ _ _ }

theorem withJobs (m : MessageRef) (b : Broker) (l : List Job)
    (hl : l.filter (fun j => j.message ≠ m) = b.dispatcher.jobs.filter fun j => j.message ≠ m) :
    Touches m b (b.withJobs l) :=
  { refl m b with jobs := hl }

theorem addJob (b : Broker) (j : Job) :
    Touches j.message b (b.withJobs (b.dispatcher.jobs ++ [j])) :=
  withJobs j.message b _ (by simp)

theorem addExpired (b : Broker) (m : MessageRef) : Touches m b (b.addExpired m) :=
  { refl m b with
    expired := fun n hn => by simpa using hn
    pending := fun n hn => by simp [hn] }

theorem reserve (m : MessageRef) (b : Broker) (s : SubscriberRef) : Touches m b (b.reserve s) :=
  modifySubscriber m b s _ fun _ => rfl

theorem release (m : MessageRef) (b : Broker) (s : SubscriberRef) : Touches m b (b.release s) :=
  modifySubscriber m b s _ fun _ => rfl

theorem acquireInFlight (m : MessageRef) (b : Broker) (t : TrackerRef) :
    Touches m b (b.acquireInFlight t) :=
  modifyTracker m b t _ (fun _ => rfl) (fun _ _ h => .inl h) fun _ _ _ => rfl

theorem releaseInFlight (m : MessageRef) (b : Broker) (t : TrackerRef) :
    Touches m b (b.releaseInFlight t) :=
  modifyTracker m b t _ (fun _ => rfl) (fun _ _ h => .inl h) fun _ _ _ => rfl

theorem setStatus (b : Broker) (m : MessageRef) (id : SubscriberId) (status : RecipientStatus) :
    Touches m b (b.setStatus m id status) :=
  modifyMessage b m _ (fun _ => rfl) fun _ h => h.setStatus id status

theorem markPurged (b : Broker) (m : MessageRef) : Touches m b (b.markPurged m) :=
  modifyMessage b m _ (fun _ => rfl) fun _ h => h

theorem markExpired (b : Broker) (m : MessageRef) : Touches m b (b.markExpired m) :=
  modifyMessage b m _ (fun _ => rfl) fun _ h => h

theorem setBuffered (b : Broker) (m : MessageRef) (flag : Bool) :
    Touches m b (b.setBuffered m flag) :=
  modifyMessage b m _ (fun _ => rfl) fun _ h => h

theorem settle (b : Broker) (m : MessageRef) : Touches m b (b.settle m) := by
  unfold Broker.settle releaseSlot
  split
  · exact refl m b
  · have h := modifyMessage b m (fun x => { x with settled := true }) (fun _ => rfl) fun _ h => h
    cases (b.message m).slot with
    | none => exact h
    | some p => exact h.trans (modifySlot m _ p _)

theorem settleIfComplete (b : Broker) (m : MessageRef) : Touches m b (b.settleIfComplete m) := by
  obtain h | h := b.settleIfComplete_eq m
  · rw [h]; exact refl m b
  · rw [h]; exact settle b m

theorem buffer (b : Broker) (t : TrackerRef) (m : MessageRef) : Touches m b (b.buffer t m) := by
  refine (modifyMessage b m (fun x => { x with buffered := true }) (fun _ => rfl) fun _ h => h).trans
    (modifyTracker m _ t _ (fun _ => rfl) (fun _ _ h => by simpa using h) fun x n hid => ?_)
  have hne : n ≠ m := fun he => hid (he ▸ rfl)
  simp [List.count_append, Ne.symm hne]

theorem rebuffer (b : Broker) (t : TrackerRef) (m : MessageRef) : Touches m b (b.rebuffer t m) := by
  unfold Broker.rebuffer
  split
  · exact refl m b
  · exact buffer b t m

theorem unbuffer (b : Broker) (t : TrackerRef) (m : MessageRef) : Touches m b (b.unbuffer t m) := by
  unfold Broker.unbuffer
  split
  · have h : Touches m b (b.modifyTracker t fun x =>
        { x with buffer := x.buffer.eraseP (b.sameId m) }) := by
      refine modifyTracker m b t _ (fun _ => rfl) ?_ ?_
      · exact fun x n hn => .inl (List.mem_of_mem_eraseP hn)
      · intro x n hid
        exact count_eraseP_of_neg (by simpa [sameId] using hid) x.buffer
    exact h.trans (modifyMessage _ m _ (fun _ => rfl) fun _ h => h)
  · exact refl m b

theorem nextSubscriber (m : MessageRef) (b : Broker) (t : TrackerRef)
    (active : List SubscriberRef) : Touches m b (b.nextSubscriber t active).2 :=
  modifyTracker m b t _ (fun _ => rfl) (fun _ _ h => .inl h) fun _ _ _ => rfl

theorem fail (b : Broker) (j : Job) : Touches j.message b (b.fail j) := by
  unfold Broker.fail
  cases j.policy with
  | rebuffer =>
      have h := modifyMessage b j.message
        (fun x => x.forget (b.subscriber j.subscriber).id) (fun _ => rfl) fun _ h => h.forget _
      refine h.trans (Touches.trans ?_ (rebuffer _ j.tracker j.message))
      split
      · exact (release _ _ _).trans (releaseInFlight _ _ _)
      · exact refl _ _
  | retry => exact ((release _ _ _).trans (setStatus _ _ _ _)).trans (rebuffer _ _ _)
  | discard => exact ((release _ _ _).trans (setStatus _ _ _ _)).trans (settleIfComplete _ _)

theorem send (m : MessageRef) (b : Broker) (s : SubscriberRef) (n : MessageRef) :
    Touches m b (b.send s n).2 :=
  modifySubscriber m b s _ fun _ => rfl

theorem markDelivered (b : Broker) (m : MessageRef) (id : SubscriberId) :
    Touches m b (b.markDelivered m id) := by
  unfold Broker.markDelivered
  split
  · exact setStatus _ _ _ _
  · exact refl m b

theorem execute (b : Broker) (j : Job) : Touches j.message b (b.execute j) := by
  have h := send j.message b j.subscriber j.message
  unfold Broker.execute
  split
  · next c hc => rw [hc] at h; exact h.trans (markDelivered _ _ _)
  · next c hc => rw [hc] at h; exact h.trans (fail _ j)
  · next c hc => rw [hc] at h; exact h.trans (fail _ j)

theorem accept (p : SlotRef) (t : TrackerRef) (b : Broker) (m : MessageRef) :
    Touches m b (b.accept p t m) := by
  unfold Broker.accept
  split
  · exact (modifyMessage b m (fun x => { x with slot := some p }) (fun _ => rfl) fun _ h => h).trans
      (buffer _ t m)
  · exact modifySlot m b p _

theorem consumePurged (b : Broker) (m : MessageRef) : Touches m b (b.consumePurged m) :=
  (markPurged b m).trans (settle _ m)

theorem giveBack (m : MessageRef) (t : TrackerRef) (active : List SubscriberRef) (b : Broker)
    (id : SubscriberId) : Touches m b (b.giveBack t active id) := by
  simp only [Broker.giveBack]
  split
  · exact (releaseInFlight m b t).trans (release m _ _)
  · exact releaseInFlight m b t

theorem withdraw (b : Broker) (t : TrackerRef) (m : MessageRef) : Touches m b (b.withdraw t m) := by
  have h := modifyMessage b m Message.withdrawOutstanding
    (fun x => (Message.foldl_forget x.outstanding x).1)
    fun x => (Message.foldl_forget x.outstanding x).2
  refine h.trans ?_
  unfold Broker.withdraw
  clear h
  generalize b.modifyMessage m Message.withdrawOutstanding = c
  induction (b.message m).outstanding generalizing c with
  | nil => exact refl m c
  | cons id l ih => exact (giveBack m t _ c id).trans (ih _)

theorem returnToBuffer (t : TrackerRef) (b : Broker) (m : MessageRef) :
    Touches m b (b.returnToBuffer t m) := by
  unfold Broker.returnToBuffer
  split
  · exact rebuffer b t m
  · exact (withdraw b t m).trans (rebuffer _ t m)

theorem releaseTracked (m : MessageRef) (b : Broker) (key : TrackedKey) :
    Touches m b (b.releaseTracked key) := by
  unfold Broker.releaseTracked
  split
  · exact releaseInFlight m b _
  · exact refl m b

theorem acknowledge (b : Broker) (s : SubscriberRef) (m : MessageRef) (type : DestinationType) :
    Touches m b (b.acknowledge s m type) := by
  simp only [Broker.acknowledge]
  generalize ((b.message m).status? (b.subscriber s).id).any RecipientStatus.isOutstanding = o
  have h : Touches m b (if o = true then b.release s else b) := by
    split
    · exact release m b s
    · exact refl m b
  have hs := h.trans (setStatus _ m (b.subscriber s).id .acknowledged)
  split
  · exact hs.trans (settleIfComplete _ m)
  · refine hs.trans (Touches.trans ?_ (settle _ m))
    split
    · exact releaseTracked m _ _
    · exact refl m _

end Touches

theorem Touches.size_foldl {f : Broker → MessageRef → Broker} (hf : ∀ b m, Touches m b (f b m))
    (l : List MessageRef) (b : Broker) (hl : ∀ m ∈ l, m.index < b.messages.size) :
    (l.foldl f b).messages.size = b.messages.size := by
  induction l generalizing b with
  | nil => rfl
  | cons m l ih =>
      have hm := (hf b m).size (hl m (by simp))
      exact (ih (f b m) fun n hn => by rw [hm]; exact hl n (by simp [hn])).trans hm

namespace Preserves

variable {b : Broker}

theorem foldl {f : Broker → MessageRef → Broker} (hf : ∀ b m, Preserves b (f b m))
    (l : List MessageRef) (b : Broker) : Preserves b (l.foldl f b) := by
  induction l generalizing b with
  | nil => exact refl b
  | cons m l ih => exact (hf b m).trans (ih _)

theorem settleAll (b : Broker) (l : List MessageRef) : Preserves b (b.settleAll l) :=
  foldl (fun b m => (Touches.settle b m).toPreserves) l b

theorem letGo (b : Broker) (t : TrackerRef) : Preserves b (b.letGo t) :=
  { refl b with }

theorem withExpired (b : Broker) (l : List MessageRef) (store : MessageStore) :
    Preserves b (b.withExpired l store) :=
  { refl b with }

theorem drain (b : Broker) (t : TrackerRef) : Preserves b (b.drain t) := by
  have h : Preserves b (b.modifyTracker t fun x => { x with buffer := [] }) :=
    { refl b with
      key := fun v => by rw [tracker_modifyTracker]; split <;> rfl
      trackers_size := Table.size_le_modify _ _ _ }
  have hf : ∀ (b : Broker) (m : MessageRef), Preserves b (b.setBuffered m false) :=
    fun b m => (Touches.setBuffered b m false).toPreserves
  exact h.trans (foldl hf _ _)

end Preserves

end Broker

end Courier
