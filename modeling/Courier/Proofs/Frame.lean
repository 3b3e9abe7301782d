import Courier.Broker.Expiry
import Courier.Broker.Flush

namespace Courier

def Message.made (x : Message) : Message :=
  { x with buffered := false, expired := false, purged := false, settled := false,
           recipients := .empty, slot := none }

def Message.Tidy (x : Message) : Prop := x.recipients.keys.Nodup

def Subscription.made (x : Subscription) : Subscription :=
  { x with unacked := .zero, outbound := default }

@[simp] theorem Message.status?_setStatus (x : Message) (s u : SubscriberId)
    (status : RecipientStatus) :
    (x.setStatus s status).status? u = if u = s then some status else x.status? u :=
  Dict.get?_insert _ _ _ _

theorem Message.awaits_iff {x : Message} {s : SubscriberId} :
    x.awaits s = true ↔ x.status? s = none ∨ x.status? s = some .failed := by
  unfold awaits
  split <;> simp_all

theorem Message.Tidy.setStatus {x : Message} (h : x.Tidy) (s : SubscriberId)
    (status : RecipientStatus) : (x.setStatus s status).Tidy := by
  simp only [Tidy, Message.setStatus, Dict.keys_insert]
  split
  · exact h
  · next hs =>
      exact List.nodup_append.2 ⟨h, by simp, fun a ha c hc he =>
        hs (by rwa [← List.mem_singleton.1 hc, ← he])⟩

theorem Message.Tidy.forget {x : Message} (h : x.Tidy) (s : SubscriberId) : (x.forget s).Tidy :=
  List.Sublist.nodup (x.recipients.keys_erase_sublist s) h

theorem Message.foldl_forget (l : List SubscriberId) (x : Message) :
    (l.foldl Message.forget x).made = x.made ∧ (x.Tidy → (l.foldl Message.forget x).Tidy) := by
  induction l generalizing x with
  | nil => exact ⟨rfl, fun h => h⟩
  | cons id l ih => exact ⟨(ih (x.forget id)).1, fun h => (ih _).2 (h.forget id)⟩

theorem Table.size_le_modify {α : Type} [Inhabited α] (t : Table α) (n : Nat) (f : α → α) :
    t.size ≤ (t.modify n f).size := by
  obtain ⟨l⟩ := t
  simp only [size, modify]
  induction n generalizing l with
  | zero => cases l <;> simp [update]
  | succ n ih => cases l <;> simp [update, ih]

theorem Table.size_modify_of_lt {α : Type} [Inhabited α] (t : Table α) {n : Nat} (f : α → α)
    (hn : n < t.size) : (t.modify n f).size = t.size := by
  obtain ⟨l⟩ := t
  simp only [size, modify] at hn ⊢
  induction n generalizing l with
  | zero =>
      cases l with
      | nil => exact absurd hn (Nat.lt_irrefl 0)
      | cons a l => rfl
  | succ n ih =>
      cases l with
      | nil => exact absurd hn (Nat.not_lt_zero _)
      | cons a l => simpa [update] using ih l (Nat.lt_of_succ_lt_succ hn)

namespace Broker

theorem message_modifyMessage (b : Broker) (m n : MessageRef) (f : Message → Message) :
    (b.modifyMessage m f).message n = if n = m then f (b.message n) else b.message n := by
  cases m; cases n
  simp only [message, modifyMessage, Table.get_modify, MessageRef.mk.injEq]
  split <;> simp_all

theorem subscriber_modifySubscriber (b : Broker) (s u : SubscriberRef)
    (f : Subscription → Subscription) :
    (b.modifySubscriber s f).subscriber u =
      if u = s then f (b.subscriber u) else b.subscriber u := by
  cases s; cases u
  simp only [subscriber, modifySubscriber, Table.get_modify, SubscriberRef.mk.injEq]
  split <;> simp_all

theorem tracker_modifyTracker (b : Broker) (t v : TrackerRef) (f : Tracker → Tracker) :
    (b.modifyTracker t f).tracker v = if v = t then f (b.tracker v) else b.tracker v := by
  cases t; cases v
  simp only [tracker, modifyTracker, Table.get_modify, TrackerRef.mk.injEq]
  split <;> simp_all

theorem slot_modifySlot (b : Broker) (p q : SlotRef) (f : Slot → Slot) :
    (b.modifySlot p f).slot q = if q = p then f (b.slot q) else b.slot q := by
  cases p; cases q
  simp only [slot, modifySlot, Table.get_modify, SlotRef.mk.injEq]
  split <;> simp_all

@[simp] theorem modifyMessage_frame (b : Broker) (m : MessageRef) (f : Message → Message) :
    (∀ p, (b.modifyMessage m f).slot p = b.slot p) ∧
      (∀ s, (b.modifyMessage m f).subscriber s = b.subscriber s) ∧
      (∀ t, (b.modifyMessage m f).tracker t = b.tracker t) ∧
      (b.modifyMessage m f).registry = b.registry ∧ (b.modifyMessage m f).tracked = b.tracked ∧
      (b.modifyMessage m f).purges = b.purges ∧ (b.modifyMessage m f).expired = b.expired ∧
      (b.modifyMessage m f).store = b.store ∧ (b.modifyMessage m f).dispatcher = b.dispatcher :=
  ⟨fun _ => rfl, fun _ => rfl, fun _ => rfl, rfl, rfl, rfl, rfl, rfl, rfl⟩

@[simp] theorem modifySlot_frame (b : Broker) (p : SlotRef) (f : Slot → Slot) :
    (∀ m, (b.modifySlot p f).message m = b.message m) ∧
      (∀ s, (b.modifySlot p f).subscriber s = b.subscriber s) ∧
      (∀ t, (b.modifySlot p f).tracker t = b.tracker t) ∧
      (b.modifySlot p f).registry = b.registry ∧ (b.modifySlot p f).tracked = b.tracked ∧
      (b.modifySlot p f).purges = b.purges ∧ (b.modifySlot p f).expired = b.expired ∧
      (b.modifySlot p f).store = b.store ∧ (b.modifySlot p f).dispatcher = b.dispatcher :=
  ⟨fun _ => rfl, fun _ => rfl, fun _ => rfl, rfl, rfl, rfl, rfl, rfl, rfl⟩

@[simp] theorem modifySubscriber_frame (b : Broker) (s : SubscriberRef)
    (f : Subscription → Subscription) :
    (∀ p, (b.modifySubscriber s f).slot p = b.slot p) ∧
      (∀ m, (b.modifySubscriber s f).message m = b.message m) ∧
      (∀ t, (b.modifySubscriber s f).tracker t = b.tracker t) ∧
      (b.modifySubscriber s f).registry = b.registry ∧
      (b.modifySubscriber s f).tracked = b.tracked ∧ (b.modifySubscriber s f).purges = b.purges ∧
      (b.modifySubscriber s f).expired = b.expired ∧ (b.modifySubscriber s f).store = b.store ∧
      (b.modifySubscriber s f).dispatcher = b.dispatcher :=
  ⟨fun _ => rfl, fun _ => rfl, fun _ => rfl, rfl, rfl, rfl, rfl, rfl, rfl⟩

@[simp] theorem modifyTracker_frame (b : Broker) (t : TrackerRef) (f : Tracker → Tracker) :
    (∀ p, (b.modifyTracker t f).slot p = b.slot p) ∧
      (∀ m, (b.modifyTracker t f).message m = b.message m) ∧
      (∀ s, (b.modifyTracker t f).subscriber s = b.subscriber s) ∧
      (b.modifyTracker t f).registry = b.registry ∧ (b.modifyTracker t f).tracked = b.tracked ∧
      (b.modifyTracker t f).purges = b.purges ∧ (b.modifyTracker t f).expired = b.expired ∧
      (b.modifyTracker t f).store = b.store ∧ (b.modifyTracker t f).dispatcher = b.dispatcher :=
  ⟨fun _ => rfl, fun _ => rfl, fun _ => rfl, rfl, rfl, rfl, rfl, rfl, rfl⟩

def withJobs (b : Broker) (l : List Job) : Broker :=
  { b with dispatcher := { b.dispatcher with jobs := l } }

@[simp] theorem withJobs_frame (b : Broker) (l : List Job) :
    (∀ p, (b.withJobs l).slot p = b.slot p) ∧ (∀ m, (b.withJobs l).message m = b.message m) ∧
      (∀ s, (b.withJobs l).subscriber s = b.subscriber s) ∧
      (∀ t, (b.withJobs l).tracker t = b.tracker t) ∧
      (b.withJobs l).registry = b.registry ∧ (b.withJobs l).tracked = b.tracked ∧
      (b.withJobs l).purges = b.purges ∧ (b.withJobs l).expired = b.expired ∧
      (b.withJobs l).store = b.store ∧ (b.withJobs l).dispatcher.jobs = l ∧
      (b.withJobs l).dispatcher.accepting = b.dispatcher.accepting :=
  ⟨fun _ => rfl, fun _ => rfl, fun _ => rfl, fun _ => rfl, rfl, rfl, rfl, rfl, rfl, rfl, rfl⟩

@[simp] theorem addExpired_frame (b : Broker) (m : MessageRef) :
    (∀ p, (b.addExpired m).slot p = b.slot p) ∧
      (∀ n, (b.addExpired m).message n = b.message n) ∧
      (∀ s, (b.addExpired m).subscriber s = b.subscriber s) ∧
      (∀ t, (b.addExpired m).tracker t = b.tracker t) ∧
      (b.addExpired m).registry = b.registry ∧ (b.addExpired m).tracked = b.tracked ∧
      (b.addExpired m).purges = b.purges ∧ (b.addExpired m).expired = b.expired ++ [m] ∧
      (b.addExpired m).store = b.store ∧ (b.addExpired m).dispatcher = b.dispatcher :=
  ⟨fun _ => rfl, fun _ => rfl, fun _ => rfl, fun _ => rfl, rfl, rfl, rfl, rfl, rfl, rfl⟩

theorem slot_addSlot (b : Broker) (x : Slot) (p : SlotRef) :
    (b.addSlot x).2.slot p = if p.index = b.slots.size then x else b.slot p :=
  Table.get_push b.slots x p.index

theorem message_addMessage (b : Broker) (x : Message) (m : MessageRef) :
    (b.addMessage x).2.message m = if m.index = b.messages.size then x else b.message m :=
  Table.get_push b.messages x m.index

theorem subscriber_addSubscriber (b : Broker) (x : Subscription) (s : SubscriberRef) :
    (b.addSubscriber x).2.subscriber s =
      if s.index = b.subscribers.size then x else b.subscriber s :=
  Table.get_push b.subscribers x s.index

theorem tracker_addTracker (b : Broker) (x : Tracker) (t : TrackerRef) :
    (b.addTracker x).2.tracker t = if t.index = b.trackers.size then x else b.tracker t :=
  Table.get_push b.trackers x t.index

def newTracker (b : Broker) (key : DestinationKey) : Tracker :=
  .new key (b.idsOf (b.registry.active key))

def trackNew (b : Broker) (key : DestinationKey) : Broker :=
  let b' := (b.addTracker (b.newTracker key)).2
  { b' with tracked := b.tracked.insert key.tracked ⟨b.trackers.size⟩ }

theorem track_eq (b : Broker) (key : DestinationKey) :
    (b.track key).2 = match b.find? key.tracked with
      | some _ => b
      | none => b.trackNew key := by
  unfold track
  cases b.find? key.tracked <;> rfl

@[simp] theorem trackNew_frame (b : Broker) (key : DestinationKey) :
    (∀ p, (b.trackNew key).slot p = b.slot p) ∧
      (∀ m, (b.trackNew key).message m = b.message m) ∧
      (∀ s, (b.trackNew key).subscriber s = b.subscriber s) ∧
      (b.trackNew key).registry = b.registry ∧ (b.trackNew key).purges = b.purges ∧
      (b.trackNew key).expired = b.expired ∧ (b.trackNew key).store = b.store ∧
      (b.trackNew key).dispatcher = b.dispatcher :=
  ⟨fun _ => rfl, fun _ => rfl, fun _ => rfl, rfl, rfl, rfl, rfl, rfl⟩

theorem tracker_trackNew (b : Broker) (key : DestinationKey) (t : TrackerRef) :
    (b.trackNew key).tracker t =
      if t.index = b.trackers.size then b.newTracker key else b.tracker t :=
  tracker_addTracker b _ t

@[simp] theorem buffer_trackNew (b : Broker) (key : DestinationKey) (t : TrackerRef) :
    ((b.trackNew key).tracker t).buffer = (b.tracker t).buffer := by
  rw [tracker_trackNew]
  split
  · next ht =>
      have hdefault : b.tracker t = default := b.trackers.get_of_size_le (Nat.le_of_eq ht.symm)
      rw [hdefault]
      rfl
  · rfl

theorem find?_trackNew (b : Broker) (key : DestinationKey) (k : TrackedKey) :
    (b.trackNew key).tracked.get? k =
      if k = key.tracked then some ⟨b.trackers.size⟩ else b.tracked.get? k :=
  Dict.get?_insert _ _ _ _

theorem message_releaseSlot (b : Broker) (p : Option SlotRef) (n : MessageRef) :
    (b.releaseSlot p).message n = b.message n := by
  cases p <;> rfl

theorem message_settle (b : Broker) (m n : MessageRef) :
    (b.settle m).message n =
      if n = m then { b.message n with settled := true } else b.message n := by
  unfold settle
  split
  · next h =>
      split
      · next hn => subst hn; rw [← h]
      · rfl
  · rw [message_releaseSlot, message_modifyMessage]

@[simp] theorem settle_frame (b : Broker) (m : MessageRef) :
    (∀ s, (b.settle m).subscriber s = b.subscriber s) ∧
      (∀ t, (b.settle m).tracker t = b.tracker t) ∧
      (b.settle m).registry = b.registry ∧ (b.settle m).tracked = b.tracked ∧
      (b.settle m).purges = b.purges ∧ (b.settle m).expired = b.expired ∧
      (b.settle m).store = b.store ∧ (b.settle m).dispatcher = b.dispatcher := by
  unfold settle releaseSlot
  split
  · simp
  · cases (b.message m).slot <;> simp [lowerSlot]

theorem settleIfComplete_eq (b : Broker) (m : MessageRef) :
    b.settleIfComplete m = b ∨ b.settleIfComplete m = b.settle m := by
  unfold settleIfComplete
  split
  · exact .inr rfl
  · exact .inl rfl

@[simp] theorem settleIfComplete_frame (b : Broker) (m : MessageRef) :
    (∀ s, (b.settleIfComplete m).subscriber s = b.subscriber s) ∧
      (∀ t, (b.settleIfComplete m).tracker t = b.tracker t) ∧
      (b.settleIfComplete m).registry = b.registry ∧
      (b.settleIfComplete m).tracked = b.tracked ∧ (b.settleIfComplete m).purges = b.purges ∧
      (b.settleIfComplete m).expired = b.expired ∧ (b.settleIfComplete m).store = b.store ∧
      (b.settleIfComplete m).dispatcher = b.dispatcher := by
  obtain h | h := b.settleIfComplete_eq m <;> simp [h]

theorem message_rebuffer (b : Broker) (t : TrackerRef) (m n : MessageRef) :
    (b.rebuffer t m).message n =
      if n = m then { b.message n with buffered := true } else b.message n := by
  unfold rebuffer
  split
  · next h =>
      split
      · next hn => subst hn; rw [← h]
      · rfl
  · simp [buffer, append, setBuffered, message_modifyMessage]

theorem tracker_rebuffer (b : Broker) (t v : TrackerRef) (m : MessageRef) :
    (b.rebuffer t m).tracker v =
      if v = t ∧ (b.message m).buffered = false then
        { b.tracker v with buffer := (b.tracker v).buffer ++ [m] }
      else b.tracker v := by
  unfold rebuffer
  split
  · next h => simp [h]
  · next h => simp [buffer, append, setBuffered, tracker_modifyTracker, h]

@[simp] theorem rebuffer_frame (b : Broker) (t : TrackerRef) (m : MessageRef) :
    (∀ p, (b.rebuffer t m).slot p = b.slot p) ∧
      (∀ s, (b.rebuffer t m).subscriber s = b.subscriber s) ∧
      (b.rebuffer t m).registry = b.registry ∧ (b.rebuffer t m).tracked = b.tracked ∧
      (b.rebuffer t m).purges = b.purges ∧ (b.rebuffer t m).expired = b.expired ∧
      (b.rebuffer t m).store = b.store ∧ (b.rebuffer t m).dispatcher = b.dispatcher := by
  unfold rebuffer
  split <;> simp [buffer, append, setBuffered]

theorem isBufferedIn_iff (b : Broker) (t : TrackerRef) (m : MessageRef) :
    b.isBufferedIn t m = true ↔ ∃ n ∈ (b.tracker t).buffer, (b.message n).id = (b.message m).id := by
  simp [isBufferedIn, sameId]

theorem message_unbuffer (b : Broker) (t : TrackerRef) (m n : MessageRef) :
    (b.unbuffer t m).message n =
      if n = m ∧ b.isBufferedIn t m = true then { b.message n with buffered := false }
      else b.message n := by
  unfold unbuffer
  split
  · next h => simp [setBuffered, message_modifyMessage, h]
  · next h => simp [h]

theorem tracker_unbuffer (b : Broker) (t v : TrackerRef) (m : MessageRef) :
    (b.unbuffer t m).tracker v =
      if v = t then { b.tracker v with buffer := (b.tracker v).buffer.eraseP (b.sameId m) }
      else b.tracker v := by
  unfold unbuffer
  split
  · simp [setBuffered, tracker_modifyTracker]
  · next h =>
      have hn : ∀ n ∈ (b.tracker t).buffer, ¬ b.sameId m n = true := by
        simpa [isBufferedIn] using h
      split
      · next hv => subst hv; rw [List.eraseP_of_forall_not hn]
      · rfl

@[simp] theorem unbuffer_frame (b : Broker) (t : TrackerRef) (m : MessageRef) :
    (∀ p, (b.unbuffer t m).slot p = b.slot p) ∧
      (∀ s, (b.unbuffer t m).subscriber s = b.subscriber s) ∧
      (b.unbuffer t m).registry = b.registry ∧ (b.unbuffer t m).tracked = b.tracked ∧
      (b.unbuffer t m).purges = b.purges ∧ (b.unbuffer t m).expired = b.expired ∧
      (b.unbuffer t m).store = b.store ∧ (b.unbuffer t m).dispatcher = b.dispatcher := by
  unfold unbuffer
  split <;> simp [setBuffered]

@[simp] theorem message_settle_progress (b : Broker) (m n : MessageRef) :
    ((b.settle m).message n).recipients = (b.message n).recipients ∧
      ((b.settle m).message n).buffered = (b.message n).buffered ∧
      ((b.settle m).message n).expired = (b.message n).expired := by
  rw [message_settle]
  split <;> simp

@[simp] theorem message_settleIfComplete_progress (b : Broker) (m n : MessageRef) :
    ((b.settleIfComplete m).message n).recipients = (b.message n).recipients ∧
      ((b.settleIfComplete m).message n).buffered = (b.message n).buffered ∧
      ((b.settleIfComplete m).message n).expired = (b.message n).expired := by
  obtain h | h := b.settleIfComplete_eq m <;> simp [h]

@[simp] theorem message_rebuffer_progress (b : Broker) (t : TrackerRef) (m n : MessageRef) :
    ((b.rebuffer t m).message n).recipients = (b.message n).recipients ∧
      ((b.rebuffer t m).message n).settled = (b.message n).settled ∧
      ((b.rebuffer t m).message n).expired = (b.message n).expired := by
  rw [message_rebuffer]
  split <;> simp

@[simp] theorem message_unbuffer_progress (b : Broker) (t : TrackerRef) (m n : MessageRef) :
    ((b.unbuffer t m).message n).recipients = (b.message n).recipients ∧
      ((b.unbuffer t m).message n).settled = (b.message n).settled ∧
      ((b.unbuffer t m).message n).expired = (b.message n).expired := by
  rw [message_unbuffer]
  split <;> simp

theorem inFlight_rebuffer (b : Broker) (t v : TrackerRef) (m : MessageRef) :
    ((b.rebuffer t m).tracker v).inFlight = (b.tracker v).inFlight := by
  rw [tracker_rebuffer]
  split <;> rfl

theorem inFlight_unbuffer (b : Broker) (t v : TrackerRef) (m : MessageRef) :
    ((b.unbuffer t m).tracker v).inFlight = (b.tracker v).inFlight := by
  rw [tracker_unbuffer]
  split <;> rfl

theorem tracker_nextSubscriber (b : Broker) (t v : TrackerRef) (active : List SubscriberRef) :
    ((b.nextSubscriber t active).2.tracker v).key = (b.tracker v).key ∧
      ((b.nextSubscriber t active).2.tracker v).buffer = (b.tracker v).buffer ∧
      ((b.nextSubscriber t active).2.tracker v).inFlight = (b.tracker v).inFlight := by
  simp only [nextSubscriber, tracker_modifyTracker]
  split <;> simp

@[simp] theorem nextSubscriber_frame (b : Broker) (t : TrackerRef) (active : List SubscriberRef) :
    (∀ p, (b.nextSubscriber t active).2.slot p = b.slot p) ∧
      (∀ m, (b.nextSubscriber t active).2.message m = b.message m) ∧
      (∀ s, (b.nextSubscriber t active).2.subscriber s = b.subscriber s) ∧
      (b.nextSubscriber t active).2.registry = b.registry ∧
      (b.nextSubscriber t active).2.tracked = b.tracked ∧
      (b.nextSubscriber t active).2.purges = b.purges ∧
      (b.nextSubscriber t active).2.expired = b.expired ∧
      (b.nextSubscriber t active).2.store = b.store ∧
      (b.nextSubscriber t active).2.dispatcher = b.dispatcher := by
  simp [nextSubscriber]

theorem message_unbufferAll (b : Broker) (l : List MessageRef) (n : MessageRef) :
    (b.unbufferAll l).message n =
      if n ∈ l then { b.message n with buffered := false } else b.message n := by
  induction l generalizing b with
  | nil => rfl
  | cons m l ih =>
      refine (ih (b.setBuffered m false)).trans ?_
      rw [setBuffered, message_modifyMessage]
      by_cases hm : n = m <;> by_cases hl : n ∈ l <;> simp [hm, hl]

@[simp] theorem unbufferAll_frame (b : Broker) (l : List MessageRef) :
    (∀ p, (b.unbufferAll l).slot p = b.slot p) ∧
      (∀ s, (b.unbufferAll l).subscriber s = b.subscriber s) ∧
      (∀ t, (b.unbufferAll l).tracker t = b.tracker t) ∧
      (b.unbufferAll l).registry = b.registry ∧ (b.unbufferAll l).tracked = b.tracked ∧
      (b.unbufferAll l).purges = b.purges ∧ (b.unbufferAll l).expired = b.expired ∧
      (b.unbufferAll l).store = b.store ∧ (b.unbufferAll l).dispatcher = b.dispatcher := by
  induction l generalizing b with
  | nil => simp [unbufferAll]
  | cons m l ih => exact ih (b.setBuffered m false)

theorem message_drain (b : Broker) (t : TrackerRef) (n : MessageRef) :
    (b.drain t).message n =
      if n ∈ (b.tracker t).buffer then { b.message n with buffered := false } else b.message n := by
  simp [drain, message_unbufferAll]

theorem tracker_drain (b : Broker) (t v : TrackerRef) :
    (b.drain t).tracker v = if v = t then { b.tracker v with buffer := [] } else b.tracker v := by
  simp [drain, tracker_modifyTracker]

theorem mem_buffer_drain {b : Broker} {t v : TrackerRef} {m : MessageRef}
    (hm : m ∈ ((b.drain t).tracker v).buffer) : m ∈ (b.tracker v).buffer := by
  rw [tracker_drain] at hm
  split at hm
  · exact absurd hm List.not_mem_nil
  · exact hm

@[simp] theorem drain_frame (b : Broker) (t : TrackerRef) :
    (∀ p, (b.drain t).slot p = b.slot p) ∧ (∀ s, (b.drain t).subscriber s = b.subscriber s) ∧
      (b.drain t).registry = b.registry ∧ (b.drain t).tracked = b.tracked ∧
      (b.drain t).purges = b.purges ∧ (b.drain t).expired = b.expired ∧
      (b.drain t).store = b.store ∧ (b.drain t).dispatcher = b.dispatcher := by
  simp [drain]

theorem message_settleAll (b : Broker) (l : List MessageRef) (n : MessageRef) :
    (b.settleAll l).message n =
      if n ∈ l then { b.message n with settled := true } else b.message n := by
  induction l generalizing b with
  | nil => rfl
  | cons m l ih =>
      refine (ih (b.settle m)).trans ?_
      rw [message_settle]
      by_cases hm : n = m <;> by_cases hl : n ∈ l <;> simp [hm, hl]

@[simp] theorem settleAll_frame (b : Broker) (l : List MessageRef) :
    (∀ s, (b.settleAll l).subscriber s = b.subscriber s) ∧
      (∀ t, (b.settleAll l).tracker t = b.tracker t) ∧
      (b.settleAll l).registry = b.registry ∧ (b.settleAll l).tracked = b.tracked ∧
      (b.settleAll l).purges = b.purges ∧ (b.settleAll l).expired = b.expired ∧
      (b.settleAll l).store = b.store ∧ (b.settleAll l).dispatcher = b.dispatcher := by
  induction l generalizing b with
  | nil => simp [settleAll]
  | cons m l ih => simpa [settleAll] using ih (b.settle m)

theorem message_foldl_consumePurged (b : Broker) (l : List MessageRef) (n : MessageRef) :
    (l.foldl consumePurged b).message n =
      if n ∈ l then { b.message n with purged := true, settled := true } else b.message n := by
  induction l generalizing b with
  | nil => rfl
  | cons m l ih =>
      refine (ih (b.consumePurged m)).trans ?_
      simp only [consumePurged, markPurged, message_settle, message_modifyMessage]
      by_cases hm : n = m <;> by_cases hl : n ∈ l <;> simp [hm, hl]

@[simp] theorem foldl_consumePurged_frame (b : Broker) (l : List MessageRef) :
    (∀ s, (l.foldl consumePurged b).subscriber s = b.subscriber s) ∧
      (∀ t, (l.foldl consumePurged b).tracker t = b.tracker t) ∧
      (l.foldl consumePurged b).registry = b.registry ∧
      (l.foldl consumePurged b).tracked = b.tracked ∧
      (l.foldl consumePurged b).expired = b.expired ∧
      (l.foldl consumePurged b).dispatcher = b.dispatcher := by
  induction l generalizing b with
  | nil => simp
  | cons m l ih => simpa [consumePurged, markPurged] using ih (b.consumePurged m)

def letGo (b : Broker) (t : TrackerRef) : Broker :=
  { b with tracked := b.tracked.erase (b.tracker t).key.tracked }

@[simp] theorem letGo_frame (b : Broker) (t : TrackerRef) :
    (∀ p, (b.letGo t).slot p = b.slot p) ∧ (∀ m, (b.letGo t).message m = b.message m) ∧
      (∀ s, (b.letGo t).subscriber s = b.subscriber s) ∧
      (∀ v, (b.letGo t).tracker v = b.tracker v) ∧ (b.letGo t).registry = b.registry ∧
      (b.letGo t).purges = b.purges ∧ (b.letGo t).expired = b.expired ∧
      (b.letGo t).store = b.store ∧ (b.letGo t).dispatcher = b.dispatcher :=
  ⟨fun _ => rfl, fun _ => rfl, fun _ => rfl, fun _ => rfl, rfl, rfl, rfl, rfl, rfl⟩

theorem evict_eq (b : Broker) (t : TrackerRef) :
    b.evict t =
      if b.isTracked t then
        if (b.tracker t).isTopic then ((b.letGo t).drain t).settleAll (b.tracker t).buffer
        else b.letGo t
      else b :=
  rfl

theorem buffer_evict (b : Broker) (t v : TrackerRef) :
    ((b.evict t).tracker v).buffer =
      if v = t ∧ b.isTracked t = true ∧ (b.tracker t).isTopic = true then []
      else (b.tracker v).buffer := by
  rw [evict_eq]
  split
  · split <;> by_cases hv : v = t <;> simp_all [tracker_drain]
  · next h => simp [h]

theorem evict_frame (b : Broker) (t : TrackerRef) :
    (b.evict t).dispatcher = b.dispatcher ∧ (b.evict t).expired = b.expired ∧
      (b.evict t).purges = b.purges := by
  rw [evict_eq]
  split
  · split <;> simp
  · exact ⟨rfl, rfl, rfl⟩

def withExpired (b : Broker) (l : List MessageRef) (store : MessageStore) : Broker :=
  { b with expired := l, store }

@[simp] theorem withExpired_frame (b : Broker) (l : List MessageRef) (store : MessageStore) :
    (∀ p, (b.withExpired l store).slot p = b.slot p) ∧
      (∀ m, (b.withExpired l store).message m = b.message m) ∧
      (∀ s, (b.withExpired l store).subscriber s = b.subscriber s) ∧
      (∀ t, (b.withExpired l store).tracker t = b.tracker t) ∧
      (b.withExpired l store).registry = b.registry ∧
      (b.withExpired l store).tracked = b.tracked ∧ (b.withExpired l store).purges = b.purges ∧
      (b.withExpired l store).expired = l ∧
      (b.withExpired l store).dispatcher = b.dispatcher :=
  ⟨fun _ => rfl, fun _ => rfl, fun _ => rfl, fun _ => rfl, rfl, rfl, rfl, rfl, rfl⟩

inductive Deletes (b : Broker) : StoreCondition → Broker → Prop
  | deleted (store : MessageStore) :
      Deletes b .working ((b.withExpired [] store).settleAll b.expired)
  | refused (cause : StoreError) (store : MessageStore) :
      Deletes b (.failing cause) (b.withExpired b.expired store)
  | lost (store : MessageStore) : Deletes b .panicking (b.withExpired [] store)

theorem deleteExpired_deletes (b : Broker) (condition : StoreCondition) :
    Deletes b condition { b with store := { b.store with condition } }.deleteExpired.2 := by
  unfold deleteExpired takeExpired
  by_cases he : b.expired = []
  · simp only [he, List.isEmpty_nil, if_true]
    cases condition with
    | working => simpa [he, settleAll, withExpired] using Deletes.deleted (b := b) _
    | failing cause => simpa [he, withExpired] using Deletes.refused (b := b) cause _
    | panicking => simpa [withExpired] using Deletes.lost (b := b) _
  · simp only [List.isEmpty_iff, he, if_false]
    cases condition with
    | working => exact .deleted _
    | failing cause => exact .refused cause _
    | panicking => exact .lost _

end Broker

end Courier
