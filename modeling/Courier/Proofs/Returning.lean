import Courier.Proofs.Failing

namespace Courier

namespace Message

theorem status?_foldl_forget (l : List SubscriberId) (x : Message) (s : SubscriberId) :
    (l.foldl forget x).status? s = if s ∈ l then none else x.status? s := by
  induction l generalizing x with
  | nil => rfl
  | cons id l ih =>
      refine (ih (x.forget id)).trans ?_
      by_cases hs : s = id <;> by_cases hl : s ∈ l <;>
        simp [hs, hl, status?, forget, Dict.get?_erase]

theorem foldl_forget_progress (l : List SubscriberId) (x : Message) :
    (l.foldl forget x).buffered = x.buffered ∧ (l.foldl forget x).expired = x.expired ∧
      (l.foldl forget x).purged = x.purged ∧ (l.foldl forget x).settled = x.settled ∧
      (l.foldl forget x).slot = x.slot := by
  induction l generalizing x with
  | nil => simp
  | cons id l ih => exact ih (x.forget id)

@[simp] theorem withdrawOutstanding_progress (x : Message) :
    x.withdrawOutstanding.buffered = x.buffered ∧ x.withdrawOutstanding.expired = x.expired ∧
      x.withdrawOutstanding.purged = x.purged ∧ x.withdrawOutstanding.settled = x.settled ∧
      x.withdrawOutstanding.slot = x.slot :=
  foldl_forget_progress x.outstanding x

theorem mem_outstanding {x : Message} (hx : x.Tidy) (s : SubscriberId) :
    s ∈ x.outstanding ↔ (x.status? s).any RecipientStatus.isOutstanding = true := by
  simp only [Tidy, Dict.keys] at hx
  simp only [outstanding, status?, Dict.get?]
  generalize x.recipients.entries = entries at hx ⊢
  induction entries with
  | nil => simp [Dict.find]
  | cons e l ih =>
      rw [List.map_cons, List.nodup_cons] at hx
      by_cases he : e.1 = s
      · have hs : s ∉ (l.filter fun e => e.2.isOutstanding).map Prod.fst := fun h =>
          hx.1 (by rw [he]; exact (List.filter_sublist.map _).subset h)
        by_cases ho : e.2.isOutstanding = true
        · simp [Dict.find, he, ho]
        · simpa [Dict.find, he, ho] using hs
      · have hn : s ≠ e.1 := fun h => he h.symm
        by_cases ho : e.2.isOutstanding = true <;> simp [Dict.find, he, ho, hn, ← ih hx.2]

theorem outstanding_nodup {x : Message} (hx : x.Tidy) : x.outstanding.Nodup :=
  List.Sublist.nodup (List.filter_sublist.map _) hx

theorem status?_withdrawOutstanding {x : Message} (hx : x.Tidy) (s : SubscriberId) :
    x.withdrawOutstanding.status? s =
      if (x.status? s).any RecipientStatus.isOutstanding then none else x.status? s := by
  rw [withdrawOutstanding, status?_foldl_forget]
  simp only [mem_outstanding hx]

end Message

namespace Broker

theorem giveBack_eq (t : TrackerRef) (active : List SubscriberRef) (b : Broker)
    (id : SubscriberId) :
    b.giveBack t active id = match b.findById active id with
      | some s => (b.releaseInFlight t).release s
      | none => b.releaseInFlight t :=
  rfl

@[simp] theorem giveBack_frame (t : TrackerRef) (active : List SubscriberRef) (b : Broker)
    (id : SubscriberId) :
    (∀ p, (b.giveBack t active id).slot p = b.slot p) ∧
      (∀ m, (b.giveBack t active id).message m = b.message m) ∧
      (∀ v, ((b.giveBack t active id).tracker v).buffer = (b.tracker v).buffer) ∧
      (b.giveBack t active id).registry = b.registry ∧
      (b.giveBack t active id).tracked = b.tracked ∧
      (b.giveBack t active id).purges = b.purges ∧
      (b.giveBack t active id).expired = b.expired ∧
      (b.giveBack t active id).store = b.store ∧
      (b.giveBack t active id).dispatcher = b.dispatcher := by
  rw [giveBack_eq]
  split <;> simp [releaseInFlight, release, tracker_modifyTracker, apply_ite Tracker.buffer]

theorem foldl_giveBack_frame (t : TrackerRef) (active : List SubscriberRef) (b : Broker)
    (l : List SubscriberId) :
    (∀ p, (l.foldl (giveBack t active) b).slot p = b.slot p) ∧
      (∀ m, (l.foldl (giveBack t active) b).message m = b.message m) ∧
      (∀ v, ((l.foldl (giveBack t active) b).tracker v).buffer = (b.tracker v).buffer) ∧
      (l.foldl (giveBack t active) b).registry = b.registry ∧
      (l.foldl (giveBack t active) b).tracked = b.tracked ∧
      (l.foldl (giveBack t active) b).purges = b.purges ∧
      (l.foldl (giveBack t active) b).expired = b.expired ∧
      (l.foldl (giveBack t active) b).store = b.store ∧
      (l.foldl (giveBack t active) b).dispatcher = b.dispatcher := by
  induction l generalizing b with
  | nil => simp
  | cons id l ih => simpa using ih (b.giveBack t active id)

theorem subscriber_giveBack (t : TrackerRef) (active : List SubscriberRef) (b : Broker)
    (id : SubscriberId) (u : SubscriberRef) :
    (b.giveBack t active id).subscriber u =
      if b.findById active id = some u then (b.subscriber u).release else b.subscriber u := by
  rw [giveBack_eq]
  cases b.findById active id with
  | none => simp [releaseInFlight]
  | some s => simp [releaseInFlight, release, subscriber_modifySubscriber, eq_comm]

theorem inFlight_giveBack (t : TrackerRef) (active : List SubscriberRef) (b : Broker)
    (id : SubscriberId) (v : TrackerRef) :
    ((b.giveBack t active id).tracker v).inFlight =
      if v = t then (b.tracker v).inFlight.lower else (b.tracker v).inFlight := by
  rw [giveBack_eq]
  split <;> simp [releaseInFlight, release, tracker_modifyTracker, apply_ite Tracker.inFlight]

theorem inFlight_foldl_giveBack (t : TrackerRef) (active : List SubscriberRef)
    (l : List SubscriberId) (b : Broker) (v : TrackerRef) :
    ((l.foldl (giveBack t active) b).tracker v).inFlight.toNat =
      (b.tracker v).inFlight.toNat - if v = t then l.length else 0 := by
  induction l generalizing b with
  | nil => simp
  | cons id l ih =>
      rw [List.foldl_cons, ih, inFlight_giveBack]
      split
      · rw [Tally.toNat_lower, List.length_cons]; omega
      · rfl

theorem unacked_foldl_giveBack (t : TrackerRef) (active : List SubscriberRef)
    {l : List SubscriberId} (hl : l.Nodup) (b : Broker) (u : SubscriberRef) :
    ((l.foldl (giveBack t active) b).subscriber u).unacked.toNat =
      (b.subscriber u).unacked.toNat -
        if b.findById active (b.subscriber u).id = some u ∧ (b.subscriber u).id ∈ l then 1 else 0 := by
  induction l generalizing b with
  | nil => simp
  | cons id l ih =>
      obtain ⟨hid, hl⟩ := List.nodup_cons.1 hl
      have hids : ∀ s, ((b.giveBack t active id).subscriber s).id = (b.subscriber s).id :=
        (Touches.giveBack ⟨0⟩ t active b id).subscriber_id
      have hfind : (b.giveBack t active id).findById active = b.findById active := by
        funext id
        simp only [findById, hids]
      rw [List.foldl_cons, ih hl, hids, hfind, subscriber_giveBack]
      by_cases hu : b.findById active id = some u
      · have he : (b.subscriber u).id = id := by simpa using List.find?_some hu
        rw [if_pos hu, he, if_neg fun h => hid h.2, if_pos ⟨hu, List.mem_cons_self⟩]
        exact Tally.toNat_lower _
      · have hmem : b.findById active (b.subscriber u).id = some u →
            ((b.subscriber u).id ∈ id :: l ↔ (b.subscriber u).id ∈ l) := fun h => by
          rw [List.mem_cons, or_iff_right]
          exact fun he => hu (he ▸ h)
        simp only [if_neg hu, and_congr_right hmem]

theorem message_withdraw (b : Broker) (t : TrackerRef) (m n : MessageRef) :
    (b.withdraw t m).message n =
      if n = m then (b.message n).withdrawOutstanding else b.message n := by
  rw [withdraw, (foldl_giveBack_frame _ _ _ _).2.1, message_modifyMessage]

@[simp] theorem withdraw_frame (b : Broker) (t : TrackerRef) (m : MessageRef) :
    (∀ p, (b.withdraw t m).slot p = b.slot p) ∧
      (∀ v, ((b.withdraw t m).tracker v).buffer = (b.tracker v).buffer) ∧
      (b.withdraw t m).registry = b.registry ∧ (b.withdraw t m).tracked = b.tracked ∧
      (b.withdraw t m).purges = b.purges ∧ (b.withdraw t m).expired = b.expired ∧
      (b.withdraw t m).store = b.store ∧ (b.withdraw t m).dispatcher = b.dispatcher := by
  simp [withdraw, foldl_giveBack_frame]

theorem inFlight_withdraw (b : Broker) (t v : TrackerRef) (m : MessageRef) :
    ((b.withdraw t m).tracker v).inFlight.toNat =
      (b.tracker v).inFlight.toNat - if v = t then (b.message m).outstanding.length else 0 :=
  inFlight_foldl_giveBack t _ _ _ v

theorem unacked_withdraw (b : Broker) (t : TrackerRef) (m : MessageRef)
    (hm : (b.message m).Tidy) (u : SubscriberRef) :
    ((b.withdraw t m).subscriber u).unacked.toNat =
      (b.subscriber u).unacked.toNat -
        if b.findById (b.active t) (b.subscriber u).id = some u ∧
          (b.subscriber u).id ∈ (b.message m).outstanding then 1 else 0 :=
  unacked_foldl_giveBack t _ (Message.outstanding_nodup hm) _ u

@[simp] theorem returnToBuffer_frame (t : TrackerRef) (b : Broker) (m : MessageRef) :
    (∀ p, (b.returnToBuffer t m).slot p = b.slot p) ∧
      (b.returnToBuffer t m).registry = b.registry ∧
      (b.returnToBuffer t m).tracked = b.tracked ∧ (b.returnToBuffer t m).purges = b.purges ∧
      (b.returnToBuffer t m).expired = b.expired ∧ (b.returnToBuffer t m).store = b.store ∧
      (b.returnToBuffer t m).dispatcher = b.dispatcher := by
  unfold returnToBuffer
  split <;> simp

theorem buffer_returnToBuffer (t : TrackerRef) (b : Broker) (m : MessageRef) (v : TrackerRef) :
    ((b.returnToBuffer t m).tracker v).buffer =
      if v = t ∧ (b.message m).buffered = false then (b.tracker v).buffer ++ [m]
      else (b.tracker v).buffer := by
  unfold returnToBuffer
  split <;> simp [tracker_rebuffer, message_withdraw, apply_ite Tracker.buffer]

theorem mem_buffer_returned {t v : TrackerRef} {l : List MessageRef} {b : Broker} {m : MessageRef}
    (hm : m ∈ ((l.foldl (returnToBuffer t) b).tracker v).buffer) :
    m ∈ (b.tracker v).buffer ∨ v = t ∧ m ∈ l := by
  induction l generalizing b with
  | nil => exact .inl hm
  | cons n l ih =>
      obtain hm | ⟨hv, hm⟩ := ih hm
      · rw [buffer_returnToBuffer] at hm
        split at hm
        · next hback =>
            obtain hm | hm := List.mem_append.1 hm
            · exact .inl hm
            · exact .inr ⟨hback.1, by simp [List.mem_singleton.1 hm]⟩
        · exact .inl hm
      · exact .inr ⟨hv, List.mem_cons_of_mem _ hm⟩

theorem buffered_returned (t : TrackerRef) (l : List MessageRef) (b : Broker) (m : MessageRef) :
    ((l.foldl (returnToBuffer t) b).message m).buffered =
      (decide (m ∈ l) || (b.message m).buffered) := by
  induction l generalizing b with
  | nil => rfl
  | cons n l ih =>
      have hn : ((b.returnToBuffer t n).message m).buffered =
          (decide (m = n) || (b.message m).buffered) := by
        unfold returnToBuffer
        split <;> by_cases h : m = n <;> simp [message_rebuffer, message_withdraw, h]
      rw [List.foldl_cons, ih, hn]
      by_cases h : m = n <;> simp [h]

@[simp] theorem message_returnToBuffer_progress (t : TrackerRef) (b : Broker) (m n : MessageRef) :
    ((b.returnToBuffer t m).message n).expired = (b.message n).expired ∧
      ((b.returnToBuffer t m).message n).settled = (b.message n).settled ∧
      ((b.returnToBuffer t m).message n).slot = (b.message n).slot := by
  unfold returnToBuffer
  split <;> by_cases h : n = m <;> simp [message_rebuffer, message_withdraw, h]

theorem message_accept (p : SlotRef) (t : TrackerRef) (b : Broker) (m n : MessageRef) :
    (b.accept p t m).message n =
      if n = m ∧ (b.message m).destination = (b.tracker t).key.destination then
        { b.message n with slot := some p, buffered := true }
      else b.message n := by
  unfold accept
  split
  · by_cases h : n = m <;>
      simp_all [attachSlot, buffer, append, setBuffered, message_modifyMessage]
  · next h => simp [h, lowerSlot]

theorem tracker_accept (p : SlotRef) (t : TrackerRef) (b : Broker) (m : MessageRef)
    (v : TrackerRef) :
    (b.accept p t m).tracker v =
      if v = t ∧ (b.message m).destination = (b.tracker t).key.destination then
        { b.tracker v with buffer := (b.tracker v).buffer ++ [m] }
      else b.tracker v := by
  unfold accept
  split
  · next h => simp [h, attachSlot, buffer, append, setBuffered, tracker_modifyTracker]
  · next h => simp [h, lowerSlot]

@[simp] theorem accept_frame (p : SlotRef) (t : TrackerRef) (b : Broker) (m : MessageRef) :
    (∀ s, (b.accept p t m).subscriber s = b.subscriber s) ∧
      (b.accept p t m).registry = b.registry ∧ (b.accept p t m).tracked = b.tracked ∧
      (b.accept p t m).purges = b.purges ∧ (b.accept p t m).expired = b.expired ∧
      (b.accept p t m).store = b.store ∧ (b.accept p t m).dispatcher = b.dispatcher := by
  unfold accept
  split <;> simp [attachSlot, buffer, append, setBuffered, lowerSlot]

@[simp] theorem releaseTracked_frame (b : Broker) (key : TrackedKey) :
    (∀ p, (b.releaseTracked key).slot p = b.slot p) ∧
      (∀ m, (b.releaseTracked key).message m = b.message m) ∧
      (∀ s, (b.releaseTracked key).subscriber s = b.subscriber s) ∧
      (∀ v, ((b.releaseTracked key).tracker v).buffer = (b.tracker v).buffer) ∧
      (b.releaseTracked key).registry = b.registry ∧
      (b.releaseTracked key).tracked = b.tracked ∧ (b.releaseTracked key).purges = b.purges ∧
      (b.releaseTracked key).expired = b.expired ∧ (b.releaseTracked key).store = b.store ∧
      (b.releaseTracked key).dispatcher = b.dispatcher := by
  unfold releaseTracked
  split <;> simp [releaseInFlight, tracker_modifyTracker, apply_ite Tracker.buffer]

@[simp] theorem acknowledge_frame (b : Broker) (s : SubscriberRef) (m : MessageRef)
    (type : DestinationType) :
    (∀ v, ((b.acknowledge s m type).tracker v).buffer = (b.tracker v).buffer) ∧
      (b.acknowledge s m type).registry = b.registry ∧
      (b.acknowledge s m type).tracked = b.tracked ∧
      (b.acknowledge s m type).purges = b.purges ∧
      (b.acknowledge s m type).expired = b.expired ∧
      (b.acknowledge s m type).store = b.store ∧
      (b.acknowledge s m type).dispatcher = b.dispatcher := by
  simp only [acknowledge]
  split <;> split <;> simp [setStatus, release]

theorem message_acknowledge (b : Broker) (s : SubscriberRef) (m n : MessageRef)
    {type : DestinationType} (ht : type ≠ .topic) :
    (b.acknowledge s m type).message n =
      if n = m then
        { (b.message n).setStatus (b.subscriber s).id .acknowledged with settled := true }
      else b.message n := by
  simp only [acknowledge, ht, if_false, message_settle]
  split <;> split <;> simp [setStatus, release, message_modifyMessage, *]

theorem subscriber_acknowledge (b : Broker) (s u : SubscriberRef) (m : MessageRef)
    (type : DestinationType) :
    (b.acknowledge s m type).subscriber u =
      if u = s ∧ ((b.message m).status? (b.subscriber s).id).any RecipientStatus.isOutstanding then
        (b.subscriber u).release
      else b.subscriber u := by
  simp only [acknowledge]
  split <;> split <;> simp [setStatus, release, subscriber_modifySubscriber, *]

theorem inFlight_releaseTracked (b : Broker) (key : TrackedKey) (v : TrackerRef) :
    ((b.releaseTracked key).tracker v).inFlight =
      if b.find? key = some v then (b.tracker v).inFlight.lower else (b.tracker v).inFlight := by
  unfold releaseTracked
  cases b.find? key with
  | none => simp
  | some t =>
      simp [releaseInFlight, tracker_modifyTracker, apply_ite Tracker.inFlight, eq_comm]

theorem inFlight_acknowledge (b : Broker) (s : SubscriberRef) (m : MessageRef)
    (type : DestinationType) (v : TrackerRef) :
    ((b.acknowledge s m type).tracker v).inFlight =
      if ((b.message m).status? (b.subscriber s).id).any RecipientStatus.isOutstanding ∧
          type ≠ .topic ∧ b.find? ⟨type, (b.message m).destination⟩ = some v then
        (b.tracker v).inFlight.lower
      else (b.tracker v).inFlight := by
  simp only [acknowledge]
  split <;> split <;>
    simp [setStatus, release, inFlight_releaseTracked, message_modifyMessage, find?,
      Message.setStatus, *]

theorem recipients_acknowledge (b : Broker) (s : SubscriberRef) (m n : MessageRef)
    (type : DestinationType) :
    ((b.acknowledge s m type).message n).recipients =
      if n = m then ((b.message n).setStatus (b.subscriber s).id .acknowledged).recipients
      else (b.message n).recipients := by
  simp only [acknowledge]
  split <;> split <;>
    simp [setStatus, release, message_modifyMessage, apply_ite Message.recipients]

end Broker

end Courier
