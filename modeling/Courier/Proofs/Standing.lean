import Courier.Lists
import Courier.Proofs.Distinct

namespace Courier

open Broker

structure Attempt where
  subscriber : SubscriberId
  tracker : TrackerRef
  policy : FailurePolicy

@[ext] structure Standing where
  message : Message
  /-- How many places it takes in each tracker's buffer. -/
  places : TrackerRef → Nat
  /-- It waits to be deleted from the store. -/
  pending : Prop
  attempts : List Attempt
  accepted : Prop
  dropped : Prop
  sent : SubscriberId → Prop

namespace Standing

def setStatus (st : Standing) (id : SubscriberId) (status : RecipientStatus) : Standing :=
  { st with message := st.message.setStatus id status }

def settle (st : Standing) : Standing := { st with message := { st.message with settled := true } }

def settleIfComplete (st : Standing) : Standing := if st.message.isComplete then st.settle else st

def markPurged (st : Standing) : Standing :=
  { st with message := { st.message with purged := true } }

def expire (st : Standing) : Standing :=
  { st with message := { st.message with expired := true }, pending := True }

def buffer (st : Standing) (t : TrackerRef) : Standing :=
  { st with
    message := { st.message with buffered := true }
    places := fun v => if v = t then st.places v + 1 else st.places v }

def rebuffer (st : Standing) (t : TrackerRef) : Standing :=
  if st.message.buffered then st else st.buffer t

def unbuffer (st : Standing) (t : TrackerRef) : Standing :=
  if 0 < st.places t then
    { st with
      message := { st.message with buffered := false }
      places := fun v => if v = t then st.places v - 1 else st.places v }
  else st

def drain (st : Standing) (t : TrackerRef) : Standing :=
  if 0 < st.places t then
    { st with
      message := { st.message with buffered := false }
      places := fun v => if v = t then 0 else st.places v }
  else st

def withdraw (st : Standing) : Standing := { st with message := st.message.withdrawOutstanding }

def deliver (st : Standing) (id : SubscriberId) : Standing :=
  if st.message.status? id = some .scheduled then st.setStatus id .delivered else st

def fail (st : Standing) (a : Attempt) : Standing :=
  match a.policy with
  | .rebuffer => ({ st with message := st.message.forget a.subscriber } : Standing).rebuffer a.tracker
  | .retry => (st.setStatus a.subscriber .failed).rebuffer a.tracker
  | .discard => (st.setStatus a.subscriber .discarded).settleIfComplete

def submit (st : Standing) (a : Attempt) : Standing :=
  { st.setStatus a.subscriber .scheduled with attempts := st.attempts ++ [a] }

@[simp] theorem rebuffer_frame (st : Standing) (t : TrackerRef) :
    (st.rebuffer t).message.recipients = st.message.recipients ∧
      (st.rebuffer t).message.expired = st.message.expired ∧
      (st.rebuffer t).message.purged = st.message.purged ∧
      (st.rebuffer t).message.settled = st.message.settled ∧
      (st.rebuffer t).pending = st.pending ∧ (st.rebuffer t).attempts = st.attempts ∧
      (st.rebuffer t).accepted = st.accepted ∧ (st.rebuffer t).dropped = st.dropped ∧
      (st.rebuffer t).sent = st.sent := by
  unfold rebuffer
  split <;> simp [buffer]

@[simp] theorem unbuffer_frame (st : Standing) (t : TrackerRef) :
    (st.unbuffer t).message.recipients = st.message.recipients ∧
      (st.unbuffer t).message.expired = st.message.expired ∧
      (st.unbuffer t).message.purged = st.message.purged ∧
      (st.unbuffer t).message.settled = st.message.settled ∧
      (st.unbuffer t).pending = st.pending ∧ (st.unbuffer t).attempts = st.attempts ∧
      (st.unbuffer t).accepted = st.accepted ∧ (st.unbuffer t).dropped = st.dropped ∧
      (st.unbuffer t).sent = st.sent := by
  unfold unbuffer
  split <;> simp

@[simp] theorem drain_frame (st : Standing) (t : TrackerRef) :
    (st.drain t).message.recipients = st.message.recipients ∧
      (st.drain t).message.expired = st.message.expired ∧
      (st.drain t).message.purged = st.message.purged ∧
      (st.drain t).message.settled = st.message.settled ∧
      (st.drain t).pending = st.pending ∧ (st.drain t).attempts = st.attempts ∧
      (st.drain t).accepted = st.accepted ∧ (st.drain t).dropped = st.dropped ∧
      (st.drain t).sent = st.sent := by
  unfold drain
  split <;> simp

end Standing

namespace Broker

variable {b b' : Broker} {h h' : Journal} {m n : MessageRef} {t : TrackerRef}

def attempt (b : Broker) (j : Job) : Attempt :=
  ⟨(b.subscriber j.subscriber).id, j.tracker, j.policy⟩

def attempts (b : Broker) (m : MessageRef) : List Attempt :=
  (b.dispatcher.jobs.filter fun j => j.message = m).map b.attempt

def standing (b : Broker) (h : Journal) (m : MessageRef) : Standing where
  message := b.message m
  places t := (b.tracker t).buffer.count m
  pending := m ∈ b.expired
  attempts := b.attempts m
  accepted := m ∈ h.accepted
  dropped := m ∈ h.dropped
  sent id := (m, id) ∈ h.sent

theorem attempts_congr
    (hj : b'.dispatcher.jobs.filter (fun j => j.message = m) =
      b.dispatcher.jobs.filter fun j => j.message = m)
    (hid : ∀ j ∈ b.dispatcher.jobs, (b'.subscriber j.subscriber).id = (b.subscriber j.subscriber).id) :
    b'.attempts m = b.attempts m := by
  rw [attempts, attempts, hj]
  refine List.map_congr_left fun j hj => ?_
  rw [attempt, attempt, hid j (List.mem_filter.1 hj).1]

theorem standing_congr (hm : b'.message m = b.message m)
    (hb : ∀ t, (b'.tracker t).buffer.count m = (b.tracker t).buffer.count m)
    (he : m ∈ b'.expired ↔ m ∈ b.expired) (hj : b'.attempts m = b.attempts m) :
    b'.standing h m = b.standing h m := by
  simp only [standing, hm, hb, he, hj]

theorem standing_of_frame (hm : b'.message m = b.message m)
    (hb : ∀ t, (b'.tracker t).buffer = (b.tracker t).buffer) (he : b'.expired = b.expired)
    (hj : b'.dispatcher.jobs = b.dispatcher.jobs)
    (hid : ∀ s, (b'.subscriber s).id = (b.subscriber s).id) :
    b'.standing h m = b.standing h m :=
  standing_congr hm (fun t => by rw [hb]) (by rw [he])
    (attempts_congr (by rw [hj]) fun j _ => hid j.subscriber)

/-- Work on one message leaves the standing of every other as it was. -/
theorem Touches.standing (ht : Touches m b b') (ha : b.Apart m) (hn : n ≠ m) :
    b'.standing h n = b.standing h n := by
  refine standing_congr (ht.others n hn) (fun t => ?_) ?_ (attempts_congr ?_ fun j _ => ?_)
  · by_cases hmem : n ∈ (b.tracker t).buffer
    · exact ht.count t n fun hid => hn (ha t n hmem hid)
    · have hgone : n ∉ (b'.tracker t).buffer := fun hb => (ht.gains t n hb).elim hmem hn
      rw [List.count_eq_zero.2 hmem, List.count_eq_zero.2 hgone]
  · exact ⟨fun he => (ht.expired n he).resolve_right hn, ht.pending n⟩
  · have hj := congrArg (List.filter fun j => j.message = n) ht.jobs
    have hne : ∀ l : List Job, (l.filter fun j => j.message ≠ m).filter (fun j => j.message = n) =
        l.filter fun j => j.message = n := fun l => by
      rw [List.filter_filter]
      refine List.filter_congr fun j _ => ?_
      by_cases he : j.message = n <;> simp [he, hn]
    simpa only [hne] using hj
  · exact ht.subscriber_id j.subscriber

theorem standing_modifyMessage (b : Broker) (h : Journal) (m : MessageRef) (f : Message → Message) :
    (b.modifyMessage m f).standing h m = { b.standing h m with message := f (b.message m) } := by
  simp only [standing, message_modifyMessage, if_true]
  rfl

theorem standing_modifySlot (b : Broker) (h : Journal) (m : MessageRef) (p : SlotRef)
    (f : Slot → Slot) : (b.modifySlot p f).standing h m = b.standing h m :=
  rfl

theorem standing_release (b : Broker) (h : Journal) (m : MessageRef) (s : SubscriberRef) :
    (b.release s).standing h m = b.standing h m :=
  standing_of_frame rfl (fun _ => rfl) rfl rfl
    (Touches.modifySubscriber m b s Subscription.release fun _ => rfl).subscriber_id

theorem standing_releaseInFlight (b : Broker) (h : Journal) (m : MessageRef) (t : TrackerRef) :
    (b.releaseInFlight t).standing h m = b.standing h m := by
  refine standing_of_frame rfl (fun v => ?_) rfl rfl fun _ => rfl
  rw [releaseInFlight, tracker_modifyTracker]
  split <;> rfl

theorem standing_setStatus (b : Broker) (h : Journal) (m : MessageRef) (id : SubscriberId)
    (status : RecipientStatus) :
    (b.setStatus m id status).standing h m = (b.standing h m).setStatus id status :=
  standing_modifyMessage b h m _

theorem standing_settle (b : Broker) (h : Journal) (m : MessageRef) :
    (b.settle m).standing h m = (b.standing h m).settle := by
  have hsub := (Touches.settle b m).subscriber_id
  have hj : (b.settle m).attempts m = b.attempts m := attempts_congr (by simp) fun j _ => hsub _
  simp [standing, Standing.settle, hj, message_settle]

theorem standing_settleIfComplete (b : Broker) (h : Journal) (m : MessageRef) :
    (b.settleIfComplete m).standing h m = (b.standing h m).settleIfComplete := by
  simp only [settleIfComplete, apply_ite fun c : Broker => c.standing h m, standing_settle]
  rfl

theorem standing_buffer (b : Broker) (h : Journal) (m : MessageRef) (t : TrackerRef) :
    (b.buffer t m).standing h m = (b.standing h m).buffer t := by
  have hp : ∀ v, ((b.buffer t m).tracker v).buffer.count m =
      if v = t then (b.tracker v).buffer.count m + 1 else (b.tracker v).buffer.count m := fun v => by
    simp only [buffer, append, tracker_modifyTracker, setBuffered, modifyMessage_frame]
    split <;> simp
  have hmsg : (b.buffer t m).message m = { b.message m with buffered := true } := by
    simp [buffer, append, setBuffered, message_modifyMessage]
  simp only [standing, Standing.buffer, hp, hmsg]
  rfl

theorem standing_rebuffer (b : Broker) (h : Journal) (m : MessageRef) (t : TrackerRef) :
    (b.rebuffer t m).standing h m = (b.standing h m).rebuffer t := by
  simp only [rebuffer, apply_ite fun c : Broker => c.standing h m, standing_buffer]
  rfl

theorem Apart.isBufferedIn_iff (ha : b.Apart m) :
    b.isBufferedIn t m = true ↔ 0 < (b.standing h m).places t := by
  rw [Broker.isBufferedIn_iff]
  refine ⟨fun ⟨n, hn, hid⟩ => ?_, fun hc => ⟨m, List.count_pos_iff.1 hc, rfl⟩⟩
  exact List.count_pos_iff.2 (ha t n hn hid ▸ hn)

/-- Leaving a buffer goes by the id, and no other message has it. -/
theorem standing_unbuffer (ha : b.Apart m) (h : Journal) (t : TrackerRef) :
    (b.unbuffer t m).standing h m = (b.standing h m).unbuffer t := by
  have hiff := ha.isBufferedIn_iff (h := h) (t := t)
  have herase : (b.tracker t).buffer.eraseP (b.sameId m) = (b.tracker t).buffer.erase m := by
    refine eraseP_eq_erase fun n hn => ?_
    rw [sameId, decide_eq_true_eq]
    exact ⟨ha t n hn, fun he => he ▸ rfl⟩
  have hp : ∀ v, ((b.unbuffer t m).tracker v).buffer.count m =
      if v = t then (b.tracker v).buffer.count m - 1 else (b.tracker v).buffer.count m := fun v => by
    rw [tracker_unbuffer]
    split
    · next hv => subst hv; simp [herase]
    · rfl
  have hj : (b.unbuffer t m).attempts m = b.attempts m := attempts_congr (by simp) fun j _ => by simp
  unfold Standing.unbuffer
  split
  · next hc => simp only [standing, hp, hj, message_unbuffer, hiff.2 hc, and_self, if_true]; simp
  · next hc =>
      have hb : b.unbuffer t m = b := by
        rw [unbuffer, if_neg fun hb => hc (hiff.1 hb)]
      rw [hb]

theorem standing_fail (b : Broker) (h : Journal) (j : Job) :
    (b.fail j).standing h j.message = (b.standing h j.message).fail (b.attempt j) := by
  unfold fail Standing.fail
  cases hp : j.policy with
  | rebuffer =>
      simp only [attempt, hp, standing_rebuffer]
      split <;> simp only [standing_release, standing_releaseInFlight, standing_modifyMessage] <;> rfl
  | retry => simp only [attempt, hp, standing_rebuffer, standing_setStatus, standing_release]
  | discard =>
      simp only [attempt, hp, standing_settleIfComplete, standing_setStatus, standing_release]

theorem standing_claim (b : Broker) (h : Journal) (s : SubscriberRef) (m : MessageRef)
    (t : TrackerRef) (policy : FailurePolicy) :
    (b.claim s m t policy).standing h m =
      (b.standing h m).setStatus (b.subscriber s).id .scheduled := by
  have hid := (Touches.claim b s m t policy).subscriber_id
  have hj : (b.claim s m t policy).attempts m = b.attempts m :=
    attempts_congr (by simp) fun j _ => hid j.subscriber
  simp [standing, Standing.setStatus, message_claim, hj]

theorem standing_withdraw (b : Broker) (h : Journal) (t : TrackerRef) (m : MessageRef) :
    (b.withdraw t m).standing h m = (b.standing h m).withdraw := by
  have hid := (Touches.withdraw b t m).subscriber_id
  have hj : (b.withdraw t m).attempts m = b.attempts m :=
    attempts_congr (by simp) fun j _ => hid j.subscriber
  simp [standing, Standing.withdraw, message_withdraw, hj]

theorem standing_returnToBuffer (b : Broker) (h : Journal) (t : TrackerRef) (m : MessageRef) :
    (b.returnToBuffer t m).standing h m =
      (if (b.tracker t).isTopic then b.standing h m else (b.standing h m).withdraw).rebuffer t := by
  rw [returnToBuffer, standing_rebuffer]
  split
  · rfl
  · rw [standing_withdraw]

theorem standing_acknowledge (b : Broker) (h : Journal) (s : SubscriberRef) (m : MessageRef)
    (type : DestinationType) :
    (b.acknowledge s m type).standing h m =
      if type = .topic then
        ((b.standing h m).setStatus (b.subscriber s).id .acknowledged).settleIfComplete
      else ((b.standing h m).setStatus (b.subscriber s).id .acknowledged).settle := by
  have hrelease : ∀ o : Bool, ((if o = true then b.release s else b).setStatus m (b.subscriber s).id
      .acknowledged).standing h m = (b.standing h m).setStatus (b.subscriber s).id .acknowledged := by
    intro o
    simp only [standing_setStatus, apply_ite fun c : Broker => c.standing h m, standing_release,
      ite_self]
  have htracked : ∀ (c : Broker) (key : TrackedKey),
      (c.releaseTracked key).standing h m = c.standing h m := fun c key => by
    unfold releaseTracked
    split
    · exact standing_releaseInFlight _ _ _ _
    · rfl
  simp only [acknowledge]
  split
  · rw [standing_settleIfComplete, hrelease]
  · simp only [standing_settle, apply_ite fun c : Broker => c.standing h m, htracked, hrelease,
      ite_self]

theorem standing_accept (b : Broker) (h : Journal) (p : SlotRef) (t : TrackerRef) (m : MessageRef) :
    (b.accept p t m).standing h m =
      if (b.message m).destination = (b.tracker t).key.destination then
        Standing.buffer
          { b.standing h m with message := { b.message m with slot := some p } } t
      else b.standing h m := by
  unfold accept
  split
  · rw [standing_buffer, attachSlot, standing_modifyMessage]
  · exact standing_modifySlot b h m p _

end Broker

end Courier
