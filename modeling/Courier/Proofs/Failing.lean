import Courier.Proofs.Touch

namespace Courier

def FailurePolicy.status? : FailurePolicy → Option RecipientStatus
  | rebuffer => none
  | retry => some .failed
  | discard => some .discarded

namespace Broker

def claim (b : Broker) (s : SubscriberRef) (m : MessageRef) (t : TrackerRef)
    (policy : FailurePolicy) : Broker :=
  let b := (b.setStatus m (b.subscriber s).id .scheduled).reserve s
  if policy = .rebuffer then b.acquireInFlight t else b

theorem message_claim (b : Broker) (s : SubscriberRef) (m n : MessageRef) (t : TrackerRef)
    (policy : FailurePolicy) :
    (b.claim s m t policy).message n =
      if n = m then (b.message n).setStatus (b.subscriber s).id .scheduled else b.message n := by
  cases policy <;> simp [claim, setStatus, reserve, acquireInFlight, message_modifyMessage]

theorem subscriber_claim (b : Broker) (s u : SubscriberRef) (m : MessageRef) (t : TrackerRef)
    (policy : FailurePolicy) :
    (b.claim s m t policy).subscriber u =
      if u = s then (b.subscriber u).reserve else b.subscriber u := by
  cases policy <;> simp [claim, setStatus, reserve, acquireInFlight, subscriber_modifySubscriber]

theorem tracker_claim (b : Broker) (s : SubscriberRef) (m : MessageRef) (t v : TrackerRef)
    (policy : FailurePolicy) :
    (b.claim s m t policy).tracker v =
      if v = t ∧ policy = .rebuffer then
        { b.tracker v with inFlight := (b.tracker v).inFlight.raise 1 }
      else b.tracker v := by
  cases policy <;> simp [claim, setStatus, reserve, acquireInFlight, tracker_modifyTracker]

@[simp] theorem buffer_claim (b : Broker) (s : SubscriberRef) (m : MessageRef) (t v : TrackerRef)
    (policy : FailurePolicy) : ((b.claim s m t policy).tracker v).buffer = (b.tracker v).buffer := by
  rw [tracker_claim]
  split <;> rfl

@[simp] theorem claim_frame (b : Broker) (s : SubscriberRef) (m : MessageRef) (t : TrackerRef)
    (policy : FailurePolicy) :
    (∀ p, (b.claim s m t policy).slot p = b.slot p) ∧
      (b.claim s m t policy).registry = b.registry ∧
      (b.claim s m t policy).tracked = b.tracked ∧ (b.claim s m t policy).expired = b.expired ∧
      (b.claim s m t policy).dispatcher = b.dispatcher := by
  cases policy <;> simp [claim, setStatus, reserve, acquireInFlight]

theorem Touches.claim (b : Broker) (s : SubscriberRef) (m : MessageRef) (t : TrackerRef)
    (policy : FailurePolicy) : Touches m b (b.claim s m t policy) := by
  have h := (Touches.setStatus b m (b.subscriber s).id .scheduled).trans (Touches.reserve m _ s)
  simp only [Broker.claim]
  split
  · exact h.trans (Touches.acquireInFlight m _ t)
  · exact h

theorem status?_claim_of_ne (b : Broker) (s : SubscriberRef) (m n : MessageRef) (t : TrackerRef)
    (policy : FailurePolicy) {id : SubscriberId} (h : ¬ (n = m ∧ id = (b.subscriber s).id)) :
    ((b.claim s m t policy).message n).status? id = (b.message n).status? id := by
  rw [message_claim]
  split
  · next hn => rw [Message.status?_setStatus, if_neg fun he => h ⟨hn, he⟩]
  · rfl

def recorded (b : Broker) (j : Job) : Bool :=
  ((b.message j.message).status? (b.subscriber j.subscriber).id).isSome

theorem status?_fail (b : Broker) (j : Job) (s : SubscriberId) :
    ((b.fail j).message j.message).status? s =
      if s = (b.subscriber j.subscriber).id then j.policy.status?
      else (b.message j.message).status? s := by
  unfold fail
  cases j.policy with
  | rebuffer =>
      by_cases h : b.recorded j = true <;> rw [recorded, Message.status?] at h <;>
        simp [h, release, releaseInFlight, message_modifyMessage, Message.status?, Message.forget,
          Dict.get?_erase, FailurePolicy.status?]
  | retry | discard =>
      simp [setStatus, release, message_modifyMessage, Message.status?, Message.setStatus,
        Dict.get?_insert, FailurePolicy.status?]

theorem status?_fail_of_ne (b : Broker) (j : Job) {n : MessageRef} {id : SubscriberId}
    (h : ¬ (n = j.message ∧ id = (b.subscriber j.subscriber).id)) :
    ((b.fail j).message n).status? id = (b.message n).status? id := by
  by_cases hn : n = j.message
  · subst hn
    rw [status?_fail, if_neg fun he => h ⟨rfl, he⟩]
  · rw [(Touches.fail b j).others n hn]

theorem message_fail_rebuffer (b : Broker) (j : Job) (h : j.policy = .rebuffer) (n : MessageRef) :
    (b.fail j).message n =
      if n = j.message then
        { (b.message n).forget (b.subscriber j.subscriber).id with buffered := true }
      else b.message n := by
  simp only [fail, h, message_rebuffer]
  split <;> split <;> simp [release, releaseInFlight, message_modifyMessage, *]

theorem subscriber_fail (b : Broker) (j : Job) (u : SubscriberRef) :
    (b.fail j).subscriber u =
      if u = j.subscriber ∧ (j.policy = .rebuffer → b.recorded j = true) then
        (b.subscriber u).release
      else b.subscriber u := by
  unfold fail
  cases j.policy with
  | rebuffer =>
      simp only [rebuffer_frame, recorded]
      split <;> simp_all [release, releaseInFlight, subscriber_modifySubscriber]
  | retry | discard => simp [setStatus, release, subscriber_modifySubscriber]

theorem inFlight_fail (b : Broker) (j : Job) (v : TrackerRef) :
    ((b.fail j).tracker v).inFlight =
      if v = j.tracker ∧ j.policy = .rebuffer ∧ b.recorded j = true then
        (b.tracker v).inFlight.lower
      else (b.tracker v).inFlight := by
  unfold fail
  cases j.policy with
  | rebuffer =>
      simp only [inFlight_rebuffer, recorded]
      split <;> simp_all [release, releaseInFlight, tracker_modifyTracker, apply_ite Tracker.inFlight]
  | retry => simp [inFlight_rebuffer, setStatus, release]
  | discard => simp [setStatus, release]

theorem buffer_fail (b : Broker) (j : Job) (v : TrackerRef) :
    ((b.fail j).tracker v).buffer =
      if v = j.tracker ∧ j.policy ≠ .discard ∧ (b.message j.message).buffered = false then
        (b.tracker v).buffer ++ [j.message]
      else (b.tracker v).buffer := by
  unfold fail
  cases j.policy with
  | rebuffer =>
      simp only [tracker_rebuffer]
      split <;> simp [release, releaseInFlight, tracker_modifyTracker, message_modifyMessage,
        Message.forget, apply_ite Tracker.buffer]
  | retry =>
      simp [tracker_rebuffer, setStatus, release, message_modifyMessage, Message.setStatus,
        apply_ite Tracker.buffer]
  | discard => simp [setStatus, release]

@[simp] theorem fail_frame (b : Broker) (j : Job) :
    (b.fail j).registry = b.registry ∧ (b.fail j).tracked = b.tracked ∧
      (b.fail j).purges = b.purges ∧ (b.fail j).expired = b.expired ∧
      (b.fail j).store = b.store ∧ (b.fail j).dispatcher = b.dispatcher := by
  unfold fail
  cases j.policy with
  | rebuffer =>
      dsimp only
      split <;> simp [release, releaseInFlight]
  | retry | discard => simp [release, setStatus]

@[simp] theorem markDelivered_frame (b : Broker) (m : MessageRef) (id : SubscriberId) :
    (∀ p, (b.markDelivered m id).slot p = b.slot p) ∧
      (∀ s, (b.markDelivered m id).subscriber s = b.subscriber s) ∧
      (∀ t, (b.markDelivered m id).tracker t = b.tracker t) ∧
      (b.markDelivered m id).registry = b.registry ∧
      (b.markDelivered m id).tracked = b.tracked ∧ (b.markDelivered m id).purges = b.purges ∧
      (b.markDelivered m id).expired = b.expired ∧ (b.markDelivered m id).store = b.store ∧
      (b.markDelivered m id).dispatcher = b.dispatcher := by
  unfold markDelivered
  split <;> simp [setStatus]

theorem message_markDelivered (b : Broker) (m n : MessageRef) (id : SubscriberId) :
    (b.markDelivered m id).message n =
      if n = m ∧ (b.message m).status? id = some .scheduled then
        (b.message n).setStatus id .delivered
      else b.message n := by
  unfold markDelivered
  split
  · next h => simp [setStatus, message_modifyMessage, h]
  · next h => simp [h]

def written (b : Broker) (s : SubscriberRef) (m : MessageRef) : Broker := (b.send s m).2

@[simp] theorem written_frame (b : Broker) (s : SubscriberRef) (m : MessageRef) :
    (∀ p, (b.written s m).slot p = b.slot p) ∧ (∀ n, (b.written s m).message n = b.message n) ∧
      (∀ t, (b.written s m).tracker t = b.tracker t) ∧
      (b.written s m).registry = b.registry ∧ (b.written s m).tracked = b.tracked ∧
      (b.written s m).purges = b.purges ∧ (b.written s m).expired = b.expired ∧
      (b.written s m).store = b.store ∧ (b.written s m).dispatcher = b.dispatcher := by
  simp [written, send]

theorem subscriber_written (b : Broker) (s : SubscriberRef) (m : MessageRef) (u : SubscriberRef) :
    ∃ outbound, (b.written s m).subscriber u = { b.subscriber u with outbound } := by
  simp only [written, send, subscriber_modifySubscriber]
  split
  · exact ⟨_, rfl⟩
  · exact ⟨(b.subscriber u).outbound, rfl⟩

theorem execute_eq (b : Broker) (j : Job) :
    b.execute j =
      if (b.send j.subscriber j.message).1 = .sent then
        (b.written j.subscriber j.message).markDelivered j.message (b.subscriber j.subscriber).id
      else (b.written j.subscriber j.message).fail j := by
  have hid := (Touches.send j.message b j.subscriber j.message).subscriber_id j.subscriber
  unfold execute written
  obtain ⟨result, c, hc⟩ : ∃ o c, b.send j.subscriber j.message = (o, c) := ⟨_, _, rfl⟩
  rw [hc] at hid ⊢
  cases result <;> simp [hid]

@[simp] theorem execute_frame (b : Broker) (j : Job) :
    (b.execute j).registry = b.registry ∧ (b.execute j).tracked = b.tracked ∧
      (b.execute j).purges = b.purges ∧ (b.execute j).expired = b.expired ∧
      (b.execute j).store = b.store ∧ (b.execute j).dispatcher = b.dispatcher := by
  rw [execute_eq]
  split <;> simp

end Broker

end Courier
