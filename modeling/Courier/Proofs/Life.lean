import Courier.Proofs.Standing

namespace Courier

inductive Event where
  | made
  | accepted (t : TrackerRef)
  /-- Put back from outside, with the attempt before it withdrawn except on a topic. -/
  | returned (t : TrackerRef) (topic : Bool)
  | acknowledged (id : SubscriberId) (type : DestinationType)
  | written (a : Attempt)
  | failed (a : Attempt)
  /-- Taken from a queue's buffer for one subscriber. -/
  | offered (t : TrackerRef) (id : SubscriberId) (outcome : FilterOutcome)
  /-- One recipient's share of a topic's broadcast. -/
  | spread (t : TrackerRef) (id : SubscriberId) (policy : FailurePolicy) (outcome : FilterOutcome)
  /-- A copy given up for want of room. -/
  | overrun (t : TrackerRef) (id : SubscriberId)
  /-- Taken from a topic's buffer once these subscribers all hold it or have given it up. -/
  | retired (t : TrackerRef) (ids : List SubscriberId)
  | evicted (t : TrackerRef)
  | cleared (t : TrackerRef)
  | purged (t : TrackerRef)
  | deleted
  /-- The store panicked over the batch that it was deleted with. -/
  | lost

namespace Standing

variable {st st' : Standing}

inductive Handled (a : Attempt) (st : Standing) : FilterOutcome → Standing → Prop
  | purged : Handled a st .purged st.markPurged.settle
  | marked (marked : st.message.expired = true) : Handled a st .expired st
  | expired : Handled a st .expired st.expire
  | vetoed : Handled a st .vetoed st
  | alreadyInFlight (held : st.message.awaits a.subscriber = false) :
      Handled a st .alreadyInFlight st
  | dispatched (lacks : st.message.awaits a.subscriber = true) : Handled a st .dispatched (st.submit a)
  | failed (lacks : st.message.awaits a.subscriber = true) :
      Handled a st .failed ((st.setStatus a.subscriber .scheduled).fail a)

def afterOffer (st : Standing) (t : TrackerRef) : FilterOutcome → Standing
  | .vetoed => st.settle
  | .alreadyInFlight => st.rebuffer t
  | _ => st

def afterSpread (st : Standing) (t : TrackerRef) (id : SubscriberId) : FilterOutcome → Standing
  | .purged | .expired => st.unbuffer t
  | .vetoed => st.setStatus id .discarded
  | _ => st

inductive Step : Standing → Event → Standing → Prop
  | made {st : Standing} {x : Message} (before : st.message.made = st.message) (new : x.made = x) :
      Step st .made { st with message := x }
  | accepted (st : Standing) (p : SlotRef) (t : TrackerRef) :
      Step st (.accepted t)
        ({ st with message := { st.message with slot := some p }, accepted := True } |>.buffer t)
  | returned (st : Standing) (t : TrackerRef) (topic : Bool) :
      Step st (.returned t topic) ((if topic then st else st.withdraw).rebuffer t)
  | acknowledged (st : Standing) (id : SubscriberId) (type : DestinationType) :
      Step st (.acknowledged id type)
        (if type = .topic then (st.setStatus id .acknowledged).settleIfComplete
          else (st.setStatus id .acknowledged).settle)
  | written {st : Standing} {a : Attempt} {rest : List Attempt}
      (taken : (a :: rest).Perm st.attempts) :
      Step st (.written a) ({ st with
        attempts := rest, sent := fun id => st.sent id ∨ id = a.subscriber } |>.deliver a.subscriber)
  | failed {st : Standing} {a : Attempt} {rest : List Attempt}
      (taken : (a :: rest).Perm st.attempts) :
      Step st (.failed a) ({ st with attempts := rest } |>.fail a)
  | offered {st st' : Standing} {t : TrackerRef} {id : SubscriberId} {outcome : FilterOutcome}
      (buffered : 0 < st.places t)
      (handled : Handled ⟨id, t, .rebuffer⟩ (st.unbuffer t) outcome st') :
      Step st (.offered t id outcome) (st'.afterOffer t outcome)
  | spread {st st' : Standing} {t : TrackerRef} {id : SubscriberId} {policy : FailurePolicy}
      {outcome : FilterOutcome} (buffered : 0 < st.places t)
      (handled : Handled ⟨id, t, policy⟩ st outcome st') (lacks : st.message.awaits id = true) :
      Step st (.spread t id policy outcome) (st'.afterSpread t id outcome)
  | overrun {st : Standing} {t : TrackerRef} {id : SubscriberId} (buffered : 0 < st.places t)
      (lacks : st.message.awaits id = true) : Step st (.overrun t id) (st.setStatus id .discarded)
  | retired {st : Standing} {t : TrackerRef} {ids : List SubscriberId} (heard : ids ≠ [])
      (handedOff : st.message.isHandedOffTo ids = true) (buffered : 0 < st.places t) :
      Step st (.retired t ids) (st.unbuffer t).settleIfComplete
  | evicted {st : Standing} {t : TrackerRef} (buffered : 0 < st.places t) :
      Step st (.evicted t) (st.drain t).settle
  | cleared {st : Standing} {t : TrackerRef} (buffered : 0 < st.places t) :
      Step st (.cleared t) { st.drain t with dropped := True }
  | purged {st : Standing} {t : TrackerRef} (buffered : 0 < st.places t) :
      Step st (.purged t) (st.drain t).markPurged.settle
  | deleted {st : Standing} (pending : st.pending) :
      Step st .deleted { st.settle with pending := False }
  | lost {st : Standing} (pending : st.pending) : Step st .lost { st with pending := False }

structure Faithful (st : Standing) : Prop where
  tidy : st.message.Tidy
  flagged : st.message.buffered = true → ∃ t, 0 < st.places t

section

variable {id : SubscriberId} {t : TrackerRef} {a : Attempt} {outcome : FilterOutcome} {e : Event}

@[simp] theorem message_rebuffer (st : Standing) (t : TrackerRef) :
    (st.rebuffer t).message = { st.message with buffered := true } := by
  unfold rebuffer
  split
  · next hb => rw [← hb]
  · rfl

theorem buffered_unbuffer (hp : 0 < st.places t) : (st.unbuffer t).message.buffered = false := by
  rw [unbuffer, if_pos hp]

theorem le_places_rebuffer {n : Nat} {v : TrackerRef} (hn : n ≤ st.places v) (t : TrackerRef) :
    n ≤ (st.rebuffer t).places v := by
  unfold rebuffer
  split
  · exact hn
  · simp only [buffer]
    split
    · exact Nat.le_succ_of_le hn
    · exact hn

theorem Handled.places_le (hh : Handled a st outcome st') (v : TrackerRef) :
    st.places v ≤ st'.places v := by
  cases hh with
  | purged | marked | expired | vetoed | alreadyInFlight | dispatched => exact Nat.le_refl _
  | failed =>
      unfold fail
      split
      · refine le_places_rebuffer ?_ a.tracker
        exact Nat.le_refl _
      · refine le_places_rebuffer ?_ a.tracker
        exact Nat.le_refl _
      · unfold settleIfComplete
        split <;> exact Nat.le_refl _

namespace Faithful

theorem of_message (hf : st.Faithful) {x : Message} (ht : x.Tidy)
    (hb : x.buffered = st.message.buffered) : Faithful { st with message := x } :=
  ⟨ht, fun h => hf.flagged (hb ▸ h)⟩

theorem setStatus (hf : st.Faithful) (id : SubscriberId) (status : RecipientStatus) :
    (st.setStatus id status).Faithful :=
  hf.of_message (hf.tidy.setStatus id status) rfl

theorem settleIfComplete (hf : st.Faithful) : st.settleIfComplete.Faithful := by
  unfold Standing.settleIfComplete
  split
  · exact hf.of_message hf.tidy rfl
  · exact hf

theorem unbuffer (hf : st.Faithful) : (st.unbuffer t).Faithful := by
  unfold Standing.unbuffer
  split
  · exact ⟨hf.tidy, fun h => absurd h Bool.false_ne_true⟩
  · exact hf

theorem drain (hf : st.Faithful) : (st.drain t).Faithful := by
  unfold Standing.drain
  split
  · exact ⟨hf.tidy, fun h => absurd h Bool.false_ne_true⟩
  · exact hf

theorem places_rebuffer (hf : st.Faithful) (t : TrackerRef) : ∃ v, 0 < (st.rebuffer t).places v := by
  unfold Standing.rebuffer
  split
  · next hb => exact hf.flagged hb
  · exact ⟨t, by simp [Standing.buffer]⟩

theorem rebuffer (hf : st.Faithful) (t : TrackerRef) : (st.rebuffer t).Faithful := by
  refine ⟨?_, fun _ => hf.places_rebuffer t⟩
  rw [message_rebuffer]
  exact hf.tidy

theorem fail (hf : st.Faithful) (a : Attempt) : (st.fail a).Faithful := by
  unfold Standing.fail
  split
  · exact (hf.of_message (hf.tidy.forget a.subscriber) rfl).rebuffer a.tracker
  · exact (hf.setStatus a.subscriber .failed).rebuffer a.tracker
  · exact (hf.setStatus a.subscriber .discarded).settleIfComplete

theorem withdraw (hf : st.Faithful) : st.withdraw.Faithful :=
  hf.of_message ((Message.foldl_forget st.message.outstanding st.message).2 hf.tidy) (by simp)

theorem handled (hf : st.Faithful) (hh : Handled a st outcome st') : st'.Faithful := by
  cases hh with
  | purged | expired => exact ⟨hf.tidy, hf.flagged⟩
  | marked | vetoed | alreadyInFlight => exact hf
  | dispatched =>
      have hset := hf.setStatus a.subscriber .scheduled
      exact ⟨hset.tidy, hset.flagged⟩
  | failed => exact (hf.setStatus a.subscriber .scheduled).fail a

theorem step (hf : st.Faithful) (hs : Step st e st') : st'.Faithful := by
  cases hs with
  | made before new =>
      rw [← new]
      exact ⟨List.nodup_nil, fun h => absurd h Bool.false_ne_true⟩
  | accepted p t => exact ⟨hf.tidy, fun _ => ⟨t, by simp [buffer]⟩⟩
  | returned t topic =>
      refine rebuffer ?_ t
      split
      · exact hf
      · exact hf.withdraw
  | acknowledged id type =>
      have hset := hf.setStatus id .acknowledged
      split
      · exact hset.settleIfComplete
      · exact hset.of_message hset.tidy rfl
  | @written a rest =>
      have hrest : Faithful { st with
          attempts := rest, sent := fun id => st.sent id ∨ id = a.subscriber } := ⟨hf.tidy, hf.flagged⟩
      unfold deliver
      split
      · exact hrest.setStatus a.subscriber .delivered
      · exact hrest
  | @failed a rest =>
      have hrest : Faithful { st with attempts := rest } := ⟨hf.tidy, hf.flagged⟩
      exact hrest.fail a
  | @offered st' t id outcome _ handled =>
      have hafter := hf.unbuffer.handled handled
      cases outcome with
      | vetoed => exact hafter.of_message hafter.tidy rfl
      | alreadyInFlight => exact hafter.rebuffer t
      | purged | expired | dispatched | failed => exact hafter
  | @spread st' t id policy outcome _ handled =>
      have hafter := hf.handled handled
      cases outcome with
      | purged | expired => exact hafter.unbuffer
      | vetoed => exact hafter.setStatus id .discarded
      | alreadyInFlight | dispatched | failed => exact hafter
  | @overrun t id => exact hf.setStatus id .discarded
  | retired => exact hf.unbuffer.settleIfComplete
  | evicted | cleared | purged => exact ⟨hf.drain.tidy, hf.drain.flagged⟩
  | deleted | lost => exact ⟨hf.tidy, hf.flagged⟩

end Faithful

end

end Standing

theorem Broker.faithful_default (m : MessageRef) :
    ((default : Broker).standing default m).Faithful :=
  ⟨List.nodup_nil, fun h => absurd h Bool.false_ne_true⟩

end Courier
