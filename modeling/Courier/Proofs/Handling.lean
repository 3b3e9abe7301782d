import Courier.Proofs.Failing

namespace Courier.Broker

section

variable (r : Rules) (now : UInt64) (s : SubscriberRef) (m : MessageRef) (t : TrackerRef)
  (policy : FailurePolicy)

structure Deliverable (b : Broker) : Prop where
  kept : b.isPurged m = false
  unmarked : (b.message m).expired = false
  timely : (b.message m).hasExpired now = false
  agreed : ∀ v ∈ r.vetoes, v.rejects (b.subscriber s) (b.message m) = false

inductive Handled (b : Broker) : FilterOutcome → Broker → Prop
  | purged (purged : b.isPurged m = true) : Handled b .purged ((b.markPurged m).settle m)
  | marked (kept : b.isPurged m = false) (marked : (b.message m).expired = true) :
      Handled b .expired b
  | expired (kept : b.isPurged m = false) (unmarked : (b.message m).expired = false)
      (late : (b.message m).hasExpired now = true) :
      Handled b .expired ((b.markExpired m).addExpired m)
  | vetoed (kept : b.isPurged m = false) (unmarked : (b.message m).expired = false)
      (timely : (b.message m).hasExpired now = false) (v : Veto) (hv : v ∈ r.vetoes)
      (rejects : v.rejects (b.subscriber s) (b.message m) = true) : Handled b .vetoed b
  | alreadyInFlight (deliverable : Deliverable r now s m b)
      (held : (b.message m).awaits (b.subscriber s).id = false) : Handled b .alreadyInFlight b
  | dispatched (deliverable : Deliverable r now s m b)
      (lacks : (b.message m).awaits (b.subscriber s).id = true)
      (accepting : b.dispatcher.accepting = true) :
      Handled b .dispatched
        ((b.claim s m t policy).withJobs (b.dispatcher.jobs ++ [⟨s, m, t, policy⟩]))
  | failed (deliverable : Deliverable r now s m b)
      (lacks : (b.message m).awaits (b.subscriber s).id = true)
      (accepting : b.dispatcher.accepting = false) :
      Handled b .failed ((b.claim s m t policy).fail ⟨s, m, t, policy⟩)

end

variable {r : Rules} {now : UInt64} {s : SubscriberRef} {m : MessageRef} {t : TrackerRef}
  {policy : FailurePolicy} {b b' : Broker} {outcome : FilterOutcome}

theorem submit_of_accepting (j : Job) (h : b.dispatcher.accepting = true) :
    b.submit j = (true, b.withJobs (b.dispatcher.jobs ++ [j])) := by
  simp [submit, h, withJobs]

theorem submit_of_closed (j : Job) (h : b.dispatcher.accepting = false) :
    b.submit j = (false, b.fail j) := by
  simp [submit, h]

theorem dispatchStage_handled (deliverable : Deliverable r now s m b) :
    Handled r now s m t policy b (b.dispatchStage s m t policy).1
      (b.dispatchStage s m t policy).2 := by
  cases hl : (b.message m).awaits (b.subscriber s).id with
  | false =>
      have he : b.dispatchStage s m t policy = (.alreadyInFlight, b) := by
        simp [dispatchStage, trySchedule, hl]
      rw [he]
      exact .alreadyInFlight deliverable hl
  | true =>
      have he : b.dispatchStage s m t policy =
          (if ((b.claim s m t policy).submit ⟨s, m, t, policy⟩).1 = true then .dispatched
            else .failed, ((b.claim s m t policy).submit ⟨s, m, t, policy⟩).2) := by
        simp only [dispatchStage, trySchedule, hl, if_true, claim]
        split <;> simp [*]
      cases ha : b.dispatcher.accepting with
      | true =>
          rw [he, submit_of_accepting _ (by simpa using ha)]
          simpa using Handled.dispatched deliverable hl ha
      | false =>
          rw [he, submit_of_closed _ (by simpa using ha)]
          exact .failed deliverable hl ha

theorem vetoes_handled (kept : b.isPurged m = false) (unmarked : (b.message m).expired = false)
    (timely : (b.message m).hasExpired now = false) (asked vetoes : List Veto)
    (hv : r.vetoes = asked ++ vetoes)
    (agreed : ∀ v ∈ asked, v.rejects (b.subscriber s) (b.message m) = false) :
    Handled r now s m t policy b
      (runStages now s m t policy (vetoes.map .veto ++ [.dispatch]) b).1
      (runStages now s m t policy (vetoes.map .veto ++ [.dispatch]) b).2 := by
  induction vetoes generalizing asked with
  | nil => exact dispatchStage_handled ⟨kept, unmarked, timely, by simpa [hv] using agreed⟩
  | cons v vetoes ih =>
      cases hr : v.rejects (b.subscriber s) (b.message m) with
      | true =>
          have hvetoed : Handled r now s m t policy b .vetoed b :=
            .vetoed kept unmarked timely v (by simp [hv]) hr
          simpa [runStages, vetoStage, hr] using hvetoed
      | false =>
          simpa [runStages, vetoStage, hr] using ih (asked ++ [v]) (by simp [hv])
            (by simpa [or_imp, forall_and, hr] using agreed)

/-- Purge comes before expiry, both before the vetoes in their order, and the dispatch is last. -/
theorem handle_handled (b : Broker) (r : Rules) (now : UInt64) (s : SubscriberRef) (m : MessageRef)
    (t : TrackerRef) (policy : FailurePolicy) :
    Handled r now s m t policy b (b.handle r now s m t policy).1 (b.handle r now s m t policy).2 := by
  simp only [handle, Rules.stages, List.cons_append, List.nil_append, runStages, purgeStage,
    expiryStage]
  cases hp : b.isPurged m with
  | true => simpa using Handled.purged hp
  | false =>
      cases he : (b.message m).expired with
      | true => simpa [he] using Handled.marked hp he
      | false =>
          cases hx : (b.message m).hasExpired now with
          | true => simpa [he, hx] using Handled.expired hp he hx
          | false => simpa [he, hx] using vetoes_handled hp he hx [] r.vetoes rfl (by simp)

theorem exists_handled (b : Broker) (r : Rules) (now : UInt64) (s : SubscriberRef) (m : MessageRef)
    (t : TrackerRef) (policy : FailurePolicy) :
    ∃ outcome c, b.handle r now s m t policy = (outcome, c) ∧
      Handled r now s m t policy b outcome c :=
  ⟨_, _, rfl, handle_handled b r now s m t policy⟩

/-- Where nothing speaks against a copy that awaits its dispatch, it is dispatched. -/
theorem handle_of_deliverable (deliverable : Deliverable r now s m b)
    (lacks : (b.message m).awaits (b.subscriber s).id = true)
    (accepting : b.dispatcher.accepting = true) :
    b.handle r now s m t policy = (.dispatched,
      (b.claim s m t policy).withJobs (b.dispatcher.jobs ++ [⟨s, m, t, policy⟩])) := by
  obtain ⟨outcome, c, hc, hh⟩ := exists_handled b r now s m t policy
  rw [hc]
  cases hh with
  | purged purged => exact absurd (deliverable.kept.symm.trans purged) Bool.false_ne_true
  | marked _ marked => exact absurd (deliverable.unmarked.symm.trans marked) Bool.false_ne_true
  | expired _ _ late => exact absurd (deliverable.timely.symm.trans late) Bool.false_ne_true
  | vetoed _ _ _ v hv rejects =>
      exact absurd ((deliverable.agreed v hv).symm.trans rejects) Bool.false_ne_true
  | alreadyInFlight _ held => exact absurd (lacks.symm.trans held) nofun
  | failed _ _ closed => exact absurd (accepting.symm.trans closed) nofun
  | dispatched => rfl

end Courier.Broker
