import Courier.Proofs.Reservations

namespace Courier

theorem Tally.lower_raise_one (x : Tally) (h : x.toNat + 1 < UInt64.size) :
    (x.raise 1).lower = x := by
  have hn : (x.raise 1).lower.toNat = x.toNat := by
    rw [Tally.toNat_lower, Tally.toNat_raise x 1 h]
    rfl
  exact congrArg Tally.mk (UInt64.toNat_inj.1 hn)

namespace Broker

section

variable (r : Rules) (now : UInt64) (s : SubscriberRef) (m : MessageRef) (t : TrackerRef)
  (policy : FailurePolicy)

def verdict (b : Broker) : FilterOutcome :=
  if b.isPurged m then .purged
  else if (b.message m).expired || (b.message m).hasExpired now then .expired
  else if r.vetoes.any fun v => v.rejects (b.subscriber s) (b.message m) then .vetoed
  else if ((b.message m).status? (b.subscriber s).id).any (· ≠ .failed) then .alreadyInFlight
  else if b.dispatcher.accepting then .dispatched
  else .failed

def consulted (b : Broker) : List Veto :=
  if b.isPurged m || (b.message m).expired || (b.message m).hasExpired now then []
  else
    (r.vetoes.takeWhile fun v => !v.rejects (b.subscriber s) (b.message m)) ++
      (r.vetoes.find? fun v => v.rejects (b.subscriber s) (b.message m)).toList

def runStagesNoting : List Stage → Broker → List Veto × FilterOutcome × Broker
  | [], b => ([], .failed, b)
  | .purge :: rest, b =>
      match b.purgeStage m with
      | (some outcome, b) => ([], outcome, b)
      | (none, b) => runStagesNoting rest b
  | .expiry :: rest, b =>
      match b.expiryStage now m with
      | (some outcome, b) => ([], outcome, b)
      | (none, b) => runStagesNoting rest b
  | .veto v :: rest, b =>
      match b.vetoStage v s m with
      | some outcome => ([v], outcome, b)
      | none => let noted := runStagesNoting rest b; (v :: noted.1, noted.2)
  | .dispatch :: _, b => ([], b.dispatchStage s m t policy)

structure SameTotals (b c : Broker) : Prop where
  unacked : ∀ u, (c.subscriber u).unacked = (b.subscriber u).unacked
  inFlight : ∀ v, (c.tracker v).inFlight = (b.tracker v).inFlight
  dispatcher : c.dispatcher = b.dispatcher

structure Submitted (b c : Broker) : Prop where
  jobs : c.dispatcher.jobs = b.dispatcher.jobs ++ [⟨s, m, t, policy⟩]
  accepting : c.dispatcher.accepting = b.dispatcher.accepting
  status : ∀ n id, (c.message n).status? id =
    if n = m ∧ id = (b.subscriber s).id then some .scheduled else (b.message n).status? id
  unacked : ∀ u, (c.subscriber u).unacked.toNat =
    (b.subscriber u).unacked.toNat + if u = s then 1 else 0
  inFlight : ∀ v, (c.tracker v).inFlight.toNat =
    (b.tracker v).inFlight.toNat + if v = t ∧ policy = .rebuffer then 1 else 0

/-- The copy is recorded as the policy says and nothing stays reserved. Except under `discard` the
message is buffered, at the end of the tracker's buffer unless it was buffered before. -/
structure Refused (b c : Broker) : Prop where
  totals : SameTotals b c
  status : ∀ n id, (c.message n).status? id =
    if n = m ∧ id = (b.subscriber s).id then policy.status? else (b.message n).status? id
  buffered : (c.message m).buffered = (decide (policy ≠ .discard) || (b.message m).buffered)
  buffer : ∀ v, (c.tracker v).buffer =
    if v = t ∧ policy ≠ .discard ∧ (b.message m).buffered = false then (b.tracker v).buffer ++ [m]
    else (b.tracker v).buffer

def Effect (b c : Broker) : FilterOutcome → Prop
  | .dispatched => Submitted s m t policy b c
  | .failed => Refused s m t policy b c
  | .purged | .expired | .vetoed | .alreadyInFlight =>
      SameTotals b c ∧ ∀ n, (c.message n).recipients = (b.message n).recipients

end

variable {r : Rules} {now : UInt64} {s : SubscriberRef} {m : MessageRef} {t : TrackerRef}
  {policy : FailurePolicy} {b c : Broker} {outcome : FilterOutcome}

theorem runStagesNoting_snd (now : UInt64) (s : SubscriberRef) (m : MessageRef) (t : TrackerRef)
    (policy : FailurePolicy) (stages : List Stage) (b : Broker) :
    (runStagesNoting now s m t policy stages b).2 = runStages now s m t policy stages b := by
  induction stages generalizing b with
  | nil => rfl
  | cons stage rest ih =>
      cases stage with
      | purge =>
          rw [runStagesNoting, runStages]
          rcases b.purgeStage m with ⟨_ | outcome, c⟩
          · exact ih c
          · rfl
      | expiry =>
          rw [runStagesNoting, runStages]
          rcases b.expiryStage now m with ⟨_ | outcome, c⟩
          · exact ih c
          · rfl
      | veto v =>
          rw [runStagesNoting, runStages]
          rcases b.vetoStage v s m with _ | outcome
          · exact ih b
          · rfl
      | dispatch => rfl

theorem runStagesNoting_vetoes (now : UInt64) (s : SubscriberRef) (m : MessageRef) (t : TrackerRef)
    (policy : FailurePolicy) (vetoes : List Veto) (b : Broker) :
    (runStagesNoting now s m t policy (vetoes.map .veto ++ [.dispatch]) b).1 =
      (vetoes.takeWhile fun v => !v.rejects (b.subscriber s) (b.message m)) ++
        (vetoes.find? fun v => v.rejects (b.subscriber s) (b.message m)).toList := by
  induction vetoes with
  | nil => rfl
  | cons v vetoes ih =>
      rw [List.map_cons, List.cons_append, runStagesNoting, vetoStage]
      cases hv : v.rejects (b.subscriber s) (b.message m) with
      | true => simp [hv]
      | false => simp [hv, ih]

theorem runStagesNoting_fst (b : Broker) (r : Rules) (now : UInt64) (s : SubscriberRef)
    (m : MessageRef) (t : TrackerRef) (policy : FailurePolicy) :
    (runStagesNoting now s m t policy r.stages b).1 = b.consulted r now s m := by
  simp only [Rules.stages, List.cons_append, List.nil_append, runStagesNoting, purgeStage,
    expiryStage, consulted]
  cases hp : b.isPurged m with
  | true => simp
  | false =>
      cases he : (b.message m).expired with
      | true => simp [he]
      | false =>
          cases hx : (b.message m).hasExpired now with
          | true => simp [he, hx]
          | false => simpa [he, hx] using runStagesNoting_vetoes now s m t policy r.vetoes b

theorem any_ne_failed (x : Message) (id : SubscriberId) :
    ((x.status? id).any (· ≠ .failed)) = !x.awaits id := by
  rw [Message.awaits]
  rcases x.status? id with _ | status
  · rfl
  · cases status <;> rfl

theorem Deliverable.verdict (h : Deliverable r now s m b) :
    b.verdict r now s m =
      if (b.message m).awaits (b.subscriber s).id then
        if b.dispatcher.accepting then .dispatched else .failed
      else .alreadyInFlight := by
  have hv : (r.vetoes.any fun v => v.rejects (b.subscriber s) (b.message m)) = false := by
    simpa using h.agreed
  simp only [Broker.verdict, h.kept, h.unmarked, h.timely, hv, any_ne_failed]
  cases (b.message m).awaits (b.subscriber s).id <;> rfl

theorem Handled.verdict (h : Handled r now s m t policy b outcome c) :
    outcome = b.verdict r now s m := by
  cases h with
  | purged purged => simp [Broker.verdict, purged]
  | marked kept marked => simp [Broker.verdict, kept, marked]
  | expired kept unmarked late => simp [Broker.verdict, kept, unmarked, late]
  | vetoed kept unmarked timely v hv rejects =>
      have hany : (r.vetoes.any fun v => v.rejects (b.subscriber s) (b.message m)) = true :=
        List.any_eq_true.2 ⟨v, hv, rejects⟩
      simp only [Broker.verdict, kept, unmarked, timely, hany]
      rfl
  | alreadyInFlight deliverable held => rw [deliverable.verdict, held]; rfl
  | dispatched deliverable lacks accepting => rw [deliverable.verdict, lacks, accepting]; rfl
  | failed deliverable lacks accepting => rw [deliverable.verdict, lacks, accepting]; rfl

theorem SameTotals.refl (b : Broker) : SameTotals b b := ⟨fun _ => rfl, fun _ => rfl, rfl⟩

/-- A claim is recorded and reserves one place in the subscriber's window and, under `rebuffer`, one
below the ceiling. -/
theorem submitted_claim (b : Broker) (policy : FailurePolicy)
    (window : (b.subscriber s).unacked.toNat + 1 < UInt64.size)
    (ceiling : (b.tracker t).inFlight.toNat + 1 < UInt64.size) :
    Submitted s m t policy b
      ((b.claim s m t policy).withJobs (b.dispatcher.jobs ++ [⟨s, m, t, policy⟩])) where
  jobs := by simp
  accepting := by simp
  status n id := by
    simp only [withJobs_frame, message_claim]
    by_cases hn : n = m
    · simp only [hn, if_true, Message.status?_setStatus, true_and]
    · simp only [hn, if_false, false_and]
  unacked u := by
    simp only [withJobs_frame, subscriber_claim]
    split
    · next hu => subst hu; exact Tally.toNat_raise _ 1 window
    · rfl
  inFlight v := by
    simp only [withJobs_frame, inFlight_claim]
    split
    · next hv => rw [hv.1]; exact Tally.toNat_raise _ 1 ceiling
    · rfl

/-- A refusal gives back what the claim reserved, whatever the policy. -/
theorem sameTotals_fail_claim (b : Broker) (policy : FailurePolicy)
    (window : (b.subscriber s).unacked.toNat + 1 < UInt64.size)
    (ceiling : (b.tracker t).inFlight.toNat + 1 < UInt64.size) :
    SameTotals b ((b.claim s m t policy).fail ⟨s, m, t, policy⟩) := by
  have hrecorded : (b.claim s m t policy).recorded ⟨s, m, t, policy⟩ = true := by
    have hid : ((b.claim s m t policy).subscriber s).id = (b.subscriber s).id :=
      (Touches.claim b s m t policy).subscriber_id s
    simp [recorded, hid, message_claim]
  refine ⟨fun u => ?_, fun v => ?_, by simp⟩
  · rw [subscriber_fail, subscriber_claim]
    by_cases hu : u = s
    · subst hu
      rw [if_pos ⟨rfl, fun _ => hrecorded⟩, if_pos rfl]
      exact Tally.lower_raise_one _ window
    · rw [if_neg fun h => hu h.1, if_neg hu]
  · simp only [inFlight_fail, inFlight_claim, hrecorded, and_true]
    split
    · next hv => rw [hv.1]; exact Tally.lower_raise_one _ ceiling
    · rfl

theorem buffered_fail (b : Broker) (j : Job) :
    ((b.fail j).message j.message).buffered =
      (decide (j.policy ≠ .discard) || (b.message j.message).buffered) := by
  unfold fail
  cases j.policy with
  | rebuffer | retry => simp [message_rebuffer]
  | discard => simp [setStatus, release, message_modifyMessage, Message.setStatus]

theorem refused_claim (b : Broker) (policy : FailurePolicy)
    (window : (b.subscriber s).unacked.toNat + 1 < UInt64.size)
    (ceiling : (b.tracker t).inFlight.toNat + 1 < UInt64.size) :
    Refused s m t policy b ((b.claim s m t policy).fail ⟨s, m, t, policy⟩) := by
  have hid : ((b.claim s m t policy).subscriber s).id = (b.subscriber s).id :=
    (Touches.claim b s m t policy).subscriber_id s
  have hflag : ((b.claim s m t policy).message m).buffered = (b.message m).buffered := by
    rw [message_claim, if_pos rfl]
    rfl
  refine ⟨sameTotals_fail_claim b policy window ceiling, fun n id => ?_, ?_, fun v => ?_⟩
  · by_cases h : n = m ∧ id = (b.subscriber s).id
    · obtain ⟨rfl, rfl⟩ := h
      rw [if_pos ⟨rfl, rfl⟩, status?_fail, hid, if_pos rfl]
    · rw [if_neg h, status?_fail_of_ne _ _ (by rwa [hid]), status?_claim_of_ne _ _ _ _ _ _ h]
  · rw [buffered_fail, hflag]
  · rw [buffer_fail, buffer_claim, hflag]

theorem Handled.effect (h : Handled r now s m t policy b outcome c)
    (window : (b.subscriber s).unacked.toNat + 1 < UInt64.size)
    (ceiling : (b.tracker t).inFlight.toNat + 1 < UInt64.size) :
    Effect s m t policy b c outcome := by
  cases h with
  | purged =>
      refine ⟨⟨fun u => by simp [markPurged], fun v => by simp [markPurged], by simp [markPurged]⟩,
        fun n => ?_⟩
      simp [markPurged, message_modifyMessage, apply_ite Message.recipients]
  | expired =>
      refine ⟨⟨fun u => by simp [markExpired], fun v => by simp [markExpired],
        by simp [markExpired]⟩, fun n => ?_⟩
      simp [markExpired, message_modifyMessage, apply_ite Message.recipients]
  | marked | vetoed | alreadyInFlight => exact ⟨.refl b, fun _ => rfl⟩
  | dispatched => exact submitted_claim b policy window ceiling
  | failed => exact refused_claim b policy window ceiling

/-- One pass is atomic on the counters. It asks the vetoes in their order until one rejects, its
outcome is the first reason that applies, and only a dispatch leaves a reservation behind. -/
theorem handle_atomic (b : Broker) (r : Rules) (now : UInt64) (s : SubscriberRef) (m : MessageRef)
    (t : TrackerRef) (policy : FailurePolicy)
    (window : (b.subscriber s).unacked.toNat + 1 < UInt64.size)
    (ceiling : (b.tracker t).inFlight.toNat + 1 < UInt64.size) :
    runStagesNoting now s m t policy r.stages b =
        (b.consulted r now s m, b.handle r now s m t policy) ∧
      (b.handle r now s m t policy).1 = b.verdict r now s m ∧
      Effect s m t policy b (b.handle r now s m t policy).2 (b.verdict r now s m) := by
  obtain ⟨outcome, c, hc, handled⟩ := exists_handled b r now s m t policy
  have hnoted : runStagesNoting now s m t policy r.stages b =
      (b.consulted r now s m, b.handle r now s m t policy) :=
    Prod.ext (runStagesNoting_fst b r now s m t policy)
      (runStagesNoting_snd now s m t policy r.stages b)
  refine ⟨hnoted, ?_, ?_⟩
  · rw [hc]; exact handled.verdict
  · rw [hc, ← handled.verdict]; exact handled.effect window ceiling

def closedRun : List Operation :=
  [.createMessage 1 "orders" "stored" "book" 0 0,
    .createSubscriber "worker" ⟨"orders", .amqp, .queue⟩ "local" 1 default,
    .track ⟨"orders", .amqp, .queue⟩, .close]

def lenientRules : Rules :=
  ⟨1, .discardNone, [⟨"payload", fun _ x => x.payload.isEmpty⟩, ⟨"node", fun s _ => s.nodeId = ""⟩]⟩

theorem handle_atomic_closedRun :
    ((replay workerRules closedRun default default).1.subscriber ⟨0⟩).unacked.toNat + 1 <
        UInt64.size ∧
      ((replay workerRules closedRun default default).1.tracker ⟨0⟩).inFlight.toNat + 1 <
        UInt64.size ∧
      (runStagesNoting 0 ⟨0⟩ ⟨0⟩ ⟨0⟩ .rebuffer lenientRules.stages
        (replay workerRules closedRun default default).1).1.map Veto.name = ["payload", "node"] ∧
      ((replay workerRules closedRun default default).1.handle lenientRules 0 ⟨0⟩ ⟨0⟩ ⟨0⟩
        .rebuffer).1 = .failed ∧
      Refused ⟨0⟩ ⟨0⟩ ⟨0⟩ .rebuffer (replay workerRules closedRun default default).1
        ((replay workerRules closedRun default default).1.handle lenientRules 0 ⟨0⟩ ⟨0⟩ ⟨0⟩
          .rebuffer).2 := by
  have window : ((replay workerRules closedRun default default).1.subscriber ⟨0⟩).unacked.toNat +
      1 < UInt64.size := by decide
  have ceiling : ((replay workerRules closedRun default default).1.tracker ⟨0⟩).inFlight.toNat +
      1 < UInt64.size := by decide
  have hverdict : (replay workerRules closedRun default default).1.verdict lenientRules 0 ⟨0⟩ ⟨0⟩ =
      .failed := by decide
  obtain ⟨hnoted, houtcome, heffect⟩ := handle_atomic _ lenientRules 0 ⟨0⟩ ⟨0⟩ ⟨0⟩ .rebuffer
    window ceiling
  rw [hverdict] at houtcome heffect
  refine ⟨window, ceiling, ?_, houtcome, heffect⟩
  rw [hnoted]
  decide

end Broker

end Courier
