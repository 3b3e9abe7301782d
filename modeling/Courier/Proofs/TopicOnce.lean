import Courier.Proofs.Sound
import Mathlib.Data.List.Perm.Basic

namespace Courier

open Broker
open Relation (ReflTransGen)

/-- Passes and returns are made on topics that are not durable. -/
def topicTerms (b : Broker) (_ : Journal) : Operation → Prop
  | .flush _ _ t | .send _ _ t => (b.tracker t).isTopic = true
  | .rebuffer key _ => key.type = .topic
  | .requeue _ type => type = .topic
  | _ => True

instance (b : Broker) (h : Journal) : (op : Operation) → Decidable (topicTerms b h op)
  | .flush _ _ t | .send _ _ t => inferInstanceAs (Decidable ((b.tracker t).isTopic = true))
  | .rebuffer key _ => inferInstanceAs (Decidable (key.type = .topic))
  | .requeue _ type => inferInstanceAs (Decidable (type = .topic))
  | .createSlot _ | .createMessage .. | .createSubscriber .. | .connect .. | .register _
  | .unregister _ | .track _ | .buffer .. | .findNext .. | .clear _ | .purge .. | .acknowledge ..
  | .runJob _ | .close | .shutdown | .deleteExpired _ => .isTrue trivial

def isFor (b : Broker) (m : MessageRef) (id : SubscriberId) (j : Job) : Bool :=
  decide (j.message = m) && decide ((b.subscriber j.subscriber).id = id)

def queuedFor (b : Broker) (m : MessageRef) (id : SubscriberId) : Nat :=
  b.dispatcher.jobs.countP (isFor b m id)

def writesOf (b : Broker) (h : Journal) (m : MessageRef) (id : SubscriberId) : Nat :=
  queuedFor b m id + h.sent.count (m, id)

def AtMostOnce (b : Broker) (h : Journal) (m : MessageRef) (id : SubscriberId) : Prop :=
  writesOf b h m id ≤ 1 ∧ ((b.message m).awaits id = true → writesOf b h m id = 0)

structure Once (b : Broker) (h : Journal) : Prop where
  policies : ∀ j ∈ b.dispatcher.jobs, j.policy ≠ .rebuffer
  copies : ∀ m id, AtMostOnce b h m id

variable {b b' : Broker} {h h' : Journal} {m : MessageRef} {t : TrackerRef} {r : Rules}
  {now : UInt64} {active : List SubscriberRef} {batch : List MessageRef} {s : SubscriberRef}
  {policy : FailurePolicy} {outcome : FilterOutcome}

theorem AtMostOnce.of_le {id : SubscriberId} (hm : AtMostOnce b h m id)
    (hw : writesOf b' h' m id ≤ writesOf b h m id)
    (ha : (b'.message m).awaits id = true →
      (b.message m).awaits id = true ∨ writesOf b' h' m id = 0) :
    AtMostOnce b' h' m id :=
  ⟨Nat.le_trans hw hm.1, fun h => (ha h).elim (fun h => Nat.le_zero.1 (hm.2 h ▸ hw)) fun h => h⟩

theorem writesOf_congr (hj : b'.dispatcher.jobs = b.dispatcher.jobs)
    (hid : ∀ j ∈ b.dispatcher.jobs, (b'.subscriber j.subscriber).id = (b.subscriber j.subscriber).id)
    (hh : h'.sent = h.sent) (m : MessageRef) (id : SubscriberId) :
    writesOf b' h' m id = writesOf b h m id := by
  rw [writesOf, writesOf, queuedFor, queuedFor, hj, hh]
  congr 1
  exact List.countP_congr fun j hj' => by rw [isFor, isFor, hid j hj']

theorem isFor_eq_false {j : Job} {n : MessageRef} {id : SubscriberId}
    (h : ¬ (n = j.message ∧ id = (b.subscriber j.subscriber).id)) : isFor b n id j = false := by
  simp only [isFor, Bool.and_eq_false_iff, decide_eq_false_iff_not]
  exact (not_and_or.1 h).imp (fun h he => h he.symm) fun h he => h he.symm

theorem writesOf_addJob (b : Broker) (h : Journal) (j : Job) (n : MessageRef) (id : SubscriberId) :
    writesOf (b.withJobs (b.dispatcher.jobs ++ [j])) h n id =
      writesOf b h n id + (isFor b n id j).toNat := by
  have hq : queuedFor (b.withJobs (b.dispatcher.jobs ++ [j])) n id =
      (b.dispatcher.jobs ++ [j]).countP (isFor b n id) := rfl
  rw [writesOf, writesOf, hq, List.countP_append, queuedFor]
  cases hj : isFor b n id j with
  | true => simp [hj]; omega
  | false => simp [hj]

/-- The job leaves the queue as its write enters the journal, so the total stays. It falls by a job
that fails. -/
theorem writesOf_execute (h : Journal) {j : Job} {l : List Job}
    (hl : (j :: l).Perm b.dispatcher.jobs) (n : MessageRef) (id : SubscriberId) :
    writesOf b h n id = writesOf ((b.withJobs l).execute j) (h.execute (b.withJobs l) j) n id +
      if ((b.withJobs l).send j.subscriber j.message).1 = .sent then 0
      else (isFor b n id j).toNat := by
  have hbefore : writesOf b h n id =
      writesOf (b.withJobs l) h n id + (isFor b n id j).toNat := by
    have hq : queuedFor (b.withJobs l) n id = l.countP (isFor b n id) := rfl
    rw [writesOf, writesOf, hq, queuedFor, ← hl.countP_eq, List.countP_cons]
    cases hf : isFor b n id j with
    | true => simp; omega
    | false => simp
  have hsub := (Touches.execute (b.withJobs l) j).subscriber_id
  have hafter : writesOf ((b.withJobs l).execute j) h n id = writesOf (b.withJobs l) h n id :=
    writesOf_congr (by simp) (fun i _ => hsub i.subscriber) rfl n id
  rw [Journal.execute]
  split
  · have hcount : (if (j.message, (b.subscriber j.subscriber).id) == (n, id) then 1 else 0) =
        (isFor b n id j).toNat := by
      by_cases hm : j.message = n <;> by_cases hid : (b.subscriber j.subscriber).id = id <;>
        simp [isFor, hm, hid]
    have hsent : writesOf ((b.withJobs l).execute j) { h with
        sent := h.sent ++ [(j.message, (b.subscriber j.subscriber).id)] } n id =
        writesOf ((b.withJobs l).execute j) h n id + (isFor b n id j).toNat := by
      rw [writesOf, writesOf, List.count_append, List.count_singleton, hcount]
      omega
    exact hbefore.trans ((congrArg (· + _) hafter.symm).trans hsent.symm)
  · rw [hbefore, hafter]

theorem writesOf_runJob {place : Nat} {id : SubscriberId}
    (hsend : ∀ j ∈ b.dispatcher.jobs[place]?, isFor b m id j = true →
      (b.send j.subscriber j.message).1 = .sent) :
    writesOf (b.runJob place) (h.runJob b place) m id = writesOf b h m id := by
  unfold Broker.runJob Journal.runJob
  cases hj : b.dispatcher.jobs[place]? with
  | none => rfl
  | some j =>
      obtain ⟨hlt, rfl⟩ := List.getElem?_eq_some_iff.1 hj
      refine ((writesOf_execute h (List.getElem_cons_eraseIdx_perm hlt) m id).trans ?_).symm
      split
      · rfl
      · next hfailed =>
          rw [Bool.eq_false_iff.2 fun hfor => hfailed (hsend _ hj hfor)]
          rfl

namespace Once

theorem of_awaits (ho : Once b h) (hj : b'.dispatcher.jobs = b.dispatcher.jobs)
    (hid : ∀ j ∈ b.dispatcher.jobs, (b'.subscriber j.subscriber).id = (b.subscriber j.subscriber).id)
    (hm : ∀ m id, (b'.message m).awaits id = true → (b.message m).awaits id = true)
    (hh : h'.sent = h.sent) : Once b' h' :=
  ⟨fun j hj' => ho.policies j (hj ▸ hj'), fun m id => (ho.copies m id).of_le
    (Nat.le_of_eq (writesOf_congr hj hid hh m id)) fun h => .inl (hm m id h)⟩

theorem same (ho : Once b h) (hj : b'.dispatcher.jobs = b.dispatcher.jobs)
    (hid : ∀ j ∈ b.dispatcher.jobs, (b'.subscriber j.subscriber).id = (b.subscriber j.subscriber).id)
    (hm : ∀ m, (b'.message m).recipients = (b.message m).recipients) (hh : h'.sent = h.sent) :
    Once b' h' :=
  ho.of_awaits hj hid (fun m id ha => by
    rw [Message.awaits, Message.status?, hm] at ha
    exact ha) hh

theorem setStatus (ho : Once b h) (m : MessageRef) (id : SubscriberId) {status : RecipientStatus}
    (hs : status ≠ .failed) : Once (b.setStatus m id status) h := by
  refine ho.of_awaits rfl (fun _ _ => rfl) (fun n u ha => ?_) rfl
  rw [Message.awaits_iff] at ha ⊢
  rw [Broker.setStatus, message_modifyMessage] at ha
  split at ha
  · rw [Message.status?_setStatus] at ha
    split at ha
    · simp [hs] at ha
    · exact ha
  · exact ha

theorem handled (ho : Once b h) (hh : Handled r now s m t policy b outcome b')
    (hp : policy ≠ .rebuffer) : Once b' h := by
  cases hh with
  | purged =>
      refine ho.same (by simp [markPurged]) (by simp [markPurged]) (fun n => ?_) rfl
      simp [markPurged, message_modifyMessage, apply_ite Message.recipients]
  | marked | vetoed | alreadyInFlight => exact ho
  | expired =>
      refine ho.same (by simp [markExpired]) (by simp [markExpired]) (fun n => ?_) rfl
      simp [markExpired, message_modifyMessage, apply_ite Message.recipients]
  | dispatched _ lacks =>
      have hid := (Touches.claim b s m t policy).subscriber_id
      have hclaim : ∀ n id, writesOf (b.claim s m t policy) h n id = writesOf b h n id :=
        writesOf_congr (by simp) (fun j _ => hid j.subscriber) rfl
      have hjob : ∀ n id, isFor (b.claim s m t policy) n id ⟨s, m, t, policy⟩ =
          isFor b n id ⟨s, m, t, policy⟩ := fun n id => by rw [isFor, isFor, hid]
      have hwrites := writesOf_addJob (b.claim s m t policy) h ⟨s, m, t, policy⟩
      simp only [claim_frame, hclaim, hjob] at hwrites
      refine ⟨fun j hj => ?_, fun n id => ?_⟩
      · simp only [withJobs_frame, List.mem_append, List.mem_singleton] at hj
        exact hj.elim (ho.policies j) fun he => by rw [he]; exact hp
      · by_cases hn : n = m ∧ id = (b.subscriber s).id
        · obtain ⟨rfl, rfl⟩ := hn
          have hzero := (ho.copies n _).2 lacks
          refine ⟨by rw [hwrites, hzero]; simp [isFor], fun ha => ?_⟩
          simp [Message.awaits_iff, message_claim] at ha
        · refine (ho.copies n id).of_le ?_ fun ha => .inl ?_
          · rw [hwrites, isFor_eq_false hn, Bool.toNat_false]
            exact Nat.le_refl _
          · rwa [← awaits_congr (status?_claim_of_ne b s m n t policy hn)]
  | failed _ lacks =>
      have hid := (Touches.claim b s m t policy).subscriber_id
      have hid' := (Touches.fail (b.claim s m t policy) ⟨s, m, t, policy⟩).subscriber_id
      have hwrites : ∀ n id, writesOf ((b.claim s m t policy).fail ⟨s, m, t, policy⟩) h n id =
          writesOf b h n id :=
        writesOf_congr (by simp) (fun j _ => (hid' j.subscriber).trans (hid j.subscriber)) rfl
      refine ⟨fun j hj => ho.policies j (by simpa using hj), fun n id => ?_⟩
      by_cases hn : n = m ∧ id = (b.subscriber s).id
      · obtain ⟨rfl, rfl⟩ := hn
        have hzero := (ho.copies n _).2 lacks
        exact (ho.copies n _).of_le (Nat.le_of_eq (hwrites _ _)) fun _ => .inr (by rw [hwrites, hzero])
      · refine (ho.copies n id).of_le (Nat.le_of_eq (hwrites n id)) fun ha => .inl ?_
        rw [awaits_congr (status?_fail_of_ne _ _ (by rwa [hid]))] at ha
        rwa [← awaits_congr (status?_claim_of_ne b s m n t policy hn)]

theorem unbuffer (ho : Once b h) (t : TrackerRef) (m : MessageRef) : Once (b.unbuffer t m) h :=
  ho.same (by simp) (by simp) (by simp) rfl

theorem passStep (ho : Once b h) (topic : (b.tracker t).isTopic = true)
    (hstep : PassStep r now t active batch b b') : Once b' h := by
  cases hstep with
  | turn => exact ho.same rfl (fun _ _ => rfl) (fun _ => rfl) rfl
  | offer m rest s queue => simp [topic] at queue
  | discard m s => exact ho.setStatus m _ (by simp)
  | retire m => exact (ho.unbuffer t m).same (by simp) (by simp) (by simp) rfl
  | spread m s =>
      obtain ⟨outcome, c, hc, hh⟩ := exists_handled b r now s m t (copyPolicy r.topics)
      have hoc := ho.handled hh (copyPolicy_ne_rebuffer r.topics)
      unfold spread
      rw [hc]
      cases outcome with
      | purged | expired => exact hoc.unbuffer t m
      | vetoed => exact hoc.setStatus m _ (by simp)
      | alreadyInFlight | dispatched | failed => exact hoc

theorem execute (ho : Once b h) {j : Job} {l : List Job} (hl : (j :: l).Perm b.dispatcher.jobs) :
    Once ((b.withJobs l).execute j) (h.execute (b.withJobs l) j) := by
  have hj : j ∈ b.dispatcher.jobs := hl.subset (by simp)
  have hpolicy := ho.policies j hj
  have hjobs : ∀ i ∈ l, i.policy ≠ .rebuffer := fun i hi =>
    ho.policies i (hl.subset (List.mem_cons_of_mem _ hi))
  have hwrites := writesOf_execute h hl
  have hwritten := subscriber_written (b.withJobs l) j.subscriber j.message j.subscriber
  refine ⟨fun i hi => hjobs i (by simpa using hi), fun n id => ?_⟩
  have htotal := hwrites n id
  split at htotal
  · next hsent =>
      refine (ho.copies n id).of_le (Nat.le_of_eq htotal.symm) fun ha => .inl ?_
      rw [execute_eq, if_pos hsent, Message.awaits_iff, message_markDelivered] at ha
      rw [Message.awaits_iff]
      split at ha
      · rw [Message.status?_setStatus] at ha
        split at ha
        · simp at ha
        · simpa using ha
      · simpa using ha
  -- The total falls by the job that failed, and its copy may be dispatched again.
  · next hfailed =>
      have hid : ((b.withJobs l).written j.subscriber j.message |>.subscriber j.subscriber).id =
          (b.subscriber j.subscriber).id := by
        obtain ⟨outbound, he⟩ := hwritten
        rw [he]
        rfl
      by_cases hn : n = j.message ∧ id = (b.subscriber j.subscriber).id
      · have hone := (ho.copies n id).1
        have hfor : isFor b n id j = true := by simp [isFor, hn]
        rw [hfor, Bool.toNat_true] at htotal
        exact ⟨by omega, fun _ => by omega⟩
      · refine (ho.copies n id).of_le (htotal ▸ Nat.le_add_right _ _) fun ha => .inl ?_
        rw [execute_eq, if_neg hfailed, awaits_congr (status?_fail_of_ne _ _ (by rwa [hid]))] at ha
        simpa using ha

theorem runJob (ho : Once b h) (place : Nat) : Once (b.runJob place) (h.runJob b place) := by
  unfold Broker.runJob Journal.runJob
  cases hj : b.dispatcher.jobs[place]? with
  | none => exact ho
  | some j =>
      obtain ⟨hlt, rfl⟩ := List.getElem?_eq_some_iff.1 hj
      exact ho.execute (List.getElem_cons_eraseIdx_perm hlt)

theorem shutdown (ho : Once b h) : Once b.shutdown (.run b.pendingJobs b h) :=
  shutdown_induction (P := Once) ho (fun _ _ ho => ho.runJob 0)
    fun _ _ ho => ho.same rfl (fun _ _ => rfl) (fun _ => rfl) rfl

theorem foldl {f : Broker → MessageRef → Broker} (hf : ∀ b m, Touches m b (f b m))
    (hd : ∀ b m, (f b m).dispatcher = b.dispatcher)
    (hr : ∀ b m n, ((f b m).message n).recipients = (b.message n).recipients)
    (l : List MessageRef) (ho : Once b h) : Once (l.foldl f b) h := by
  induction l generalizing b with
  | nil => exact ho
  | cons m l ih =>
      exact ih (ho.same (by rw [hd]) (fun j _ => (hf b m).subscriber_id j.subscriber) (hr b m) rfl)

theorem settleAll (ho : Once b h) (l : List MessageRef) : Once (b.settleAll l) h :=
  foldl .settle (fun b m => (settle_frame b m).2.2.2.2.2.2.2) (fun b m n => by simp) l ho

theorem drain (ho : Once b h) (t : TrackerRef) : Once (b.drain t) h :=
  ho.same (by simp) (by simp)
    (fun m => by rw [message_drain]; split <;> rfl) rfl

theorem evict (ho : Once b h) (t : TrackerRef) : Once (b.evict t) h := by
  have hgone : Once (b.letGo t) h := ho.same rfl (fun _ _ => rfl) (fun _ => rfl) rfl
  rw [evict_eq]
  split
  · split
    · exact (hgone.drain t).settleAll _
    · exact hgone
  · exact ho

theorem delivers (ho : Once b h) (hs : b.Sound) (ht : b.hasTracker t)
    (topic : (b.tracker t).isTopic = true) (hd : Delivers r now t b b') : Once b' h :=
  hs.delivery_induction (P := fun c => Once c h) ht hd ho (fun _ => ho.evict t)
    fun _ _ _ _ _ hp _ ho hstep => ho.passStep (by rwa [Tracker.isTopic, hp.key]) hstep

theorem deletes (ho : Once b h) {condition : StoreCondition} (hd : Deletes b condition b') :
    Once b' h := by
  have hw : ∀ l store, Once (b.withExpired l store) h :=
    fun _ _ => ho.same rfl (fun _ _ => rfl) (fun _ => rfl) rfl
  cases hd with
  | deleted store => exact (hw [] store).settleAll _
  | refused | lost => exact hw _ _

theorem acknowledge (ho : Once b h) (s : SubscriberRef) (m : MessageRef)
    (type : DestinationType) : Once (b.acknowledge s m type) h := by
  refine ho.of_awaits (by simp) (fun j _ => (Touches.acknowledge b s m type).subscriber_id _)
    (fun n id ha => ?_) rfl
  rw [Message.awaits_iff, Message.status?, recipients_acknowledge] at ha
  rw [Message.awaits_iff]
  split at ha
  · change Message.status? _ id = none ∨ Message.status? _ id = some .failed at ha
    rw [Message.status?_setStatus] at ha
    split at ha
    · simp at ha
    · exact ha
  · exact ha

theorem putBack (ho : Once b h) (hs : b.Sound) (r : Rules) {key : TrackedKey}
    (hk : key.type = .topic) (l : List MessageRef) :
    Once ((Operation.rebuffer key l).apply r b) h := by
  rw [Operation.apply_rebuffer]
  split
  · next t ht =>
      have topic := (hs.isTopic_of_find? ht).trans (decide_eq_true hk)
      clear ht hs
      induction l generalizing b with
      | nil => exact ho
      | cons m l ih =>
          have hstep : b.returnToBuffer t m = b.rebuffer t m := by
            rw [returnToBuffer, if_pos topic]
          have ht := (Touches.rebuffer b t m).key t
          rw [List.foldl_cons, hstep]
          exact ih (ho.same (by simp) (by simp) (by simp) rfl) (by rwa [Tracker.isTopic, ht])
  · exact ho

theorem apply (ho : Once b h) (hs : b.Sound) (r : Rules) (op : Operation) (hu : op.uses b)
    (ht : topicTerms b h op) : Once (op.apply r b) (op.record b h) := by
  have hsame : ∀ {b'}, b'.messages = b.messages → b'.subscribers = b.subscribers →
      b'.dispatcher = b.dispatcher → Once b' h := fun hm hs hd =>
    ho.same (by rw [hd]) (fun j _ => by rw [subscriber, hs]; rfl)
      (fun m => by rw [message, hm]; rfl) rfl
  cases op with
  | createSlot | register | unregister => exact hsame rfl rfl rfl
  | close => exact ho.same rfl (fun _ _ => rfl) (fun _ => rfl) rfl
  | createMessage =>
      refine Operation.createMessage_induction (P := fun c => Once c h) ho fun _ => ?_
      refine ho.same rfl (fun _ _ => rfl) (fun m => ?_) rfl
      rw [message_addMessage]
      split
      · next hm =>
          have hdefault : b.message m = default :=
            b.messages.get_of_size_le (Nat.le_of_eq hm.symm)
          rw [hdefault]
          rfl
      · rfl
  | createSubscriber id key node window outbound =>
      refine ho.same rfl (fun j hj => ?_) (fun _ => rfl) rfl
      unfold Operation.apply
      rw [subscriber_addSubscriber, if_neg (Nat.ne_of_lt (hs.jobs j hj).1)]
  | connect s outbound =>
      refine ho.same rfl (fun j _ => ?_) (fun _ => rfl) rfl
      unfold Operation.apply
      rw [subscriber_modifySubscriber]
      split <;> rfl
  | track key =>
      unfold Operation.apply
      dsimp only
      rw [track_eq]
      split
      · exact ho
      · exact hsame rfl rfl rfl
  | buffer batch p t =>
      have hraised : Once (b.raiseSlot p (.ofNat batch.length)) h := hsame rfl rfl rfl
      have hend := foldl (.accept p t) (fun b m => (accept_frame p t b m).2.2.2.2.2.2)
        (fun b m n => by rw [message_accept]; split <;> rfl) batch hraised
      exact hend.same rfl (fun _ _ => rfl) (fun _ => rfl) rfl
  | rebuffer key l => exact ho.putBack hs r ht l
  | requeue m type =>
      have htype : type = .topic := ht
      exact ho.putBack hs r htype [m]
  | flush vetoes now t => exact ho.delivers hs hu ht (flush_delivers b (hs.active_nodup t))
  | send vetoes now t => exact ho.delivers hs hu ht (sendBuffered_delivers b (hs.active_nodup t))
  | findNext t active =>
      unfold Operation.apply findNext
      dsimp only
      split
      · exact ho.evict t
      · exact ho.same rfl (fun _ _ => rfl) (fun _ => rfl) rfl
  | clear key =>
      simp only [Operation.apply, Operation.record, clear]
      cases b.find? key with
      | some t => exact (ho.drain t).same rfl (fun _ _ => rfl) (fun _ => rfl) rfl
      | none => exact ho
  | purge now key storageQueue =>
      have hp : Once (b.recordPurge storageQueue now) h := hsame rfl rfl rfl
      unfold Operation.apply purge
      dsimp only
      split
      · exact foldl .consumePurged (fun b m => by simp [consumePurged, markPurged])
          (fun b m n => by
            simp [consumePurged, markPurged, message_modifyMessage, apply_ite Message.recipients])
          _ (hp.drain _)
      · exact hp
  | acknowledge s m type => exact ho.acknowledge s m type
  | runJob place => exact ho.runJob place
  | shutdown => exact ho.shutdown
  | deleteExpired condition => exact ho.deletes (b.deleteExpired_deletes condition)

end Once

theorem Reaches.once (hr : Reaches r topicTerms b h) : Once b h := by
  induction hr with
  | start =>
      exact ⟨fun j hj => absurd hj List.not_mem_nil, fun _ _ => ⟨Nat.zero_le _, fun _ => rfl⟩⟩
  | step op prior hu ht ih => exact ih.apply prior.sound r op hu ht

/-- A topic's copy is delivered at most once: for each message and subscriber id at most one job
waits at any time, and over the whole run at most one write succeeds, none while a job waits. -/
theorem copy_written_once (hr : Reaches r topicTerms b h) (m : MessageRef) (id : SubscriberId) :
    (b.dispatcher.jobs.filter fun j =>
        decide (j.message = m) && decide ((b.subscriber j.subscriber).id = id)).length ≤ 1 ∧
      h.sent.count (m, id) ≤ 1 ∧
      ((b.dispatcher.jobs.filter fun j =>
        decide (j.message = m) && decide ((b.subscriber j.subscriber).id = id)) ≠ [] →
          (m, id) ∉ h.sent) := by
  have hone := (hr.once.copies m id).1
  rw [writesOf, queuedFor, List.countP_eq_length_filter] at hone
  refine ⟨?_, by omega, fun hne hmem => ?_⟩
  · exact Nat.le_trans (Nat.le_add_right _ _) hone
  · have h₁ := List.length_pos_iff.2 hne
    have h₂ := List.count_pos_iff.2 hmem
    change 0 < (b.dispatcher.jobs.filter (isFor b m id)).length at h₁
    omega

def readerRun : List Operation :=
  [.createSlot "stored", .createMessage 1 "news" "stored" "story" 0 0,
    .createSubscriber "reader" ⟨"news", .amqp, .topic⟩ "local" 1 default, .register ⟨0⟩,
    .track ⟨"news", .amqp, .topic⟩, .buffer [⟨0⟩] ⟨0⟩ ⟨0⟩, .flush [] 0 ⟨0⟩, .runJob 0,
    .requeue ⟨0⟩ .topic, .flush [] 0 ⟨0⟩, .shutdown]

theorem copy_written_once_readerRun :
    Follows workerRules topicTerms readerRun default default ∧
      (replay workerRules readerRun default default).2.sent = [(⟨0⟩, "reader")] ∧
      (replay workerRules readerRun default default).2.sent.count (⟨0⟩, "reader") ≤ 1 :=
  have hf : Follows workerRules topicTerms readerRun default default := by decide
  ⟨hf, by decide, (copy_written_once (Reaches.start.replay readerRun hf) ⟨0⟩ "reader").2.1⟩

end Courier
