import Courier.Proofs.Consuming
import Courier.Proofs.Isolation

namespace Courier

open Broker

def Message.consumed (x : Message) : Message := { x with buffered := false, settled := true }

namespace Broker

theorem find?_evict (b : Broker) (t : TrackerRef) (key : TrackedKey) :
    (b.evict t).find? key =
      if b.isTracked t = true ∧ key = (b.tracker t).key.tracked then none else b.find? key := by
  have hgone : (b.letGo t).tracked.get? key =
      if key = (b.tracker t).key.tracked then none else b.find? key := Dict.get?_erase _ _ _
  rw [find?, evict_eq]
  by_cases htracked : b.isTracked t = true
  · rw [if_pos htracked]
    split <;> simpa [htracked] using hgone
  · simp [htracked, find?]

theorem find?_evict_of_ne {b : Broker} {t v : TrackerRef} {key : TrackedKey} (hv : v ≠ t)
    (hfind : b.find? key = some v) : (b.evict t).find? key = some v := by
  rw [find?_evict, if_neg, hfind]
  -- no other tracker is in use for the same destination
  rintro ⟨htracked, rfl⟩
  exact hv (Option.some.inj (hfind.symm.trans ((isTracked_iff b t).1 htracked)))

theorem isTracked_evict (b : Broker) (t : TrackerRef) : (b.evict t).isTracked t = false := by
  rw [isTracked, (Sound.preserves_evict b t).key, find?_evict]
  split
  · rfl
  · next h =>
      refine decide_eq_false fun hfind => h ⟨?_, rfl⟩
      exact (isTracked_iff b t).2 hfind

theorem consumes_evict {b : Broker} {t : TrackerRef} (tracked : b.isTracked t = true)
    (topic : (b.tracker t).isTopic = true) : Consumes t Message.consumed b (b.evict t) := by
  rw [evict_eq, if_pos tracked, if_pos topic]
  refine ⟨fun v => ?_, fun m => ?_, fun p => ?_, by simp, by simp, by simp, by simp⟩
  · simp [tracker_drain]
  · rw [message_settleAll, message_drain, (letGo_frame b t).2.1, (letGo_frame b t).2.2.2.1]
    split <;> rfl
  · rw [pending_settleAll, unsettledAmong_congr fun m _ => isUnsettledIn_drain _ t p m]
    simp [unsettledAmong]

theorem consumes_of_empty {b : Broker} {t : TrackerRef} (consumed : Message → Message)
    (hempty : (b.tracker t).buffer = []) : Consumes t consumed b b := by
  have hsame : { b.tracker t with buffer := [] } = b.tracker t := by rw [← hempty]
  refine ⟨fun v => ?_, fun m => by simp [hempty], fun p => ?_, fun _ => rfl, rfl, rfl, rfl⟩
  · split
    · next hv => rw [hv, hsame]
    · rfl
  · simp [hempty, unsettledAmong]

def Welcomes (b : Broker) (t : TrackerRef) : Prop :=
  b.isTracked t = true ∨ (b.tracker t).isTopic = false

instance (b : Broker) (t : TrackerRef) : Decidable (b.Welcomes t) :=
  inferInstanceAs (Decidable (_ ∨ _))

def Cleared (b : Broker) : Prop :=
  ∀ t, (b.tracker t).isTopic = true → b.isTracked t = true ∨ (b.tracker t).buffer = []

def LandsWell (b : Broker) (j : Job) : Prop := j.policy = .discard ∨ b.Welcomes j.tracker

instance (b : Broker) (j : Job) : Decidable (b.LandsWell j) := inferInstanceAs (Decidable (_ ∨ _))

end Broker

/-- No messages come to a topic that was let go: no batch, and no copy that cannot be sent. -/
def letGoTerms (b : Broker) (_h : Journal) : Operation → Prop
  | .buffer _ _ t => b.Welcomes t
  | .runJob place => ∀ j ∈ b.dispatcher.jobs[place]?,
      (b.send j.subscriber j.message).1 = .sent ∨ b.LandsWell j
  | .shutdown => ∀ j ∈ b.dispatcher.jobs, b.LandsWell j
  | _ => True

instance (b : Broker) (h : Journal) : (op : Operation) → Decidable (letGoTerms b h op)
  | .buffer _ _ t => inferInstanceAs (Decidable (b.Welcomes t))
  | .runJob place => inferInstanceAs (Decidable (∀ j ∈ b.dispatcher.jobs[place]?,
      (b.send j.subscriber j.message).1 = .sent ∨ b.LandsWell j))
  | .shutdown => inferInstanceAs (Decidable (∀ j ∈ b.dispatcher.jobs, b.LandsWell j))
  | .createSlot _ | .createMessage .. | .createSubscriber .. | .connect .. | .register _
  | .unregister _ | .track _ | .rebuffer .. | .requeue .. | .flush .. | .send .. | .findNext ..
  | .clear _ | .purge .. | .acknowledge .. | .close | .deleteExpired _ => .isTrue trivial

namespace Broker

variable {r : Rules} {now : UInt64} {b b' : Broker} {h : Journal} {t : TrackerRef} {op : Operation}

theorem Preserves.welcomes (hp : Preserves b b') (ht : b'.tracked = b.tracked)
    (hw : b.Welcomes t) : b'.Welcomes t := by
  rwa [Welcomes, isTracked, find?, Tracker.isTopic, hp.key, ht]

theorem not_welcomes (untracked : b.isTracked t = false) (topic : (b.tracker t).isTopic = true) :
    ¬ b.Welcomes t := by
  simp [Welcomes, untracked, topic]

namespace Cleared

theorem step (hx : b.Cleared) (hp : Preserves b b') (htracked : b'.tracked = b.tracked)
    (hempty : ∀ t, ¬ b.Welcomes t → (b.tracker t).buffer = [] → (b'.tracker t).buffer = []) :
    b'.Cleared := by
  intro t topic
  have hkey := hp.key t
  rw [Tracker.isTopic, hkey] at topic
  rw [isTracked, find?, htracked, hkey]
  cases htr : b.isTracked t with
  | true => exact .inl htr
  | false =>
      refine .inr (hempty t (not_welcomes htr topic) ((hx t topic).resolve_left ?_))
      simp [htr]

theorem evict (hx : b.Cleared) (t : TrackerRef) : (b.evict t).Cleared := by
  intro v topic
  have hkey := (Sound.preserves_evict b t).key v
  rw [Tracker.isTopic, hkey] at topic
  rw [buffer_evict]
  by_cases hv : v = t
  · subst hv
    refine .inr ?_
    split
    · rfl
    · next h => exact (hx v topic).resolve_left fun htracked => h ⟨rfl, htracked, topic⟩
  · rw [if_neg fun h => hv h.1]
    refine (hx v topic).imp_left fun htracked => ?_
    rw [isTracked_iff, hkey]
    exact find?_evict_of_ne hv ((isTracked_iff b v).1 htracked)

theorem delivers (hx : b.Cleared) (hs : b.Sound) (ht : b.hasTracker t)
    (hd : Delivers r now t b b') : b'.Cleared := by
  have hp := hs.preserves_delivers ht hd
  have hout : ∀ v, v ≠ t → (b'.tracker v).buffer = (b.tracker v).buffer := fun v hv =>
    hs.buffer_delivers_of_ne ht hd hv
  cases hd with
  | letGo => exact hx.evict t
  | nothing => exact hx
  | pass heard full steps =>
      -- the buffer of this tracker is full, so it is not one of those that have to stay empty
      refine hx.step hp (Sound.tracked_passSteps steps) fun v _ hempty => ?_
      rwa [hout v fun hv => full (hv ▸ hempty)]

theorem trackNew (hx : b.Cleared) {key : DestinationKey} (hnone : b.find? key.tracked = none) :
    (b.trackNew key).Cleared := by
  intro v topic
  rw [buffer_trackNew, isTracked_iff, find?, find?_trackNew]
  rw [tracker_trackNew] at topic ⊢
  split at topic
  · next hv =>
      refine .inl ?_
      rw [if_pos hv]
      exact (if_pos rfl).trans (congrArg some (congrArg TrackerRef.mk hv.symm))
  · next hv =>
      refine (hx v topic).imp_left fun htracked => ?_
      rw [if_neg hv, if_neg]
      · exact (isTracked_iff b v).1 htracked
      · rintro he
        rw [isTracked_iff, he, hnone] at htracked
        cases htracked

theorem putBack (hx : b.Cleared) (hs : b.Sound) (key : TrackedKey) (l : List MessageRef)
    (r : Rules) : ((Operation.rebuffer key l).apply r b).Cleared := by
  rw [Operation.apply_rebuffer]
  split
  · next t ht =>
      have hp : Preserves b (l.foldl (returnToBuffer t) b) :=
        .foldl (fun b m => (Touches.returnToBuffer t b m).toPreserves) l b
      refine hx.step hp (Sound.tracked_foldl (Touches.returnToBuffer t) l b) fun v hv hempty => ?_
      refine List.eq_nil_iff_forall_not_mem.2 fun m hm => ?_
      obtain hm | ⟨rfl, -⟩ := mem_buffer_returned hm
      · simp [hempty] at hm
      · exact hv (.inl ((isTracked_iff b v).2 ((hs.tracked key v ht).2 ▸ ht)))
  · exact hx

theorem runJob (hx : b.Cleared) {place : Nat}
    (hj : ∀ j ∈ b.dispatcher.jobs[place]?,
      (b.send j.subscriber j.message).1 = .sent ∨ b.LandsWell j) : (b.runJob place).Cleared :=
  hx.step (Sound.preserves_runJob b place) (Sound.tracked_runJob b place) fun t ht hempty => by
    obtain he | ⟨j, h, rfl, hpolicy, hfailed, -⟩ := b.buffer_runJob place t
    · rw [he, hempty]
    · exact absurd ((hj j h).resolve_left hfailed) fun hl => hl.elim hpolicy ht

theorem shutdown (hx : b.Cleared) (hj : ∀ j ∈ b.dispatcher.jobs, b.LandsWell j) :
    b.shutdown.Cleared := by
  have hall : b.shutdown.Cleared ∧ ∀ j ∈ b.shutdown.dispatcher.jobs, b.shutdown.LandsWell j := by
    refine shutdown_induction (h := default)
      (P := fun c _ => c.Cleared ∧ ∀ j ∈ c.dispatcher.jobs, c.LandsWell j) ⟨hx, hj⟩ ?_
      fun _ _ hc => hc
    rintro c - ⟨hx, hj⟩
    refine ⟨hx.runJob fun j h => .inr (hj j (List.mem_of_getElem? h)), fun j h => ?_⟩
    rw [jobs_runJob] at h
    exact (hj j (List.mem_of_mem_eraseIdx h)).imp_right
      ((Sound.preserves_runJob c 0).welcomes (Sound.tracked_runJob c 0))
  exact hall.1

theorem apply (hx : b.Cleared) (hs : b.Sound) (hu : op.uses b) (ht : letGoTerms b h op)
    (r : Rules) : (op.apply r b).Cleared := by
  have hwork : op.isWork = true → op.Heard b →
      (∀ t, ¬ b.Welcomes t → (b.tracker t).buffer = [] → ((op.apply r b).tracker t).buffer = []) →
      (op.apply r b).Cleared := fun hw heard =>
    hx.step (hs.preserves hw hu r) (hs.tracked_apply hw heard r)
  have hquiet : op.isWork = true → op.Heard b → op.feeds = false → (op.apply r b).Cleared :=
    fun hw heard hfeeds => hwork hw heard fun t _ hempty =>
      List.eq_nil_iff_forall_not_mem.2 fun m hm => by
        simpa [hempty] using mem_buffer_apply hfeeds r hm
  cases op with
  | createMessage => exact Operation.createMessage_induction (P := Cleared) hx fun _ => hx
  | createSubscriber | register | unregister => exact hx
  | createSlot | connect | close | clear | purge | acknowledge | deleteExpired =>
      exact hquiet rfl trivial rfl
  | findNext t active =>
      by_cases hnobody : active = []
      · simpa [Operation.apply, Broker.findNext, hnobody] using hx.evict t
      · exact hquiet rfl hnobody rfl
  | track key =>
      rw [Operation.apply, track_eq]
      split
      · exact hx
      · next hnone => exact hx.trackNew hnone
  | buffer batch p t =>
      refine hwork rfl trivial fun v hv hempty => ?_
      rw [Operation.apply, bufferBatch, buffer_foldl_accept, if_neg]
      · exact hempty
      · rintro rfl
        exact hv ht
  | rebuffer key l => exact hx.putBack hs key l r
  | requeue m type => exact hx.putBack hs ⟨type, (b.message m).destination⟩ [m] r
  | flush vetoes now t => exact hx.delivers hs hu (flush_delivers b (hs.active_nodup t))
  | send vetoes now t => exact hx.delivers hs hu (sendBuffered_delivers b (hs.active_nodup t))
  | runJob place => exact hx.runJob ht
  | shutdown => exact hx.shutdown ht

end Cleared

theorem cleared_default : Cleared default := fun _ _ => .inr rfl

end Broker

theorem Reaches.cleared {r : Rules} {b : Broker} {h : Journal} (hr : Reaches r letGoTerms b h) :
    b.Cleared := by
  induction hr with
  | start => exact cleared_default
  | step op prior hu ht ih => exact ih.apply prior.sound hu ht r

namespace Broker

/-- A flush of a topic without subscribers answers false and takes no other tracker out of use. If
the topic is in use, or empty, then it is empty afterwards, and what it held is settled and struck
off its slot once. A topic that was let go is passed over with all that it holds. That it holds
nothing is so in every run in which no batch is buffered for a topic that was let go, and no copy of
it fails that is to be tried again. -/
theorem unheard_topic_consumed (r : Rules) (now : UInt64) {b : Broker} {t : TrackerRef}
    (topic : (b.tracker t).isTopic = true) (unheard : b.active t = []) :
    (b.flush r now t).1 = false ∧
      (∀ key v, v ≠ t → b.find? key = some v → (b.flush r now t).2.find? key = some v) ∧
      (b.flush r now t).2.isTracked t = false ∧
      (Consumes t Message.consumed b (b.flush r now t).2 ↔
        b.isTracked t = true ∨ (b.tracker t).buffer = []) ∧
      (b.isTracked t = false → (b.flush r now t).2 = b) ∧
      ∀ r' h, Reaches r' letGoTerms b h → b.isTracked t = true ∨ (b.tracker t).buffer = [] := by
  have hpassed : b.isTracked t = false → b.evict t = b := fun untracked => by
    rw [evict_eq, untracked]
    rfl
  rw [flush_unheard r now unheard]
  refine ⟨rfl, fun key v hv => find?_evict_of_ne hv, isTracked_evict b t, ⟨fun h => ?_, ?_⟩,
    hpassed, fun r' h hr => hr.cleared t topic⟩
  · cases htracked : b.isTracked t with
    | true => exact .inl rfl
    | false =>
        dsimp only at h
        rw [hpassed htracked] at h
        exact .inr h.buffer
  · rintro htracked
    cases hused : b.isTracked t with
    | true => exact consumes_evict hused topic
    | false =>
        dsimp only
        rw [hpassed hused]
        exact consumes_of_empty _ (htracked.resolve_left (by simp [hused]))

/-- A story is flushed to a reader who then leaves, and another one waits. -/
def leftRun : List Operation :=
  [.createSlot "stored", .createMessage 1 "news" "stored" "story" 0 0,
    .createMessage 2 "news" "stored" "report" 0 0,
    .createSubscriber "reader" ⟨"news", .amqp, .topic⟩ "local" 1
      ⟨[.failed (.disconnected "reader")], .record []⟩,
    .register ⟨0⟩, .track ⟨"news", .amqp, .topic⟩, .buffer [⟨0⟩, ⟨1⟩] ⟨0⟩ ⟨0⟩, .flush [] 0 ⟨0⟩,
    .unregister "reader"]

theorem unheard_topic_consumed_leftRun :
    let b := (replay workerRules leftRun default default).1
    Follows workerRules letGoTerms leftRun default default ∧ (b.tracker ⟨0⟩).isTopic = true ∧
      b.active ⟨0⟩ = [] ∧ (b.tracker ⟨0⟩).buffer = [⟨1⟩] ∧ (b.slot ⟨0⟩).pending.toNat = 2 ∧
      (b.flush workerRules 0 ⟨0⟩).1 = false ∧
      ((b.flush workerRules 0 ⟨0⟩).2.tracker ⟨0⟩).buffer = [] ∧
      ((b.flush workerRules 0 ⟨0⟩).2.message ⟨1⟩).settled = true ∧
      ((b.flush workerRules 0 ⟨0⟩).2.slot ⟨0⟩).pending.toNat = 1 := by
  intro b
  have hf : Follows workerRules letGoTerms leftRun default default := by decide
  have htopic : (b.tracker ⟨0⟩).isTopic = true := by decide
  have hunheard : b.active ⟨0⟩ = [] := by decide
  obtain ⟨hanswer, -, -, hconsumes, -, hruns⟩ :=
    unheard_topic_consumed workerRules 0 htopic hunheard
  have h := hconsumes.2 (hruns workerRules _ (Reaches.start.replay leftRun hf))
  refine ⟨hf, htopic, hunheard, by decide, by decide, hanswer, h.buffer, ?_,
    (h.pending ⟨0⟩).trans (by decide)⟩
  rw [h.message]
  decide

/-- The copy fails once the topic was let go, and nothing takes it out of that buffer again. -/
theorem stuck_leftRun :
    ¬ ∀ (r : Rules) (b : Broker) (h : Journal), Reaches r (fun _ _ _ => True) b h →
      ∀ (now : UInt64) (t : TrackerRef), (b.tracker t).isTopic = true → b.active t = [] →
        ((b.flush r now t).2.tracker t).buffer = [] := by
  intro hall
  have hr : Reaches workerRules (fun _ _ _ => True)
      (replay workerRules (leftRun ++ [.flush [] 0 ⟨0⟩, .runJob 0]) default default).1
      (replay workerRules (leftRun ++ [.flush [] 0 ⟨0⟩, .runJob 0]) default default).2 :=
    Reaches.start.replay _ (by decide)
  exact absurd (hall _ _ _ hr 0 ⟨0⟩ (by decide) (by decide)) (by decide)

end Broker

end Courier
