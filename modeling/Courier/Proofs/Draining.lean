import Courier.Proofs.QueueProgress
import Courier.Proofs.Recoverable
import Courier.Proofs.Still

namespace Courier

open Broker
open Relation (ReflTransGen)

namespace Message

def isAnswered (x : Message) : Bool := x.recipients.values.any RecipientStatus.isFinal

variable {x y : Message} {id : SubscriberId}

theorem not_isFinal_of_not_isAnswered (h : x.isAnswered = false) (id : SubscriberId) :
    (x.status? id).any RecipientStatus.isFinal = false := by
  cases hs : x.status? id with
  | none => rfl
  | some status =>
      have hmem : status ∈ x.recipients.values := List.mem_map_of_mem (Dict.mem_of_get? hs)
      exact Bool.eq_false_iff.2 (List.any_eq_false.1 h status hmem)

theorem awaits_of_not_isHeldBy (hf : (x.status? id).any RecipientStatus.isFinal = false)
    (hh : x.isHeldBy id = false) : x.awaits id = true := by
  rw [isHeldBy] at hh
  unfold awaits
  cases hs : x.status? id with
  | none => rfl
  | some status =>
      cases status <;> simp_all [RecipientStatus.isFinal, RecipientStatus.isOutstanding]

theorem awaits_forget {s : SubscriberId} (h : id ≠ s → x.awaits id = true) :
    (x.forget s).awaits id = true := by
  have hstatus : (x.forget s).status? id = if id = s then none else x.status? id :=
    Dict.get?_erase _ _ _
  by_cases hid : id = s
  · rw [awaits_iff, hstatus, if_pos hid]
    exact .inl rfl
  · rw [if_neg hid] at hstatus
    exact (Broker.awaits_congr hstatus).trans (h hid)

end Message

namespace Standing

variable {st st' : Standing} {t : TrackerRef} {e : Event}

def Unanswered (st : Standing) : Prop :=
  ∀ id, (st.message.status? id).any RecipientStatus.isFinal = false

structure Prompt (st : Standing) : Prop extends Exclusive st where
  awaited : st.message.buffered = true → ∀ id, st.message.awaits id = true

/-- The event brings nothing back that was acknowledged, and is no acknowledgement of a message that
is buffered. -/
def Timely (st : Standing) : Event → Prop
  | .accepted _ | .returned .. | .failed _ => st.Unanswered
  | .acknowledged .. => st.message.buffered = false
  | _ => True

theorem Unanswered.withdraw (hu : st.Unanswered) (tidy : st.message.Tidy) :
    st.withdraw.Unanswered := fun id => by
  rw [Standing.withdraw, Message.status?_withdrawOutstanding tidy]
  split
  · rfl
  · exact hu id

theorem Unanswered.returned (hu : st.Unanswered) (tidy : st.message.Tidy) (t : TrackerRef)
    (topic : Bool) : ((if topic = true then st else st.withdraw).rebuffer t).Unanswered := by
  have hopen : (if topic = true then st else st.withdraw).Unanswered := by
    split
    · exact hu
    · exact hu.withdraw tidy
  intro id
  rw [message_rebuffer]
  exact hopen id

theorem awaits_fail {a : Attempt} (hp : a.policy = .rebuffer) {id : SubscriberId}
    (h : id ≠ a.subscriber → st.message.awaits id = true) :
    (st.fail a).message.awaits id = true := by
  rw [fail, hp]
  dsimp only
  rw [message_rebuffer]
  exact Message.awaits_forget h

theorem buffered_acknowledge (st : Standing) (id : SubscriberId) (type : DestinationType) :
    (if type = .topic then (st.setStatus id .acknowledged).settleIfComplete
      else (st.setStatus id .acknowledged).settle).message.buffered = st.message.buffered := by
  unfold settleIfComplete
  split
  · split <;> rfl
  · rfl

theorem Prompt.step (hx : st.Prompt) (hs : st.Step e st') (he : st.Spares e) (ht : st.Timely e) :
    st'.Prompt := by
  refine ⟨hx.toExclusive.step hs he, ?_⟩
  cases hs with
  | made before new =>
      intro _ id
      rw [← new]
      rfl
  | accepted p t => exact fun _ id => Message.awaits_of_not_isHeldBy (ht id) (he.2 id)
  | returned t topic =>
      obtain rfl : topic = false := he
      have hfree := (hx.toExclusive.withdraw).2
      have hopen := Unanswered.withdraw ht hx.faithful.tidy
      intro _ id
      rw [message_rebuffer]
      exact Message.awaits_of_not_isHeldBy (hopen id) (hfree id)
  | acknowledged id type =>
      have hout : st.message.buffered = false := ht
      intro hb
      rw [buffered_acknowledge, hout] at hb
      exact absurd hb Bool.false_ne_true
  | @written a rest taken =>
      unfold deliver
      split
      · next hs =>
          intro hb
          have hheld : st.message.awaits a.subscriber = true := hx.awaited hb a.subscriber
          obtain hnone | hfailed := Message.awaits_iff.1 hheld
          · exact absurd (hs.symm.trans hnone) nofun
          · exact absurd (hs.symm.trans hfailed) nofun
      · exact hx.awaited
  | @failed a rest taken =>
      have hp : a.policy = .rebuffer := hx.rebuffers a (taken.subset List.mem_cons_self)
      intro _ id
      refine awaits_fail hp fun hid => Message.awaits_of_not_isHeldBy (ht id) ?_
      exact Bool.eq_false_iff.2 fun hheld => hid (he id hheld)
  | @offered st' t id outcome buffered handled =>
      have hout : (st.unbuffer t).message.buffered = false := buffered_unbuffer buffered
      have hall : ∀ u, (st.unbuffer t).message.awaits u = true := fun u => by
        rw [Broker.awaits_congr (congrArg (fun d : Dict _ _ => d.get? u) (unbuffer_frame st t).1 :)]
        exact hx.awaited (hx.placed t buffered).1 u
      cases handled with
      | purged | marked | expired | vetoed | dispatched =>
          exact fun hb => absurd (hout.symm.trans hb) nofun
      | alreadyInFlight =>
          intro _ u
          rw [afterOffer, message_rebuffer]
          exact hall u
      | failed =>
          intro _ u
          refine awaits_fail (a := ⟨id, t, .rebuffer⟩) rfl fun hu => ?_
          have hset : ((st.unbuffer t).message.setStatus id .scheduled).status? u =
              (st.unbuffer t).message.status? u := by
            rw [Message.status?_setStatus, if_neg hu]
          exact (Broker.awaits_congr hset).trans (hall u)
  | spread | overrun | retired | evicted => exact absurd he id
  | cleared buffered | purged buffered =>
      intro hb
      unfold Standing.drain at hb
      rw [if_pos buffered] at hb
      exact absurd hb nofun
  | deleted | lost => exact hx.awaited

end Standing

namespace Broker

def FailsUnanswered (b : Broker) (place : Nat) : Prop :=
  ∀ j ∈ b.dispatcher.jobs[place]?, (b.send j.subscriber j.message).1 ≠ .sent →
    (b.message j.message).isAnswered = false

instance (b : Broker) (place : Nat) : Decidable (b.FailsUnanswered place) :=
  inferInstanceAs (Decidable (∀ j ∈ b.dispatcher.jobs[place]?,
    (b.send j.subscriber j.message).1 ≠ .sent → (b.message j.message).isAnswered = false))

end Broker

def Operation.Timely (b : Broker) : Operation → Prop
  | .buffer l _ _ | .rebuffer _ l => ∀ m ∈ l, (b.message m).isAnswered = false
  | .requeue m _ => (b.message m).isAnswered = false
  | .acknowledge _ m _ => (b.message m).buffered = false
  | .runJob place => b.FailsUnanswered place
  | .shutdown => ∀ n < b.pendingJobs, (b.run n).2.FailsUnanswered 0
  | _ => True

instance (b : Broker) : (op : Operation) → Decidable (op.Timely b)
  | .buffer l _ _ | .rebuffer _ l =>
      inferInstanceAs (Decidable (∀ m ∈ l, (b.message m).isAnswered = false))
  | .requeue m _ => inferInstanceAs (Decidable ((b.message m).isAnswered = false))
  | .acknowledge _ m _ => inferInstanceAs (Decidable ((b.message m).buffered = false))
  | .runJob place => inferInstanceAs (Decidable (b.FailsUnanswered place))
  | .shutdown => inferInstanceAs (Decidable (∀ n < b.pendingJobs, (b.run n).2.FailsUnanswered 0))
  | .createSlot _ | .createMessage .. | .createSubscriber .. | .connect .. | .register _
  | .unregister _ | .track _ | .flush .. | .send .. | .findNext .. | .clear _ | .purge .. | .close
  | .deleteExpired _ => .isTrue trivial

def promptTerms (b : Broker) (h : Journal) (op : Operation) : Prop :=
  exclusiveTerms b h op ∧ op.Timely b

instance (b : Broker) (h : Journal) (op : Operation) : Decidable (promptTerms b h op) :=
  inferInstanceAs (Decidable (_ ∧ _))

variable {r : Rules} {b : Broker} {h : Journal} {op : Operation} {m : MessageRef} {t : TrackerRef}

namespace Broker

def Prompt (b : Broker) (h : Journal) : Prop := ∀ m, (b.standing h m).Prompt

theorem Prompt.exclusive (hx : b.Prompt h) : b.Exclusive h := fun m => (hx m).toExclusive

theorem Prompt.runJob (hx : b.Prompt h) (hs : b.Sound) (hd : b.Distinct) {place : Nat}
    (alone : b.FailsAlone place) (unanswered : b.FailsUnanswered place) :
    (b.runJob place).Prompt (h.runJob b place) := fun m => by
  obtain he | ⟨j, hj, rfl, ⟨-, hstep⟩ | ⟨hfailed, hstep⟩⟩ := standing_runJob hs hd h place m
  · rw [he]; exact hx m
  · exact (hx _).step hstep trivial trivial
  · refine (hx _).step hstep (fun id hid => ?_)
      (Message.not_isFinal_of_not_isAnswered (unanswered j hj hfailed))
    exact alone j hj hfailed id ((Message.mem_outstanding (hs.tidy _) id).2 hid)

theorem Prompt.shutdown (hx : b.Prompt h) (hs : b.Sound) (hd : b.Distinct)
    (alone : ∀ n < b.pendingJobs, (b.run n).2.FailsAlone 0)
    (unanswered : ∀ n < b.pendingJobs, (b.run n).2.FailsUnanswered 0) :
    b.shutdown.Prompt (.run b.pendingJobs b h) :=
  (shutdown_steps (P := fun c hc => c.Sound ∧ c.Distinct ∧ c.Prompt hc) ⟨hs, hd, hx⟩
    (fun n hn _ ⟨hs, hd, hx⟩ =>
      ⟨hs.runJob 0, hd.runJob hs 0, hx.runJob hs hd (alone n hn) (unanswered n hn)⟩)
    fun _ _ ⟨hs, hd, hx⟩ => ⟨hs.close, hd, hx⟩).2.2

theorem Prompt.apply (hx : b.Prompt h) (hs : b.Sound) (hd : b.Distinct) (hq : b.PointToPoint)
    (hu : op.uses b) (ht : promptTerms b h op) (r : Rules) :
    (op.apply r b).Prompt (op.record b h) := by
  -- `K` tells what the host knew of the message, as far as it is needed for the next event.
  have hmoves : (∀ batch p t, op ≠ .buffer batch p t) → (∀ place, op ≠ .runJob place) →
      op ≠ .shutdown → ∀ m (K : Standing → Prop), K (b.standing h m) →
      (∀ e st st', op.Brings r b m e → st.Prompt → st.Step e st' → K st → st.Timely e ∧ K st') →
      ((op.apply r b).standing (op.record b h) m).Prompt := fun h₁ h₂ h₃ m K start keep =>
    (op.standing_apply (P := fun st => st.Prompt ∧ K st) hs hd hu ⟨hx m, start⟩
      fun e st st' hbrings hstep ⟨hp, hK⟩ => by
        obtain ⟨htimely, hK'⟩ := keep e st st' hbrings hp hstep hK
        exact ⟨hp.step hstep (hbrings.spares hq h₁ h₂ h₃ st) htimely, hK'⟩).1
  obtain ⟨hterms, htimely⟩ := ht
  cases op with
  | buffer batch p t =>
      have hexclusive := hx.exclusive.apply hs hd hq hu hterms r
      refine fun m => ⟨hexclusive m, ?_⟩
      -- The batch changes no record, so its messages are as they were when it came.
      refine ((Operation.buffer batch p t).standing_apply (P := fun st =>
        (st.message.buffered = true → ∀ id, st.message.awaits id = true) ∧
          (m ∈ batch → ∀ id, st.message.awaits id = true)) hs hd hu
        ⟨(hx m).awaited, fun hm id => ?_⟩ fun e st st' hbrings hstep ⟨_, hawaits⟩ => ?_).1
      · have hfree : id ∉ (b.message m).outstanding := by
          rw [(hterms.1.2 m hm).2]
          exact List.not_mem_nil
        refine Message.awaits_of_not_isHeldBy
          (Message.not_isFinal_of_not_isAnswered (htimely m hm) id) ?_
        exact Bool.eq_false_iff.2 fun hheld =>
          hfree ((Message.mem_outstanding (hs.tidy m) id).2 hheld)
      · cases hbrings with
        | accepted hm =>
            cases hstep with
            | accepted p t => exact ⟨fun _ => hawaits hm, hawaits⟩
        | offered hop | spread hop | overrun hop | retired hop | evicted hop => exact nomatch hop
  | rebuffer key l =>
      refine fun m => hmoves nofun nofun nofun m (fun st => m ∈ l → st.Unanswered)
        (fun hm => Message.not_isFinal_of_not_isAnswered (htimely m hm))
        fun e st st' hbrings hp hstep hK => ?_
      cases hbrings with
      | rebuffered hm =>
          cases hstep with
          | returned t topic => exact ⟨hK hm, fun _ => (hK hm).returned hp.faithful.tidy _ _⟩
      | offered hop | spread hop | overrun hop | retired hop | evicted hop => exact nomatch hop
  | requeue n type =>
      refine fun m => hmoves nofun nofun nofun m (fun st => m = n → st.Unanswered)
        (fun hm => hm ▸ Message.not_isFinal_of_not_isAnswered htimely)
        fun e st st' hbrings hp hstep hK => ?_
      cases hbrings with
      | requeued =>
          cases hstep with
          | returned t topic => exact ⟨hK rfl, fun _ => (hK rfl).returned hp.faithful.tidy _ _⟩
      | offered hop | spread hop | overrun hop | retired hop | evicted hop => exact nomatch hop
  | acknowledge s n type =>
      refine fun m => hmoves nofun nofun nofun m (fun st => m = n → st.message.buffered = false)
        (fun hm => hm ▸ htimely) fun e st st' hbrings hp hstep hK => ?_
      cases hbrings with
      | acknowledged =>
          cases hstep with
          | acknowledged => exact ⟨hK rfl, fun _ => (st.buffered_acknowledge _ _).trans (hK rfl)⟩
      | offered hop | spread hop | overrun hop | retired hop | evicted hop => exact nomatch hop
  | runJob place => exact hx.runJob hs hd hterms.2 htimely
  | shutdown => exact hx.shutdown hs hd hterms.2 htimely
  | _ =>
      exact fun m => hmoves nofun nofun nofun m (fun _ => True) trivial fun e _ _ hbrings _ _ _ =>
        ⟨by cases hbrings <;> trivial, trivial⟩

theorem prompt_default : (default : Broker).Prompt default := fun m =>
  ⟨⟨faithful_default m, fun _ ht => absurd ht (Nat.lt_irrefl 0), fun _ _ => rfl,
    fun _ _ h => absurd h Bool.false_ne_true, fun _ ha => nomatch ha⟩,
    fun h => absurd h Bool.false_ne_true⟩

end Broker

theorem Reaches.prompt (hr : Reaches r promptTerms b h) : b.PointToPoint ∧ b.Prompt h := by
  induction hr with
  | start => exact ⟨fun _ => rfl, prompt_default⟩
  | step op prior hu ht ih =>
      have hd := prior.distinct fun _ _ _ ht => distinguishes_of_pointToPointTerms ht.1.1
      exact ⟨ih.1.apply prior.sound hu ht.1.1 r, ih.2.apply prior.sound hd ih.1 hu ht r⟩

def Event.fills (t : TrackerRef) : Event → Prop
  | .accepted u | .returned u _ => u = t
  | .failed a => a.tracker = t
  | .spread .. => True
  | _ => False

namespace Standing

variable {st st' : Standing} {e : Event} {a : Attempt} {u : TrackerRef}

theorem places_unbuffer (st : Standing) (u t : TrackerRef) :
    (st.unbuffer u).places t = if t = u then st.places t - 1 else st.places t := by
  unfold unbuffer
  split
  · rfl
  · next hp =>
      split
      · next ht =>
          subst ht
          rw [Nat.eq_zero_of_not_pos hp]
      · rfl

theorem places_unbuffer_le (st : Standing) (u t : TrackerRef) :
    (st.unbuffer u).places t ≤ st.places t := by
  rw [places_unbuffer]
  split
  · exact Nat.sub_le _ _
  · exact Nat.le_refl _

theorem places_drain_le (st : Standing) (u t : TrackerRef) :
    (st.drain u).places t ≤ st.places t := by
  unfold drain
  split
  · dsimp only
    split
    · exact Nat.zero_le _
    · exact Nat.le_refl _
  · exact Nat.le_refl _

theorem places_rebuffer_le (st : Standing) (u t : TrackerRef) :
    (st.rebuffer u).places t ≤ if t = u then st.places t + 1 else st.places t := by
  unfold rebuffer
  split
  · split
    · exact Nat.le_succ _
    · exact Nat.le_refl _
  · exact Nat.le_refl _

theorem places_fail_le (st : Standing) (a : Attempt) (t : TrackerRef) :
    (st.fail a).places t ≤ if t = a.tracker then st.places t + 1 else st.places t := by
  unfold fail
  split
  · exact places_rebuffer_le { st with message := st.message.forget a.subscriber } a.tracker t
  · exact places_rebuffer_le (st.setStatus a.subscriber .failed) a.tracker t
  · have hsame : (st.setStatus a.subscriber .discarded).settleIfComplete.places = st.places := by
      unfold settleIfComplete
      split <;> rfl
    rw [hsame]
    split
    · exact Nat.le_succ _
    · exact Nat.le_refl _

theorem places_offered {id : SubscriberId} {outcome : FilterOutcome} (buffered : 0 < st.places u)
    (handled : Handled ⟨id, u, .rebuffer⟩ (st.unbuffer u) outcome st') (t : TrackerRef) :
    (st'.afterOffer u outcome).places t ≤ st.places t := by
  have hout := st.places_unbuffer u t
  have hback : (if t = u then (st.unbuffer u).places t + 1 else (st.unbuffer u).places t) ≤
      st.places t := by
    by_cases ht : t = u
    · subst ht
      rw [if_pos rfl] at hout ⊢
      omega
    · rw [if_neg ht] at hout ⊢
      exact Nat.le_of_eq hout
  cases handled with
  | purged | marked | expired | vetoed | dispatched => exact st.places_unbuffer_le u t
  | alreadyInFlight => exact Nat.le_trans (places_rebuffer_le _ u t) hback
  | failed =>
      refine Nat.le_trans ?_ hback
      exact places_fail_le ((st.unbuffer u).setStatus id .scheduled) ⟨id, u, .rebuffer⟩ t

theorem Step.places_le (hs : st.Step e st') (he : ¬ e.fills t) : st'.places t ≤ st.places t := by
  cases hs with
  | made | overrun | deleted | lost => exact Nat.le_refl _
  | accepted p u => exact Nat.le_of_eq (if_neg fun ht => he ht.symm)
  | returned u topic =>
      refine Nat.le_trans (places_rebuffer_le _ u t) ?_
      rw [if_neg fun ht => he ht.symm]
      split <;> exact Nat.le_refl _
  | acknowledged id type =>
      unfold settleIfComplete
      split
      · split <;> exact Nat.le_refl _
      · exact Nat.le_refl _
  | written =>
      unfold deliver
      split <;> exact Nat.le_refl _
  | @failed a rest taken =>
      refine Nat.le_trans (places_fail_le { st with attempts := rest } a t) ?_
      exact Nat.le_of_eq (if_neg fun ht => he ht.symm)
  | offered buffered handled => exact places_offered buffered handled t
  | spread => exact absurd trivial he
  | @retired u ids heard handedOff buffered =>
      have hsame : (st.unbuffer u).settleIfComplete.places = (st.unbuffer u).places := by
        unfold settleIfComplete
        split <;> rfl
      rw [hsame]
      exact st.places_unbuffer_le u t
  | evicted | cleared | purged => exact st.places_drain_le _ t

end Standing

def Operation.fills (b : Broker) (t : TrackerRef) : Operation → Prop
  | .buffer _ _ u => u = t
  | .rebuffer key _ => b.find? key = some t
  | .requeue m type => b.find? ⟨type, (b.message m).destination⟩ = some t
  | .runJob place => ∃ j ∈ b.dispatcher.jobs[place]?, j.tracker = t ∧
      (b.send j.subscriber j.message).1 ≠ .sent
  | .shutdown => ∃ j ∈ b.dispatcher.jobs, j.tracker = t
  | _ => False

instance (b : Broker) (t : TrackerRef) : (op : Operation) → Decidable (op.fills b t)
  | .buffer _ _ u => inferInstanceAs (Decidable (u = t))
  | .rebuffer key _ => inferInstanceAs (Decidable (b.find? key = some t))
  | .requeue m type =>
      inferInstanceAs (Decidable (b.find? ⟨type, (b.message m).destination⟩ = some t))
  | .runJob place => inferInstanceAs (Decidable (∃ j ∈ b.dispatcher.jobs[place]?, j.tracker = t ∧
      (b.send j.subscriber j.message).1 ≠ .sent))
  | .shutdown => inferInstanceAs (Decidable (∃ j ∈ b.dispatcher.jobs, j.tracker = t))
  | .createSlot _ | .createMessage .. | .createSubscriber .. | .connect .. | .register _
  | .unregister _ | .track _ | .flush .. | .send .. | .findNext .. | .clear _ | .purge ..
  | .acknowledge .. | .close | .deleteExpired _ => .isFalse id

theorem Operation.Brings.not_fills {e : Event} (hbrings : op.Brings r b m e) (hq : b.PointToPoint)
    (hrun : ∀ place, op ≠ .runJob place) (hshutdown : op ≠ .shutdown) (he : ¬ op.fills b t) :
    ¬ e.fills t := by
  cases hbrings with
  | accepted => exact he
  | rebuffered hm ht => exact fun hu => he (hu ▸ ht)
  | requeued ht => exact fun hu => he (hu ▸ ht)
  | failed => exact absurd rfl (hrun _)
  | lastFailed => exact absurd rfl hshutdown
  | spread _ topic =>
      rw [hq] at topic
      exact absurd topic Bool.false_ne_true
  | _ => exact id

namespace Broker

theorem count_runJob (hs : b.Sound) (hd : b.Distinct) {place : Nat}
    (he : ¬ (Operation.runJob place).fills b t) (m : MessageRef) :
    ((b.runJob place).tracker t).buffer.count m ≤ (b.tracker t).buffer.count m := by
  obtain hsame | ⟨j, hj, rfl, ⟨-, hstep⟩ | ⟨hfailed, hstep⟩⟩ :=
    standing_runJob hs hd default place m
  · exact Nat.le_of_eq (congrFun (congrArg Standing.places hsame) t)
  · exact hstep.places_le (t := t) id
  · exact hstep.places_le fun ht => he ⟨j, hj, ht, hfailed⟩

theorem count_apply (hs : b.Sound) (hd : b.Distinct) (hq : b.PointToPoint) (hu : op.uses b)
    (he : ¬ op.fills b t) (r : Rules) (m : MessageRef) :
    ((op.apply r b).tracker t).buffer.count m ≤ (b.tracker t).buffer.count m := by
  have hmoves : (∀ place, op ≠ .runJob place) → op ≠ .shutdown →
      ((op.apply r b).standing (op.record b default) m).places t ≤ (b.tracker t).buffer.count m :=
    fun h₁ h₂ => op.standing_apply (h := default)
      (P := fun st => st.places t ≤ (b.tracker t).buffer.count m) hs hd hu (Nat.le_refl _)
      fun e st st' hbrings hstep hle =>
        Nat.le_trans (hstep.places_le (hbrings.not_fills hq h₁ h₂ he)) hle
  cases op with
  | runJob place => exact count_runJob hs hd he m
  | shutdown =>
      refine (shutdown_induction (h := default) (P := fun c _ => c.Sound ∧ c.Distinct ∧
        (∀ j ∈ c.dispatcher.jobs, j.tracker ≠ t) ∧
        (c.tracker t).buffer.count m ≤ (b.tracker t).buffer.count m)
        ⟨hs, hd, fun j hj ht => he ⟨j, hj, ht⟩, Nat.le_refl _⟩ ?_ fun _ _ hc => ?_).2.2.2
      · intro c _ ⟨hsc, hdc, hother, hle⟩
        have hfills : ¬ (Operation.runJob 0).fills c t := fun ⟨j, hj, ht, _⟩ =>
          hother j (List.mem_of_getElem? hj) ht
        refine ⟨hsc.runJob 0, hdc.runJob hsc 0, fun j hj => ?_,
          Nat.le_trans (count_runJob hsc hdc hfills m) hle⟩
        rw [jobs_runJob] at hj
        exact hother j (List.mem_of_mem_eraseIdx hj)
      · exact ⟨hc.1.close, hc.2⟩
  | _ => exact hmoves nofun nofun

theorem length_buffer_apply (hs : b.Sound) (hd : b.Distinct) (hq : b.PointToPoint) (hu : op.uses b)
    (he : ¬ op.fills b t) (r : Rules) :
    ((op.apply r b).tracker t).buffer.length ≤ (b.tracker t).buffer.length :=
  (List.subperm_ext_iff.2 fun m _ => count_apply hs hd hq hu he r m).length_le

/-- A flush with nothing in its way takes a message out, if there is one. -/
theorem Prompt.length_buffer_flush (hx : b.Prompt h) (hq : b.PointToPoint) (ready : Ready r t b)
    (now : UInt64) :
    ((b.flush r now t).2.tracker t).buffer.length ≤ (b.tracker t).buffer.length - 1 := by
  by_cases full : (b.tracker t).buffer = []
  · rw [flush_of_empty ready.heard full, full]
    exact Nat.zero_le _
  · cases flush_advances (hq t) ready full now with
    | shorter fewer => exact Nat.le_sub_one_of_lt fewer
    | rotated m rest s front turn recorded =>
        have hplace : 0 < (b.tracker t).buffer.count m := List.count_pos_iff.2 (by simp [front])
        have hawaits := (hx m).awaited ((hx m).placed t hplace).1 (b.subscriber s).id
        exact absurd (hawaits.symm.trans recorded) nofun

end Broker

def Operation.flushes (t : TrackerRef) : Operation → Bool
  | .flush _ _ u => decide (u = t)
  | _ => false

def drainTerms (r : Rules) (t : TrackerRef) (b : Broker) (h : Journal) (op : Operation) : Prop :=
  promptTerms b h op ∧ ¬ op.fills b t ∧ (op.flushes t = true → Ready r t b)

instance (r : Rules) (t : TrackerRef) (b : Broker) (h : Journal) (op : Operation) :
    Decidable (drainTerms r t b h op) :=
  inferInstanceAs (Decidable (_ ∧ _ ∧ _))

theorem length_buffer_step (hr : Reaches r promptTerms b h) (hu : op.uses b)
    (ht : drainTerms r t b h op) :
    ((op.apply r b).tracker t).buffer.length ≤
      (b.tracker t).buffer.length - (op.flushes t).toNat := by
  obtain ⟨hprompt, hfills, hready⟩ := ht
  obtain ⟨hq, hx⟩ := hr.prompt
  have hd := hr.distinct fun _ _ _ ht => distinguishes_of_pointToPointTerms ht.1.1
  have hle := length_buffer_apply hr.sound hd hq hu hfills r
  cases op with
  | flush vetoes now u =>
      by_cases hut : u = t
      · subst hut
        have hr' : Ready { r with vetoes } u b := by
          obtain ⟨h₁, h₂, h₃, h₄⟩ := hready (decide_eq_true rfl)
          exact ⟨h₁, h₂, h₃, h₄⟩
        rw [Operation.flushes, decide_eq_true rfl]
        exact hx.length_buffer_flush hq hr' now
      · rw [Operation.flushes, decide_eq_false hut]
        exact hle
  | _ => exact hle

/-- A flush with nothing in its way brings a queue's buffer nearer to its end, unless the front
message is on record for the subscriber in turn: then it goes to the back. As long as no
acknowledgement comes late there is no such record, and each flush takes one message out until none
is left. -/
theorem queue_drains (r : Rules) (t : TrackerRef) :
    (∀ (b : Broker) (now : UInt64), (b.tracker t).isTopic = false → Ready r t b →
      (b.tracker t).buffer ≠ [] → Advances t b (b.flush r now t).2) ∧
    ∀ (b : Broker) (h : Journal) (l : List Operation), Reaches r promptTerms b h →
      Follows r (drainTerms r t) l b h →
      ((replay r l b h).1.tracker t).buffer.length ≤
        (b.tracker t).buffer.length - l.countP (Operation.flushes t) := by
  refine ⟨fun b now queue ready full => flush_advances queue ready full now, fun b h l hr hl => ?_⟩
  induction l generalizing b h with
  | nil => exact Nat.le_refl _
  | cons op l ih =>
      obtain ⟨⟨hu, ht⟩, hl⟩ := hl
      have hstep := length_buffer_step hr hu ht
      have hrest := ih _ _ (hr.step op hu ht.1) hl
      rw [replay, List.countP_cons]
      cases hflushes : op.flushes t with
      | false | true =>
          rw [hflushes] at hstep
          simp only [Bool.toNat_false, Bool.toNat_true, Bool.false_eq_true, if_true,
            if_false] at hstep ⊢
          omega

def ordersRun : List Operation :=
  [.createSlot "stored", .createMessage 1 "orders" "stored" "book" 0 0,
    .createMessage 2 "orders" "stored" "pen" 0 0,
    .createSubscriber "worker" ⟨"orders", .amqp, .queue⟩ "local" 1 default, .register ⟨0⟩,
    .track ⟨"orders", .amqp, .queue⟩, .buffer [⟨0⟩, ⟨1⟩] ⟨0⟩ ⟨0⟩]

def servedRun : List Operation :=
  [.flush [] 0 ⟨0⟩, .runJob 0, .acknowledge ⟨0⟩ ⟨0⟩ .queue, .flush [] 0 ⟨0⟩]

theorem queue_drains_servedRun :
    Follows workerRules promptTerms ordersRun default default ∧
      Ready workerRules ⟨0⟩ (replay workerRules ordersRun default default).1 ∧
      Advances ⟨0⟩ (replay workerRules ordersRun default default).1
        ((replay workerRules ordersRun default default).1.flush workerRules 0 ⟨0⟩).2 ∧
      ((replay workerRules (ordersRun ++ servedRun) default default).1.tracker ⟨0⟩).buffer.length ≤
        2 - 2 := by
  have hf : Follows workerRules promptTerms ordersRun default default := by decide
  have hready : Ready workerRules ⟨0⟩ (replay workerRules ordersRun default default).1 := by decide
  obtain ⟨hflush, hdrains⟩ := queue_drains workerRules ⟨0⟩
  refine ⟨hf, hready, hflush _ 0 (by decide) hready (by decide), ?_⟩
  rw [replay_append]
  exact hdrains _ _ servedRun (Reaches.start.replay ordersRun hf) (by decide)

/-- An order is put back after it was written, and only then acknowledged by its worker. -/
def answeredRun : List Operation :=
  [.createSlot "stored", .createMessage 1 "orders" "stored" "book" 0 0,
    .createSubscriber "worker" ⟨"orders", .amqp, .queue⟩ "local" 1 default, .register ⟨0⟩,
    .track ⟨"orders", .amqp, .queue⟩, .buffer [⟨0⟩] ⟨0⟩ ⟨0⟩, .flush [] 0 ⟨0⟩, .runJob 0,
    .requeue ⟨0⟩ .queue, .acknowledge ⟨0⟩ ⟨0⟩ .queue]

/-- It stays in the buffer for good: a flush finds the acknowledgement and puts it back. -/
theorem rotated_answeredRun :
    ¬ ∀ (r : Rules) (b : Broker) (h : Journal), Reaches r exclusiveTerms b h →
      ∀ (t : TrackerRef) (now : UInt64), b.isTracked t = true → (b.tracker t).isTopic = false →
      Ready r t b → (b.tracker t).buffer ≠ [] →
      ((b.flush r now t).2.tracker t).buffer.length < (b.tracker t).buffer.length := by
  intro hall
  have hf : Follows workerRules exclusiveTerms answeredRun default default := by decide
  have hless := hall _ _ _ (Reaches.start.replay _ hf) ⟨0⟩ 0 (by decide) (by decide) (by decide)
    (by decide)
  exact absurd hless (by decide)

end Courier
