import Courier.Proofs.HeldCopies
import Courier.Proofs.Placement

namespace Courier

open Broker
open Relation (ReflTransGen)

namespace Broker

def FailsAlone (b : Broker) (place : Nat) : Prop :=
  ∀ j ∈ b.dispatcher.jobs[place]?, (b.send j.subscriber j.message).1 ≠ .sent →
    ∀ id ∈ (b.message j.message).outstanding, id = (b.subscriber j.subscriber).id

instance (b : Broker) (place : Nat) : Decidable (b.FailsAlone place) :=
  inferInstanceAs (Decidable (∀ j ∈ b.dispatcher.jobs[place]?,
    (b.send j.subscriber j.message).1 ≠ .sent →
      ∀ id ∈ (b.message j.message).outstanding, id = (b.subscriber j.subscriber).id))

end Broker

def Operation.FailsAlone (b : Broker) : Operation → Prop
  | .runJob place => b.FailsAlone place
  | .shutdown => ∀ n < b.pendingJobs, (b.run n).2.FailsAlone 0
  | _ => True

instance (b : Broker) : (op : Operation) → Decidable (op.FailsAlone b)
  | .runJob place => inferInstanceAs (Decidable (b.FailsAlone place))
  | .shutdown => inferInstanceAs (Decidable (∀ n < b.pendingJobs, (b.run n).2.FailsAlone 0))
  | .createSlot _ | .createMessage .. | .createSubscriber .. | .connect .. | .register _
  | .unregister _ | .track _ | .buffer .. | .rebuffer .. | .requeue .. | .flush .. | .send ..
  | .findNext .. | .clear _ | .purge .. | .acknowledge .. | .close | .deleteExpired _ =>
      .isTrue trivial

/-- Different messages have different ids, nothing but queues and durable topics is tracked, and a
batch brings messages that are neither buffered nor with a recipient. -/
def pointToPointTerms (b : Broker) (_ : Journal) : Operation → Prop
  | .createMessage id .. => ∀ m ∈ b.references, (b.message m).id ≠ id
  | .track key => key.type ≠ .topic
  | .buffer batch _ _ => batch.Nodup ∧ ∀ m ∈ batch, (b.message m).buffered = false ∧
      (b.message m).outstanding = []
  | _ => True

instance (b : Broker) (h : Journal) : (op : Operation) → Decidable (pointToPointTerms b h op)
  | .createMessage id .. => inferInstanceAs (Decidable (∀ m ∈ b.references, (b.message m).id ≠ id))
  | .track key => inferInstanceAs (Decidable (key.type ≠ .topic))
  | .buffer batch _ _ => inferInstanceAs (Decidable (batch.Nodup ∧
      ∀ m ∈ batch, (b.message m).buffered = false ∧ (b.message m).outstanding = []))
  | .createSlot _ | .createSubscriber .. | .connect .. | .register _ | .unregister _ | .rebuffer ..
  | .requeue .. | .flush .. | .send .. | .findNext .. | .clear _ | .purge .. | .acknowledge ..
  | .runJob _ | .close | .shutdown | .deleteExpired _ => .isTrue trivial

def exclusiveTerms (b : Broker) (h : Journal) (op : Operation) : Prop :=
  pointToPointTerms b h op ∧ op.FailsAlone b

instance (b : Broker) (h : Journal) (op : Operation) : Decidable (exclusiveTerms b h op) :=
  inferInstanceAs (Decidable (_ ∧ _))

theorem Message.isHeldBy_congr {x y : Message} (h : x.recipients = y.recipients) (id : SubscriberId) :
    x.isHeldBy id = y.isHeldBy id := by
  rw [isHeldBy, isHeldBy, status?, status?, h]

theorem Message.isHeldBy_setStatus (x : Message) (id : SubscriberId) (status : RecipientStatus)
    (u : SubscriberId) :
    (x.setStatus id status).isHeldBy u = if u = id then status.isOutstanding else x.isHeldBy u := by
  rw [isHeldBy, status?_setStatus]
  split <;> rfl

namespace Standing

structure Exclusive (st : Standing) : Prop where
  faithful : st.Faithful
  placed : ∀ t, 0 < st.places t →
    st.message.buffered = true ∧ ∀ u, st.places u = if u = t then 1 else 0
  unheld : st.message.buffered = true → ∀ id, st.message.isHeldBy id = false
  sole : ∀ id id', st.message.isHeldBy id = true → st.message.isHeldBy id' = true → id = id'
  rebuffers : ∀ a ∈ st.attempts, a.policy = .rebuffer

def Spares (st : Standing) : Event → Prop
  | .accepted _ => st.message.buffered = false ∧ ∀ id, st.message.isHeldBy id = false
  | .failed a => ∀ id, st.message.isHeldBy id = true → id = a.subscriber
  | .returned _ topic => topic = false
  | .spread .. | .overrun .. | .retired .. | .evicted _ => False
  | _ => True

variable {st st' : Standing} {t : TrackerRef} {a : Attempt} {outcome : FilterOutcome} {e : Event}

namespace Exclusive

theorem mono (hx : st.Exclusive) (tidy : st'.message.Tidy)
    (hb : st'.message.buffered = st.message.buffered) (hp : st'.places = st.places)
    (held : ∀ id, st'.message.isHeldBy id = true → st.message.isHeldBy id = true)
    (ha : ∀ a ∈ st'.attempts, a ∈ st.attempts) : st'.Exclusive where
  faithful := ⟨tidy, fun h => hp ▸ hx.faithful.flagged (hb ▸ h)⟩
  placed := by rw [hb, hp]; exact hx.placed
  unheld h id := Bool.eq_false_iff.2 fun hid => by
    have hold := hx.unheld (hb ▸ h) id
    rw [held id hid] at hold
    exact absurd hold.symm Bool.false_ne_true
  sole id id' h h' := hx.sole id id' (held id h) (held id' h')
  rebuffers a h := hx.rebuffers a (ha a h)

theorem congr (hx : st.Exclusive) (hr : st'.message.recipients = st.message.recipients)
    (hb : st'.message.buffered = st.message.buffered) (hp : st'.places = st.places)
    (ha : ∀ a ∈ st'.attempts, a ∈ st.attempts) : st'.Exclusive :=
  hx.mono (by rw [Message.Tidy, hr]; exact hx.faithful.tidy) hb hp
    (fun id h => by rwa [Message.isHeldBy_congr hr] at h) ha

theorem toPlaced (hx : st.Exclusive) : st.Placed where
  once hb := by
    obtain ⟨t, ht⟩ := hx.faithful.flagged hb
    exact ⟨t, (hx.placed t ht).2⟩
  nowhere hb t := by
    refine Nat.eq_zero_of_not_pos fun hp => ?_
    rw [(hx.placed t hp).1] at hb
    exact absurd hb.symm Bool.false_ne_true

theorem buffer (hx : st.Exclusive) (hb : st.message.buffered = false)
    (hh : ∀ id, st.message.isHeldBy id = false) (t : TrackerRef) : (st.buffer t).Exclusive where
  faithful := ⟨hx.faithful.tidy, fun _ => ⟨t, by simp [Standing.buffer]⟩⟩
  placed u hu := by
    simp only [Standing.buffer, hx.toPlaced.nowhere hb] at hu ⊢
    refine ⟨trivial, fun v => ?_⟩
    split at hu
    · next hut => rw [hut]
    · exact absurd hu (Nat.lt_irrefl 0)
  unheld _ := hh
  sole id _ h := absurd h (Bool.eq_false_iff.1 (hh id))
  rebuffers := hx.rebuffers

theorem rebuffer (hx : st.Exclusive) (hh : ∀ id, st.message.isHeldBy id = false) (t : TrackerRef) :
    (st.rebuffer t).Exclusive := by
  unfold Standing.rebuffer
  split
  · exact hx
  · next hb => exact hx.buffer (Bool.eq_false_iff.2 hb) hh t

theorem unbuffer (hx : st.Exclusive) (t : TrackerRef) : (st.unbuffer t).Exclusive := by
  unfold Standing.unbuffer
  split
  · next hp =>
      have hgone : ∀ v, (if v = t then st.places v - 1 else st.places v) = 0 := fun v => by
        rw [(hx.placed t hp).2 v]
        split <;> rfl
      refine ⟨⟨hx.faithful.tidy, fun h => absurd h Bool.false_ne_true⟩, fun u hu => ?_,
        fun h => absurd h Bool.false_ne_true, hx.sole, hx.rebuffers⟩
      exact absurd (hgone u) (Nat.ne_of_gt hu)
  · exact hx

theorem drain (hx : st.Exclusive) (t : TrackerRef) : (st.drain t).Exclusive := by
  rw [hx.toPlaced.drain_eq_unbuffer t]
  exact hx.unbuffer t

theorem schedule (hx : st.Exclusive) (hb : st.message.buffered = false)
    (hh : ∀ id, st.message.isHeldBy id = false) (id : SubscriberId) :
    (st.setStatus id .scheduled).Exclusive ∧
      ∀ u, (st.setStatus id .scheduled).message.isHeldBy u = true → u = id := by
  have hsole : ∀ u, (st.setStatus id .scheduled).message.isHeldBy u = true → u = id := fun u hu => by
    rw [setStatus, Message.isHeldBy_setStatus, hh] at hu
    by_contra hne
    rw [if_neg hne] at hu
    exact absurd hu Bool.false_ne_true
  refine ⟨⟨hx.faithful.setStatus id _, hx.placed, fun h => ?_, fun u v hu hv => ?_, hx.rebuffers⟩, hsole⟩
  · exact absurd (hb.symm.trans h) Bool.false_ne_true
  · rw [hsole u hu, hsole v hv]

theorem fail (hx : st.Exclusive) (hp : a.policy = .rebuffer)
    (alone : ∀ id, st.message.isHeldBy id = true → id = a.subscriber) : (st.fail a).Exclusive := by
  have hforgot : ∀ id, (st.message.forget a.subscriber).isHeldBy id =
      if id = a.subscriber then false else st.message.isHeldBy id := fun id => by
    rw [Message.isHeldBy, Message.status?, Message.forget, Dict.get?_erase]
    split <;> rfl
  have hnone : ∀ id, (st.message.forget a.subscriber).isHeldBy id = false := fun id => by
    rw [hforgot]
    split
    · rfl
    · next hne => exact Bool.eq_false_iff.2 fun h => hne (alone id h)
  have hx' : Exclusive { st with message := st.message.forget a.subscriber } :=
    hx.mono (hx.faithful.tidy.forget a.subscriber) rfl rfl
      (fun id h => absurd h (Bool.eq_false_iff.1 (hnone id))) fun _ h => h
  rw [Standing.fail, hp]
  exact hx'.rebuffer hnone a.tracker

theorem withdraw (hx : st.Exclusive) :
    st.withdraw.Exclusive ∧ ∀ id, st.withdraw.message.isHeldBy id = false := by
  have hnone : ∀ id, st.withdraw.message.isHeldBy id = false := fun id => by
    rw [Standing.withdraw, Message.isHeldBy, Message.status?_withdrawOutstanding hx.faithful.tidy]
    split
    · rfl
    · next h => exact Bool.eq_false_iff.2 fun hh => h hh
  exact ⟨hx.mono hx.faithful.withdraw.tidy (by simp [Standing.withdraw]) rfl
    (fun id h => absurd h (Bool.eq_false_iff.1 (hnone id))) fun _ h => h, hnone⟩

theorem handled (hx : st.Exclusive) (hb : st.message.buffered = false)
    (hh : ∀ id, st.message.isHeldBy id = false) (hp : a.policy = .rebuffer)
    (hst : Handled a st outcome st') : st'.Exclusive := by
  cases hst with
  | purged | expired => exact hx.congr rfl rfl rfl fun _ h => h
  | marked | vetoed | alreadyInFlight => exact hx
  | dispatched =>
      have hset := (hx.schedule hb hh a.subscriber).1
      refine ⟨⟨hset.faithful.tidy, hset.faithful.flagged⟩, hset.placed, hset.unheld, hset.sole,
        fun c hc => ?_⟩
      obtain hc | hc := List.mem_append.1 hc
      · exact hx.rebuffers c hc
      · rw [List.mem_singleton.1 hc, hp]
  | failed =>
      obtain ⟨hset, alone⟩ := hx.schedule hb hh a.subscriber
      exact hset.fail hp alone

theorem offered (hx : st.Exclusive) (hp : 0 < st.places t) {id : SubscriberId}
    (hst : Handled ⟨id, t, .rebuffer⟩ (st.unbuffer t) outcome st') :
    (st'.afterOffer t outcome).Exclusive := by
  have hh : ∀ u, (st.unbuffer t).message.isHeldBy u = false := fun u => by
    rw [Message.isHeldBy_congr (unbuffer_frame st t).1]
    exact hx.unheld (hx.placed t hp).1 u
  have hafter := (hx.unbuffer t).handled (buffered_unbuffer hp) hh rfl hst
  cases hst with
  | vetoed => exact hafter.congr rfl rfl rfl fun _ h => h
  | alreadyInFlight => exact hafter.rebuffer hh t
  | purged | marked | expired | dispatched | failed => exact hafter

theorem acknowledged (hx : st.Exclusive) (id : SubscriberId) :
    (st.setStatus id .acknowledged).Exclusive := by
  refine hx.mono (hx.faithful.tidy.setStatus id _) rfl rfl (fun u hu => ?_) fun _ h => h
  rw [setStatus, Message.isHeldBy_setStatus] at hu
  split at hu
  · exact absurd hu Bool.false_ne_true
  · exact hu

theorem deliver (hx : st.Exclusive) (id : SubscriberId) : (st.deliver id).Exclusive := by
  unfold Standing.deliver
  split
  · next hs =>
      refine hx.mono (hx.faithful.tidy.setStatus id _) rfl rfl (fun u hu => ?_) fun _ h => h
      rw [setStatus, Message.isHeldBy_setStatus] at hu
      split at hu
      · next he => exact Message.isHeldBy_iff.2 (.inl (he ▸ hs))
      · exact hu
  · exact hx

theorem step (hx : st.Exclusive) (hs : st.Step e st') (he : st.Spares e) : st'.Exclusive := by
  cases hs with
  | made before new =>
      refine hx.congr ?_ ?_ rfl fun _ h => h
      · rw [← new, ← before]; rfl
      · rw [← new, ← before]; rfl
  | accepted p t =>
      obtain ⟨hb, hh⟩ := he
      have hx' : Exclusive { st with
          message := { st.message with slot := some p }, accepted := True } :=
        hx.congr rfl rfl rfl fun _ h => h
      exact hx'.buffer hb hh t
  | returned t topic =>
      obtain rfl : topic = false := he
      obtain ⟨hw, hnone⟩ := hx.withdraw
      exact hw.rebuffer hnone t
  | acknowledged id type =>
      have hack := hx.acknowledged id
      have hsettled : ((st.setStatus id .acknowledged).settle).Exclusive :=
        hack.congr rfl rfl rfl fun _ h => h
      unfold settleIfComplete
      split
      · split
        · exact hsettled
        · exact hack
      · exact hsettled
  | @written a rest taken =>
      have hx' : Exclusive { st with
          attempts := rest, sent := fun id => st.sent id ∨ id = a.subscriber } :=
        hx.congr rfl rfl rfl fun c hc => taken.subset (List.mem_cons_of_mem a hc)
      exact hx'.deliver a.subscriber
  | @failed a rest taken =>
      have hrest : Exclusive { st with attempts := rest } :=
        hx.congr rfl rfl rfl fun c hc => taken.subset (List.mem_cons_of_mem a hc)
      exact hrest.fail (hx.rebuffers a (taken.subset List.mem_cons_self)) he
  | @offered st' t id outcome buffered handled => exact hx.offered buffered handled
  | spread | overrun | retired | evicted => exact absurd he id
  | cleared | purged => exact (hx.drain _).congr rfl rfl rfl fun _ h => h
  | deleted | lost => exact hx.congr rfl rfl rfl fun _ h => h

end Exclusive

end Standing

variable {r : Rules} {b : Broker} {h : Journal} {op : Operation}

def Broker.PointToPoint (b : Broker) : Prop := ∀ t, (b.tracker t).isTopic = false

theorem Broker.PointToPoint.apply (hq : b.PointToPoint) (hs : b.Sound) (hu : op.uses b)
    (ht : pointToPointTerms b h op) (r : Rules) : (op.apply r b).PointToPoint := fun t => by
  obtain he | ⟨key, rfl, -, -, he⟩ := hs.key_apply hu r t
  · rw [Tracker.isTopic, he]; exact hq t
  · rw [Tracker.isTopic, he]; exact decide_eq_false ht

theorem Operation.Brings.spares {m : MessageRef} {e : Event} (hbrings : op.Brings r b m e)
    (hq : b.PointToPoint) (hbuffer : ∀ batch p t, op ≠ .buffer batch p t)
    (hrun : ∀ place, op ≠ .runJob place) (hshutdown : op ≠ .shutdown) (st : Standing) :
    st.Spares e := by
  cases hbrings with
  | accepted => exact absurd rfl (hbuffer _ _ _)
  | failed => exact absurd rfl (hrun _)
  | lastFailed => exact absurd rfl hshutdown
  | rebuffered | requeued => exact hq _
  | spread _ topic | overrun _ topic | retired _ topic | evicted _ topic | unheard topic =>
      rw [hq] at topic
      exact absurd topic Bool.false_ne_true
  | _ => trivial

namespace Broker

def Exclusive (b : Broker) (h : Journal) : Prop := ∀ m, (b.standing h m).Exclusive

theorem Exclusive.accept (hx : b.Exclusive h) (hs : b.Sound) (hd : b.Distinct)
    {batch : List MessageRef} (hn : batch.Nodup) (hm : ∀ m ∈ batch, b.hasMessage m)
    (fresh : ∀ m ∈ batch, (b.message m).buffered = false ∧ (b.message m).outstanding = [])
    (p : SlotRef) (t : TrackerRef) : (batch.foldl (Broker.accept p t) b).Exclusive h := by
  induction batch generalizing b with
  | nil => exact hx
  | cons n batch ih =>
      have ht := Touches.accept p t b n
      have hn' := hm n List.mem_cons_self
      obtain ⟨hnew, hn⟩ := List.nodup_cons.1 hn
      have hne : ∀ m ∈ batch, m ≠ n := fun m hmem he => hnew (he ▸ hmem)
      refine ih (fun m => ?_) (hs.touches ht hn' fun j hj => hs.jobs j (by simpa using hj))
        (hd.touches ht hn') hn (fun m hmem => ht.hasMessage (hm m (List.mem_cons_of_mem _ hmem)))
        fun m hmem => ?_
      · by_cases he : m = n
        · subst he
          obtain ⟨hb, hout⟩ := fresh m List.mem_cons_self
          rw [standing_accept]
          split
          · have hslot : Standing.Exclusive { b.standing h m with
                message := { b.message m with slot := some p } } :=
              (hx m).congr rfl rfl rfl fun _ h => h
            refine hslot.buffer hb (fun id => Bool.eq_false_iff.2 fun hid => ?_) t
            have hmem := (Message.mem_outstanding (hs.tidy m) id).2 hid
            rw [hout] at hmem
            exact absurd hmem List.not_mem_nil
          · exact hx m
        · rw [ht.standing (hs.apart_of_distinct hd hn') he]
          exact hx m
      · rw [ht.others m (hne m hmem)]
        exact fresh m (List.mem_cons_of_mem _ hmem)

theorem Exclusive.runJob (hx : b.Exclusive h) (hs : b.Sound) (hd : b.Distinct) {place : Nat}
    (alone : b.FailsAlone place) : (b.runJob place).Exclusive (h.runJob b place) := fun m => by
  obtain he | ⟨j, hj, rfl, ⟨-, hstep⟩ | ⟨hfailed, hstep⟩⟩ := standing_runJob hs hd h place m
  · rw [he]; exact hx m
  · exact (hx _).step hstep trivial
  · refine (hx _).step hstep fun id hid => ?_
    exact alone j hj hfailed id ((Message.mem_outstanding (hs.tidy _) id).2 hid)

theorem Exclusive.shutdown (hx : b.Exclusive h) (hs : b.Sound) (hd : b.Distinct)
    (alone : ∀ n < b.pendingJobs, (b.run n).2.FailsAlone 0) :
    b.shutdown.Exclusive (.run b.pendingJobs b h) :=
  (shutdown_steps (P := fun c hc => c.Sound ∧ c.Distinct ∧ c.Exclusive hc) ⟨hs, hd, hx⟩
    (fun n hn _ ⟨hs, hd, hx⟩ => ⟨hs.runJob 0, hd.runJob hs 0, hx.runJob hs hd (alone n hn)⟩)
    fun _ _ ⟨hs, hd, hx⟩ => ⟨hs.close, hd, hx⟩).2.2

theorem Exclusive.apply (hx : b.Exclusive h) (hs : b.Sound) (hd : b.Distinct) (hq : b.PointToPoint)
    (hu : op.uses b) (ht : exclusiveTerms b h op) (r : Rules) :
    (op.apply r b).Exclusive (op.record b h) := by
  obtain ⟨hterms, alone⟩ := ht
  have hmoves : (∀ batch p t, op ≠ .buffer batch p t) → (∀ place, op ≠ .runJob place) →
      op ≠ .shutdown → (op.apply r b).Exclusive (op.record b h) := fun h₁ h₂ h₃ m =>
    op.standing_apply hs hd hu (hx m) fun _ _ _ hbrings hstep ih =>
      ih.step hstep (hbrings.spares hq h₁ h₂ h₃ _)
  cases op with
  | buffer batch p t =>
      have hall := Exclusive.accept (b := b.raiseSlot p (.ofNat batch.length)) (h := h) hx
        (hs.raiseSlot p _) hd hterms.1 hu.1 hterms.2 p t
      exact fun m => (hall m).congr rfl rfl rfl fun _ hj => hj
  | runJob place => exact hx.runJob hs hd alone
  | shutdown => exact hx.shutdown hs hd alone
  | _ => exact hmoves nofun nofun nofun

end Broker

theorem distinguishes_of_pointToPointTerms (ht : pointToPointTerms b h op) : op.Distinguishes b := by
  cases op with
  | createMessage => exact ht
  | _ => trivial

theorem Reaches.exclusive (hr : Reaches r exclusiveTerms b h) :
    b.PointToPoint ∧ b.Exclusive h := by
  induction hr with
  | start =>
      refine ⟨fun t => rfl, fun m => ⟨faithful_default m, fun t ht => absurd ht (Nat.lt_irrefl 0),
        fun _ id => rfl, fun id _ h => absurd h Bool.false_ne_true, fun a ha => nomatch ha⟩⟩
  | step op prior hu ht ih =>
      have hd := prior.distinct fun _ _ _ ht => distinguishes_of_pointToPointTerms ht.1
      exact ⟨ih.1.apply prior.sound hu ht.1 r, ih.2.apply prior.sound hd ih.1 hu ht r⟩

/-- A message of a queue or durable topic is never with two recipients, and with none while it is
in a buffer, unless a job fails whose message has passed on to somebody else meanwhile. -/
theorem one_recipient_at_a_time (hr : Reaches r exclusiveTerms b h) (m : MessageRef) :
    (b.message m).outstanding.length ≤ 1 ∧
      ((∃ t, m ∈ (b.tracker t).buffer) → (b.message m).outstanding = []) := by
  have hx := hr.exclusive.2 m
  have htidy : (b.message m).Tidy := hr.sound.tidy m
  constructor
  · have hn := Message.outstanding_nodup htidy
    have hsole : ∀ u v, u ∈ (b.message m).outstanding → v ∈ (b.message m).outstanding → u = v :=
      fun u v hu hv => hx.sole u v ((Message.mem_outstanding htidy u).1 hu)
        ((Message.mem_outstanding htidy v).1 hv)
    match h : (b.message m).outstanding with
    | [] | [_] => simp
    | u :: v :: rest =>
        rw [h] at hn hsole
        exact absurd (hsole u v (by simp) (by simp)) (by simp at hn; exact hn.1.1)
  · rintro ⟨t, ht⟩
    exact Message.outstanding_eq_nil htidy (hx.unheld (hx.placed t (List.count_pos_iff.2 ht)).1)

/-- An order goes to one worker, is put back and goes to a second one before the first one's job is
run. -/
def passedOnRun (first : Outbound) : List Operation :=
  [.createSlot "stored", .createMessage 1 "orders" "stored" "book" 0 0,
    .createSubscriber "first" ⟨"orders", .amqp, .queue⟩ "local" 1 first,
    .createSubscriber "second" ⟨"orders", .amqp, .queue⟩ "local" 1 default,
    .register ⟨0⟩, .register ⟨1⟩, .track ⟨"orders", .amqp, .queue⟩, .buffer [⟨0⟩] ⟨0⟩ ⟨0⟩,
    .flush [] 0 ⟨0⟩, .requeue ⟨0⟩ .queue, .flush [] 0 ⟨0⟩, .runJob 0]

theorem one_recipient_at_a_time_passedOnRun :
    Follows workerRules exclusiveTerms (passedOnRun default) default default ∧
      ((replay workerRules (passedOnRun default) default default).1.message ⟨0⟩).outstanding.length ≤ 1 ∧
      ((∃ t, ⟨0⟩ ∈ ((replay workerRules (passedOnRun default) default default).1.tracker t).buffer) →
        ((replay workerRules (passedOnRun default) default default).1.message ⟨0⟩).outstanding = []) :=
  have hf : Follows workerRules exclusiveTerms (passedOnRun default) default default := by decide
  ⟨hf, one_recipient_at_a_time (Reaches.start.replay (passedOnRun default) hf) ⟨0⟩⟩

/-- The first worker's job fails: the order is back in the buffer while the second worker has it. -/
theorem shared_passedOnRun :
    ¬ ∀ (r : Rules) (b : Broker) (h : Journal), Reaches r pointToPointTerms b h → ∀ m,
      (b.message m).outstanding.length ≤ 1 ∧
        ((∃ t, m ∈ (b.tracker t).buffer) → (b.message m).outstanding = []) := by
  intro hall
  have hf : Follows workerRules pointToPointTerms (passedOnRun ⟨[.panicked], .record []⟩) default
      default := by decide
  have hnone := (hall _ _ _ (Reaches.start.replay _ hf) ⟨0⟩).2 ⟨⟨0⟩, by decide⟩
  exact absurd hnone (by decide)

end Courier
