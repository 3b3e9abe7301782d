import Courier.Proofs.LossFree
import Courier.Proofs.Placement
import Courier.Proofs.Recoverable

namespace Courier

open Broker

namespace Standing

structure Orderly (st : Standing) : Prop where
  policies : ∀ a ∈ st.attempts, a.policy ≠ .rebuffer
  apart : (st.attempts.map Attempt.subscriber).Nodup
  scheduled : ∀ a ∈ st.attempts, st.message.status? a.subscriber = some .scheduled
  unsent : ∀ a ∈ st.attempts, ¬ st.sent a.subscriber
  received : ∀ id, st.sent id → st.message.awaits id = false

structure Done (st : Standing) : Prop where
  unbuffered : st.message.buffered = false
  idle : st.attempts = []
  final : ∀ id status, st.message.status? id = some status → status.isFinal = true

def Exempt (st : Standing) (spent : Prop) : Prop :=
  st.message.settled = true → spent ∨ st.message.purged = true

structure Attended (recorded : SubscriberId → Prop) (spent : Prop) (st : Standing) : Prop where
  placed : st.Placed
  orderly : st.Orderly
  recorded : ∀ id, recorded id → st.message.status? id ≠ none
  settled : st.Exempt spent ∨ st.Done

def Respects (st : Standing) (spent : Prop) : Event → Prop
  | .accepted _ => st.message.buffered = false ∧ st.message.settled = false
  | .returned _ topic => topic = true ∧ st.message.settled = false
  | .acknowledged id type => type = .topic ∧ st.sent id
  | .spread _ _ policy _ => policy ≠ .rebuffer
  | .offered .. => False
  | .evicted _ | .deleted => spent
  | _ => True

variable {st st' : Standing} {spent : Prop} {t : TrackerRef} {a : Attempt} {id : SubscriberId}
  {outcome : FilterOutcome} {e : Event}

namespace Orderly

theorem congr (ho : st.Orderly) (hr : st'.message.recipients = st.message.recipients)
    (ha : st'.attempts = st.attempts) (hs : st'.sent = st.sent) : st'.Orderly := by
  have hstatus : ∀ id, st'.message.status? id = st.message.status? id := fun id => by
    rw [Message.status?, Message.status?, hr]
  refine ⟨?_, ?_, ?_, ?_, fun id hid => ?_⟩
  · rw [ha]; exact ho.policies
  · rw [ha]; exact ho.apart
  · simp only [ha, hstatus]; exact ho.scheduled
  · rw [ha, hs]; exact ho.unsent
  · rw [awaits_congr (hstatus id)]
    exact ho.received id (hs ▸ hid)

theorem free_of_awaits (ho : st.Orderly) (lacks : st.message.awaits id = true) :
    ∀ a ∈ st.attempts, a.subscriber ≠ id := fun a ha he => by
  rw [Message.awaits_iff, ← he, ho.scheduled a ha] at lacks
  exact lacks.elim nofun nofun

theorem unsent_of_awaits (ho : st.Orderly) (lacks : st.message.awaits id = true) : ¬ st.sent id :=
  fun hid => absurd ((ho.received id hid).symm.trans lacks) Bool.false_ne_true

theorem setStatus (ho : st.Orderly) (id : SubscriberId) (status : RecipientStatus)
    (free : ∀ a ∈ st.attempts, a.subscriber ≠ id) (unsent : status = .failed → ¬ st.sent id) :
    (st.setStatus id status).Orderly where
  policies := ho.policies
  apart := ho.apart
  scheduled a ha := by
    rw [Standing.setStatus, Message.status?_setStatus, if_neg (free a ha)]
    exact ho.scheduled a ha
  unsent := ho.unsent
  received u hu := by
    refine Bool.eq_false_iff.2 fun h => ?_
    rw [Standing.setStatus, Message.awaits_iff, Message.status?_setStatus] at h
    split at h
    · next he =>
        exact unsent (by simpa using h) (he ▸ hu)
    · exact absurd ((ho.received u hu).symm.trans (Message.awaits_iff.2 h)) Bool.false_ne_true

theorem submit (ho : st.Orderly) (hp : a.policy ≠ .rebuffer)
    (lacks : st.message.awaits a.subscriber = true) : (st.submit a).Orderly := by
  have hset := ho.setStatus a.subscriber .scheduled (ho.free_of_awaits lacks) nofun
  have hscheduled : (st.setStatus a.subscriber .scheduled).message.status? a.subscriber =
      some .scheduled := by
    rw [Standing.setStatus, Message.status?_setStatus, if_pos rfl]
  refine ⟨fun c hc => ?_, ?_, fun c hc => ?_, fun c hc => ?_, hset.received⟩
  · exact (List.mem_append.1 hc).elim (ho.policies c) fun hc => List.mem_singleton.1 hc ▸ hp
  · rw [Standing.submit, List.map_append, List.nodup_append]
    refine ⟨ho.apart, List.nodup_singleton _, fun u hu v hv => ?_⟩
    obtain ⟨c, hc, rfl⟩ := List.mem_map.1 hu
    rw [List.map_singleton, List.mem_singleton] at hv
    exact hv ▸ ho.free_of_awaits lacks c hc
  · exact (List.mem_append.1 hc).elim (hset.scheduled c) fun hc => by
        rw [List.mem_singleton.1 hc]
        exact hscheduled
  · exact (List.mem_append.1 hc).elim (ho.unsent c)
      fun hc => by
        rw [List.mem_singleton.1 hc]
        exact ho.unsent_of_awaits lacks

variable {rest : List Attempt}

theorem taken (ho : st.Orderly) (taken : (a :: rest).Perm st.attempts) :
    Orderly { st with attempts := rest } := by
  have hmem : ∀ c ∈ rest, c ∈ st.attempts := fun c hc => taken.subset (List.mem_cons_of_mem a hc)
  refine ⟨fun c hc => ho.policies c (hmem c hc), ?_, fun c hc => ho.scheduled c (hmem c hc),
    fun c hc => ho.unsent c (hmem c hc), ho.received⟩
  have hn := (taken.map Attempt.subscriber).nodup_iff.2 ho.apart
  exact (List.nodup_cons.1 hn).2

theorem free_of_taken (ho : st.Orderly) (taken : (a :: rest).Perm st.attempts) :
    ∀ c ∈ rest, c.subscriber ≠ a.subscriber := fun c hc he => by
  have hn := (taken.map Attempt.subscriber).nodup_iff.2 ho.apart
  exact (List.nodup_cons.1 hn).1 (he ▸ List.mem_map_of_mem hc)

theorem written (ho : st.Orderly) (taken : (a :: rest).Perm st.attempts) :
    (Standing.deliver { st with
      attempts := rest, sent := fun id => st.sent id ∨ id = a.subscriber } a.subscriber).Orderly := by
  have hrest := ho.taken taken
  have hfree := ho.free_of_taken taken
  have hscheduled := ho.scheduled a (taken.subset List.mem_cons_self)
  have hset := hrest.setStatus a.subscriber .delivered hfree nofun
  unfold Standing.deliver
  rw [if_pos hscheduled]
  refine ⟨hrest.policies, hrest.apart, hset.scheduled, fun c hc hsent => ?_, fun id hid => ?_⟩
  · exact hsent.elim (hrest.unsent c hc) (hfree c hc)
  · obtain hid | rfl := hid
    · exact hset.received id hid
    · refine Bool.eq_false_iff.2 fun h => ?_
      rw [Standing.setStatus, Message.awaits_iff, Message.status?_setStatus, if_pos rfl] at h
      rcases h with h | h <;> cases h

/-- A complete message has no job left, since the copy of a job is not final. -/
theorem done (ho : st.Orderly) (hc : st.message.isComplete = true) : st.Done := by
  obtain ⟨⟨hb, -⟩, hall⟩ := by simpa only [Message.isComplete, Bool.and_eq_true] using hc
  have hfinal : ∀ id status, st.message.status? id = some status → status.isFinal = true :=
    fun id status hs => List.all_eq_true.1 hall status (List.mem_map_of_mem (Dict.mem_of_get? hs))
  refine ⟨by simpa using hb, List.eq_nil_iff_forall_not_mem.2 fun a ha => ?_, hfinal⟩
  exact absurd (hfinal _ _ (ho.scheduled a ha)) Bool.false_ne_true

end Orderly

theorem Step.settled_returned {topic : Bool} (hs : st.Step (.returned t topic) st') :
    st'.message.settled = st.message.settled := by
  cases hs with
  | returned => cases topic <;> simp [withdraw]

namespace Attended

variable {recorded : SubscriberId → Prop}

theorem exempt_of_placed (hx : st.Attended recorded spent) (hp : 0 < st.places t) :
    st.Exempt spent :=
  hx.settled.resolve_right fun hd =>
    absurd ((hx.placed.flagged hp).symm.trans hd.unbuffered) Bool.noConfusion

theorem exempt_of_attempt (hx : st.Attended recorded spent) (ha : a ∈ st.attempts) :
    st.Exempt spent :=
  hx.settled.resolve_right fun hd => absurd (hd.idle ▸ ha) List.not_mem_nil

theorem recorded_setStatus (hx : st.Attended recorded spent) (status : RecipientStatus) (u : SubscriberId)
    (hu : recorded u) : (st.message.setStatus id status).status? u ≠ none := by
  rw [Message.status?_setStatus]
  split
  · exact Option.some_ne_none status
  · exact hx.recorded u hu

theorem setStatus (hx : st.Attended recorded spent) (id : SubscriberId) (status : RecipientStatus)
    (free : ∀ a ∈ st.attempts, a.subscriber ≠ id) (unsent : status = .failed → ¬ st.sent id)
    (hs : st.Exempt spent ∨ status.isFinal = true) :
    (st.setStatus id status).Attended recorded spent where
  placed := hx.placed.congr rfl rfl
  orderly := hx.orderly.setStatus id status free unsent
  recorded := hx.recorded_setStatus status
  settled := by
    obtain hopen | hfinal := hs
    · exact .inl hopen
    · refine hx.settled.imp (fun h => h) fun hd => ⟨hd.unbuffered, hd.idle, fun u status' hu => ?_⟩
      rw [Standing.setStatus, Message.status?_setStatus] at hu
      split at hu
      · exact Option.some.inj hu ▸ hfinal
      · exact hd.final u status' hu

theorem settleIfComplete (hx : st.Attended recorded spent) :
    st.settleIfComplete.Attended recorded spent := by
  unfold Standing.settleIfComplete
  split
  · next hc =>
      have hd := hx.orderly.done hc
      exact ⟨hx.placed.congr rfl rfl, hx.orderly.congr rfl rfl rfl, hx.recorded,
        .inr ⟨hd.unbuffered, hd.idle, hd.final⟩⟩
  · exact hx

theorem rebuffer (hx : st.Attended recorded spent) (hopen : st.Exempt spent) (t : TrackerRef) :
    (st.rebuffer t).Attended recorded spent where
  placed := hx.placed.rebuffer t
  orderly := hx.orderly.congr (by simp) (by simp) (by simp)
  recorded := by simpa only [Message.status?, rebuffer_frame] using hx.recorded
  settled := .inl (by simpa only [Exempt, rebuffer_frame] using hopen)

theorem unbuffer (hx : st.Attended recorded spent) (hopen : st.Exempt spent) (t : TrackerRef) :
    (st.unbuffer t).Attended recorded spent where
  placed := hx.placed.unbuffer t
  orderly := hx.orderly.congr (by simp) (by simp) (by simp)
  recorded := by simpa only [Message.status?, unbuffer_frame] using hx.recorded
  settled := .inl (by simpa only [Exempt, unbuffer_frame] using hopen)

theorem fail (hx : st.Attended recorded spent) (hopen : st.Exempt spent) (hp : a.policy ≠ .rebuffer)
    (free : ∀ c ∈ st.attempts, c.subscriber ≠ a.subscriber) (unsent : ¬ st.sent a.subscriber) :
    (st.fail a).Attended recorded spent := by
  unfold Standing.fail
  split
  · next he => exact absurd he hp
  · exact (hx.setStatus _ _ free (fun _ => unsent) (.inl hopen)).rebuffer hopen a.tracker
  · exact (hx.setStatus _ _ free (fun _ => unsent) (.inl hopen)).settleIfComplete

theorem congr (hx : st.Attended recorded spent)
    (hr : st'.message.recipients = st.message.recipients)
    (hb : st'.message.buffered = st.message.buffered) (hp : st'.places = st.places)
    (ha : st'.attempts = st.attempts) (hs : st'.sent = st.sent) (hopen : st'.Exempt spent) :
    st'.Attended recorded spent where
  placed := hx.placed.congr hb hp
  orderly := hx.orderly.congr hr ha hs
  recorded := by simpa only [Message.status?, hr] using hx.recorded
  settled := .inl hopen

theorem of_message_eq (hx : st.Attended recorded spent) (hm : st'.message = st.message)
    (hp : st'.places = st.places) (ha : st'.attempts = st.attempts) (hs : st'.sent = st.sent) :
    st'.Attended recorded spent where
  placed := hx.placed.congr (by rw [hm]) hp
  orderly := hx.orderly.congr (by rw [hm]) ha hs
  recorded := by rw [hm]; exact hx.recorded
  settled := hx.settled.imp (by rw [Exempt, Exempt, hm]; exact fun h => h)
    fun hd => ⟨hm ▸ hd.unbuffered, ha.trans hd.idle, by rw [hm]; exact hd.final⟩

theorem mono (hx : st.Attended recorded spent) {spent' : Prop} (h : spent → spent') :
    st.Attended recorded spent' :=
  ⟨hx.placed, hx.orderly, hx.recorded, hx.settled.imp_left fun hopen hs => (hopen hs).imp_left h⟩

theorem submit (hx : st.Attended recorded spent) (hopen : st.Exempt spent) (hp : a.policy ≠ .rebuffer)
    (lacks : st.message.awaits a.subscriber = true) : (st.submit a).Attended recorded spent where
  placed := hx.placed.congr rfl rfl
  orderly := hx.orderly.submit hp lacks
  recorded := hx.recorded_setStatus .scheduled
  settled := .inl hopen

theorem spread (hx : st.Attended recorded spent) (hopen : st.Exempt spent) {policy : FailurePolicy}
    (hp : policy ≠ .rebuffer) (lacks : st.message.awaits id = true)
    (hh : Handled ⟨id, t, policy⟩ st outcome st') :
    (st'.afterSpread t id outcome).Attended recorded spent := by
  have hfree := hx.orderly.free_of_awaits lacks
  cases hh with
  | purged =>
      have hpurged : st.markPurged.settle.Exempt spent := fun _ => .inr rfl
      have hmarked : st.markPurged.settle.Attended recorded spent :=
        hx.congr rfl rfl rfl rfl rfl hpurged
      exact hmarked.unbuffer hpurged t
  | marked => exact hx.unbuffer hopen t
  | expired =>
      have hmarked : st.expire.Attended recorded spent := hx.congr rfl rfl rfl rfl rfl hopen
      exact hmarked.unbuffer hopen t
  | vetoed => exact hx.setStatus id .discarded hfree nofun (.inl hopen)
  | alreadyInFlight => exact hx
  | dispatched => exact hx.submit hopen hp lacks
  | failed =>
      have hset := hx.setStatus id .scheduled hfree nofun (.inl hopen)
      exact hset.fail hopen hp hfree (hx.orderly.unsent_of_awaits lacks)

theorem made (hx : st.Attended recorded spent) {x : Message} (before : st.message.made = st.message)
    (new : x.made = x) : Attended recorded spent { st with message := x } := by
  refine ⟨hx.placed.step (.made before new) nofun, ?_, fun id hid => ?_, .inl fun h => ?_⟩
  · refine hx.orderly.congr ?_ rfl rfl
    rw [← new, ← before]
    rfl
  · have hstatus : st.message.status? id = none := by rw [← before]; rfl
    exact absurd hstatus (hx.recorded id hid)
  · rw [← new] at h
    exact absurd h Bool.false_ne_true

theorem written (hx : st.Attended recorded spent) {rest : List Attempt}
    (taken : (a :: rest).Perm st.attempts) :
    (Standing.deliver { st with
      attempts := rest, sent := fun id => st.sent id ∨ id = a.subscriber }
      a.subscriber).Attended recorded spent := by
  have hopen := hx.exempt_of_attempt (taken.subset List.mem_cons_self)
  refine ⟨hx.placed.step (.written taken) nofun, hx.orderly.written taken, fun u hu => ?_, .inl ?_⟩
  · unfold deliver
    split
    · exact hx.recorded_setStatus .delivered u hu
    · exact hx.recorded u hu
  · unfold deliver
    split <;> exact hopen

theorem step (hx : st.Attended recorded spent) (hs : st.Step e st') (hr : st.Respects spent e) :
    st'.Attended recorded spent := by
  cases hs with
  | made before new => exact hx.made before new
  | accepted p t =>
      refine ⟨hx.placed.step (.accepted st p t) fun _ _ => hr.1, hx.orderly.congr rfl rfl rfl,
        hx.recorded, .inl fun h => ?_⟩
      exact absurd (hr.2.symm.trans h) Bool.false_ne_true
  | returned t topic =>
      obtain ⟨rfl, hopen⟩ := hr
      exact hx.rebuffer (fun h => absurd (hopen.symm.trans h) Bool.false_ne_true) t
  | acknowledged id type =>
      obtain ⟨rfl, hsent⟩ := hr
      rw [if_pos rfl]
      refine (hx.setStatus id .acknowledged (fun a ha he => ?_) nofun (.inr rfl)).settleIfComplete
      exact hx.orderly.unsent a ha (he ▸ hsent)
  | written taken => exact hx.written taken
  | @failed a rest taken =>
      have ha := taken.subset List.mem_cons_self
      have hopen := hx.exempt_of_attempt ha
      have hrest : Attended recorded spent { st with attempts := rest } :=
        ⟨hx.placed.congr rfl rfl, hx.orderly.taken taken, hx.recorded, .inl hopen⟩
      exact hrest.fail hopen (hx.orderly.policies a ha) (hx.orderly.free_of_taken taken)
        (hx.orderly.unsent a ha)
  | offered => exact absurd hr id
  | spread buffered handled lacks => exact hx.spread (hx.exempt_of_placed buffered) hr lacks handled
  | overrun buffered lacks =>
      exact hx.setStatus _ .discarded (hx.orderly.free_of_awaits lacks) nofun
        (.inl (hx.exempt_of_placed buffered))
  | @retired t _ _ _ buffered =>
      exact (hx.unbuffer (hx.exempt_of_placed buffered) t).settleIfComplete
  | @evicted t buffered =>
      rw [hx.placed.drain_eq_unbuffer t]
      exact (hx.unbuffer (hx.exempt_of_placed buffered) t).congr rfl rfl rfl rfl rfl fun _ => .inl hr
  | @cleared t buffered =>
      have hopen := hx.exempt_of_placed buffered
      rw [hx.placed.drain_eq_unbuffer t]
      exact (hx.unbuffer hopen t).congr rfl rfl rfl rfl rfl (by simpa [Exempt] using hopen)
  | @purged t buffered =>
      rw [hx.placed.drain_eq_unbuffer t]
      exact (hx.unbuffer (hx.exempt_of_placed buffered) t).congr rfl rfl rfl rfl rfl fun _ => .inr rfl
  | deleted => exact hx.congr rfl rfl rfl rfl rfl fun _ => .inl hr
  | lost => exact hx.of_message_eq rfl rfl rfl rfl

end Attended

end Standing

def Operation.Regards (b : Broker) (h : Journal) : Operation → Prop
  | rebuffer _ l => ∀ m ∈ l, (b.message m).settled = false
  | requeue m _ => (b.message m).settled = false
  | acknowledge s m type => type = .topic ∧ (m, (b.subscriber s).id) ∈ h.sent
  | _ => True

instance (b : Broker) (h : Journal) : (op : Operation) → Decidable (op.Regards b h)
  | .rebuffer _ l => inferInstanceAs (Decidable (∀ m ∈ l, (b.message m).settled = false))
  | .requeue m _ => inferInstanceAs (Decidable ((b.message m).settled = false))
  | .acknowledge s m type =>
      inferInstanceAs (Decidable (type = .topic ∧ (m, (b.subscriber s).id) ∈ h.sent))
  | .createSlot _ | .createMessage .. | .createSubscriber .. | .connect .. | .register _
  | .unregister _ | .track _ | .buffer .. | .flush .. | .send .. | .findNext .. | .clear _
  | .purge .. | .runJob _ | .close | .shutdown | .deleteExpired _ => .isTrue trivial

def Operation.BringsUnsettled (b : Broker) : Operation → Prop
  | buffer batch _ _ => ∀ m ∈ batch, (b.message m).settled = false
  | _ => True

instance (b : Broker) : (op : Operation) → Decidable (op.BringsUnsettled b)
  | .buffer batch _ _ => inferInstanceAs (Decidable (∀ m ∈ batch, (b.message m).settled = false))
  | .createSlot _ | .createMessage .. | .createSubscriber .. | .connect .. | .register _
  | .unregister _ | .track _ | .rebuffer .. | .requeue .. | .flush .. | .send .. | .findNext ..
  | .clear _ | .purge .. | .acknowledge .. | .runJob _ | .close | .shutdown | .deleteExpired _ =>
      .isTrue trivial

/-- Topics are used with regard to what was received and settled. Messages have different ids, and a
batch brings messages that are neither buffered nor settled. -/
def settlementTerms (b : Broker) (h : Journal) (op : Operation) : Prop :=
  topicTerms b h op ∧ op.Regards b h ∧ op.KeepsPlaces b ∧ op.BringsUnsettled b

instance (b : Broker) (h : Journal) (op : Operation) : Decidable (settlementTerms b h op) :=
  inferInstanceAs (Decidable (_ ∧ _ ∧ _ ∧ _))

def Broker.Abandons (b : Broker) (t : TrackerRef) (m : MessageRef) : Prop :=
  b.isTracked t = true ∧ (b.tracker t).isTopic = true ∧ m ∈ (b.tracker t).buffer

instance (b : Broker) (t : TrackerRef) (m : MessageRef) : Decidable (b.Abandons t m) :=
  inferInstanceAs (Decidable (_ ∧ _ ∧ _))

def Operation.Consumes (b : Broker) (m : MessageRef) : Operation → Prop
  | flush _ _ t | send _ _ t => b.active t = [] ∧ b.Abandons t m
  | findNext t active => active = [] ∧ b.Abandons t m
  | deleteExpired condition => condition = .working ∧ m ∈ b.expired
  | _ => False

instance (b : Broker) (m : MessageRef) : (op : Operation) → Decidable (op.Consumes b m)
  | .flush _ _ t | .send _ _ t => inferInstanceAs (Decidable (b.active t = [] ∧ b.Abandons t m))
  | .findNext t active => inferInstanceAs (Decidable (active = [] ∧ b.Abandons t m))
  | .deleteExpired condition => inferInstanceAs (Decidable (condition = .working ∧ m ∈ b.expired))
  | .createSlot _ | .createMessage .. | .createSubscriber .. | .connect .. | .register _
  | .unregister _ | .track _ | .buffer .. | .rebuffer .. | .requeue .. | .clear _ | .purge ..
  | .acknowledge .. | .runJob _ | .close | .shutdown => .isFalse id

def Consumed (r : Rules) (m : MessageRef) : List Operation → Broker → Prop
  | [], _ => False
  | op :: rest, b => op.Consumes b m ∨ Consumed r m rest (op.apply r b)

instance instDecidableConsumed (r : Rules) (m : MessageRef) :
    (l : List Operation) → (b : Broker) → Decidable (Consumed r m l b)
  | [], _ => .isFalse id
  | op :: rest, b =>
      have := instDecidableConsumed r m rest (op.apply r b)
      inferInstanceAs (Decidable (op.Consumes b m ∨ Consumed r m rest (op.apply r b)))

def Recorded (r : Rules) (l : List Operation) (m : MessageRef) (id : SubscriberId) : Prop :=
  ∃ before after, l = before ++ after ∧
    ((replay r before default default).1.message m).status? id ≠ none

variable {r : Rules} {b b' : Broker} {h : Journal} {m : MessageRef} {t : TrackerRef} {op : Operation}
  {recorded : SubscriberId → Prop} {spent : Prop} {now : UInt64} {vetoes : List Veto}

theorem consumed_append (r : Rules) (m : MessageRef) (l l' : List Operation) (b : Broker)
    (h : Journal) :
    Consumed r m (l ++ l') b ↔ Consumed r m l b ∨ Consumed r m l' (replay r l b h).1 := by
  induction l generalizing b h with
  | nil => exact (false_or _).to_iff.symm
  | cons op l ih =>
      rw [List.cons_append, Consumed, Consumed, ih]
      exact or_assoc.symm

namespace Broker

theorem attended_events {K : Standing → Prop} (hx : (b.standing h m).Attended recorded spent)
    (hs : b.Sound) (hd : b.Distinct) (hu : op.uses b) (start : K (b.standing h m))
    (step : ∀ e st st', op.Brings r b m e → st.Step e st' → K st → st.Respects spent e ∧ K st') :
    ((op.apply r b).standing (op.record b h) m).Attended recorded spent := by
  have hboth := op.standing_apply (r := r) (h := h) (P := fun st => st.Attended recorded spent ∧ K st)
    hs hd hu ⟨hx, start⟩ fun e st st' hbrings hstep ih => by
      obtain ⟨hrespects, hk⟩ := step e st st' hbrings hstep ih.2
      exact ⟨ih.1.step hstep hrespects, hk⟩
  exact hboth.1

theorem attended_evict (hx : (b.standing h m).Attended recorded spent) (t : TrackerRef) :
    ((b.evict t).standing h m).Attended recorded (spent ∨ b.Abandons t m) := by
  by_cases htracked : b.isTracked t = true
  · obtain he | ⟨topic, hstep⟩ := b.standing_evict h m t
    · exact he ▸ hx.mono .inl
    · refine (hx.mono .inl).step hstep (.inr ⟨htracked, topic, ?_⟩)
      generalize (b.evict t).standing h m = st at hstep
      cases hstep with
      | evicted buffered => exact List.count_pos_iff.1 buffered
  · rw [evict_eq, if_neg htracked]
    exact hx.mono .inl

theorem attended_delivers (hx : (b.standing h m).Attended recorded spent) (hs : b.Sound)
    (hd : b.Distinct) (hu : op.uses b) (hop : op.delivery? = some (vetoes, now, t))
    (topic : (b.tracker t).isTopic = true) (hrecord : op.record b h = h) (hb' : op.apply r b = b')
    (hdel : Delivers { r with vetoes } now t b b') :
    (b'.standing h m).Attended recorded (spent ∨ b.active t = [] ∧ b.Abandons t m) := by
  cases hdel with
  | letGo unheard => exact (attended_evict hx t).mono (.imp_right (⟨unheard, ·⟩))
  | nothing => exact hx.mono .inl
  | pass heard =>
      have hall := attended_events (r := r) (K := fun _ => True) hx hs hd hu trivial
        fun e st st' hbrings _ _ => by
          refine ⟨?_, trivial⟩
          cases hbrings with
          | offered hop' queue =>
              rw [Operation.tracker_of_delivery hop hop', topic] at queue
              exact absurd queue.symm Bool.false_ne_true
          | spread => exact copyPolicy_ne_rebuffer r.topics
          | overrun | retired => trivial
          | evicted hop' _ unheard =>
              exact absurd (Operation.tracker_of_delivery hop hop' ▸ unheard) heard
          | _ => exact nomatch hop
      rw [hb', hrecord] at hall
      exact hall.mono .inl

theorem attended_accept {recorded : MessageRef → SubscriberId → Prop} {spent : MessageRef → Prop}
    (hx : ∀ m, (b.standing h m).Attended (recorded m) (spent m)) (hs : b.Sound) (hd : b.Distinct)
    {p : SlotRef} {batch : List MessageRef} (hm : ∀ m ∈ batch, b.hasMessage m)
    (new : b.TakesIn p t batch) (hopen : ∀ m ∈ batch, (b.message m).settled = false) (m : MessageRef) :
    ((batch.foldl (accept p t) b).standing h m).Attended (recorded m) (spent m) := by
  have hall := accept_induction (P := fun m st => st.Attended (recorded m) (spent m) ∧
    (m ∈ batch → st.message.settled = false)) (fun m => ⟨hx m, hopen m⟩) hs hd hm new
    (fun m st hmem hout hst => ?_) m
  · exact hall.1
  · have hstep := hst.1.step (.accepted st p t) ⟨hout, hst.2 hmem⟩
    exact ⟨hstep.of_message_eq rfl rfl rfl rfl, hst.2⟩

theorem attended_apply {recorded : MessageRef → SubscriberId → Prop} {spent : MessageRef → Prop}
    (hx : ∀ m, (b.standing h m).Attended (recorded m) (spent m)) (hs : b.Sound) (hd : b.Distinct)
    (hu : op.uses b) (ht : settlementTerms b h op) (r : Rules) (m : MessageRef) :
    ((op.apply r b).standing (op.record b h) m).Attended (recorded m)
      (spent m ∨ op.Consumes b m) := by
  obtain ⟨htopic, hregards, hplaces, hfresh⟩ := ht
  have hx' : (b.standing h m).Attended (recorded m) (spent m ∨ op.Consumes b m) :=
    (hx m).mono Or.inl
  cases op with
  | buffer batch p t =>
      have hall := attended_accept (b := b.raiseSlot p (.ofNat batch.length)) hx (hs.raiseSlot p _) hd
        hu.1 hplaces.2 hfresh m
      refine Standing.Attended.mono ?_ Or.inl
      exact hall.of_message_eq rfl rfl rfl rfl
  | rebuffer key l =>
      refine attended_events (K := fun st => m ∈ l → st.message.settled = false) hx' hs hd hu
        (hregards m) fun e st st' hbrings hstep hopen => ?_
      cases hbrings with
      | rebuffered hm hfind =>
          have hkind := (hs.isTopic_of_find? hfind).trans (decide_eq_true htopic)
          refine ⟨⟨hkind, hopen hm⟩, fun _ => ?_⟩
          rw [hstep.settled_returned]
          exact hopen hm
      | offered hop | spread hop | overrun hop | retired hop | evicted hop => cases hop
  | requeue n type =>
      refine attended_events (K := fun st => m = n → st.message.settled = false) hx' hs hd hu
        (fun hm => hm ▸ hregards) fun e st st' hbrings hstep hopen => ?_
      cases hbrings with
      | requeued hfind =>
          have hkind := (hs.isTopic_of_find? hfind).trans (decide_eq_true htopic)
          refine ⟨⟨hkind, hopen rfl⟩, fun _ => ?_⟩
          rw [hstep.settled_returned]
          exact hopen rfl
      | offered hop | spread hop | overrun hop | retired hop | evicted hop => cases hop
  | flush vetoes now t =>
      exact attended_delivers (hx m) hs hd hu rfl htopic rfl rfl (flush_delivers b (hs.active_nodup t))
  | send vetoes now t =>
      exact attended_delivers (hx m) hs hd hu rfl htopic rfl rfl
        (sendBuffered_delivers b (hs.active_nodup t))
  | findNext t active =>
      by_cases hactive : active = []
      · have he : ((Operation.findNext t active).apply r b) = b.evict t := by
          rw [Operation.apply, findNext, hactive]
          rfl
        rw [he]
        exact (attended_evict (hx m) t).mono (Or.imp_right fun habandons => ⟨hactive, habandons⟩)
      · refine attended_events (K := fun _ => True) hx' hs hd hu trivial
          fun e st st' hbrings _ _ => ⟨?_, trivial⟩
        cases hbrings with
        | unheard => exact absurd rfl hactive
        | offered hop | spread hop | overrun hop | retired hop | evicted hop => cases hop
  | acknowledge s n type =>
      refine attended_events (K := fun st => ∀ id, (m, id) ∈ h.sent → st.sent id) hx' hs hd hu
        (fun _ hid => hid) fun e st st' hbrings hstep hsent => ?_
      cases hbrings with
      | acknowledged =>
          exact ⟨⟨hregards.1, hsent _ hregards.2⟩, fun id hid => hstep.sent (hsent id hid)⟩
      | offered hop | spread hop | overrun hop | retired hop | evicted hop => cases hop
  | deleteExpired condition =>
      refine attended_events (K := fun st => st.pending → m ∈ b.expired) hx' hs hd hu
        (fun hpending => hpending) fun e st st' hbrings hstep hpending => ?_
      cases hbrings with
      | deleted =>
          cases hstep with
          | deleted pending => exact ⟨.inr ⟨rfl, hpending pending⟩, False.elim⟩
      | lost =>
          cases hstep with
          | lost => exact ⟨trivial, False.elim⟩
      | offered hop | spread hop | overrun hop | retired hop | evicted hop => cases hop
  | _ =>
      refine attended_events (K := fun _ => True) hx' hs hd hu trivial
        fun e st st' hbrings _ _ => ⟨?_, trivial⟩
      cases hbrings with
      | offered hop | spread hop | overrun hop | retired hop | evicted hop => cases hop
      | _ => trivial

end Broker

theorem Recorded.of_append {l : List Operation} {id : SubscriberId}
    (hr : Recorded r (l ++ [op]) m id) :
    Recorded r l m id ∨ ((replay r (l ++ [op]) default default).1.message m).status? id ≠ none := by
  obtain ⟨before, after, he, hstatus⟩ := hr
  rcases List.eq_nil_or_concat after with rfl | ⟨after, o, rfl⟩
  · rw [List.append_nil] at he
    exact .inr (he ▸ hstatus)
  · rw [List.concat_eq_append, ← List.append_assoc] at he
    exact .inl ⟨before, after, (List.append_inj' he rfl).1, hstatus⟩

theorem attended_replay (l : List Operation) (hl : Follows r settlementTerms l default default)
    (m : MessageRef) :
    ((replay r l default default).1.standing (replay r l default default).2 m).Attended
      (Recorded r l m) (Consumed r m l default) := by
  induction l using List.reverseRecOn generalizing m with
  | nil =>
      refine ⟨⟨nofun, fun _ _ => rfl⟩, ⟨nofun, List.nodup_nil, nofun, nofun, nofun⟩, fun id hr => ?_,
        .inl nofun⟩
      obtain ⟨before, after, he, hstatus⟩ := hr
      obtain ⟨rfl, -⟩ := List.append_eq_nil_iff.1 he.symm
      exact hstatus
  | append_singleton l op ih =>
      obtain ⟨hl, ⟨hu, ht⟩, -⟩ := follows_append.1 hl
      have hreach := Reaches.start.replay l hl
      have hd := hreach.distinct fun _ _ _ ht => ht.2.2.1.1
      have hx := attended_apply (fun m => ih hl m) hreach.sound hd hu ht r m
      have hconsumed : Consumed r m l default ∨ op.Consumes (replay r l default default).1 m →
          Consumed r m (l ++ [op]) default := fun hc =>
        (consumed_append r m l [op] default default).2 (hc.imp_right .inl)
      have hend : replay r (l ++ [op]) default default =
          (op.apply r (replay r l default default).1,
            op.record (replay r l default default).1 (replay r l default default).2) :=
        replay_append r l [op] default default
      rw [hend]
      refine ⟨hx.placed, hx.orderly, fun id hr => ?_, (hx.mono hconsumed).settled⟩
      refine hr.of_append.elim (hx.recorded id) fun hstatus => ?_
      rwa [hend] at hstatus

/-- A topic's message that is settled, and was not consumed without delivery, is in no buffer and has
no job, and every recipient that it ever had on record has acknowledged it or lost it for good. -/
theorem settled_when_done {l : List Operation} (hl : Follows r settlementTerms l default default)
    (hsettled : ((replay r l default default).1.message m).settled = true)
    (hpurged : ((replay r l default default).1.message m).purged = false)
    (hconsumed : ¬ Consumed r m l default) :
    (∀ t, m ∉ ((replay r l default default).1.tracker t).buffer) ∧
      (∀ j ∈ (replay r l default default).1.dispatcher.jobs, j.message ≠ m) ∧
      ∀ before after id, l = before ++ after →
        ((replay r before default default).1.message m).status? id ≠ none →
        ((replay r l default default).1.message m).status? id = some .acknowledged ∨
          ((replay r l default default).1.message m).status? id = some .discarded := by
  have hx := attended_replay l hl m
  have hdone := hx.settled.resolve_left fun hopen =>
    (hopen hsettled).elim hconsumed fun hp => absurd (hpurged.symm.trans hp) Bool.false_ne_true
  refine ⟨fun t => not_mem_of_unflagged hx.placed hdone.unbuffered t, fun j hj hm => ?_,
    fun before after id he hstatus => ?_⟩
  · have hattempts : (replay r l default default).1.attempts m = [] := hdone.idle
    have hfilter := List.map_eq_nil_iff.1 hattempts
    exact List.filter_eq_nil_iff.1 hfilter j hj (decide_eq_true hm)
  · obtain ⟨status, hs⟩ := Option.ne_none_iff_exists'.1 (hx.recorded id ⟨before, after, he, hstatus⟩)
    have hfinal := hdone.final id status hs
    have hs' : ((replay r l default default).1.message m).status? id = some status := hs
    rw [hs']
    cases status with
    | acknowledged => exact .inl rfl
    | discarded => exact .inr rfl
    | scheduled | delivered | failed => exact absurd hfinal Bool.false_ne_true

def finishedGuestRun : List Operation :=
  slowGuestRun ++ [.runJob 0, .acknowledge ⟨1⟩ ⟨0⟩ .topic]

theorem settled_when_done_finishedGuestRun :
    Follows workerRules settlementTerms finishedGuestRun default default ∧
      ((replay workerRules finishedGuestRun default default).1.message ⟨0⟩).settled = true ∧
      ((replay workerRules finishedGuestRun default default).1.message ⟨0⟩).purged = false ∧
      ¬ Consumed workerRules ⟨0⟩ finishedGuestRun default ∧
      (∀ t, ⟨0⟩ ∉ ((replay workerRules finishedGuestRun default default).1.tracker t).buffer) ∧
      ∀ j ∈ (replay workerRules finishedGuestRun default default).1.dispatcher.jobs, j.message ≠ ⟨0⟩ :=
  have hf : Follows workerRules settlementTerms finishedGuestRun default default := by decide
  have hs : ((replay workerRules finishedGuestRun default default).1.message ⟨0⟩).settled = true := by
    decide
  have hp : ((replay workerRules finishedGuestRun default default).1.message ⟨0⟩).purged = false := by
    decide
  have hc : ¬ Consumed workerRules ⟨0⟩ finishedGuestRun default := by decide
  have hdone := settled_when_done hf hs hp hc
  ⟨hf, hs, hp, hc, hdone.1, hdone.2.1⟩

/-- The message is settled while it waits in the tracker's buffer, though it was not consumed without
delivery. -/
def SettledEarly (r : Rules) (l : List Operation) (m : MessageRef) (t : TrackerRef) : Prop :=
  ((replay r l default default).1.message m).settled = true ∧
    ((replay r l default default).1.message m).purged = false ∧ ¬ Consumed r m l default ∧
    m ∈ ((replay r l default default).1.tracker t).buffer

instance (r : Rules) (l : List Operation) (m : MessageRef) (t : TrackerRef) :
    Decidable (SettledEarly r l m t) :=
  inferInstanceAs (Decidable (_ ∧ _ ∧ _ ∧ _))

def readerSetup (id : UInt64) : List Operation :=
  [.createSlot "stored", .createMessage 1 "news" "stored" "story" 0 0,
    .createMessage id "news" "stored" "advert" 0 0,
    .createSubscriber "reader" ⟨"news", .amqp, .topic⟩ "local" 1 default, .register ⟨0⟩,
    .track ⟨"news", .amqp, .topic⟩]

/-- A story that the reader has acknowledged is read from storage again. -/
def readAgainRun : List Operation :=
  readerSetup 2 ++ [.buffer [⟨0⟩] ⟨0⟩ ⟨0⟩, .flush [] 0 ⟨0⟩, .runJob 0, .acknowledge ⟨0⟩ ⟨0⟩ .topic,
    .buffer [⟨0⟩] ⟨0⟩ ⟨0⟩]

/-- The story comes twice in one batch, and its second place is left when the reader acknowledges it. -/
def readTwiceRun : List Operation :=
  readerSetup 2 ++ [.buffer [⟨0⟩, ⟨1⟩, ⟨0⟩] ⟨0⟩ ⟨0⟩, .flush [] 0 ⟨0⟩, .runJob 0,
    .acknowledge ⟨0⟩ ⟨0⟩ .topic]

/-- The story and the advert have one id. The advert is rejected for the reader, and it is the story
that leaves the buffer. -/
def sameIdRun : List Operation :=
  readerSetup 1 ++ [.buffer [⟨0⟩, ⟨1⟩] ⟨0⟩ ⟨0⟩, .close,
    .flush [⟨"adverts", fun _ x => decide (x.payload = "advert")⟩] 0 ⟨0⟩]

/-- Each of the terms on what is buffered is needed: that it is not settled, that it is in no buffer
yet, and that no other message has its id. -/
theorem settled_early_of_buffered :
    (Follows workerRules (fun b h op => topicTerms b h op ∧ op.Regards b h ∧ op.KeepsPlaces b)
        readAgainRun default default ∧ SettledEarly workerRules readAgainRun ⟨0⟩ ⟨0⟩) ∧
      (Follows workerRules (fun b h op => topicTerms b h op ∧ op.Regards b h ∧ op.Distinguishes b ∧
          op.BringsUnsettled b) readTwiceRun default default ∧
        SettledEarly workerRules readTwiceRun ⟨0⟩ ⟨0⟩) ∧
      (Follows workerRules (fun b h op => topicTerms b h op ∧ op.Regards b h ∧ op.TakesIn b ∧
          op.BringsUnsettled b) sameIdRun default default ∧
        SettledEarly workerRules sameIdRun ⟨1⟩ ⟨0⟩) := by
  decide

end Courier
