import Courier.Proofs.HeldCopies
import Courier.Proofs.Moves
import Mathlib.Data.List.Induction

namespace Courier

open Broker
open Relation (ReflTransGen)

/-- The host works on one destination. Its subscribers are registered before a message is accepted,
and they stay and acknowledge only what they have received. Messages have different ids. -/
def lossFreeTerms (key : DestinationKey) (b : Broker) (h : Journal) : Operation → Prop
  | .createMessage id .. => ∀ m ∈ b.references, (b.message m).id ≠ id
  | .register _ => h.accepted = []
  | .unregister _ => False
  | .track k => k = key
  | .buffer _ _ t | .flush _ _ t | .send _ _ t => (b.tracker t).key = key ∧ b.active t ≠ []
  | .findNext _ active => active ≠ []
  | .acknowledge s m _ => (m, (b.subscriber s).id) ∈ h.sent
  | _ => True

instance (key : DestinationKey) (b : Broker) (h : Journal) :
    (op : Operation) → Decidable (lossFreeTerms key b h op)
  | .createMessage id .. => inferInstanceAs (Decidable (∀ m ∈ b.references, (b.message m).id ≠ id))
  | .register _ => inferInstanceAs (Decidable (h.accepted = []))
  | .unregister _ => .isFalse id
  | .track k => inferInstanceAs (Decidable (k = key))
  | .buffer _ _ t | .flush _ _ t | .send _ _ t =>
      inferInstanceAs (Decidable ((b.tracker t).key = key ∧ b.active t ≠ []))
  | .findNext _ active => inferInstanceAs (Decidable (active ≠ []))
  | .acknowledge s m _ => inferInstanceAs (Decidable ((m, (b.subscriber s).id) ∈ h.sent))
  | .createSlot _ | .createSubscriber .. | .connect .. | .rebuffer .. | .requeue .. | .clear _
  | .purge .. | .runJob _ | .close | .shutdown | .deleteExpired _ => .isTrue trivial

def Barred (r : Rules) (l : List Operation) (m : MessageRef) (id : SubscriberId) : Prop :=
  ∃ before op after, l = before ++ op :: after ∧
    op.Bars r (replay r before default default).1 m id

theorem Barred.append {r : Rules} {l : List Operation} {m : MessageRef} {id : SubscriberId}
    (h : Barred r l m id) (op : Operation) : Barred r (l ++ [op]) m id := by
  rcases h with ⟨before, o, after, rfl, hbars⟩
  exact ⟨before, o, after ++ [op], by simp, hbars⟩

theorem Message.awaits_congr {x y : Message} (h : x.recipients = y.recipients) {id : SubscriberId} :
    x.awaits id = y.awaits id := by
  rw [awaits, awaits, status?, status?, h]

theorem Message.awaits_of_setStatus {x : Message} {id u : SubscriberId} {status : RecipientStatus}
    (hne : status ≠ .failed) (h : (x.setStatus id status).awaits u = true) : x.awaits u = true := by
  rw [awaits_iff, status?_setStatus] at h
  split at h
  · simp [hne] at h
  · exact awaits_iff.2 h

namespace Standing

def Accounted (attempts : List Attempt) (sent barred : SubscriberId → Prop) (id : SubscriberId) :
    Option RecipientStatus → Prop
  | some .scheduled => ∃ a ∈ attempts, a.subscriber = id
  | some .delivered | some .acknowledged => sent id
  | some .discarded => barred id
  | none | some .failed => True

/-- Every copy is on its way, has arrived, or was given up because of a veto, unless it awaits an
attempt. -/
def Accounts (barred : SubscriberId → Prop) (st : Standing) : Prop :=
  ∀ id, Accounted st.attempts st.sent barred id (st.message.status? id)

def Present (st : Standing) : Prop :=
  (∃ t, 0 < st.places t) ∨ st.message.purged = true ∨ st.message.expired = true ∨ st.dropped

def Waits (ids : List SubscriberId) (st : Standing) : Prop :=
  st.accepted → ∀ id ∈ ids, st.message.awaits id = true → st.Present

structure Confined (home : TrackerRef → Prop) (st : Standing) : Prop where
  places : ∀ t, 0 < st.places t → home t
  attempts : ∀ a ∈ st.attempts, home a.tracker ∧ a.policy = .retry

structure LossFree (home : TrackerRef → Prop) (ids : List SubscriberId)
    (barred : SubscriberId → Prop) (st : Standing) : Prop where
  faithful : st.Faithful
  confined : st.Confined home
  accounts : st.Accounts barred
  waits : st.Waits ids

def Keeps (home : TrackerRef → Prop) (ids : List SubscriberId) (barred : SubscriberId → Prop)
    (st : Standing) : Event → Prop
  | .accepted t => home t
  | .returned t topic => home t ∧ topic = true
  | .acknowledged id _ => st.sent id
  | .spread t id policy outcome => home t ∧ policy = .retry ∧ (outcome = .vetoed → barred id)
  | .retired _ heard => heard = ids
  | .offered .. | .overrun .. | .evicted _ => False
  | _ => True

variable {home : TrackerRef → Prop} {ids : List SubscriberId} {barred : SubscriberId → Prop}
  {st st' : Standing} {t : TrackerRef} {a : Attempt} {id : SubscriberId} {e : Event}
  {outcome : FilterOutcome}

@[simp] theorem settleIfComplete_frame (st : Standing) :
    st.settleIfComplete.message.recipients = st.message.recipients ∧
      st.settleIfComplete.message.purged = st.message.purged ∧
      st.settleIfComplete.message.expired = st.message.expired ∧
      st.settleIfComplete.places = st.places ∧ st.settleIfComplete.attempts = st.attempts ∧
      st.settleIfComplete.accepted = st.accepted ∧ st.settleIfComplete.dropped = st.dropped ∧
      st.settleIfComplete.sent = st.sent := by
  unfold settleIfComplete
  split <;> simp [settle]

@[simp] theorem fail_frame (st : Standing) (a : Attempt) :
    (st.fail a).attempts = st.attempts ∧ (st.fail a).accepted = st.accepted ∧
      (st.fail a).dropped = st.dropped ∧ (st.fail a).sent = st.sent ∧
      (st.fail a).message.purged = st.message.purged ∧
      (st.fail a).message.expired = st.message.expired := by
  unfold fail
  split <;> simp [setStatus, Message.setStatus, Message.forget]

theorem Handled.sent (hh : Handled a st outcome st') : st'.sent = st.sent := by
  cases hh with
  | purged | marked | expired | vetoed | alreadyInFlight | dispatched => rfl
  | failed => simp [setStatus]

theorem Step.sent (hs : Step st e st') (h : st.sent id) : st'.sent id := by
  cases hs with
  | made | accepted | overrun | deleted | lost => exact h
  | cleared | evicted | purged | retired => simpa [settle, markPurged] using h
  | returned t topic =>
      cases topic <;> simpa [withdraw] using h
  | acknowledged id type =>
      split <;> simpa [setStatus, settle] using h
  | written =>
      unfold deliver
      split <;> exact .inl h
  | failed => simpa using h
  | @offered st' t id outcome _ handled =>
      have hafter := handled.sent
      rw [(unbuffer_frame st t).2.2.2.2.2.2.2.2] at hafter
      cases outcome <;> simpa [afterOffer, settle, hafter] using h
  | @spread st' t id policy outcome _ handled =>
      have hafter := handled.sent
      cases outcome <;> simpa [afterSpread, setStatus, hafter] using h

namespace Confined

theorem mono (hc : st.Confined home) (hp : ∀ t, st'.places t ≤ st.places t)
    (ha : ∀ a ∈ st'.attempts, a ∈ st.attempts) : st'.Confined home where
  places t ht := hc.places t (Nat.lt_of_lt_of_le ht (hp t))
  attempts a h := hc.attempts a (ha a h)

theorem buffer (hc : st.Confined home) (ht : home t) : (st.buffer t).Confined home where
  places v hv := by
    simp only [Standing.buffer] at hv
    split at hv
    · next hvt => exact hvt ▸ ht
    · exact hc.places v hv
  attempts := hc.attempts

theorem rebuffer (hc : st.Confined home) (ht : home t) : (st.rebuffer t).Confined home := by
  unfold Standing.rebuffer
  split
  · exact hc
  · exact hc.buffer ht

theorem unbuffer (hc : st.Confined home) (t : TrackerRef) : (st.unbuffer t).Confined home := by
  unfold Standing.unbuffer
  split
  · refine hc.mono (fun v => ?_) fun _ h => h
    dsimp only
    split <;> omega
  · exact hc

theorem drain (hc : st.Confined home) (t : TrackerRef) : (st.drain t).Confined home := by
  unfold Standing.drain
  split
  · refine hc.mono (fun v => ?_) fun _ h => h
    dsimp only
    split <;> omega
  · exact hc

theorem fail (hc : st.Confined home) (ha : home a.tracker) (hp : a.policy = .retry) :
    (st.fail a).Confined home := by
  have hset : (st.setStatus a.subscriber .failed).Confined home :=
    hc.mono (fun _ => Nat.le_refl _) fun _ h => h
  rw [Standing.fail, hp]
  exact hset.rebuffer ha

theorem handled (hc : st.Confined home) (ha : home a.tracker) (hp : a.policy = .retry)
    (hh : Handled a st outcome st') : st'.Confined home := by
  cases hh with
  | purged | marked | expired | vetoed | alreadyInFlight =>
      exact hc.mono (fun _ => Nat.le_refl _) fun _ h => h
  | dispatched =>
      refine ⟨hc.places, fun c hmem => ?_⟩
      obtain hmem | hmem := List.mem_append.1 hmem
      · exact hc.attempts c hmem
      · rw [List.mem_singleton.1 hmem]
        exact ⟨ha, hp⟩
  | failed =>
      have hset : (st.setStatus a.subscriber .scheduled).Confined home :=
        hc.mono (fun _ => Nat.le_refl _) fun _ h => h
      exact hset.fail ha hp

theorem step (hc : st.Confined home) (hs : Step st e st') (hk : st.Keeps home ids barred e) :
    st'.Confined home := by
  cases hs with
  | made | deleted | lost => exact hc.mono (fun _ => Nat.le_refl _) fun _ h => h
  | accepted p t =>
      have hc' : Confined home { st with
          message := { st.message with slot := some p }, accepted := True } :=
        hc.mono (fun _ => Nat.le_refl _) fun _ h => h
      exact hc'.buffer hk
  | returned t topic =>
      obtain ⟨ht, rfl⟩ := hk
      exact hc.rebuffer ht
  | acknowledged id type =>
      have hset : (st.setStatus id .acknowledged).Confined home :=
        hc.mono (fun _ => Nat.le_refl _) fun _ h => h
      split
      · exact hset.mono (fun _ => by simp) fun _ h => by simpa using h
      · exact hset.mono (fun _ => Nat.le_refl _) fun _ h => h
  | @written a rest taken =>
      have hrest : Confined home { st with
          attempts := rest, sent := fun id => st.sent id ∨ id = a.subscriber } :=
        hc.mono (fun _ => Nat.le_refl _) fun c h => taken.subset (List.mem_cons_of_mem a h)
      unfold deliver
      split
      · exact hrest.mono (fun _ => Nat.le_refl _) fun _ h => h
      · exact hrest
  | @failed a rest taken =>
      have hrest : Confined home { st with attempts := rest } :=
        hc.mono (fun _ => Nat.le_refl _) fun c h => taken.subset (List.mem_cons_of_mem a h)
      obtain ⟨ha, hp⟩ := hc.attempts a (taken.subset List.mem_cons_self)
      exact hrest.fail ha hp
  | @spread st' t id policy outcome _ handled =>
      obtain ⟨ht, hp, -⟩ := hk
      have hafter := hc.handled ht hp handled
      cases outcome with
      | purged | expired => exact hafter.unbuffer t
      | vetoed => exact hafter.mono (fun _ => Nat.le_refl _) fun _ h => h
      | alreadyInFlight | dispatched | failed => exact hafter
  | @retired t => exact (hc.unbuffer t).mono (fun _ => by simp) fun _ h => by simpa using h
  | cleared | purged => exact (hc.drain _).mono (fun _ => Nat.le_refl _) fun _ h => h
  | offered | overrun | evicted => exact absurd hk id

end Confined

theorem Accounted.mono {attempts attempts' : List Attempt} {sent sent' : SubscriberId → Prop}
    {status : Option RecipientStatus} (h : Accounted attempts sent barred id status)
    (ha : status = some .scheduled → ∀ a ∈ attempts, a.subscriber = id → a ∈ attempts')
    (hs : sent id → sent' id) : Accounted attempts' sent' barred id status := by
  rcases status with - | status
  · trivial
  · cases status with
    | scheduled =>
        obtain ⟨a, hmem, hid⟩ := h
        exact ⟨a, ha rfl a hmem hid, hid⟩
    | delivered | acknowledged => exact hs h
    | failed => trivial
    | discarded => exact h

namespace Accounts

theorem congr (hx : st.Accounts barred) (hr : st'.message.recipients = st.message.recipients)
    (ha : st'.attempts = st.attempts) (hs : st'.sent = st.sent) : st'.Accounts barred := by
  intro id
  rw [ha, hs, Message.status?, hr]
  exact hx id

theorem relabel (hx : st.Accounts barred) (id : SubscriberId) (status : Option RecipientStatus)
    (hstatus : ∀ u, st'.message.status? u = if u = id then status else st.message.status? u)
    (hid : Accounted st'.attempts st'.sent barred id status)
    (ha : ∀ a ∈ st.attempts, a.subscriber ≠ id → a ∈ st'.attempts)
    (hs : ∀ u, st.sent u → st'.sent u) : st'.Accounts barred := by
  intro u
  rw [hstatus]
  split
  · next hu => exact hu ▸ hid
  · next hu => exact (hx u).mono (fun _ a hmem hau => ha a hmem (hau ▸ hu)) (hs u)

theorem setStatus (hx : st.Accounts barred) (id : SubscriberId) (status : RecipientStatus)
    (hid : Accounted st.attempts st.sent barred id (some status)) :
    (st.setStatus id status).Accounts barred :=
  hx.relabel id (some status) (Message.status?_setStatus st.message id · status) hid (fun _ h _ => h)
    fun _ h => h

theorem retry (hx : st.Accounts barred) (hp : a.policy = .retry) {rest : List Attempt}
    (taken : (a :: rest).Perm st.attempts) :
    (Standing.fail { st with attempts := rest } a).Accounts barred := by
  refine hx.relabel a.subscriber (some .failed) (fun u => ?_) trivial (fun c hmem hne => ?_)
    fun u h => ?_
  · rw [Standing.fail, hp, Message.status?, (rebuffer_frame _ a.tracker).1]
    exact Message.status?_setStatus st.message a.subscriber u .failed
  · have hrest := taken.symm.subset hmem
    rw [List.mem_cons] at hrest
    simpa using hrest.resolve_left fun he => hne (he ▸ rfl)
  · simpa using h

theorem handled (hx : st.Accounts barred) (hp : a.policy = .retry)
    (hh : Handled a st outcome st') : st'.Accounts barred := by
  cases hh with
  | purged | marked | expired | vetoed | alreadyInFlight => exact hx
  | dispatched =>
      refine hx.relabel a.subscriber (some .scheduled)
        (Message.status?_setStatus st.message a.subscriber · .scheduled) ?_
        (fun _ h _ => List.mem_append_left _ h) fun _ h => h
      exact ⟨a, List.mem_append_right _ (List.mem_singleton.2 rfl), rfl⟩
  | failed =>
      refine hx.relabel a.subscriber (some .failed) (fun u => ?_) trivial (fun _ h _ => ?_)
        fun _ h => ?_
      · rw [Standing.fail, hp, Message.status?, (rebuffer_frame _ a.tracker).1]
        refine (Message.status?_setStatus _ a.subscriber u .failed).trans ?_
        split
        · rfl
        · next hu => exact (Message.status?_setStatus _ _ _ _).trans (if_neg hu)
      · simpa [Standing.setStatus] using h
      · simpa [Standing.setStatus] using h

theorem deliver (hx : st.Accounts barred) {rest : List Attempt}
    (taken : (a :: rest).Perm st.attempts) :
    (Standing.deliver { st with
      attempts := rest, sent := fun id => st.sent id ∨ id = a.subscriber }
        a.subscriber).Accounts barred := by
  have hrest : ∀ c ∈ st.attempts, c.subscriber ≠ a.subscriber → c ∈ rest := by
    intro c hmem hne
    have hc := taken.symm.subset hmem
    rw [List.mem_cons] at hc
    exact hc.resolve_left fun he => hne (he ▸ rfl)
  unfold Standing.deliver
  split
  · exact hx.relabel a.subscriber (some .delivered)
      (Message.status?_setStatus st.message a.subscriber · .delivered) (.inr rfl) hrest
      fun _ h => .inl h
  · next hne =>
      refine hx.relabel a.subscriber (st.message.status? a.subscriber) (fun u => ?_) ?_ hrest
        fun _ h => .inl h
      · split
        · next hu => rw [hu]
        · rfl
      · exact (hx a.subscriber).mono (fun he => absurd he hne) .inl

theorem step (hx : st.Accounts barred) (hc : st.Confined home) (hs : Step st e st')
    (hk : st.Keeps home ids barred e) : st'.Accounts barred := by
  cases hs with
  | made before new =>
      refine hx.congr ?_ rfl rfl
      rw [← before, ← new]
      rfl
  | accepted | deleted | lost => exact hx
  | returned t topic =>
      obtain ⟨-, rfl⟩ := hk
      exact hx.congr (by simp) (by simp) (by simp)
  | acknowledged id type =>
      have hack := hx.setStatus id .acknowledged hk
      split
      · exact hack.congr (by simp) (by simp) (by simp)
      · exact hack
  | @written a rest taken => exact hx.deliver taken
  | @failed a rest taken =>
      exact hx.retry (hc.attempts a (taken.subset List.mem_cons_self)).2 taken
  | @spread st' t id policy outcome _ handled =>
      obtain ⟨-, hp, hbarred⟩ := hk
      have hafter := hx.handled hp handled
      cases outcome with
      | purged | expired => refine hafter.congr ?_ ?_ ?_ <;> simp [afterSpread]
      | vetoed => exact hafter.setStatus id .discarded (hbarred rfl)
      | alreadyInFlight | dispatched | failed => exact hafter
  | retired | cleared | purged => refine hx.congr ?_ ?_ ?_ <;> simp [settle, markPurged]
  | offered | overrun | evicted => exact absurd hk id

end Accounts

namespace Waits

theorem of_present (hp : st.Present) : st.Waits ids := fun _ _ _ _ => hp

theorem mono (hw : st.Waits ids) (ha : st'.accepted → st.accepted)
    (hawaits : ∀ id, st'.message.awaits id = true → st.message.awaits id = true)
    (hp : st.Present → st'.Present) : st'.Waits ids := by
  intro haccepted id hid h
  exact hp (hw (ha haccepted) id hid (hawaits id h))

theorem setStatus (hw : st.Waits ids) (id : SubscriberId) {status : RecipientStatus}
    (hne : status ≠ .failed) : (st.setStatus id status).Waits ids :=
  hw.mono (fun h => h) (fun _ => Message.awaits_of_setStatus hne) fun h => h

theorem spread (hw : st.Waits ids) (hf : st.Faithful) {policy : FailurePolicy} (hp : policy = .retry)
    (hh : Handled ⟨id, t, policy⟩ st outcome st') : (st'.afterSpread t id outcome).Waits ids := by
  cases hh with
  | purged => exact of_present (.inr (.inl (by simp [afterSpread, settle, markPurged])))
  | marked marked => exact of_present (.inr (.inr (.inl (by simp [afterSpread, marked]))))
  | expired => exact of_present (.inr (.inr (.inl (by simp [afterSpread, expire]))))
  | vetoed => exact hw.setStatus id (by decide)
  | alreadyInFlight => exact hw
  | dispatched => exact hw.setStatus id (by decide)
  | failed =>
      have hset := (hf.setStatus id .scheduled).setStatus id .failed
      have hback : ((st.setStatus id .scheduled).fail ⟨id, t, policy⟩).Present := by
        refine .inl ?_
        rw [fail, hp]
        exact hset.places_rebuffer t
      exact of_present hback

theorem step (hw : st.Waits ids) (hf : st.Faithful) (hc : st.Confined home) (hs : Step st e st')
    (hk : st.Keeps home ids barred e) : st'.Waits ids := by
  cases hs with
  | made before new =>
      have hflags : st.message.purged = false ∧ st.message.expired = false := by
        rw [← before]
        exact ⟨rfl, rfl⟩
      refine hw.mono (fun h => h) (fun id h => ?_) fun hp => ?_
      · rw [← before]
        rw [← new] at h
        exact h
      · rcases hp with hp | hp | hp | hp
        · exact .inl hp
        · exact absurd (hflags.1.symm.trans hp) Bool.false_ne_true
        · exact absurd (hflags.2.symm.trans hp) Bool.false_ne_true
        · exact .inr (.inr (.inr hp))
  | accepted p t => exact of_present (.inl ⟨t, by simp [buffer]⟩)
  | returned t topic =>
      obtain ⟨-, rfl⟩ := hk
      exact of_present (.inl (hf.places_rebuffer t))
  | acknowledged id type =>
      have hack : (st.setStatus id .acknowledged).Waits ids := hw.setStatus id (by decide)
      split
      · refine hack.mono (by simp) (fun u h => ?_) (by simp [Present])
        rwa [Message.awaits_congr (settleIfComplete_frame _).1] at h
      · exact hack
  | @written a rest =>
      have hrest : Waits ids { st with
          attempts := rest, sent := fun id => st.sent id ∨ id = a.subscriber } := hw
      unfold deliver
      split
      · exact hrest.setStatus a.subscriber (by decide)
      · exact hrest
  | @failed a rest taken =>
      have hrest : Faithful { st with attempts := rest } := ⟨hf.tidy, hf.flagged⟩
      refine of_present (.inl ?_)
      rw [fail, (hc.attempts a (taken.subset List.mem_cons_self)).2]
      exact (hrest.setStatus a.subscriber .failed).places_rebuffer a.tracker
  | spread _ handled => exact hw.spread hf hk.2.1 handled
  | @retired t heard _ handedOff =>
      obtain rfl : heard = ids := hk
      intro _ id hid h
      have hstatus := List.all_eq_true.1 handedOff id hid
      have hrecipients : (st.unbuffer t).settleIfComplete.message.recipients =
          st.message.recipients := by simp
      rw [Message.awaits_congr hrecipients, Message.awaits_iff] at h
      obtain h | h := h <;> simp [h, RecipientStatus.isHandedOff] at hstatus
  | cleared => exact of_present (.inr (.inr (.inr trivial)))
  | purged => exact of_present (.inr (.inl rfl))
  | deleted | lost => exact hw
  | offered | overrun | evicted => exact absurd hk id

end Waits

theorem LossFree.step (hx : st.LossFree home ids barred) (hs : Step st e st')
    (hk : st.Keeps home ids barred e) : st'.LossFree home ids barred where
  faithful := hx.faithful.step hs
  confined := hx.confined.step hs hk
  accounts := hx.accounts.step hx.confined hs hk
  waits := hx.waits.step hx.faithful hx.confined hs hk

theorem LossFree.mono {home' : TrackerRef → Prop} {ids' : List SubscriberId}
    {barred' : SubscriberId → Prop} (hx : st.LossFree home ids barred)
    (hhome : ∀ t, home t → home' t) (hids : st.accepted → ∀ id ∈ ids', id ∈ ids)
    (hbarred : ∀ id, barred id → barred' id) : st.LossFree home' ids' barred' where
  faithful := hx.faithful
  confined := ⟨fun t ht => hhome t (hx.confined.places t ht),
    fun a ha => (hx.confined.attempts a ha).imp_left (hhome a.tracker)⟩
  accounts id := by
    have hid := hx.accounts id
    generalize st.message.status? id = status at hid ⊢
    rcases status with - | status
    · trivial
    · cases status with
      | scheduled | delivered | acknowledged | failed => exact hid
      | discarded => exact hbarred id hid
  waits ha id hid := hx.waits ha id (hids ha id hid)

end Standing

variable {r : Rules} {b : Broker} {h : Journal} {op : Operation} {key : DestinationKey}
  {m : MessageRef} {e : Event}

theorem distinguishes_of_lossFreeTerms (ht : lossFreeTerms key b h op) : op.Distinguishes b := by
  cases op with
  | createMessage => exact ht
  | _ => trivial

theorem heard_of_lossFreeTerms (ht : lossFreeTerms key b h op) : op.Heard b := by
  cases op with
  | flush | send => exact ht.2
  | findNext => exact ht
  | _ => trivial

theorem key_of_delivery {vetoes : List Veto} {now : UInt64} {t : TrackerRef}
    (hop : op.delivery? = some (vetoes, now, t)) (ht : lossFreeTerms key b h op) :
    (b.tracker t).key = key ∧ b.active t ≠ [] := by
  cases op with
  | flush | send =>
      obtain ⟨rfl, rfl, rfl⟩ : _ ∧ _ ∧ _ := by simpa [Operation.delivery?] using hop
      exact ht
  | _ => exact nomatch hop

namespace Broker

def audience (b : Broker) (key : DestinationKey) : List SubscriberId := b.idsOf (b.registry.active key)

structure Serves (b : Broker) (key : DestinationKey) : Prop where
  mapped : ∀ t, (b.tracker t).key = key → b.find? key.tracked = some t
  used : ∀ k t, b.find? k = some t → (b.tracker t).key = key

theorem Serves.apply (hv : b.Serves key) (hs : b.Sound) (hu : op.uses b) (heard : op.Heard b)
    (htrack : ∀ k, op = .track k → k = key) (r : Rules) : (op.apply r b).Serves key := by
  by_cases hw : op.isWork = true
  · have htracked := hs.tracked_apply hw heard r
    have hp := hs.preserves hw hu r
    constructor
    · intro t hkey
      rw [hp.key] at hkey
      rw [find?, htracked]
      exact hv.mapped t hkey
    · intro k t hk
      rw [find?, htracked] at hk
      rw [hp.key]
      exact hv.used k t hk
  · cases op with
    | createMessage =>
        exact Operation.createMessage_induction (P := fun c => c.Serves key) hv
          fun _ => ⟨hv.mapped, hv.used⟩
    | createSubscriber | register | unregister => exact ⟨hv.mapped, hv.used⟩
    | track k =>
        obtain rfl := htrack k rfl
        rw [Operation.apply, track_eq]
        split
        · exact hv
        · next hnone =>
            constructor
            · intro t hkey
              rw [tracker_trackNew] at hkey
              rw [find?, find?_trackNew, if_pos rfl]
              split at hkey
              · next hindex => rw [← hindex]
              · exact absurd ((hv.mapped t hkey).symm.trans hnone) (Option.some_ne_none t)
            · intro k' t hk
              rw [find?, find?_trackNew] at hk
              rw [tracker_trackNew]
              split at hk
              · next he =>
                  obtain rfl : ⟨b.trackers.size⟩ = t := by simpa using hk
                  rw [if_pos rfl]
                  rfl
              · split
                · rfl
                · exact hv.used k' t hk
    | _ => exact absurd rfl hw

/-- The subscribers of the destination change only before the first message is accepted. -/
theorem audience_apply (hs : b.Sound) (hu : op.uses b)
    (hregister : ∀ s, op = .register s → h.accepted = []) (hunregister : ∀ id, op ≠ .unregister id)
    (r : Rules) :
    (op.apply r b).audience key = b.audience key ∨ (op.record b h).accepted = [] := by
  have hsame : (∀ s, op ≠ .register s) → (∀ id, op ≠ .unregister id) →
      (op.apply r b).audience key = b.audience key := by
    intro hregister hunregister
    rw [audience, audience, (hs.apply r op hu).idsOf_active, hs.idsOf_active,
      hs.registry_apply hu r hregister hunregister]
  cases op with
  | register s => exact .inr (hregister s rfl)
  | unregister id => exact absurd rfl (hunregister id)
  | _ => exact .inl (hsame nofun nofun)

end Broker

theorem Operation.Brings.keeps (hbrings : op.Brings r b m e) (hv : b.Serves key)
    (htopic : key.type = .topic) (htopics : r.topics ≠ .discardAllowed)
    (ht : lossFreeTerms key b h op) {barred : SubscriberId → Prop}
    (hbarred : ∀ id, op.Bars r b m id → barred id) {st : Standing}
    (hsent : ∀ id, (m, id) ∈ h.sent → st.sent id) :
    st.Keeps (fun t => (b.tracker t).key = key) (b.audience key) barred e := by
  have hkind : ∀ t, (b.tracker t).key = key → (b.tracker t).isTopic = true := by
    intro t hkey
    rw [Tracker.isTopic, hkey, htopic]
    rfl
  cases hbrings with
  | accepted => exact ht.1
  | rebuffered _ htracker | requeued htracker =>
      have hkey := hv.used _ _ htracker
      exact ⟨hkey, hkind _ hkey⟩
  | acknowledged s type => exact hsent _ ht
  | offered hop queue =>
      have hkey := (key_of_delivery hop ht).1
      exact absurd (queue.symm.trans (hkind _ hkey)) Bool.false_ne_true
  | spread hop _ hbars =>
      have hretry : copyPolicy r.topics = .retry := by
        cases hr : r.topics with
        | discardAllowed => exact absurd hr htopics
        | discardNone | slowestSubRate => rfl
      exact ⟨(key_of_delivery hop ht).1, hretry, fun ho => hbarred _ (hbars ho)⟩
  | overrun _ _ allowed => exact absurd allowed htopics
  | retired hop =>
      change b.idsOf (b.active _) = b.audience key
      rw [active, (key_of_delivery hop ht).1]
      rfl
  | evicted hop _ unheard => exact absurd unheard (key_of_delivery hop ht).2
  | unheard => exact absurd rfl ht
  | _ => trivial

structure Broker.LossFree (b : Broker) (h : Journal) (key : DestinationKey)
    (barred : MessageRef → SubscriberId → Prop) : Prop where
  serves : b.Serves key
  copies : ∀ m, (b.standing h m).LossFree (fun t => (b.tracker t).key = key) (b.audience key)
    (barred m)

namespace Broker.LossFree

variable {barred barred' : MessageRef → SubscriberId → Prop}

theorem apply (hx : b.LossFree h key barred) (hs : b.Sound) (hd : b.Distinct) (hu : op.uses b)
    (ht : lossFreeTerms key b h op) (htopic : key.type = .topic)
    (htopics : r.topics ≠ .discardAllowed) (hold : ∀ m id, barred m id → barred' m id)
    (hbarred : ∀ m id, op.Bars r b m id → barred' m id) :
    (op.apply r b).LossFree (op.record b h) key barred' := by
  have htrack : ∀ k, op = .track k → k = key := fun _ he => by subst he; exact ht
  refine ⟨hx.serves.apply hs hu (heard_of_lossFreeTerms ht) htrack r, fun m => ?_⟩
  -- What happens on the way is measured by the destination and audience that the operation found.
  have hstart : (b.standing h m).LossFree (fun t => (b.tracker t).key = key) (b.audience key)
      (barred' m) := (hx.copies m).mono (fun _ h => h) (fun _ _ h => h) (hold m)
  have hend := (op.standing_apply (r := r) (h := h) (m := m) (P := fun st =>
      st.LossFree (fun t => (b.tracker t).key = key) (b.audience key) (barred' m) ∧
        ∀ id, (m, id) ∈ h.sent → st.sent id) hs hd hu ⟨hstart, fun _ h => h⟩
    fun e st st' hbrings hstep ih =>
      have hkeeps := hbrings.keeps hx.serves htopic htopics ht (hbarred m) ih.2
      ⟨ih.1.step hstep hkeeps, fun id hid => hstep.sent (ih.2 id hid)⟩).1
  refine hend.mono (fun t hkey => ?_) (fun ha id hid => ?_) fun _ h => h
  · obtain he | ⟨k, rfl, -, -, he⟩ := hs.key_apply hu r t
    · exact he.trans hkey
    · exact he.trans ht
  · have hregister : ∀ s, op = .register s → h.accepted = [] := fun _ he => by subst he; exact ht
    have hunregister : ∀ id, op ≠ .unregister id := fun _ he => by subst he; exact ht
    obtain he | hnone := audience_apply hs hu hregister hunregister r
    · rwa [he] at hid
    · have hmem : m ∈ (op.record b h).accepted := ha
      rw [hnone] at hmem
      exact absurd hmem List.not_mem_nil

end Broker.LossFree

theorem lossFree_default (htopic : key.type = .topic) (barred : MessageRef → SubscriberId → Prop) :
    (default : Broker).LossFree default key barred := by
  have hkey : ∀ t, ((default : Broker).tracker t).key ≠ key := fun t ht => by
    have hqueue : ((default : Broker).tracker t).key.type = .queue := rfl
    rw [ht, htopic] at hqueue
    exact absurd hqueue (by decide)
  refine ⟨⟨fun t ht => absurd ht (hkey t), fun k t hk => nomatch hk⟩, fun m => ⟨?_, ?_, ?_, ?_⟩⟩
  · exact faithful_default m
  · exact ⟨fun t ht => absurd ht (Nat.lt_irrefl 0), fun a ha => nomatch ha⟩
  · exact fun id => trivial
  · exact fun ha => absurd ha List.not_mem_nil

theorem lossFree_replay (htopic : key.type = .topic) (htopics : r.topics ≠ .discardAllowed)
    (l : List Operation) (hl : Follows r (lossFreeTerms key) l default default) :
    (replay r l default default).1.LossFree (replay r l default default).2 key (Barred r l) := by
  induction l using List.reverseRecOn with
  | nil => exact lossFree_default htopic _
  | append_singleton l op ih =>
      obtain ⟨hl, ⟨hu, ht⟩, -⟩ := follows_append.1 hl
      have hreach := Reaches.start.replay l hl
      have hd := hreach.distinct fun _ _ _ => distinguishes_of_lossFreeTerms
      rw [replay_append]
      exact (ih hl).apply hreach.sound hd hu ht htopic htopics (fun _ _ h => h.append op)
        fun _ _ hbars => ⟨l, op, [], rfl, hbars⟩

def Broker.Retains (b : Broker) (h : Journal) (key : DestinationKey) (m : MessageRef)
    (id : SubscriberId) : Prop :=
  (m, id) ∈ h.sent ∨
    (∃ j ∈ b.dispatcher.jobs, j.message = m ∧ (b.subscriber j.subscriber).id = id) ∨
    (∃ t, b.find? key.tracked = some t ∧ m ∈ (b.tracker t).buffer) ∨
    (b.message m).purged = true ∨ (b.message m).expired = true ∨ m ∈ h.dropped

/-- On a topic whose strategy discards nothing, a subscriber's copy of an accepted message is lost to
nothing but a veto. -/
theorem copy_retained_or_barred (htopic : key.type = .topic) (htopics : r.topics ≠ .discardAllowed)
    {l : List Operation} (hl : Follows r (lossFreeTerms key) l default default)
    (hm : m ∈ (replay r l default default).2.accepted) {s : SubscriberRef}
    (hs : s ∈ (replay r l default default).1.registry.active key) :
    (replay r l default default).1.Retains (replay r l default default).2 key m
        ((replay r l default default).1.subscriber s).id ∨
      Barred r l m ((replay r l default default).1.subscriber s).id := by
  have hfree := lossFree_replay htopic htopics l hl
  have hx := hfree.copies m
  have hv := hfree.serves
  generalize (replay r l default default).1 = b at *
  generalize (replay r l default default).2 = h at *
  have haccounted := hx.accounts (b.subscriber s).id
  have hpresent : (b.message m).awaits (b.subscriber s).id = true →
      b.Retains h key m (b.subscriber s).id := by
    intro hawaits
    rcases hx.waits hm (b.subscriber s).id (List.mem_map_of_mem hs) hawaits with ⟨t, ht⟩ | hrest
    · exact .inr (.inr (.inl ⟨t, hv.mapped t (hx.confined.places t ht), List.count_pos_iff.1 ht⟩))
    · exact .inr (.inr (.inr hrest))
  match hstatus : (b.standing h m).message.status? (b.subscriber s).id with
  | none => exact .inl (hpresent (Message.awaits_iff.2 (.inl hstatus)))
  | some .failed => exact .inl (hpresent (Message.awaits_iff.2 (.inr hstatus)))
  | some .scheduled =>
      rw [hstatus] at haccounted
      obtain ⟨a, ha, hid⟩ := haccounted
      obtain ⟨j, hj, rfl⟩ := List.mem_map.1 ha
      rw [List.mem_filter, decide_eq_true_eq] at hj
      exact .inl (.inr (.inl ⟨j, hj.1, hj.2, hid⟩))
  | some .delivered | some .acknowledged =>
      rw [hstatus] at haccounted
      exact .inl (.inl haccounted)
  | some .discarded =>
      rw [hstatus] at haccounted
      exact .inr haccounted

def slowGuestRun : List Operation :=
  [.createSlot "stored", .createMessage 1 "news" "stored" "story" 0 0,
    .createSubscriber "reader" ⟨"news", .amqp, .topic⟩ "local" 1 default,
    .createSubscriber "guest" ⟨"news", .amqp, .topic⟩ "local" 1 ⟨[.panicked], .record []⟩,
    .register ⟨0⟩, .register ⟨1⟩, .track ⟨"news", .amqp, .topic⟩, .buffer [⟨0⟩] ⟨0⟩ ⟨0⟩,
    .flush [] 0 ⟨0⟩, .runJob 0, .runJob 0, .acknowledge ⟨0⟩ ⟨0⟩ .topic, .flush [] 0 ⟨0⟩]

theorem copy_retained_or_barred_slowGuestRun :
    Follows workerRules (lossFreeTerms ⟨"news", .amqp, .topic⟩) slowGuestRun default default ∧
      ⟨0⟩ ∈ (replay workerRules slowGuestRun default default).2.accepted ∧
      ⟨1⟩ ∈ (replay workerRules slowGuestRun default default).1.registry.active
        ⟨"news", .amqp, .topic⟩ ∧
      ((replay workerRules slowGuestRun default default).1.Retains
          (replay workerRules slowGuestRun default default).2 ⟨"news", .amqp, .topic⟩ ⟨0⟩
          ((replay workerRules slowGuestRun default default).1.subscriber ⟨1⟩).id ∨
        Barred workerRules slowGuestRun ⟨0⟩
          ((replay workerRules slowGuestRun default default).1.subscriber ⟨1⟩).id) :=
  have hf : Follows workerRules (lossFreeTerms ⟨"news", .amqp, .topic⟩) slowGuestRun default
      default := by decide
  have hm : ⟨0⟩ ∈ (replay workerRules slowGuestRun default default).2.accepted := by decide
  have hs : ⟨1⟩ ∈ (replay workerRules slowGuestRun default default).1.registry.active
      ⟨"news", .amqp, .topic⟩ := by decide
  ⟨hf, hm, hs, copy_retained_or_barred rfl (by decide) hf hm hs⟩

end Courier
