import Courier.Proofs.Moves

namespace Courier

open Broker

namespace Standing

/-- The message is flagged and takes one place in one buffer, or neither. -/
structure Placed (st : Standing) : Prop where
  once : st.message.buffered = true → ∃ t, ∀ u, st.places u = if u = t then 1 else 0
  nowhere : st.message.buffered = false → ∀ u, st.places u = 0

variable {st st' : Standing} {a : Attempt} {outcome : FilterOutcome} {e : Event}

namespace Placed

theorem congr (hx : st.Placed) (hb : st'.message.buffered = st.message.buffered)
    (hp : st'.places = st.places) : st'.Placed := by
  refine ⟨?_, ?_⟩
  · rw [hb, hp]; exact hx.once
  · rw [hb, hp]; exact hx.nowhere

theorem buffer (hx : st.Placed) (hb : st.message.buffered = false) (t : TrackerRef) :
    (st.buffer t).Placed := by
  refine ⟨fun _ => ⟨t, fun u => ?_⟩, fun h => absurd h.symm Bool.false_ne_true⟩
  simp only [Standing.buffer, hx.nowhere hb]

theorem rebuffer (hx : st.Placed) (t : TrackerRef) : (st.rebuffer t).Placed := by
  unfold Standing.rebuffer
  split
  · exact hx
  · next hb => exact hx.buffer (Bool.eq_false_iff.2 hb) t

theorem flagged (hx : st.Placed) {t : TrackerRef} (hp : 0 < st.places t) :
    st.message.buffered = true := by
  by_contra hb
  rw [hx.nowhere (Bool.eq_false_iff.2 hb)] at hp
  exact Nat.lt_irrefl 0 hp

theorem only (hx : st.Placed) {t : TrackerRef} (hp : 0 < st.places t) (u : TrackerRef) :
    st.places u = if u = t then 1 else 0 := by
  obtain ⟨v, hv⟩ := hx.once (hx.flagged hp)
  have htv : t = v := by
    by_contra hne
    rw [hv, if_neg hne] at hp
    exact Nat.lt_irrefl 0 hp
  rw [hv, htv]

theorem unbuffer (hx : st.Placed) (t : TrackerRef) : (st.unbuffer t).Placed := by
  unfold Standing.unbuffer
  split
  · next hp =>
      refine ⟨fun h => absurd h Bool.false_ne_true, fun _ u => ?_⟩
      dsimp only
      rw [hx.only hp u]
      split <;> rfl
  · exact hx

/-- With one place at most, leaving a buffer takes the message out of it altogether. -/
theorem drain_eq_unbuffer (hx : st.Placed) (t : TrackerRef) : st.drain t = st.unbuffer t := by
  unfold Standing.drain Standing.unbuffer
  split
  · next hp =>
      congr 1
      funext u
      split
      · next hu => rw [hu, hx.only hp t, if_pos rfl]
      · rfl
  · rfl

theorem drain (hx : st.Placed) (t : TrackerRef) : (st.drain t).Placed := by
  rw [hx.drain_eq_unbuffer t]
  exact hx.unbuffer t

theorem settleIfComplete (hx : st.Placed) : st.settleIfComplete.Placed := by
  unfold Standing.settleIfComplete
  split
  · exact hx.congr rfl rfl
  · exact hx

theorem fail (hx : st.Placed) (a : Attempt) : (st.fail a).Placed := by
  unfold Standing.fail
  split
  · exact (hx.congr rfl rfl : Placed { st with message := st.message.forget a.subscriber }).rebuffer _
  · exact (hx.congr rfl rfl : (st.setStatus a.subscriber .failed).Placed).rebuffer _
  · exact (hx.congr rfl rfl : (st.setStatus a.subscriber .discarded).Placed).settleIfComplete

theorem withdraw (hx : st.Placed) : st.withdraw.Placed :=
  hx.congr (by simp [Standing.withdraw]) rfl

theorem handled (hx : st.Placed) (hh : Handled a st outcome st') : st'.Placed := by
  cases hh with
  | purged | marked | expired | vetoed | alreadyInFlight | dispatched => exact hx.congr rfl rfl
  | failed =>
      have hset : (st.setStatus a.subscriber .scheduled).Placed := hx.congr rfl rfl
      exact hset.fail a

theorem step (hx : st.Placed) (hs : st.Step e st')
    (unplaced : ∀ t, e = .accepted t → st.message.buffered = false) : st'.Placed := by
  cases hs with
  | made before new =>
      refine hx.congr ?_ rfl
      rw [← new, ← before]
      rfl
  | accepted p t =>
      have hx' : Placed { st with
          message := { st.message with slot := some p }, accepted := True } := hx.congr rfl rfl
      exact hx'.buffer (unplaced t rfl) t
  | returned t topic =>
      split
      · exact hx.rebuffer t
      · exact hx.withdraw.rebuffer t
  | acknowledged id type =>
      have hset : (st.setStatus id .acknowledged).Placed := hx.congr rfl rfl
      split
      · exact hset.settleIfComplete
      · exact hset.congr rfl rfl
  | written =>
      unfold deliver
      split <;> exact hx.congr rfl rfl
  | @failed a rest =>
      have hrest : Placed { st with attempts := rest } := hx.congr rfl rfl
      exact hrest.fail a
  | @offered st' t id outcome _ handled =>
      have hafter := (hx.unbuffer t).handled handled
      cases outcome with
      | vetoed => exact hafter.congr rfl rfl
      | alreadyInFlight => exact hafter.rebuffer t
      | purged | expired | dispatched | failed => exact hafter
  | @spread st' t id policy outcome _ handled =>
      have hafter := hx.handled handled
      cases outcome with
      | purged | expired => exact hafter.unbuffer t
      | vetoed => exact hafter.congr rfl rfl
      | alreadyInFlight | dispatched | failed => exact hafter
  | overrun => exact hx.congr rfl rfl
  | retired => exact (hx.unbuffer _).settleIfComplete
  | evicted | cleared | purged => exact (hx.drain _).congr rfl rfl
  | deleted | lost => exact hx.congr rfl rfl

end Placed

end Standing

namespace Broker

/-- A tracker of the host's own: no destination leads to it. -/
def standAlone (b : Broker) (key : DestinationKey) (seed : List SubscriberId) : Broker :=
  (b.addTracker (.new key seed)).2

def TakesIn (p : SlotRef) (t : TrackerRef) (b : Broker) : List MessageRef → Prop
  | [] => True
  | m :: rest => (b.message m).buffered = false ∧ (b.accept p t m).TakesIn p t rest

instance instDecidableTakesIn (p : SlotRef) (t : TrackerRef) (b : Broker) :
    (batch : List MessageRef) → Decidable (b.TakesIn p t batch)
  | [] => .isTrue trivial
  | m :: rest =>
      have := instDecidableTakesIn p t (b.accept p t m) rest
      inferInstanceAs (Decidable ((b.message m).buffered = false ∧ (b.accept p t m).TakesIn p t rest))

instance (b : Broker) (j : Job) : Decidable (b.hasJob j) := inferInstanceAs (Decidable (_ ∧ _ ∧ _))

end Broker

instance (b : Broker) : (op : Operation) → Decidable (op.Distinguishes b)
  | .createMessage id .. => inferInstanceAs (Decidable (∀ m ∈ b.references, (b.message m).id ≠ id))
  | .createSlot _ | .createSubscriber .. | .connect .. | .register _ | .unregister _ | .track _
  | .buffer .. | .rebuffer .. | .requeue .. | .flush .. | .send .. | .findNext .. | .clear _
  | .purge .. | .acknowledge .. | .runJob _ | .close | .shutdown | .deleteExpired _ => .isTrue trivial

def Operation.TakesIn (b : Broker) : Operation → Prop
  | buffer batch p t => b.raiseSlot p (.ofNat batch.length) |>.TakesIn p t batch
  | _ => True

instance (b : Broker) : (op : Operation) → Decidable (op.TakesIn b)
  | .buffer batch p t =>
      inferInstanceAs (Decidable (b.raiseSlot p (.ofNat batch.length) |>.TakesIn p t batch))
  | .createSlot _ | .createMessage .. | .createSubscriber .. | .connect .. | .register _
  | .unregister _ | .track _ | .rebuffer .. | .requeue .. | .flush .. | .send .. | .findNext ..
  | .clear _ | .purge .. | .acknowledge .. | .runJob _ | .close | .shutdown | .deleteExpired _ =>
      .isTrue trivial

def Operation.KeepsPlaces (b : Broker) (op : Operation) : Prop := op.Distinguishes b ∧ op.TakesIn b

instance (b : Broker) (op : Operation) : Decidable (op.KeepsPlaces b) :=
  inferInstanceAs (Decidable (_ ∧ _))

/-- What a host does, with the rules that it does each under. -/
inductive Deed where
  | operation (r : Rules) (op : Operation)
  | standAlone (key : DestinationKey) (seed : List SubscriberId)
  /-- A job of the host's own, for which no copy was claimed. -/
  | submit (j : Job)

namespace Deed

def apply (b : Broker) : Deed → Broker
  | operation r op => op.apply r b
  | standAlone key seed => b.standAlone key seed
  | submit j => (b.submit j).2

def Permitted (b : Broker) : Deed → Prop
  | operation _ op => op.uses b ∧ op.KeepsPlaces b
  | standAlone .. => True
  | submit j => b.hasJob j

instance (b : Broker) : (d : Deed) → Decidable (d.Permitted b)
  | operation _ op => inferInstanceAs (Decidable (op.uses b ∧ op.KeepsPlaces b))
  | standAlone .. => .isTrue trivial
  | submit j => inferInstanceAs (Decidable (b.hasJob j))

def Refers (b : Broker) : Deed → Prop
  | operation _ op => op.uses b
  | standAlone .. => True
  | submit j => b.hasJob j

instance (b : Broker) : (d : Deed) → Decidable (d.Refers b)
  | operation _ op => inferInstanceAs (Decidable (op.uses b))
  | standAlone .. => .isTrue trivial
  | submit j => inferInstanceAs (Decidable (b.hasJob j))

def isSubmit : Deed → Bool
  | submit _ => true
  | operation .. | standAlone .. => false

inductive Leads : Broker → Prop
  | start : Leads default
  | step {b : Broker} (d : Deed) (prior : Leads b) (permitted : d.Permitted b) : Leads (d.apply b)

def all (l : List Deed) (b : Broker) : Broker := l.foldl apply b

def AllPermitted : List Deed → Broker → Prop
  | [], _ => True
  | d :: rest, b => d.Permitted b ∧ AllPermitted rest (d.apply b)

instance instDecidableAllPermitted :
    (l : List Deed) → (b : Broker) → Decidable (AllPermitted l b)
  | [], _ => .isTrue trivial
  | d :: rest, b =>
      have := instDecidableAllPermitted rest (d.apply b)
      inferInstanceAs (Decidable (d.Permitted b ∧ AllPermitted rest (d.apply b)))

def AllRefer : List Deed → Broker → Prop
  | [], _ => True
  | d :: rest, b => d.Refers b ∧ AllRefer rest (d.apply b)

instance instDecidableAllRefer : (l : List Deed) → (b : Broker) → Decidable (AllRefer l b)
  | [], _ => .isTrue trivial
  | d :: rest, b =>
      have := instDecidableAllRefer rest (d.apply b)
      inferInstanceAs (Decidable (d.Refers b ∧ AllRefer rest (d.apply b)))

theorem Leads.all {b : Broker} (hb : Leads b) (l : List Deed) (hl : AllPermitted l b) :
    Leads (Deed.all l b) := by
  induction l generalizing b with
  | nil => exact hb
  | cons d rest ih => exact ih (hb.step d hl.1) hl.2

end Deed

theorem Reaches.leads {r : Rules} {terms : Broker → Journal → Operation → Prop} {b : Broker}
    {h : Journal} (hr : Reaches r terms b h) (hterms : ∀ b h op, terms b h op → op.KeepsPlaces b) :
    Deed.Leads b := by
  induction hr with
  | start => exact .start
  | step op _ hu ht ih => exact ih.step (.operation r op) ⟨hu, hterms _ _ op ht⟩

variable {b : Broker} {h : Journal} {m : MessageRef} {op : Operation}

namespace Broker

theorem not_mem_of_unflagged (hx : (b.standing h m).Placed) (hb : (b.message m).buffered = false)
    (t : TrackerRef) : m ∉ (b.tracker t).buffer :=
  List.count_eq_zero.1 (hx.nowhere hb t)

theorem unflagged_iff (hx : (b.standing h m).Placed) :
    (b.message m).buffered = false ↔ ∀ t, m ∉ (b.tracker t).buffer := by
  refine ⟨not_mem_of_unflagged hx, fun hout => Bool.eq_false_iff.2 fun hb => ?_⟩
  obtain ⟨t, ht⟩ := hx.once hb
  have hone : (b.tracker t).buffer.count m = 1 := (ht t).trans (if_pos rfl)
  rw [List.count_eq_zero.2 (hout t)] at hone
  exact Nat.zero_ne_one hone

def Placed (b : Broker) : Prop := ∀ m, (b.standing default m).Placed

theorem accept_induction {P : MessageRef → Standing → Prop} {p : SlotRef} {t : TrackerRef}
    {batch : List MessageRef} (hx : ∀ m, P m (b.standing h m)) (hs : b.Sound) (hd : b.Distinct)
    (hm : ∀ m ∈ batch, b.hasMessage m) (new : b.TakesIn p t batch)
    (step : ∀ m st, m ∈ batch → st.message.buffered = false → P m st →
      P m (Standing.buffer { st with message := { st.message with slot := some p } } t))
    (m : MessageRef) : P m ((batch.foldl (Broker.accept p t) b).standing h m) := by
  induction batch generalizing b with
  | nil => exact hx m
  | cons n batch ih =>
      have ht := Touches.accept p t b n
      have hn := hm n List.mem_cons_self
      refine ih (fun m => ?_) (hs.touches ht hn fun j hj => hs.jobs j (by simpa using hj))
        (hd.touches ht hn) (fun m hmem => ht.hasMessage (hm m (List.mem_cons_of_mem _ hmem))) new.2
        fun m st hmem => step m st (List.mem_cons_of_mem _ hmem)
      by_cases he : m = n
      · subst he
        rw [standing_accept]
        split
        · exact step m _ List.mem_cons_self new.1 (hx m)
        · exact hx m
      · rw [ht.standing (hs.apart_of_distinct hd hn) he]
        exact hx m

theorem Placed.accept (hx : b.Placed) (hs : b.Sound) (hd : b.Distinct) {p : SlotRef} {t : TrackerRef}
    {batch : List MessageRef} (hm : ∀ m ∈ batch, b.hasMessage m) (new : b.TakesIn p t batch) :
    (batch.foldl (Broker.accept p t) b).Placed :=
  accept_induction (P := fun _ => Standing.Placed) hx hs hd hm new fun m st _ hout hp => by
    have hslot : Standing.Placed { st with message := { st.message with slot := some p } } :=
      hp.congr rfl rfl
    exact hslot.buffer hout t

theorem Placed.apply (hx : b.Placed) (hs : b.Sound) (hd : b.Distinct) (hu : op.uses b)
    (hk : op.TakesIn b) (r : Rules) : (op.apply r b).Placed := by
  have hevents : (∀ batch p t, op ≠ .buffer batch p t) → (op.apply r b).Placed := fun hop m => by
    have hall : ((op.apply r b).standing (op.record b default) m).Placed :=
      op.standing_apply hs hd hu (hx m) fun e st st' hbrings hstep ih => ih.step hstep fun t he => by
        subst he
        cases hbrings with
        | accepted => exact absurd rfl (hop _ _ _)
    exact hall.congr rfl rfl
  cases op with
  | buffer batch p t =>
      exact Placed.accept (b := b.raiseSlot p (.ofNat batch.length)) hx (hs.raiseSlot p _) hd hu.1 hk
  | _ => exact hevents nofun

theorem buffer_standAlone (b : Broker) (key : DestinationKey) (seed : List SubscriberId)
    (t : TrackerRef) : ((b.standAlone key seed).tracker t).buffer = (b.tracker t).buffer := by
  unfold standAlone addTracker tracker
  rw [Table.get_push]
  split
  · next ht =>
      rw [b.trackers.get_of_size_le (Nat.le_of_eq ht.symm)]
      rfl
  · rfl

theorem Sound.standAlone (hs : b.Sound) (key : DestinationKey) (seed : List SubscriberId) :
    (b.standAlone key seed).Sound := by
  have hsize : (b.standAlone key seed).trackers.size = b.trackers.size + 1 := Table.size_push _ _
  have hgrow : ∀ t, b.hasTracker t → (b.standAlone key seed).hasTracker t := fun t ht => by
    rw [hasTracker, hsize]
    exact Nat.lt_succ_of_lt ht
  refine ⟨hs.tidy, fun t m hm => ?_, hs.expired, fun j hj => ?_, hs.registered, hs.apart,
    fun k t hk => ?_⟩
  · rw [buffer_standAlone] at hm
    exact hs.buffered t m hm
  · obtain ⟨h₁, h₂, h₃⟩ := hs.jobs j hj
    exact ⟨h₁, h₂, hgrow _ h₃⟩
  · obtain ⟨ht, hkey⟩ := hs.tracked k t hk
    refine ⟨hgrow t ht, ?_⟩
    rw [← hkey, Broker.standAlone, addTracker, tracker, Table.get_push, if_neg (Nat.ne_of_lt ht)]
    rfl

theorem submit_cases (b : Broker) (j : Job) :
    (b.submit j).2 = b.withJobs (b.dispatcher.jobs ++ [j]) ∨ (b.submit j).2 = b.fail j := by
  cases ha : b.dispatcher.accepting with
  | true => exact .inl (by rw [submit_of_accepting j ha])
  | false => exact .inr (by rw [submit_of_closed j ha])

theorem Touches.submit (b : Broker) (j : Job) : Touches j.message b (b.submit j).2 := by
  obtain he | he := b.submit_cases j
  · rw [he]; exact .addJob b j
  · rw [he]; exact .fail b j

theorem Sound.submit (hs : b.Sound) {j : Job} (hj : b.hasJob j) : (b.submit j).2.Sound := by
  refine hs.touches (.submit b j) hj.2.1 fun i hi => ?_
  obtain he | he := b.submit_cases j
  · rw [he] at hi
    obtain hi | hi := List.mem_append.1 hi
    · exact hs.jobs i hi
    · exact List.mem_singleton.1 hi ▸ hj
  · rw [he] at hi
    exact hs.jobs i (by simpa using hi)

theorem Sound.deed (hs : b.Sound) (d : Deed) (hd : d.Refers b) : (d.apply b).Sound := by
  cases d with
  | operation r op => exact hs.apply r op hd
  | standAlone key seed => exact hs.standAlone key seed
  | submit j => exact hs.submit hd

theorem Placed.submit (hx : b.Placed) (hs : b.Sound) (hd : b.Distinct) {j : Job} (hj : b.hasJob j) :
    (b.submit j).2.Placed := fun m => by
  by_cases hm : m = j.message
  · subst hm
    obtain he | he := b.submit_cases j
    · rw [he, standing_addJob]
      exact (hx _).congr rfl rfl
    · rw [he, standing_fail]
      exact (hx _).fail _
  · rw [(Touches.submit b j).standing (hs.apart_of_distinct hd hj.2.1) hm]
    exact hx m

end Broker

theorem Deed.Leads.placed (hr : Deed.Leads b) : b.Sound ∧ b.Distinct ∧ b.Placed := by
  induction hr with
  | start =>
      refine ⟨sound_default, fun m _ hm => absurd hm (Nat.not_lt_zero _), fun m => ?_⟩
      exact ⟨fun h => absurd h Bool.false_ne_true, fun _ _ => rfl⟩
  | @step b d prior permitted ih =>
      obtain ⟨hs, hd, hx⟩ := ih
      cases d with
      | operation r op =>
          obtain ⟨hu, hk⟩ := permitted
          exact ⟨hs.apply r op hu, hd.apply hs hu hk.1 r, hx.apply hs hd hu hk.2 r⟩
      | standAlone key seed =>
          refine ⟨hs.standAlone key seed, hd, fun m => (hx m).congr rfl ?_⟩
          funext t
          exact congrArg (List.count m) (b.buffer_standAlone key seed t)
      | submit j =>
          exact ⟨hs.submit permitted, hd.touches (.submit b j) permitted.2.1, hx.submit hs hd permitted⟩

/-- A message's flag tells exactly whether it is buffered: in one buffer of one tracker, and once
there. No buffer holds two messages of one id, and putting a message back that is in no buffer
always brings it to the end of one. -/
theorem buffered_exactly_once (hr : Deed.Leads b) (m : MessageRef) :
    ((b.message m).buffered = true ↔
        ∃ t, ∀ u, (b.tracker u).buffer.count m = if u = t then 1 else 0) ∧
      ((b.message m).buffered = false ↔ ∀ t, m ∉ (b.tracker t).buffer) ∧
      (∀ t, ((b.tracker t).buffer.map fun n => (b.message n).id).Nodup) ∧
      ∀ t, (∀ u, m ∉ (b.tracker u).buffer) →
        ((b.rebuffer t m).tracker t).buffer = (b.tracker t).buffer ++ [m] := by
  obtain ⟨hs, hd, hx⟩ := hr.placed
  refine ⟨⟨(hx m).once, fun ⟨t, ht⟩ => ?_⟩, unflagged_iff (hx m), fun t => ?_, fun t hout => ?_⟩
  · have hone : (b.standing default m).places t = 1 := (ht t).trans (if_pos rfl)
    exact (hx m).flagged (by rw [hone]; exact Nat.one_pos)
  · have hn : (b.tracker t).buffer.Nodup := List.nodup_iff_count_le_one.2 fun n => by
      by_cases hp : 0 < (b.tracker t).buffer.count n
      · exact Nat.le_of_eq (((hx n).only hp t).trans (if_pos rfl))
      · omega
    exact hn.map_on fun n hn k hk => hd n k (hs.buffered t n hn) (hs.buffered t k hk)
  · rw [tracker_rebuffer, if_pos ⟨rfl, (unflagged_iff (hx m)).2 hout⟩]

def ownTrackerRun : List Deed :=
  [.operation workerRules (.createSlot "stored"),
    .operation workerRules (.createMessage 1 "orders" "stored" "book" 0 0),
    .operation workerRules (.createMessage 2 "orders" "stored" "lamp" 0 0),
    .operation workerRules (.createSubscriber "worker" ⟨"orders", .amqp, .queue⟩ "local" 1
      ⟨[.sent, .panicked], .record []⟩),
    .operation workerRules (.register ⟨0⟩),
    .operation workerRules (.track ⟨"orders", .amqp, .queue⟩),
    .operation workerRules (.buffer [⟨0⟩] ⟨0⟩ ⟨0⟩),
    .standAlone ⟨"orders", .amqp, .queue⟩ [],
    .operation workerRules (.buffer [⟨1⟩] ⟨0⟩ ⟨1⟩),
    .operation workerRules (.flush [] 0 ⟨0⟩),
    .submit ⟨⟨0⟩, ⟨0⟩, ⟨1⟩, .retry⟩,
    .operation workerRules (.unregister "worker"),
    .operation workerRules (.flush [] 0 ⟨0⟩),
    .operation workerRules (.runJob 0),
    .operation workerRules (.runJob 0)]

theorem buffered_exactly_once_ownTrackerRun :
    Deed.AllPermitted ownTrackerRun default ∧
      ((Deed.all ownTrackerRun default).message ⟨0⟩).buffered = true ∧
      (∃ t, ∀ u, ((Deed.all ownTrackerRun default).tracker u).buffer.count ⟨0⟩ =
        if u = t then 1 else 0) ∧
      ∀ t, (((Deed.all ownTrackerRun default).tracker t).buffer.map fun n =>
        ((Deed.all ownTrackerRun default).message n).id).Nodup :=
  have hp : Deed.AllPermitted ownTrackerRun default := by decide
  have hflag : ((Deed.all ownTrackerRun default).message ⟨0⟩).buffered = true := by decide
  have hexact := buffered_exactly_once (Deed.Leads.start.all ownTrackerRun hp) ⟨0⟩
  ⟨hp, hflag, hexact.1.1 hflag, hexact.2.2.1⟩

end Courier
