import Courier.Proofs.Custody
import Courier.Proofs.Moves
import Courier.Proofs.TopicOnce

namespace Courier

open Broker
open Relation (ReflTransGen)

/-- Different messages have different ids, and the store may refuse a deletion but not panic. -/
def settlingTerms (b : Broker) (_ : Journal) : Operation → Prop
  | .createMessage id .. => ∀ m ∈ b.references, (b.message m).id ≠ id
  | .deleteExpired condition => condition ≠ .panicking
  | _ => True

instance (b : Broker) (h : Journal) : (op : Operation) → Decidable (settlingTerms b h op)
  | .createMessage id .. => inferInstanceAs (Decidable (∀ m ∈ b.references, (b.message m).id ≠ id))
  | .deleteExpired condition => inferInstanceAs (Decidable (condition ≠ .panicking))
  | .createSlot _ | .createSubscriber .. | .connect .. | .register _ | .unregister _ | .track _
  | .buffer .. | .rebuffer .. | .requeue .. | .flush .. | .send .. | .findNext .. | .clear _
  | .purge .. | .acknowledge .. | .runJob _ | .close | .shutdown => .isTrue trivial

theorem Table.exists_get_iff {α : Type} [Inhabited α] {p : α → Prop} (hp : ¬ p default)
    (t : Table α) : (∃ n, p (t.get n)) ↔ ∃ a ∈ t.items, p a := by
  obtain ⟨l⟩ := t
  change (∃ n, p (lookup l n)) ↔ ∃ a ∈ l, p a
  induction l with
  | nil => exact ⟨fun ⟨n, h⟩ => absurd h hp, fun ⟨a, ha, _⟩ => absurd ha List.not_mem_nil⟩
  | cons a l ih =>
      rw [List.exists_mem_cons_iff, ← ih]
      refine ⟨fun ⟨n, hn⟩ => ?_, fun h => ?_⟩
      · cases n with
        | zero => exact .inl hn
        | succ n => exact .inr ⟨n, hn⟩
      · obtain ha | ⟨n, hn⟩ := h
        · exact ⟨0, ha⟩
        · exact ⟨n + 1, hn⟩

theorem inCustody_iff (b : Broker) (h : Journal) (m : MessageRef) :
    InCustody b h m ↔
      (b.message m).settled = true ∨ m ∈ h.dropped ∨ (∃ x ∈ b.trackers.items, m ∈ x.buffer) ∨
        (∃ e ∈ (b.message m).recipients.entries, (b.message m).status? e.1 = some .scheduled ∨
          (b.message m).status? e.1 = some .delivered) ∨ m ∈ b.expired := by
  have hbuffer : (∃ t, m ∈ (b.tracker t).buffer) ↔ ∃ x ∈ b.trackers.items, m ∈ x.buffer := by
    rw [← Table.exists_get_iff (p := fun x : Tracker => m ∈ x.buffer) List.not_mem_nil]
    exact ⟨fun ⟨t, ht⟩ => ⟨t.index, ht⟩, fun ⟨n, hn⟩ => ⟨⟨n⟩, hn⟩⟩
  have hout : (∃ s, (b.message m).status? s = some .scheduled ∨
      (b.message m).status? s = some .delivered) ↔
      ∃ e ∈ (b.message m).recipients.entries, (b.message m).status? e.1 = some .scheduled ∨
        (b.message m).status? e.1 = some .delivered :=
    ⟨fun ⟨s, hs⟩ => hs.elim (fun hs => ⟨_, Dict.mem_of_get? hs, .inl hs⟩)
      fun hs => ⟨_, Dict.mem_of_get? hs, .inr hs⟩, fun ⟨e, _, he⟩ => ⟨e.1, he⟩⟩
  rw [InCustody, hbuffer, hout]

instance (b : Broker) (h : Journal) (m : MessageRef) : Decidable (InCustody b h m) :=
  decidable_of_iff _ (inCustody_iff b h m).symm

namespace Message

variable {x : Message}

def Unfinished (x : Message) : Prop :=
  ∃ id status, x.status? id = some status ∧ status.isFinal = false

theorem Unfinished.setStatus (x : Message) (id : SubscriberId) {status : RecipientStatus}
    (hs : status.isFinal = false) : (x.setStatus id status).Unfinished :=
  ⟨id, status, by rw [status?_setStatus, if_pos rfl], hs⟩

theorem entries_ne_nil {id : SubscriberId} (hs : x.status? id ≠ none) : x.recipients.entries ≠ [] :=
  fun he => hs (by rw [status?, Dict.get?, he]; rfl)

theorem unfinished_of_not_isComplete (hx : x.Tidy) (hb : x.buffered = false)
    (hne : x.recipients.entries ≠ []) (hc : x.isComplete = false) : x.Unfinished := by
  have hall : x.recipients.values.all RecipientStatus.isFinal = false := by
    simpa [isComplete, hb, hne] using hc
  obtain ⟨status, hmem, hfinal⟩ := List.all_eq_false.1 hall
  obtain ⟨⟨id, status⟩, he, rfl⟩ := List.mem_map.1 hmem
  exact ⟨id, status, Dict.get?_of_mem hx he, by simpa using hfinal⟩

end Message

namespace Standing

def Open (st : Standing) : Prop :=
  st.message.settled = true ∨ st.dropped ∨ (∃ t, 0 < st.places t) ∨ st.message.Unfinished ∨ st.pending

def Marked (st : Standing) : Prop :=
  st.message.expired = true → st.message.settled = true ∨ st.pending

variable {st st' : Standing} {t : TrackerRef} {a : Attempt} {outcome : FilterOutcome} {e : Event}

namespace Marked

theorem settleIfComplete (hm : st.Marked) : st.settleIfComplete.Marked := by
  unfold Standing.settleIfComplete
  split
  · exact fun _ => .inl rfl
  · exact hm

theorem rebuffer (hm : st.Marked) (t : TrackerRef) : (st.rebuffer t).Marked := by
  simpa [Marked] using hm

theorem unbuffer (hm : st.Marked) (t : TrackerRef) : (st.unbuffer t).Marked := by
  simpa [Marked] using hm

theorem setStatus (hm : st.Marked) (id : SubscriberId) (status : RecipientStatus) :
    (st.setStatus id status).Marked :=
  hm

theorem fail (hm : st.Marked) (a : Attempt) : (st.fail a).Marked := by
  have hforgot : Marked { st with message := st.message.forget a.subscriber } := hm
  unfold Standing.fail
  split
  · exact hforgot.rebuffer a.tracker
  · exact (hm.setStatus a.subscriber .failed).rebuffer a.tracker
  · exact (hm.setStatus a.subscriber .discarded).settleIfComplete

theorem handled (hm : st.Marked) (hh : Handled a st outcome st') : st'.Marked := by
  cases hh with
  | purged => exact fun _ => .inl rfl
  | expired => exact fun _ => .inr trivial
  | marked | vetoed | alreadyInFlight | dispatched => exact hm
  | failed => exact (hm.setStatus a.subscriber .scheduled).fail a

theorem step (hm : st.Marked) (hs : Step st e st') (he : e ≠ .lost) : st'.Marked := by
  cases hs with
  | made before new =>
      rw [← new]
      exact fun h => absurd h Bool.false_ne_true
  | accepted | overrun => exact hm
  | returned t topic =>
      refine rebuffer ?_ t
      split
      · exact hm
      · simpa [Marked, Standing.withdraw] using hm
  | acknowledged id type =>
      split
      · exact (hm.setStatus id .acknowledged).settleIfComplete
      · exact fun _ => .inl rfl
  | written =>
      unfold deliver
      split <;> exact hm
  | @failed a rest =>
      have hrest : Marked { st with attempts := rest } := hm
      exact hrest.fail a
  | @offered st' t id outcome _ handled =>
      have hafter := (hm.unbuffer t).handled handled
      cases outcome with
      | vetoed => exact fun _ => .inl rfl
      | alreadyInFlight => exact hafter.rebuffer t
      | purged | expired | dispatched | failed => exact hafter
  | @spread st' t id policy outcome _ handled =>
      have hafter := hm.handled handled
      cases outcome with
      | purged | expired => exact hafter.unbuffer t
      | vetoed | alreadyInFlight | dispatched | failed => exact hafter
  | retired => exact (hm.unbuffer _).settleIfComplete
  | evicted | purged | deleted => exact fun _ => .inl rfl
  | cleared => simpa [Marked] using hm
  | lost => exact absurd rfl he

end Marked

theorem open_of_settled (hs : st.message.settled = true) : st.Open := .inl hs

theorem open_of_places (hp : ∃ t, 0 < st.places t) : st.Open := .inr (.inr (.inl hp))

theorem open_of_unfinished (hu : st.message.Unfinished) : st.Open := .inr (.inr (.inr (.inl hu)))

theorem Faithful.open_settleIfComplete (hf : st.Faithful)
    (hne : st.message.recipients.entries ≠ []) : st.settleIfComplete.Open := by
  unfold Standing.settleIfComplete
  cases hc : st.message.isComplete with
  | true => exact open_of_settled rfl
  | false =>
      cases hb : st.message.buffered with
      | true => exact open_of_places (hf.flagged hb)
      | false =>
          exact open_of_unfinished (Message.unfinished_of_not_isComplete hf.tidy hb hne hc)

theorem entries_setStatus (st : Standing) (id : SubscriberId) (status : RecipientStatus) :
    (st.setStatus id status).message.recipients.entries ≠ [] := by
  refine @Message.entries_ne_nil (st.setStatus id status).message id ?_
  rw [setStatus, Message.status?_setStatus, if_pos rfl]
  exact Option.some_ne_none status

theorem Faithful.open_rebuffer (hf : st.Faithful) (t : TrackerRef) : (st.rebuffer t).Open :=
  open_of_places (hf.places_rebuffer t)

theorem Faithful.open_fail (hf : st.Faithful) (a : Attempt) : (st.fail a).Open := by
  unfold Standing.fail
  split
  · exact (hf.of_message (hf.tidy.forget a.subscriber) rfl).open_rebuffer a.tracker
  · exact (hf.setStatus a.subscriber .failed).open_rebuffer a.tracker
  · exact (hf.setStatus a.subscriber .discarded).open_settleIfComplete (entries_setStatus _ _ _)

theorem open_offered (hf : (st.unbuffer t).Faithful) (hm : (st.unbuffer t).Marked)
    (hh : Handled a (st.unbuffer t) outcome st') : (st'.afterOffer t outcome).Open := by
  have hafter := hf.handled hh
  cases hh with
  | purged | vetoed => exact open_of_settled rfl
  | marked marked => exact (hm marked).elim open_of_settled fun hp => .inr (.inr (.inr (.inr hp)))
  | expired => exact .inr (.inr (.inr (.inr trivial)))
  | alreadyInFlight => exact hafter.open_rebuffer t
  | dispatched => exact open_of_unfinished (.setStatus _ a.subscriber rfl)
  | failed => exact (hf.setStatus a.subscriber .scheduled).open_fail a

theorem open_spread (hm : st.Marked) (hp : 0 < st.places t) (id : SubscriberId)
    (hh : Handled a st outcome st') : (st'.afterSpread t id outcome).Open := by
  have hplaces : ∃ v, 0 < st'.places v := ⟨t, Nat.lt_of_lt_of_le hp (hh.places_le t)⟩
  cases hh with
  | purged => exact open_of_settled (by simp [afterSpread, settle])
  | marked marked =>
      obtain hs | hd := hm marked
      · exact open_of_settled (by simp [afterSpread, hs])
      · exact .inr (.inr (.inr (.inr (by simpa [afterSpread] using hd))))
  | expired => exact .inr (.inr (.inr (.inr (by simp [afterSpread, expire]))))
  | vetoed | alreadyInFlight | dispatched | failed => exact open_of_places hplaces

theorem Step.open (hf : st.Faithful) (hm : st.Marked) (hs : Step st e st') (he : e ≠ .lost)
    (ho : st.accepted → st.Open) (ha : st'.accepted) : st'.Open := by
  have hf' := hf.step hs
  cases hs with
  | made before new =>
      have hfresh : st.message.settled = false ∧ ¬ st.message.Unfinished := by
        rw [← before]
        exact ⟨rfl, fun ⟨id, status, h, _⟩ => nomatch h⟩
      obtain h | h | h | h | h := ho ha
      · simp [hfresh] at h
      · exact .inr (.inl h)
      · exact open_of_places h
      · exact absurd h hfresh.2
      · exact .inr (.inr (.inr (.inr h)))
  | accepted p t => exact open_of_places ⟨t, by simp [buffer]⟩
  | returned t topic =>
      refine Faithful.open_rebuffer ?_ t
      split
      · exact hf
      · exact hf.withdraw
  | acknowledged id type =>
      split
      · exact (hf.setStatus id .acknowledged).open_settleIfComplete (entries_setStatus st id _)
      · exact open_of_settled rfl
  | @written a rest =>
      unfold deliver at ha ⊢
      split
      · exact open_of_unfinished (.setStatus _ a.subscriber rfl)
      · next hne => rw [if_neg hne] at ha; exact ho ha
  | @failed a rest =>
      have hrest : Faithful { st with attempts := rest } := ⟨hf.tidy, hf.flagged⟩
      exact hrest.open_fail a
  | offered _ handled => exact open_offered hf.unbuffer (hm.unbuffer _) handled
  | spread buffered handled => exact open_spread hm buffered _ handled
  | overrun buffered => exact open_of_places ⟨_, buffered⟩
  | @retired t ids heard handedOff =>
      obtain ⟨id, hid⟩ := List.exists_mem_of_ne_nil ids heard
      have hstatus := List.all_eq_true.1 handedOff id hid
      refine hf.unbuffer.open_settleIfComplete ?_
      rw [(unbuffer_frame st t).1]
      exact @Message.entries_ne_nil st.message id fun h => by simp [h] at hstatus
  | evicted | purged | deleted => exact open_of_settled rfl
  | cleared => exact .inr (.inl trivial)
  | lost => exact absurd rfl he

end Standing

variable {r : Rules} {b : Broker} {h : Journal}

theorem distinguishes_of_settlingTerms {op : Operation} (ht : settlingTerms b h op) :
    op.Distinguishes b := by
  cases op with
  | createMessage => exact ht
  | _ => trivial

theorem Reaches.open (hr : Reaches r settlingTerms b h) {m : MessageRef} (hm : m ∈ h.accepted) :
    (b.standing h m).Open := by
  have hall := hr.standing_induction (P := fun st => st.Faithful ∧ st.Marked ∧ (st.accepted → st.Open))
    (fun _ _ _ => distinguishes_of_settlingTerms)
    (fun m => ⟨faithful_default m, fun h => absurd h Bool.false_ne_true,
      fun ha => absurd ha List.not_mem_nil⟩)
    (fun b h op m e st st' _ _ ht hbrings hs ⟨hf, hmarked, ho⟩ => by
      have he : e ≠ .lost := fun he => by
        subst he
        cases hbrings
        exact ht rfl
      exact ⟨hf.step hs, hmarked.step hs he, hs.open hf hmarked he ho⟩) m
  exact hall.2.2 hm

/-- In every run an accepted message is in somebody's custody, or a copy of it has failed and is on
record as failed. -/
theorem accepted_in_custody_or_failed (hr : Reaches r settlingTerms b h) (m : MessageRef)
    (hm : m ∈ h.accepted) :
    InCustody b h m ∨ ∃ id, (b.message m).status? id = some .failed := by
  obtain hs | hd | ⟨t, ht⟩ | ⟨id, status, hstatus, hfinal⟩ | hp := hr.open hm
  · exact .inl (.inl hs)
  · exact .inl (.inr (.inl hd))
  · exact .inl (.inr (.inr (.inl ⟨t, List.count_pos_iff.1 ht⟩)))
  · cases status with
    | scheduled => exact .inl (.inr (.inr (.inr (.inl ⟨id, .inl hstatus⟩))))
    | delivered => exact .inl (.inr (.inr (.inr (.inl ⟨id, .inr hstatus⟩))))
    | failed => exact .inr ⟨id, hstatus⟩
    | acknowledged | discarded => exact absurd hfinal (by decide)
  · exact .inl (.inr (.inr (.inr (.inr hp))))

/-- The reader of a story acknowledges it, and the guest has left whose copy failed. -/
def guestRun : List Operation :=
  [.createSlot "stored", .createMessage 1 "news" "stored" "story" 0 0,
    .createSubscriber "reader" ⟨"news", .amqp, .topic⟩ "local" 1 default,
    .createSubscriber "guest" ⟨"news", .amqp, .topic⟩ "local" 1 ⟨[.panicked], .record []⟩,
    .register ⟨0⟩, .register ⟨1⟩, .track ⟨"news", .amqp, .topic⟩, .buffer [⟨0⟩] ⟨0⟩ ⟨0⟩,
    .flush [] 0 ⟨0⟩, .runJob 0, .runJob 0, .unregister "guest", .acknowledge ⟨0⟩ ⟨0⟩ .topic,
    .flush [] 0 ⟨0⟩]

theorem accepted_in_custody_or_failed_guestRun :
    Follows workerRules settlingTerms guestRun default default ∧
      ⟨0⟩ ∈ (replay workerRules guestRun default default).2.accepted ∧
      (InCustody (replay workerRules guestRun default default).1
          (replay workerRules guestRun default default).2 ⟨0⟩ ∨
        ∃ id, ((replay workerRules guestRun default default).1.message ⟨0⟩).status? id =
          some .failed) :=
  have hf : Follows workerRules settlingTerms guestRun default default := by decide
  have hm : ⟨0⟩ ∈ (replay workerRules guestRun default default).2.accepted := by decide
  ⟨hf, hm, accepted_in_custody_or_failed (Reaches.start.replay guestRun hf) ⟨0⟩ hm⟩

/-- The guest's copy is nobody's any more, and nothing settles the message. -/
theorem stranded_guestRun :
    ¬ ∀ (r : Rules) (b : Broker) (h : Journal), Reaches r settlingTerms b h →
      Reaches r topicTerms b h → ∀ m ∈ h.accepted, InCustody b h m := by
  intro hall
  have hf : Follows workerRules settlingTerms guestRun default default := by decide
  have ht : Follows workerRules topicTerms guestRun default default := by decide
  have hcustody := hall _ _ _ (Reaches.start.replay guestRun hf) (Reaches.start.replay guestRun ht) ⟨0⟩
    (by decide)
  exact absurd hcustody (by decide)

end Courier
