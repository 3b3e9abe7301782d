import Courier.Proofs.Sound

namespace Courier

open Broker
open Relation (ReflTransGen)

/-- What custody asks of the host: different messages have different ids, messages are used with
queues and durable topics only, and the store may refuse a deletion but not panic. -/
def custodyTerms (b : Broker) (_ : Journal) : Operation → Prop
  | .createMessage id .. => ∀ m ∈ b.references, (b.message m).id ≠ id
  | .buffer _ _ t => (b.tracker t).isTopic = false
  | .rebuffer key _ => key.type ≠ .topic
  | .requeue _ type | .acknowledge _ _ type => type ≠ .topic
  | .deleteExpired condition => condition ≠ .panicking
  | _ => True

instance (b : Broker) (h : Journal) : (op : Operation) → Decidable (custodyTerms b h op)
  | .createMessage id .. => inferInstanceAs (Decidable (∀ m ∈ b.references, (b.message m).id ≠ id))
  | .buffer _ _ t => inferInstanceAs (Decidable ((b.tracker t).isTopic = false))
  | .rebuffer key _ => inferInstanceAs (Decidable (key.type ≠ .topic))
  | .requeue _ type | .acknowledge _ _ type => inferInstanceAs (Decidable (type ≠ .topic))
  | .deleteExpired condition => inferInstanceAs (Decidable (condition ≠ .panicking))
  | .createSlot _ | .createSubscriber .. | .connect .. | .register _ | .unregister _ | .track _
  | .flush .. | .send .. | .findNext .. | .clear _ | .purge .. | .runJob _ | .close
  | .shutdown => .isTrue trivial

def InCustody (b : Broker) (h : Journal) (m : MessageRef) : Prop :=
  (b.message m).settled = true ∨ m ∈ h.dropped ∨ (∃ t, m ∈ (b.tracker t).buffer) ∨
    (∃ s, (b.message m).status? s = some .scheduled ∨ (b.message m).status? s = some .delivered) ∨
    m ∈ b.expired

structure Custody (b : Broker) (h : Journal) : Prop where
  flagged : ∀ m, (b.message m).buffered = true → ∃ t, m ∈ (b.tracker t).buffer
  marked : ∀ m, (b.message m).expired = true → (b.message m).settled = true ∨ m ∈ b.expired
  topics : ∀ t, (b.tracker t).isTopic = true → (b.tracker t).buffer = []
  jobs : ∀ j ∈ b.dispatcher.jobs, j.policy = .rebuffer ∧ (b.tracker j.tracker).isTopic = false
  apart : ∀ m n, b.hasMessage m → b.hasMessage n → (b.message m).id = (b.message n).id → m = n
  made : ∀ m ∈ h.accepted, b.hasMessage m
  kept : ∀ m ∈ h.accepted, InCustody b h m

structure Tended (b : Broker) (h : Journal) (m : MessageRef) : Prop where
  flagged : (b.message m).buffered = true → ∃ t, m ∈ (b.tracker t).buffer
  marked : (b.message m).expired = true → (b.message m).settled = true ∨ m ∈ b.expired
  kept : m ∈ h.accepted → InCustody b h m

variable {b b' : Broker} {h : Journal} {m : MessageRef} {t : TrackerRef} {r : Rules} {now : UInt64}
  {active : List SubscriberRef} {batch : List MessageRef}

theorem Tended.of_settled (hs : (b.message m).settled = true)
    (hf : (b.message m).buffered = true → ∃ t, m ∈ (b.tracker t).buffer) : Tended b h m :=
  ⟨hf, fun _ => .inl hs, fun _ => .inl hs⟩

theorem Tended.of_buffered (hb : m ∈ (b.tracker t).buffer)
    (hm : (b.message m).expired = true → (b.message m).settled = true ∨ m ∈ b.expired) :
    Tended b h m :=
  ⟨fun _ => ⟨t, hb⟩, hm, fun _ => .inr (.inr (.inl ⟨t, hb⟩))⟩

theorem Tended.congr (ht : Tended b h m) (hm : b'.message m = b.message m)
    (hb : ∀ t, (b'.tracker t).buffer = (b.tracker t).buffer) (he : b'.expired = b.expired) :
    Tended b' h m := by
  refine ⟨fun hf => ?_, fun hx => ?_, fun ha => ?_⟩
  · simpa only [hb] using ht.flagged (hm ▸ hf)
  · rw [hm, he]; exact ht.marked (hm ▸ hx)
  · simpa only [InCustody, hm, hb, he] using ht.kept ha

theorem Broker.Preserves.isTopic (hp : Preserves b b') (t : TrackerRef) :
    (b'.tracker t).isTopic = (b.tracker t).isTopic := by
  rw [Tracker.isTopic, hp.key, ← Tracker.isTopic]

namespace Custody

theorem tended (hc : Custody b h) (m : MessageRef) : Tended b h m :=
  ⟨hc.flagged m, hc.marked m, hc.kept m⟩

theorem touches (hc : Custody b h) (hs : b.Sound) (ht : Touches m b b') (hm : b.hasMessage m)
    (topics : ∀ t, (b.tracker t).isTopic = true → m ∉ (b'.tracker t).buffer)
    (jobs : ∀ j ∈ b'.dispatcher.jobs,
      j ∈ b.dispatcher.jobs ∨ j.policy = .rebuffer ∧ (b.tracker j.tracker).isTopic = false)
    (tended : Tended b' h m) : Custody b' h := by
  have hsize : ∀ n, b'.hasMessage n → b.hasMessage n := fun n hn => by
    rwa [hasMessage, ht.size hm] at hn
  -- A buffer is left by id, and no two messages share one.
  have hkeeps : ∀ t n, n ≠ m → n ∈ (b.tracker t).buffer → n ∈ (b'.tracker t).buffer :=
    fun t n hne hn => ht.keeps t n hn fun hid => hne (hc.apart n m (hs.buffered t n hn) hm hid)
  refine ⟨fun n hn => ?_, fun n hn => ?_, fun t htopic => ?_, fun j hj => ?_,
    fun n k hn hk hid => ?_, fun n hn => ht.toPreserves.hasMessage (hc.made n hn), fun n hn => ?_⟩
  · by_cases hne : n = m
    · exact hne ▸ tended.flagged (hne ▸ hn)
    · rw [ht.others n hne] at hn
      obtain ⟨t, hmem⟩ := hc.flagged n hn
      exact ⟨t, hkeeps t n hne hmem⟩
  · by_cases hne : n = m
    · subst hne; exact tended.marked hn
    · rw [ht.others n hne] at hn ⊢
      exact (hc.marked n hn).imp_right (ht.pending n)
  · rw [ht.toPreserves.isTopic] at htopic
    refine List.eq_nil_iff_forall_not_mem.2 fun n hn => ?_
    obtain hold | rfl := ht.gains t n hn
    · simp [hc.topics t htopic] at hold
    · exact topics t htopic hn
  · rw [ht.toPreserves.isTopic]
    exact (jobs j hj).elim (hc.jobs j) id
  · rw [ht.id, ht.id] at hid
    exact hc.apart n k (hsize n hn) (hsize k hk) hid
  · by_cases hne : n = m
    · subst hne; exact tended.kept hn
    · have hkept := hc.kept n hn
      rw [InCustody, ht.others n hne]
      refine hkept.imp_right (Or.imp_right (Or.imp ?_ (Or.imp_right (ht.pending n))))
      exact Exists.imp fun t hmem => hkeeps t n hne hmem

theorem of_preserves {h' : Journal} (hc : Custody b h) (hp : Preserves b b')
    (size : b'.messages.size = b.messages.size) (accepted : h'.accepted = h.accepted)
    (buffer : ∀ t m, m ∈ (b'.tracker t).buffer → m ∈ (b.tracker t).buffer)
    (jobs : ∀ j ∈ b'.dispatcher.jobs, j ∈ b.dispatcher.jobs)
    (tended : ∀ m, Tended b h m → Tended b' h' m) : Custody b' h' where
  flagged m := (tended m (hc.tended m)).flagged
  marked m := (tended m (hc.tended m)).marked
  topics t ht := by
    rw [hp.isTopic] at ht
    exact List.eq_nil_iff_forall_not_mem.2 fun m hm => by simpa [hc.topics t ht] using buffer t m hm
  jobs j hj := by
    rw [hp.isTopic]
    exact hc.jobs j (jobs j hj)
  apart m n hm hn hid := by
    rw [hasMessage, size] at hm hn
    rw [hp.id, hp.id] at hid
    exact hc.apart m n hm hn hid
  made m hm := hp.hasMessage (hc.made m (accepted ▸ hm))
  kept m hm := (tended m (hc.tended m)).kept hm

theorem of_same (hc : Custody b h) (hm : b'.messages = b.messages)
    (hk : ∀ t, (b'.tracker t).key = (b.tracker t).key)
    (hb : ∀ t, (b'.tracker t).buffer = (b.tracker t).buffer) (he : b'.expired = b.expired)
    (jobs : ∀ j ∈ b'.dispatcher.jobs, j ∈ b.dispatcher.jobs) : Custody b' h := by
  have hmsg : ∀ m, b'.message m = b.message m := fun m => by rw [message, hm]; rfl
  have hhas : ∀ m, b'.hasMessage m ↔ b.hasMessage m := fun m => by rw [hasMessage, hm]; rfl
  have htopic : ∀ t, (b'.tracker t).isTopic = (b.tracker t).isTopic := fun t => by
    rw [Tracker.isTopic, hk, ← Tracker.isTopic]
  have htended : ∀ m, Tended b' h m := fun m => (hc.tended m).congr (hmsg m) hb he
  refine ⟨fun m => (htended m).flagged, fun m => (htended m).marked, fun t ht => ?_, fun j hj => ?_,
    fun m n h₁ h₂ hid => ?_, fun m ha => (hhas m).2 (hc.made m ha), fun m => (htended m).kept⟩
  · rw [hb]; exact hc.topics t (by rwa [← htopic])
  · rw [htopic]; exact hc.jobs j (jobs j hj)
  · rw [hmsg, hmsg] at hid
    exact hc.apart m n ((hhas m).1 h₁) ((hhas n).1 h₂) hid

theorem tended_offer (hc : Custody b h) (s : SubscriberRef)
    (hb : m ∈ (b.tracker t).buffer) :
    Tended ((b.unbuffer t m).offer r now t s m).2 h m := by
  obtain ⟨outcome, d, hd, hh⟩ := exists_handled (b.unbuffer t m) r now s m t .rebuffer
  have hflag : ((b.unbuffer t m).message m).buffered = false := by
    rw [message_unbuffer, if_pos ⟨rfl, (isBufferedIn_iff b t m).2 ⟨m, hb, rfl⟩⟩]
  have hmarked : ((b.unbuffer t m).message m).expired = true →
      ((b.unbuffer t m).message m).settled = true ∨ m ∈ (b.unbuffer t m).expired := by
    simpa using hc.marked m
  generalize b.unbuffer t m = c at hd hh hflag hmarked ⊢
  unfold offer
  rw [hd]
  cases hh with
  | purged =>
      refine .of_settled (by simp [message_settle]) fun hf => ?_
      simp [message_settle, markPurged, message_modifyMessage, hflag] at hf
  | marked _ hx =>
      refine ⟨fun hf => absurd hf (by simp [hflag]), hmarked, fun _ => ?_⟩
      exact (hmarked hx).elim .inl fun he => .inr (.inr (.inr (.inr he)))
  | expired =>
      have he : m ∈ ((c.markExpired m).addExpired m).expired := by simp
      refine ⟨fun hf => ?_, fun _ => .inr he, fun _ => .inr (.inr (.inr (.inr he)))⟩
      simp [markExpired, message_modifyMessage, hflag] at hf
  | vetoed =>
      refine .of_settled (by simp [message_settle]) fun hf => ?_
      simp [hflag] at hf
  | alreadyInFlight =>
      refine .of_buffered (t := t) (by simp [tracker_rebuffer, hflag]) ?_
      simpa using hmarked
  | dispatched =>
      refine ⟨fun hf => ?_, ?_, fun _ => .inr (.inr (.inr (.inl ⟨(c.subscriber s).id, .inl ?_⟩)))⟩
      · simp [message_claim, Message.setStatus, hflag] at hf
      · simpa [message_claim, Message.setStatus] using hmarked
      · simp [message_claim, Message.status?, Message.setStatus, Dict.get?_insert]
  | failed =>
      refine .of_buffered (t := t) ?_ ?_
      · simp [buffer_fail, message_claim, Message.setStatus, hflag]
      · simpa [message_fail_rebuffer, message_claim, Message.setStatus, Message.forget] using hmarked

theorem passStep (hc : Custody b h) (hs : b.Sound)
    (hstep : PassStep r now t active batch b b') : Custody b' h := by
  have hempty : ∀ m, (b.tracker t).isTopic = true → ¬ b.isBufferedIn t m = true := fun m htopic => by
    simp [isBufferedIn_iff, hc.topics t htopic]
  have hjobs := hstep.jobs_eq
  cases hstep with
  | turn =>
      exact hc.of_same rfl (fun v => (tracker_nextSubscriber b t v active).1)
        (fun v => (tracker_nextSubscriber b t v active).2.1) rfl fun j hj => hj
  | discard m s topic _ _ buffered => exact absurd buffered (hempty m topic)
  | spread m s topic _ buffered => exact absurd buffered (hempty m topic)
  | retire m topic _ buffered => exact absurd buffered (hempty m topic)
  | offer m rest s queue front below hs' =>
      have hb : m ∈ (b.tracker t).buffer := by simp [front]
      refine hc.touches hs ((Touches.unbuffer b t m).trans (Touches.offer _ r now t s m))
        (hs.buffered t m hb) (fun v htopic => ?_) (fun j hj => ?_) (hc.tended_offer s hb)
      · have hv : v ≠ t := fun he => by simp [he, queue] at htopic
        simp [offer_buffer_of_ne b r now s m hv, hc.topics v htopic]
      · obtain he | ⟨u, -, n, -, he⟩ := hjobs
        · exact .inl (he ▸ hj)
        · rw [he, List.mem_append, List.mem_singleton] at hj
          exact hj.imp_right fun he => by simp [he, passPolicy, queue]

theorem tended_execute (hc : Custody b h) {j : Job} (hj : j.policy = .rebuffer) :
    Tended (b.execute j) h j.message := by
  have hflagged := hc.flagged j.message
  have hmarked := hc.marked j.message
  rw [execute_eq]
  split
  · by_cases hs : (b.message j.message).status? (b.subscriber j.subscriber).id = some .scheduled
    · refine ⟨fun hf => ?_, ?_, fun _ =>
        .inr (.inr (.inr (.inl ⟨(b.subscriber j.subscriber).id, .inr ?_⟩)))⟩
      · simpa using hflagged (by simpa [message_markDelivered, hs, Message.setStatus] using hf)
      · simpa [message_markDelivered, hs, Message.setStatus] using hmarked
      · simp [message_markDelivered, hs]
    · refine ⟨fun hf => ?_, ?_, fun ha => ?_⟩
      · simpa using hflagged (by simpa [message_markDelivered, hs] using hf)
      · simpa [message_markDelivered, hs] using hmarked
      · simpa [InCustody, message_markDelivered, hs] using hc.kept j.message ha
  · by_cases hf : (b.message j.message).buffered = true
    · obtain ⟨t, ht⟩ := hflagged hf
      refine .of_buffered (t := t) (by simp [buffer_fail, hf, ht]) ?_
      simpa [message_fail_rebuffer _ _ hj, Message.forget] using hmarked
    · refine .of_buffered (t := j.tracker) (by simp [buffer_fail, hf, hj]) ?_
      simpa [message_fail_rebuffer _ _ hj, Message.forget] using hmarked

theorem withJobs (hc : Custody b h) {l : List Job} (hl : ∀ j ∈ l, j ∈ b.dispatcher.jobs) :
    Custody (b.withJobs l) h :=
  hc.of_same rfl (fun _ => rfl) (fun _ => rfl) rfl hl

theorem execute (hc : Custody b h) (hs : b.Sound) {j : Job} (hj : j ∈ b.dispatcher.jobs)
    {l : List Job} (hl : ∀ j ∈ l, j ∈ b.dispatcher.jobs) :
    Custody ((b.withJobs l).execute j) h := by
  have hw := hc.withJobs hl
  obtain ⟨hpolicy, htracker⟩ := hc.jobs j hj
  have hsw : (b.withJobs l).Sound :=
    hs.of_preserves { Preserves.refl b with } (fun _ _ hk => hk) hs.buffered hs.expired
      fun i hi => hs.jobs i (hl i hi)
  refine hw.touches hsw (Touches.execute _ j) (hs.jobs j hj).2.1 (fun v htopic hmem => ?_)
    (fun i hi => .inl (by simpa using hi)) (hw.tended_execute hpolicy)
  have hv : v ≠ j.tracker := fun he => by simp [he, htracker] at htopic
  rw [execute_eq] at hmem
  split at hmem
  · simp [hc.topics v (by simpa using htopic)] at hmem
  · simp [buffer_fail, hv, hc.topics v (by simpa using htopic)] at hmem

theorem runJob (hc : Custody b h) (hs : b.Sound) (place : Nat) : Custody (b.runJob place) h := by
  unfold Broker.runJob
  split
  · next j hj =>
      exact hc.execute hs (List.mem_of_getElem? hj) fun i hi => List.mem_of_mem_eraseIdx hi
  · exact hc

theorem returnToBuffer (hc : Custody b h) (hs : b.Sound) (hm : b.hasMessage m)
    (ht : (b.tracker t).isTopic = false) : Custody (b.returnToBuffer t m) h := by
  refine hc.touches hs (.returnToBuffer t b m) hm (fun v htopic => ?_)
    (fun j hj => .inl (by simpa using hj)) ?_
  · have hv : v ≠ t := fun he => by simp [he, ht] at htopic
    simp [buffer_returnToBuffer, hv, hc.topics v htopic]
  · have hmarked := hc.marked m
    by_cases hf : (b.message m).buffered = true
    · obtain ⟨v, hv⟩ := hc.flagged m hf
      exact .of_buffered (t := v) (by simp [buffer_returnToBuffer, hf, hv]) (by simpa using hmarked)
    · exact .of_buffered (t := t) (by simp [buffer_returnToBuffer, hf]) (by simpa using hmarked)

theorem accept (hc : Custody b h) (hs : b.Sound) (hm : b.hasMessage m) {p : SlotRef}
    (ht : (b.tracker t).isTopic = false) : Custody (b.accept p t m) h := by
  by_cases hd : (b.message m).destination = (b.tracker t).key.destination
  · refine hc.touches hs (.accept p t b m) hm (fun v htopic => ?_)
      (fun j hj => .inl (by simpa using hj)) ?_
    · have hv : v ≠ t := fun he => by simp [he, ht] at htopic
      simp [tracker_accept, hv, hc.topics v htopic]
    · exact .of_buffered (t := t) (by simp [tracker_accept, hd])
        (by simpa [message_accept, hd] using hc.marked m)
  · exact hc.of_same (by simp [Broker.accept, hd, lowerSlot, modifySlot])
      (Touches.accept p t b m).key (fun v => by simp [tracker_accept, hd]) (by simp)
      fun j hj => by simpa using hj

theorem acknowledge (hc : Custody b h) (hs : b.Sound) (hm : b.hasMessage m) (s : SubscriberRef)
    {type : DestinationType} (ht : type ≠ .topic) : Custody (b.acknowledge s m type) h := by
  refine hc.touches hs (.acknowledge b s m type) hm (fun v htopic => ?_)
    (fun j hj => .inl (by simpa using hj)) (.of_settled ?_ fun hf => ?_)
  · simp [hc.topics v htopic]
  · simp [message_acknowledge b s m m ht]
  · simpa using hc.flagged m (by simpa [message_acknowledge b s m m ht, Message.setStatus] using hf)

theorem foldl {f : Broker → MessageRef → Broker} (hf : ∀ b m, Touches m b (f b m))
    (hd : ∀ b m, (f b m).dispatcher = b.dispatcher)
    (hstep : ∀ {b m}, Custody b h → b.Sound → b.hasMessage m → (b.tracker t).isTopic = false →
      Custody (f b m) h)
    (l : List MessageRef) (hc : Custody b h) (hs : b.Sound) (ht : (b.tracker t).isTopic = false)
    (hl : ∀ m ∈ l, b.hasMessage m) : Custody (l.foldl f b) h := by
  induction l generalizing b with
  | nil => exact hc
  | cons m l ih =>
      have hm := hl m (by simp)
      have hp := (hf b m).toPreserves
      refine ih (hstep hc hs hm ht) (hs.touches (hf b m) hm fun j hj => hs.jobs j ?_)
        (by rwa [hp.isTopic]) fun n hn => hp.hasMessage (hl n (by simp [hn]))
      rwa [hd] at hj

theorem putBack (hc : Custody b h) (hs : b.Sound) (r : Rules) {key : TrackedKey}
    (hk : key.type ≠ .topic) (l : List MessageRef) (hl : ∀ m ∈ l, b.hasMessage m) :
    Custody ((Operation.rebuffer key l).apply r b) h := by
  rw [Operation.apply_rebuffer]
  split
  · next t ht =>
      have htype := (hs.isTopic_of_find? ht).trans (decide_eq_false hk)
      exact foldl (.returnToBuffer t) (fun b m => (returnToBuffer_frame t b m).2.2.2.2.2.2)
        (fun hc hs hm ht => hc.returnToBuffer hs hm ht) l hc hs htype hl
  · exact hc

theorem bufferBatch (hc : Custody b h) (hs : b.Sound) (p : SlotRef)
    (ht : (b.tracker t).isTopic = false) (l : List MessageRef) (hl : ∀ m ∈ l, b.hasMessage m) :
    Custody (b.bufferBatch l p t) { h with accepted := h.accepted ++ b.matching t l } := by
  have hp : Preserves b (b.raiseSlot p (.ofNat l.length)) :=
    (Touches.modifySlot ⟨0⟩ b p _).toPreserves
  have hraised : Custody (b.raiseSlot p (.ofNat l.length)) h :=
    hc.of_same rfl (fun _ => rfl) (fun _ => rfl) rfl fun _ hj => hj
  have hsound : (b.raiseSlot p (.ofNat l.length)).Sound :=
    hs.of_preserves hp (fun _ _ hk => hk) hs.buffered hs.expired hs.jobs
  have hend := foldl (.accept p t) (fun b m => (accept_frame p t b m).2.2.2.2.2.2)
    (fun hc hs hm ht => hc.accept hs hm ht) l hraised hsound ht hl
  have hbuffer := buffer_foldl_accept p t t l (b.raiseSlot p (.ofNat l.length))
  rw [if_pos rfl, hp.matching] at hbuffer
  have hin : ∀ m ∈ b.matching t l, m ∈ ((b.bufferBatch l p t).tracker t).buffer := fun m hm => by
    rw [Broker.bufferBatch, hbuffer]
    exact List.mem_append_right _ hm
  refine ⟨hend.flagged, hend.marked, hend.topics, hend.jobs, hend.apart, fun m hm => ?_,
    fun m hm => ?_⟩
  · obtain hm | hm := List.mem_append.1 hm
    · exact hend.made m hm
    · exact (hs.bufferBatch p t l hl).buffered t m (hin m hm)
  · obtain hm | hm := List.mem_append.1 hm
    · exact hend.kept m hm
    · exact .inr (.inr (.inl ⟨t, hin m hm⟩))

theorem size_drain (hs : b.Sound) (t : TrackerRef) :
    (b.drain t).messages.size = b.messages.size :=
  Touches.size_foldl (fun b m => .setBuffered b m false) _ _ (hs.buffered t)

theorem tended_drain (t : TrackerRef) {h' : Journal} (accepted : h'.accepted = h.accepted)
    (dropped : ∀ m ∈ h.dropped, m ∈ h'.dropped) (ht : Tended b h m)
    (hm : m ∉ (b.tracker t).buffer) : Tended (b.drain t) h' m := by
  have hmsg : (b.drain t).message m = b.message m := by rw [message_drain, if_neg hm]
  have hbuffer : ∀ v, m ∈ (b.tracker v).buffer → m ∈ ((b.drain t).tracker v).buffer := by
    intro v hv
    rw [tracker_drain, if_neg fun he : v = t => hm (he ▸ hv)]
    exact hv
  refine ⟨fun hf => ?_, fun hx => ?_, fun ha => ?_⟩
  · obtain ⟨v, hv⟩ := ht.flagged (hmsg ▸ hf)
    exact ⟨v, hbuffer v hv⟩
  · simpa [hmsg] using ht.marked (hmsg ▸ hx)
  · have hkept := ht.kept (accepted ▸ ha)
    rw [InCustody, hmsg]
    refine hkept.imp_right (Or.imp (dropped m) (Or.imp ?_ (Or.imp_right fun he => ?_)))
    · exact Exists.imp hbuffer
    · simpa using he

theorem drain (hc : Custody b h) (hs : b.Sound) (t : TrackerRef) :
    Custody (b.drain t) { h with dropped := h.dropped ++ (b.tracker t).buffer } := by
  refine hc.of_preserves (.drain b t) (size_drain hs t) rfl (fun _ _ => mem_buffer_drain)
    (fun j hj => by simpa using hj) fun m ht => ?_
  by_cases hm : m ∈ (b.tracker t).buffer
  · refine ⟨fun hf => ?_, ?_, fun _ => .inr (.inl (List.mem_append_right _ hm))⟩
    · simp [message_drain, hm] at hf
    · simpa [message_drain, hm] using ht.marked
  · exact tended_drain t (h := h) rfl (fun _ hd => List.mem_append_left _ hd) ht hm

theorem drain_consumePurged (hc : Custody b h) (hs : b.Sound) (t : TrackerRef) :
    Custody ((b.tracker t).buffer.foldl consumePurged (b.drain t)) h := by
  have hp : Preserves (b.drain t) ((b.tracker t).buffer.foldl consumePurged (b.drain t)) :=
    .foldl (fun b m => (Touches.consumePurged b m).toPreserves) _ _
  have hsize := Touches.size_foldl Touches.consumePurged (b.tracker t).buffer (b.drain t)
    fun m hm => by rw [size_drain hs]; exact hs.buffered t m hm
  refine hc.of_preserves ((Preserves.drain b t).trans hp) (hsize.trans (size_drain hs t)) rfl
    (fun v m hm => mem_buffer_drain (by simpa using hm)) (fun j hj => by simpa using hj)
    fun m ht => ?_
  by_cases hm : m ∈ (b.tracker t).buffer
  · refine .of_settled (by simp [message_foldl_consumePurged, hm]) fun hf => ?_
    simp [message_foldl_consumePurged, message_drain, hm] at hf
  · have htended := tended_drain t rfl (fun _ hd => hd) ht hm
    exact htended.congr (by rw [message_foldl_consumePurged, if_neg hm]) (by simp) (by simp)

theorem evict (hc : Custody b h) (t : TrackerRef) : Custody (b.evict t) h := by
  have hgone : Custody (b.letGo t) h :=
    hc.of_same rfl (fun _ => rfl) (fun _ => rfl) rfl fun _ hj => hj
  rw [evict_eq]
  split
  · split
    · next htopic =>
        have hempty := hc.topics t htopic
        have hsame : ((b.letGo t).drain t).settleAll (b.tracker t).buffer =
            (b.letGo t).modifyTracker t fun x => { x with buffer := [] } := by
          have he : ((b.letGo t).tracker t).buffer = [] := by simpa using hempty
          rw [hempty, Broker.drain, he]
          rfl
        rw [hsame]
        refine hgone.of_same rfl (fun v => ?_) (fun v => ?_) rfl fun _ hj => hj
        · rw [tracker_modifyTracker]
          split <;> rfl
        · rw [tracker_modifyTracker]
          split
          · next hv => simpa [hv] using hempty.symm
          · rfl
    · exact hgone
  · exact hc

theorem delivers (hc : Custody b h) (hs : b.Sound) (ht : b.hasTracker t)
    (hd : Delivers r now t b b') : Custody b' h :=
  hs.delivery_induction (P := fun c => Custody c h) ht hd hc (fun _ => hc.evict t)
    fun _ _ _ _ hsc _ _ hc hstep => hc.passStep hsc hstep

theorem deletes (hc : Custody b h) (hs : b.Sound) {condition : StoreCondition}
    (hp : condition ≠ .panicking) (hd : Deletes b condition b') : Custody b' h := by
  cases hd with
  | lost => exact absurd rfl hp
  | refused => exact hc.of_same rfl (fun _ => rfl) (fun _ => rfl) rfl fun _ hj => hj
  | deleted store =>
      refine hc.of_preserves ((Preserves.withExpired b [] store).trans (.settleAll _ _))
        (Touches.size_foldl Touches.settle _ _ hs.expired) rfl (fun v m hm => by simpa using hm)
        (fun j hj => by simpa using hj) fun m ht => ?_
      by_cases hm : m ∈ b.expired
      · refine .of_settled (by simp [message_settleAll, hm]) fun hf => ?_
        simpa using ht.flagged (by simpa [message_settleAll, hm] using hf)
      · refine ⟨fun hf => ?_, fun hx => ?_, fun ha => ?_⟩
        · simpa using ht.flagged (by simpa [message_settleAll, hm] using hf)
        · simpa [message_settleAll, hm] using ht.marked (by simpa [message_settleAll, hm] using hx)
        · simpa [InCustody, message_settleAll, hm] using ht.kept ha

theorem journal {h' : Journal} (hc : Custody b h) (ha : h'.accepted = h.accepted)
    (hd : h'.dropped = h.dropped) : Custody b h' where
  flagged := hc.flagged
  marked := hc.marked
  topics := hc.topics
  jobs := hc.jobs
  apart := hc.apart
  made m hm := hc.made m (ha ▸ hm)
  kept m hm := by simpa only [InCustody, hd] using hc.kept m (ha ▸ hm)

theorem addMessage (hc : Custody b h) {x : Message}
    (hx : x.buffered = false ∧ x.expired = false)
    (hid : ∀ m ∈ b.references, (b.message m).id ≠ x.id) :
    Custody (b.addMessage x).2 h := by
  have hold : ∀ m, b.hasMessage m → (b.addMessage x).2.message m = b.message m := fun m hm => by
    rw [message_addMessage, if_neg (Nat.ne_of_lt hm)]
  have hsize : (b.addMessage x).2.messages.size = b.messages.size + 1 := Table.size_push _ _
  have hmade : ∀ m, b.hasMessage m → (b.addMessage x).2.hasMessage m := fun m hm => by
    rw [hasMessage, hsize]; exact Nat.lt_succ_of_lt hm
  have hcases : ∀ m, (b.addMessage x).2.hasMessage m → b.hasMessage m ∨
      m.index = b.messages.size ∧ (b.addMessage x).2.message m = x := fun m hm => by
    rw [hasMessage, hsize] at hm
    obtain hlt | heq := Nat.lt_succ_iff_lt_or_eq.1 hm
    · exact .inl hlt
    · exact .inr ⟨heq, by rw [message_addMessage, if_pos heq]⟩
  have hnew : ∀ m, b.hasMessage m → (b.message m).id ≠ x.id := fun m hm => hid m (mem_references.2 hm)
  refine ⟨fun m hm => ?_, fun m hm => ?_, hc.topics, hc.jobs, fun m n hm hn he => ?_,
    fun m hm => hmade m (hc.made m hm), fun m hm => ?_⟩
  · rw [message_addMessage] at hm
    split at hm
    · simp [hx] at hm
    · exact hc.flagged m hm
  · rw [message_addMessage] at hm ⊢
    split at hm
    · simp [hx] at hm
    · next hne => rw [if_neg hne]; exact hc.marked m hm
  · obtain hm | ⟨hi, hm⟩ := hcases m hm <;> obtain hn | ⟨hj, hn⟩ := hcases n hn
    · exact hc.apart m n hm hn (by rwa [hold m hm, hold n hn] at he)
    · exact absurd (by rwa [hold m hm, hn] at he) (hnew m hm)
    · exact absurd (by rw [hm, hold n hn] at he; exact he.symm) (hnew n hn)
    · cases m; cases n; simp_all
  · rw [InCustody, hold m (hc.made m hm)]
    exact hc.kept m hm

theorem trackNew (hc : Custody b h) (hs : b.Sound) (key : DestinationKey) :
    Custody (b.trackNew key) h := by
  refine ⟨fun m hf => ?_, hc.marked, fun t ht => ?_, fun j hj => ?_, hc.apart, hc.made,
    fun m hm => ?_⟩
  · simpa using hc.flagged m hf
  · rw [buffer_trackNew]
    rw [tracker_trackNew] at ht
    split at ht
    · next hnew =>
        have hdefault : b.tracker t = default :=
          b.trackers.get_of_size_le (Nat.le_of_eq hnew.symm)
        rw [hdefault]
        rfl
    · exact hc.topics t ht
  · obtain ⟨hpolicy, htracker⟩ := hc.jobs j hj
    rw [tracker_trackNew, if_neg (Nat.ne_of_lt (hs.jobs j hj).2.2)]
    exact ⟨hpolicy, htracker⟩
  · simpa [InCustody] using hc.kept m hm

theorem shutdown (hc : Custody b h) (hs : b.Sound) :
    Custody b.shutdown (.run b.pendingJobs b h) := by
  refine (shutdown_induction (P := fun b h => Custody b h ∧ b.Sound) ⟨hc, hs⟩ ?_ ?_).1
  · intro b h ⟨hc, hs⟩
    obtain ⟨ha, hd⟩ := Journal.runJob_frame h b 0
    exact ⟨(hc.runJob hs 0).journal ha hd, hs.runJob 0⟩
  · intro b h ⟨hc, hs⟩
    have hp : Preserves b b.close := { Preserves.refl b with }
    exact ⟨hc.of_same rfl (fun _ => rfl) (fun _ => rfl) rfl fun _ hj => hj,
      hs.of_preserves hp (fun _ _ hk => hk) hs.buffered hs.expired hs.jobs⟩

theorem apply (hc : Custody b h) (hs : b.Sound) (r : Rules) (op : Operation) (hu : op.uses b)
    (ht : custodyTerms b h op) : Custody (op.apply r b) (op.record b h) := by
  have hsame : ∀ {b'}, b'.messages = b.messages → b'.trackers = b.trackers →
      b'.expired = b.expired → b'.dispatcher.jobs = b.dispatcher.jobs → Custody b' h := by
    intro b' hm ht he hj
    have htr : ∀ t, b'.tracker t = b.tracker t := fun t => by rw [tracker, ht]; rfl
    exact hc.of_same hm (fun t => by rw [htr]) (fun t => by rw [htr]) he fun j hj' => hj ▸ hj'
  cases op with
  | createSlot | createSubscriber | connect | register | unregister | close =>
      exact hsame rfl rfl rfl rfl
  | createMessage id =>
      exact Operation.createMessage_induction (P := fun c => Custody c h) hc
        fun _ => hc.addMessage ⟨rfl, rfl⟩ ht
  | track key =>
      unfold Operation.apply
      dsimp only
      rw [track_eq]
      split
      · exact hc
      · exact hc.trackNew hs key
  | buffer batch p t => exact hc.bufferBatch hs p ht batch hu.1
  | rebuffer key l => exact hc.putBack hs r ht l hu
  | requeue m type =>
      have htype : type ≠ .topic := ht
      exact hc.putBack hs r htype [m] fun n hn => by rw [List.mem_singleton.1 hn]; exact hu
  | flush vetoes now t => exact hc.delivers hs hu (flush_delivers b (hs.active_nodup t))
  | send vetoes now t => exact hc.delivers hs hu (sendBuffered_delivers b (hs.active_nodup t))
  | findNext t active =>
      unfold Operation.apply Broker.findNext
      dsimp only
      split
      · exact hc.evict t
      · have hstep : PassStep r 0 t active [] b (b.nextSubscriber t active).2 := .turn b
        exact hc.passStep hs hstep
  | clear key =>
      simp only [Operation.apply, Operation.record, Broker.clear]
      cases b.find? key with
      | some t => exact hc.drain hs t
      | none => exact hc
  | purge now key storageQueue =>
      have hp : Preserves b (b.recordPurge storageQueue now) := { Preserves.refl b with }
      have hc' : Custody (b.recordPurge storageQueue now) h := hsame rfl rfl rfl rfl
      have hs' : (b.recordPurge storageQueue now).Sound :=
        hs.of_preserves hp (fun _ _ hk => hk) hs.buffered hs.expired hs.jobs
      unfold Operation.apply Broker.purge
      dsimp only
      split
      · exact hc'.drain_consumePurged hs' _
      · exact hc'
  | acknowledge s m type => exact hc.acknowledge hs hu.2 s ht
  | runJob place =>
      obtain ⟨ha, hd⟩ := Journal.runJob_frame h b place
      exact (hc.runJob hs place).journal ha hd
  | shutdown => exact hc.shutdown hs
  | deleteExpired condition => exact hc.deletes hs ht (b.deleteExpired_deletes condition)

end Custody

theorem Reaches.custody (hr : Reaches r custodyTerms b h) : Custody b h := by
  induction hr with
  | start =>
      have hflags : ∀ m, ((default : Broker).message m).buffered = false ∧
          ((default : Broker).message m).expired = false := fun _ => ⟨rfl, rfl⟩
      exact ⟨fun m hf => by simp [hflags m] at hf, fun m hx => by simp [hflags m] at hx,
        fun _ _ => rfl, fun j hj => absurd hj List.not_mem_nil,
        fun m _ hm => absurd hm (Nat.not_lt_zero _), fun m hm => absurd hm List.not_mem_nil,
        fun m hm => absurd hm List.not_mem_nil⟩
  | step op prior hu ht ih => exact ih.apply prior.sound r op hu ht

/-- No message of a queue or a durable topic is lost: each accepted message is settled, was
dropped by the host, waits in some tracker's buffer, is on its way to a subscriber or held by one
that has not acknowledged it, or waits for its deletion. -/
theorem accepted_in_custody (hr : Reaches r custodyTerms b h) (m : MessageRef)
    (hm : m ∈ h.accepted) : InCustody b h m :=
  hr.custody.kept m hm

theorem accepted_in_custody_workerRun :
    Follows workerRules custodyTerms workerRun default default ∧
      ⟨0⟩ ∈ (replay workerRules workerRun default default).2.accepted ∧
      InCustody (replay workerRules workerRun default default).1
        (replay workerRules workerRun default default).2 ⟨0⟩ :=
  have hf : Follows workerRules custodyTerms workerRun default default := by decide
  have hm : ⟨0⟩ ∈ (replay workerRules workerRun default default).2.accepted := by decide
  ⟨hf, hm, accepted_in_custody (Reaches.start.replay workerRun hf) ⟨0⟩ hm⟩

end Courier
