import Courier.Proofs.Life

namespace Courier

open Broker
open Relation (ReflTransGen)

def Operation.delivery? : Operation → Option (List Veto × UInt64 × TrackerRef)
  | flush vetoes now t | send vetoes now t => some (vetoes, now, t)
  | _ => none

theorem Operation.tracker_of_delivery {op : Operation} {vetoes vetoes' : List Veto}
    {now now' : UInt64} {t t' : TrackerRef} (hop : op.delivery? = some (vetoes, now, t))
    (hop' : op.delivery? = some (vetoes', now', t')) : t' = t :=
  (congrArg (·.2.2) (Option.some.inj (hop'.symm.trans hop)) :)

/-- On the way of a delivery a veto rejects the message for a subscriber with this id, which gives
up its copy. -/
def Operation.Bars (r : Rules) (b : Broker) (m : MessageRef) (id : SubscriberId) (op : Operation) :
    Prop :=
  ∃ vetoes now t, op.delivery? = some (vetoes, now, t) ∧ ∃ c, ∃ s ∈ b.active t, ∃ v ∈ vetoes,
    (c.subscriber s).id = id ∧ v.rejects (c.subscriber s) (c.message m) = true ∧
    ReflTransGen (PassStep { r with vetoes } now t (b.active t) (b.tracker t).buffer) b c ∧
    ReflTransGen (PassStep { r with vetoes } now t (b.active t) (b.tracker t).buffer)
      (c.setStatus m id .discarded) (op.apply r b)

inductive Operation.Brings (r : Rules) (b : Broker) (m : MessageRef) : Operation → Event → Prop
  | made {id : UInt64} {destination storageQueue payload : String} {arrival ttl : UInt64}
      (new : ¬ b.hasMessage m) :
      Brings r b m (.createMessage id destination storageQueue payload arrival ttl) .made
  | accepted {batch : List MessageRef} {p : SlotRef} {t : TrackerRef} (hm : m ∈ batch) :
      Brings r b m (.buffer batch p t) (.accepted t)
  | rebuffered {key : TrackedKey} {l : List MessageRef} {t : TrackerRef} (hm : m ∈ l)
      (ht : b.find? key = some t) :
      Brings r b m (.rebuffer key l) (.returned t (b.tracker t).isTopic)
  | requeued {type : DestinationType} {t : TrackerRef}
      (ht : b.find? ⟨type, (b.message m).destination⟩ = some t) :
      Brings r b m (.requeue m type) (.returned t (b.tracker t).isTopic)
  | acknowledged (s : SubscriberRef) (type : DestinationType) :
      Brings r b m (.acknowledge s m type) (.acknowledged (b.subscriber s).id type)
  | written {place : Nat} (a : Attempt) : Brings r b m (.runJob place) (.written a)
  | failed {place : Nat} (a : Attempt) : Brings r b m (.runJob place) (.failed a)
  | lastWritten (a : Attempt) : Brings r b m .shutdown (.written a)
  | lastFailed (a : Attempt) : Brings r b m .shutdown (.failed a)
  | offered {op : Operation} {vetoes : List Veto} {now : UInt64} {t : TrackerRef}
      (hop : op.delivery? = some (vetoes, now, t)) (queue : (b.tracker t).isTopic = false)
      (id : SubscriberId) (outcome : FilterOutcome) : Brings r b m op (.offered t id outcome)
  | spread {op : Operation} {vetoes : List Veto} {now : UInt64} {t : TrackerRef}
      (hop : op.delivery? = some (vetoes, now, t)) (topic : (b.tracker t).isTopic = true)
      {id : SubscriberId} {outcome : FilterOutcome}
      (barred : outcome = .vetoed → op.Bars r b m id) :
      Brings r b m op (.spread t id (copyPolicy r.topics) outcome)
  | overrun {op : Operation} {vetoes : List Veto} {now : UInt64} {t : TrackerRef}
      (hop : op.delivery? = some (vetoes, now, t)) (topic : (b.tracker t).isTopic = true)
      (allowed : r.topics = .discardAllowed) (id : SubscriberId) : Brings r b m op (.overrun t id)
  | retired {op : Operation} {vetoes : List Veto} {now : UInt64} {t : TrackerRef}
      (hop : op.delivery? = some (vetoes, now, t)) (topic : (b.tracker t).isTopic = true) :
      Brings r b m op (.retired t (b.idsOf (b.active t)))
  | evicted {op : Operation} {vetoes : List Veto} {now : UInt64} {t : TrackerRef}
      (hop : op.delivery? = some (vetoes, now, t)) (topic : (b.tracker t).isTopic = true)
      (unheard : b.active t = []) : Brings r b m op (.evicted t)
  | unheard {t : TrackerRef} (topic : (b.tracker t).isTopic = true) :
      Brings r b m (.findNext t []) (.evicted t)
  | cleared {key : TrackedKey} {t : TrackerRef} (ht : b.find? key = some t) :
      Brings r b m (.clear key) (.cleared t)
  | purged {now : UInt64} {key : TrackedKey} {storageQueue : String} {t : TrackerRef}
      (ht : b.find? key = some t) : Brings r b m (.purge now key storageQueue) (.purged t)
  | deleted : Brings r b m (.deleteExpired .working) .deleted
  | lost : Brings r b m (.deleteExpired .panicking) .lost

def Operation.Moves (r : Rules) (b : Broker) (m : MessageRef) (op : Operation)
    (st st' : Standing) : Prop :=
  ∃ e, op.Brings r b m e ∧ st.Step e st'

variable {r : Rules} {b b' c d : Broker} {h : Journal} {m n : MessageRef} {t : TrackerRef}
  {op : Operation} {condition : StoreCondition}

namespace Broker

theorem standing_addJob (b : Broker) (h : Journal) (j : Job) :
    (b.withJobs (b.dispatcher.jobs ++ [j])).standing h j.message =
      { b.standing h j.message with attempts := b.attempts j.message ++ [b.attempt j] } := by
  have hj : (b.withJobs (b.dispatcher.jobs ++ [j])).attempts j.message =
      b.attempts j.message ++ [b.attempt j] := by
    rw [attempts, attempts, withJobs, List.filter_append, List.map_append,
      List.filter_singleton, decide_eq_true rfl]
    rfl
  simp only [standing, hj]
  rfl

theorem Handled.standing {now : UInt64} {s : SubscriberRef} {policy : FailurePolicy}
    {outcome : FilterOutcome} (hh : Handled r now s m t policy b outcome b') (h : Journal) :
    Standing.Handled ⟨(b.subscriber s).id, t, policy⟩ (b.standing h m) outcome
      (b'.standing h m) := by
  have hid : ((b.claim s m t policy).subscriber s).id = (b.subscriber s).id :=
    (Touches.claim b s m t policy).subscriber_id s
  cases hh with
  | purged =>
      rw [standing_settle, markPurged, standing_modifyMessage]
      exact .purged
  | marked _ marked => exact .marked marked
  | expired =>
      have he : ((b.markExpired m).addExpired m).standing h m = (b.standing h m).expire := by
        have hj : ((b.markExpired m).addExpired m).attempts m = b.attempts m := rfl
        simp only [Broker.standing, Standing.expire, hj]
        simp [markExpired, message_modifyMessage]
      rw [he]
      exact .expired
  | vetoed => exact .vetoed
  | alreadyInFlight _ held => exact .alreadyInFlight held
  | dispatched _ lacks =>
      have hjob := standing_addJob (b.claim s m t policy) h ⟨s, m, t, policy⟩
      have hattempts := congrArg Standing.attempts (standing_claim b h s m t policy)
      simp only [claim_frame, standing_claim] at hjob
      rw [hjob, attempt, hid]
      change (b.claim s m t policy).attempts m = b.attempts m at hattempts
      rw [hattempts]
      exact .dispatched lacks
  | failed _ lacks =>
      have hfail := standing_fail (b.claim s m t policy) h ⟨s, m, t, policy⟩
      rw [standing_claim, attempt, hid] at hfail
      rw [hfail]
      exact .failed lacks

theorem offer_standing (hb : b.Apart m) (h : Journal) (r : Rules) (now : UInt64) (t : TrackerRef)
    (s : SubscriberRef) (buffered : m ∈ (b.tracker t).buffer) :
    ∃ outcome, (b.standing h m).Step (.offered t (b.subscriber s).id outcome)
      (((b.unbuffer t m).offer r now t s m).2.standing h m) := by
  obtain ⟨outcome, c, hc, hh⟩ := exists_handled (b.unbuffer t m) r now s m t .rebuffer
  have hstanding := hh.standing h
  rw [standing_unbuffer hb, (Touches.unbuffer b t m).subscriber_id] at hstanding
  have hafter : ((b.unbuffer t m).offer r now t s m).2.standing h m =
      (c.standing h m).afterOffer t outcome := by
    unfold offer
    rw [hc]
    cases outcome with
    | vetoed => exact standing_settle c h m
    | alreadyInFlight => exact standing_rebuffer c h m t
    | purged | expired | dispatched | failed => rfl
  exact ⟨outcome, hafter ▸ .offered (List.count_pos_iff.2 buffered) hstanding⟩

theorem spread_standing (hb : b.Apart m) (h : Journal) (r : Rules) (now : UInt64) (t : TrackerRef)
    (policy : FailurePolicy) (s : SubscriberRef) (buffered : b.isBufferedIn t m = true)
    (lacks : (b.message m).awaits (b.subscriber s).id = true) :
    ∃ outcome, (b.standing h m).Step (.spread t (b.subscriber s).id policy outcome)
        ((spread r now t m policy s b).2.standing h m) ∧
      (outcome = .vetoed → (∃ v ∈ r.vetoes, v.rejects (b.subscriber s) (b.message m) = true) ∧
        (spread r now t m policy s b).2 = b.setStatus m (b.subscriber s).id .discarded) := by
  obtain ⟨outcome, c, hc, hh⟩ := exists_handled b r now s m t policy
  have hapart := hh.touches.apart hb
  have hid := hh.touches.subscriber_id s
  have hafter : (spread r now t m policy s b).2.standing h m =
      (c.standing h m).afterSpread t (b.subscriber s).id outcome := by
    unfold spread
    rw [hc]
    cases outcome with
    | purged | expired => exact standing_unbuffer hapart h t
    | vetoed => rw [← hid]; exact standing_setStatus c h m _ _
    | alreadyInFlight | dispatched | failed => rfl
  refine ⟨outcome, hafter ▸ .spread (hb.isBufferedIn_iff.1 buffered) (hh.standing h) lacks, ?_⟩
  rintro rfl
  cases hh with
  | vetoed _ _ _ v hv rejects => exact ⟨⟨v, hv, rejects⟩, by rw [spread, hc]⟩

end Broker

/-- A step of a delivery's pass is one event for its message and nothing for the others. -/
theorem Broker.PassStep.moves {vetoes : List Veto} {now : UInt64}
    (hop : op.delivery? = some (vetoes, now, t)) (heard : b.active t ≠ []) (hp : Preserves b c)
    (hc : c.Sound) (hd : c.Distinct) (hbatch : ∀ m ∈ (b.tracker t).buffer, c.hasMessage m)
    (prior : ReflTransGen (PassStep { r with vetoes } now t (b.active t) (b.tracker t).buffer) b c)
    (hstep : PassStep { r with vetoes } now t (b.active t) (b.tracker t).buffer c d)
    (rest : ReflTransGen (PassStep { r with vetoes } now t (b.active t) (b.tracker t).buffer) d
      (op.apply r b)) :
    d.standing h m = c.standing h m ∨ op.Moves r b m (c.standing h m) (d.standing h m) := by
  have hkind : (b.tracker t).isTopic = (c.tracker t).isTopic := by
    rw [Tracker.isTopic, Tracker.isTopic, hp.key]
  have hmade : ∀ n, n ∈ (b.tracker t).buffer ∨ n ∈ (c.tracker t).buffer → c.Apart n :=
    fun n hn => hc.apart_of_distinct hd (hn.elim (hbatch n) (hc.buffered t n))
  have hother := hstep.touches
  cases hstep with
  | turn =>
      exact .inl (standing_of_frame (by simp)
        (fun v => (tracker_nextSubscriber c t v _).2.1) (by simp) (by simp) (by simp))
  | offer n rest' s queue front =>
      have hn : n ∈ (c.tracker t).buffer := by simp [front]
      by_cases hm : m = n
      · subst hm
        obtain ⟨outcome, hs⟩ := offer_standing (hmade m (.inr hn)) h { r with vetoes } now t s hn
        exact .inr ⟨_, .offered hop (hkind.trans queue) _ outcome, hs⟩
      · exact .inl (((Touches.unbuffer c t n).trans (Touches.offer _ _ now t s n)).standing
          (hmade n (.inr hn)) hm)
  | discard n s topic allowed hn buffered _ lacks =>
      by_cases hm : m = n
      · subst hm
        have hallowed : r.topics = .discardAllowed := allowed
        rw [standing_setStatus]
        exact .inr ⟨_, .overrun hop (hkind.trans topic) hallowed _,
          .overrun ((hmade m (.inl hn)).isBufferedIn_iff.1 buffered) lacks⟩
      · exact .inl ((Touches.setStatus c n _ _).standing (hmade n (.inl hn)) hm)
  | spread n s topic hn buffered hs lacks room =>
      by_cases hm : m = n
      · subst hm
        obtain ⟨outcome, hs', hv⟩ := spread_standing (hmade m (.inl hn)) h { r with vetoes } now t
          (copyPolicy r.topics) s buffered lacks
        refine .inr ⟨_, .spread hop (hkind.trans topic) fun ho => ?_, hs'⟩
        obtain ⟨⟨v, hv, hrejects⟩, he⟩ := hv ho
        exact ⟨vetoes, now, t, hop, c, s, hs, v, hv, rfl, hrejects, prior, he ▸ rest⟩
      · exact .inl ((Touches.spread c _ now t n _ s).standing (hmade n (.inl hn)) hm)
  | retire n topic hn buffered handedOff =>
      by_cases hm : m = n
      · subst hm
        have ha := hmade m (.inl hn)
        rw [standing_settleIfComplete, standing_unbuffer ha]
        have hids : c.idsOf (b.active t) = b.idsOf (b.active t) := by simp [idsOf, hp.subscriber_id]
        rw [hids] at handedOff
        exact .inr ⟨_, .retired hop (hkind.trans topic), .retired (by simpa [idsOf] using heard)
          handedOff (ha.isBufferedIn_iff.1 buffered)⟩
      · exact .inl (((Touches.unbuffer c t n).trans (Touches.settleIfComplete _ n)).standing
          (hmade n (.inl hn)) hm)

theorem path_between {α : Type} {R : α → α → Prop} {x y : α} (hxy : ReflTransGen R x y) :
    ReflTransGen (fun u v => ReflTransGen R x u ∧ R u v ∧ ReflTransGen R v y) x y := by
  induction hxy with
  | refl => exact .refl
  | tail prior next ih =>
      refine .tail (ReflTransGen.mono (fun u v h => ?_) _ _ ih) ⟨prior, next, .refl⟩
      exact ⟨h.1, h.2.1, h.2.2.tail next⟩

namespace Broker

theorem standing_drain (b : Broker) (h : Journal) (m : MessageRef) (t : TrackerRef) :
    (b.drain t).standing h m = (b.standing h m).drain t := by
  have hp : ∀ v, ((b.drain t).tracker v).buffer.count m =
      if v = t then 0 else (b.tracker v).buffer.count m := fun v => by
    rw [tracker_drain]
    split <;> rfl
  have hj : (b.drain t).attempts m = b.attempts m := attempts_congr (by simp) fun j _ => by simp
  have hpos : 0 < (b.tracker t).buffer.count m ↔ m ∈ (b.tracker t).buffer := List.count_pos_iff
  unfold Standing.drain
  split
  · next hc =>
      simp only [standing, hp, hj, message_drain, if_pos (hpos.1 hc), drain_frame]
  · next hc =>
      refine standing_congr (by rw [message_drain, if_neg fun hm => hc (hpos.2 hm)])
        (fun v => ?_) (by simp) hj
      rw [hp]
      split
      · next hv => rw [hv]; exact (Nat.eq_zero_of_not_pos hc).symm
      · rfl

theorem standing_settleAll (b : Broker) (h : Journal) (m : MessageRef) (l : List MessageRef) :
    (b.settleAll l).standing h m = if m ∈ l then (b.standing h m).settle else b.standing h m := by
  have hj : (b.settleAll l).attempts m = b.attempts m := attempts_congr (by simp) fun j _ => by simp
  simp only [standing, Standing.settle, message_settleAll, hj]
  split <;> simp

theorem standing_consumePurged (b : Broker) (h : Journal) (m : MessageRef) (l : List MessageRef) :
    (l.foldl consumePurged b).standing h m =
      if m ∈ l then (b.standing h m).markPurged.settle else b.standing h m := by
  have hj : (l.foldl consumePurged b).attempts m = b.attempts m :=
    attempts_congr (by simp) fun j _ => by simp
  simp only [standing, Standing.settle, Standing.markPurged, message_foldl_consumePurged, hj]
  split <;> simp

theorem Standing.drain_of_empty {st : Standing} (hp : ¬ 0 < st.places t) : st.drain t = st :=
  if_neg hp

theorem standing_evict (b : Broker) (h : Journal) (m : MessageRef) (t : TrackerRef) :
    (b.evict t).standing h m = b.standing h m ∨
      (b.tracker t).isTopic = true ∧
        (b.standing h m).Step (.evicted t) ((b.evict t).standing h m) := by
  have hgone : (b.letGo t).standing h m = b.standing h m :=
    standing_of_frame rfl (fun _ => rfl) rfl rfl fun _ => rfl
  rw [evict_eq]
  split
  · split
    · next htopic =>
        rw [standing_settleAll, standing_drain, hgone]
        split
        · next hm => exact .inr ⟨htopic, .evicted (List.count_pos_iff.2 hm)⟩
        · next hm => exact .inl (Standing.drain_of_empty fun hp => hm (List.count_pos_iff.1 hp))
    · exact .inl hgone
  · exact .inl rfl

theorem standing_written (b : Broker) (h : Journal) (m : MessageRef) (s : SubscriberRef)
    (n : MessageRef) : (b.written s n).standing h m = b.standing h m :=
  standing_of_frame (by simp) (by simp) (by simp) (by simp) (Touches.send m b s n).subscriber_id

theorem standing_markDelivered (b : Broker) (h : Journal) (m : MessageRef) (id : SubscriberId) :
    (b.markDelivered m id).standing h m = (b.standing h m).deliver id := by
  simp only [markDelivered, apply_ite fun c : Broker => c.standing h m, standing_setStatus]
  rfl

theorem attempts_eraseIdx {place : Nat} {j : Job} (hj : b.dispatcher.jobs[place]? = some j) :
    (b.attempt j :: (b.withJobs (b.dispatcher.jobs.eraseIdx place)).attempts j.message).Perm
        (b.attempts j.message) ∧
      ∀ n, n ≠ j.message →
        (b.withJobs (b.dispatcher.jobs.eraseIdx place)).attempts n = b.attempts n := by
  obtain ⟨hlt, rfl⟩ := List.getElem?_eq_some_iff.1 hj
  have hsplit := List.getElem_cons_drop hlt
  have hjobs : b.dispatcher.jobs = b.dispatcher.jobs.take place ++
      b.dispatcher.jobs[place] :: b.dispatcher.jobs.drop (place + 1) := by
    rw [hsplit, List.take_append_drop]
  refine ⟨?_, fun n hn => ?_⟩
  · have hperm := ((List.getElem_cons_eraseIdx_perm hlt).filter fun j =>
      j.message = b.dispatcher.jobs[place].message).map b.attempt
    rwa [List.filter_cons_of_pos (by simp), List.map_cons] at hperm
  · rw [attempts, attempts]
    conv => rhs; rw [hjobs]
    simp only [withJobs, List.eraseIdx_eq_take_drop_succ, List.filter_append]
    rw [List.filter_cons_of_neg (by simpa using Ne.symm hn)]
    rfl

theorem standing_runJob (hs : b.Sound) (hd : b.Distinct) (h : Journal) (place : Nat)
    (m : MessageRef) :
    (b.runJob place).standing (h.runJob b place) m = b.standing h m ∨
      ∃ j, b.dispatcher.jobs[place]? = some j ∧ j.message = m ∧
        ((b.send j.subscriber m).1 = .sent ∧ (b.standing h m).Step (.written (b.attempt j))
            ((b.runJob place).standing (h.runJob b place) m) ∨
          (b.send j.subscriber m).1 ≠ .sent ∧ (b.standing h m).Step (.failed (b.attempt j))
            ((b.runJob place).standing (h.runJob b place) m)) := by
  unfold runJob Journal.runJob
  cases hj : b.dispatcher.jobs[place]? with
  | none => exact .inl rfl
  | some j =>
      obtain ⟨hperm, hothers⟩ := attempts_eraseIdx hj
      have hjob := hs.jobs j (List.mem_of_getElem? hj)
      have ht := Touches.execute (b.withJobs (b.dispatcher.jobs.eraseIdx place)) j
      have hsend : ((b.withJobs (b.dispatcher.jobs.eraseIdx place)).send j.subscriber j.message).1 =
          (b.send j.subscriber j.message).1 := rfl
      dsimp only
      by_cases hm : m = j.message
      · subst hm
        refine .inr ⟨j, rfl, rfl, ?_⟩
        rw [execute_eq, hsend, Journal.execute]
        split
        · next hsent =>
            refine .inl ⟨hsent, ?_⟩
            have hafter : (b.withJobs (b.dispatcher.jobs.eraseIdx place)).standing
                { h with sent := h.sent ++ [(j.message, (b.subscriber j.subscriber).id)] } j.message =
                { b.standing h j.message with
                  attempts := (b.withJobs (b.dispatcher.jobs.eraseIdx place)).attempts j.message
                  sent := fun id =>
                    (b.standing h j.message).sent id ∨ id = (b.attempt j).subscriber } := by
              simp [standing, attempt]
            rw [standing_markDelivered, standing_written, hafter]
            exact .written hperm
        · next hfailed =>
            refine .inr ⟨hfailed, ?_⟩
            have hattempt : ((b.withJobs (b.dispatcher.jobs.eraseIdx place)).written j.subscriber
                j.message).attempt j = b.attempt j := by
              rw [attempt, written, (Touches.send j.message _ j.subscriber j.message).subscriber_id]
              rfl
            rw [standing_fail, standing_written, hattempt]
            exact @Standing.Step.failed (b.standing h j.message) _ _ hperm
      · left
        have hsame : (b.withJobs (b.dispatcher.jobs.eraseIdx place)).standing h m = b.standing h m :=
          standing_congr rfl (fun _ => rfl) Iff.rfl (hothers m hm)
        have hapart : (b.withJobs (b.dispatcher.jobs.eraseIdx place)).Apart j.message :=
          hs.apart_of_distinct hd hjob.2.1
        rw [← hsame, ← ht.standing hapart hm, Journal.execute]
        split
        · simp [standing, hm]
        · rfl

end Broker

namespace Operation

/-- Work on messages one after the other is an event for each, if each is one for its message. -/
theorem moves_foldl {f : Broker → MessageRef → Broker} (hf : ∀ b m, Touches m b (f b m))
    (hdispatcher : ∀ b m, (f b m).dispatcher = b.dispatcher) (hs : c.Sound) (hd : c.Distinct)
    (l : List MessageRef) (hl : ∀ n ∈ l, c.hasMessage n)
    (hmove : ∀ d, Preserves c d → m ∈ l → op.Moves r b m (d.standing h m) ((f d m).standing h m)) :
    ReflTransGen (op.Moves r b m) (c.standing h m) ((l.foldl f c).standing h m) := by
  induction l generalizing c with
  | nil => exact .refl
  | cons n l ih =>
      have hn := hl n List.mem_cons_self
      have hp := (hf c n).toPreserves
      have hrest := ih (hs.touches (hf c n) hn fun j hj => hs.jobs j (by rwa [hdispatcher] at hj))
        (hd.touches (hf c n) hn) (fun k hk => hp.hasMessage (hl k (List.mem_cons_of_mem _ hk)))
        fun d hcd hm => hmove d (hp.trans hcd) (List.mem_cons_of_mem _ hm)
      by_cases hm : m = n
      · subst hm
        exact .head (hmove c (.refl c) List.mem_cons_self) hrest
      · rwa [(hf c n).standing (hs.apart_of_distinct hd hn) hm] at hrest

theorem moves_accept (hs : c.Sound) (hd : c.Distinct) {batch : List MessageRef} {p : SlotRef}
    (l : List MessageRef) (hl : ∀ n ∈ l, c.hasMessage n) (hbatch : ∀ n ∈ l, n ∈ batch) :
    ReflTransGen ((buffer batch p t).Moves r b m) (c.standing h m)
      ((l.foldl (accept p t) c).standing { h with accepted := h.accepted ++ c.matching t l } m) := by
  induction l generalizing c h with
  | nil => simpa [matching] using .refl
  | cons n l ih =>
      have hn := hl n List.mem_cons_self
      have ht := Touches.accept p t c n
      have hrest := fun h => ih (h := h)
        (hs.touches ht hn fun j hj => hs.jobs j (by simpa using hj)) (hd.touches ht hn)
        (fun k hk => ht.hasMessage (hl k (List.mem_cons_of_mem _ hk)))
        fun k hk => hbatch k (List.mem_cons_of_mem _ hk)
      rw [List.foldl_cons, matching_cons]
      split
      · next hmatch =>
          have hrest := hrest { h with accepted := h.accepted ++ [n] }
          rw [ht.toPreserves.matching, List.append_assoc, List.singleton_append] at hrest
          refine .trans ?_ hrest
          by_cases hm : m = n
          · subst hm
            have hstep := Standing.Step.accepted (c.standing h m) p t
            have haccept := standing_accept c { h with accepted := h.accepted ++ [m] } p t m
            rw [if_pos hmatch] at haccept
            refine .single ⟨_, .accepted (hbatch m List.mem_cons_self), haccept ▸ ?_⟩
            simpa [standing, Standing.buffer] using hstep
          · have hother := ht.standing (h := h) (hs.apart_of_distinct hd hn) hm
            rw [← hother]
            simpa [standing, hm] using ReflTransGen.refl
      · have hrest := hrest h
        rw [ht.toPreserves.matching] at hrest
        have hsame : (c.accept p t n).standing h m = c.standing h m := by
          by_cases hm : m = n
          · subst hm
            rw [standing_accept, if_neg ‹_›]
          · exact ht.standing (hs.apart_of_distinct hd hn) hm
        rwa [hsame] at hrest

theorem moves_delivery {vetoes : List Veto} {now : UInt64} (hs : b.Sound) (hd : b.Distinct)
    (ht : b.hasTracker t) (hop : op.delivery? = some (vetoes, now, t))
    (hb' : op.apply r b = b') (hdel : Delivers { r with vetoes } now t b b') :
    ReflTransGen (op.Moves r b m) (b.standing h m) (b'.standing h m) := by
  cases hdel with
  | nothing => exact .refl
  | letGo unheard =>
      obtain he | ⟨topic, hstep⟩ := b.standing_evict h m t
      · rw [he]
      · exact .single ⟨_, .evicted hop topic unheard, hstep⟩
  | pass heard full steps =>
      have hactive : ∀ s ∈ b.active t, b.hasSubscriber s := fun s hm => (hs.mem_active hm).1
      suffices hpath : ∀ c, ReflTransGen (fun u v =>
          ReflTransGen (PassStep { r with vetoes } now t (b.active t) (b.tracker t).buffer) b u ∧
          PassStep { r with vetoes } now t (b.active t) (b.tracker t).buffer u v ∧
          ReflTransGen (PassStep { r with vetoes } now t (b.active t) (b.tracker t).buffer) v b') b c →
          ReflTransGen (op.Moves r b m) (b.standing h m) (c.standing h m) from
        hpath b' (path_between steps)
      intro c hc
      induction hc with
      | refl => exact .refl
      | tail _ between ih =>
          obtain ⟨prior, next, rest⟩ := between
          obtain ⟨hsc, hp⟩ := hs.passSteps prior ht hactive (hs.buffered t)
          have hdc := hd.passSteps hs ht hactive (hs.buffered t) prior
          obtain he | hmove := next.moves (h := h) (m := m) hop heard hp hsc hdc
            (fun n hn => hp.hasMessage (hs.buffered t n hn)) prior (hb' ▸ rest)
          · rwa [he]
          · exact ih.tail hmove

theorem moves_putBack (hs : b.Sound) (hd : b.Distinct) {key : TrackedKey} {l : List MessageRef}
    (hl : ∀ n ∈ l, b.hasMessage n)
    (hbrings : ∀ t, b.find? key = some t → m ∈ l →
      op.Brings r b m (.returned t (b.tracker t).isTopic)) :
    ReflTransGen (op.Moves r b m) (b.standing h m)
      (((rebuffer key l).apply r b).standing h m) := by
  rw [apply_rebuffer]
  split
  · next t ht =>
      refine moves_foldl (Touches.returnToBuffer t)
        (fun b m => (returnToBuffer_frame t b m).2.2.2.2.2.2) hs hd l hl fun d hp hm => ?_
      have hkind : (d.tracker t).isTopic = (b.tracker t).isTopic := by
        rw [Tracker.isTopic, Tracker.isTopic, hp.key]
      rw [standing_returnToBuffer, hkind]
      exact ⟨_, hbrings t ht hm, .returned _ t _⟩
  · exact .refl

theorem moves_shutdown (hs : b.Sound) (hd : b.Distinct) :
    ReflTransGen (shutdown.Moves r b m) (b.standing h m)
      (b.shutdown.standing (.run b.pendingJobs b h) m) := by
  refine (shutdown_induction (b := b) (h := h) (P := fun c hc => c.Sound ∧ c.Distinct ∧
    ReflTransGen (shutdown.Moves r b m) (b.standing h m) (c.standing hc m)) ⟨hs, hd, .refl⟩ ?_ ?_).2.2
  · intro c hc ⟨hsc, hdc, hmoves⟩
    refine ⟨hsc.runJob 0, hdc.runJob hsc 0, ?_⟩
    obtain he | ⟨j, -, -, ⟨-, hstep⟩ | ⟨-, hstep⟩⟩ := standing_runJob hsc hdc hc 0 m
    · rwa [he]
    · exact hmoves.tail ⟨_, .lastWritten _, hstep⟩
    · exact hmoves.tail ⟨_, .lastFailed _, hstep⟩
  · intro c hc ⟨hsc, hdc, hmoves⟩
    exact ⟨hsc.close, hdc, hmoves⟩

theorem moves_deletion (hd : Deletes b condition b') :
    ReflTransGen ((deleteExpired condition).Moves r b m) (b.standing h m) (b'.standing h m) := by
  have hw : ∀ l store, (b.withExpired l store).standing h m =
      { b.standing h m with pending := m ∈ l } := fun l store => rfl
  cases hd with
  | refused cause store => rw [hw]; exact .refl
  | lost store =>
      rw [hw]
      by_cases hm : m ∈ b.expired
      · have hstep := @Standing.Step.lost (b.standing h m) hm
        exact .single ⟨_, .lost, by simpa using hstep⟩
      · have he : b.standing h m = { b.standing h m with pending := m ∈ [] } := by
          simp [standing, hm]
        rw [← he]
  | deleted store =>
      rw [standing_settleAll, hw]
      split
      · next hm =>
          have hstep := @Standing.Step.deleted (b.standing h m) hm
          exact .single ⟨_, .deleted, by simpa [Standing.settle] using hstep⟩
      · next hm =>
          have he : b.standing h m = { b.standing h m with pending := m ∈ [] } := by
            simp [standing, hm]
          rw [← he]

/-- What an operation does to a message is a sequence of events that it can bring. -/
theorem moves (hs : b.Sound) (hd : b.Distinct) (hu : op.uses b) (r : Rules) (h : Journal)
    (m : MessageRef) :
    ReflTransGen (op.Moves r b m) (b.standing h m)
      ((op.apply r b).standing (op.record b h) m) := by
  have hsame : ∀ {b' : Broker}, b'.message m = b.message m →
      (∀ t, (b'.tracker t).buffer = (b.tracker t).buffer) → b'.expired = b.expired →
      b'.dispatcher.jobs = b.dispatcher.jobs →
      (∀ s, (b'.subscriber s).id = (b.subscriber s).id) →
      ReflTransGen (op.Moves r b m) (b.standing h m) (b'.standing h m) := fun h₁ h₂ h₃ h₄ h₅ => by
    rw [standing_of_frame h₁ h₂ h₃ h₄ h₅]
  cases op with
  | createSlot | register | unregister | close =>
      exact hsame rfl (fun _ => rfl) rfl rfl fun _ => rfl
  | createMessage id destination storageQueue payload arrival ttl =>
      refine createMessage_induction (P := fun c => ReflTransGen (Moves r b m _)
        (b.standing h m) (c.standing h m)) .refl fun expiresAt => ?_
      let x := { Message.new id destination storageQueue payload arrival with expiresAt }
      by_cases hm : m.index = b.messages.size
      · have hnew : ¬ b.hasMessage m := by rw [hasMessage, hm]; exact Nat.lt_irrefl _
        have hbefore : (b.standing h m).message.made = (b.standing h m).message := by
          change (b.message m).made = b.message m
          rw [message_eq_default hnew]
          rfl
        have hafter : (b.addMessage x).2.standing h m = { b.standing h m with message := x } := by
          simp only [standing, message_addMessage, if_pos hm]
          rfl
        refine .single ⟨.made, .made hnew, ?_⟩
        exact hafter ▸ Standing.Step.made hbefore rfl
      · refine hsame ?_ (fun _ => rfl) rfl rfl fun _ => rfl
        rw [message_addMessage, if_neg hm]
  | createSubscriber id key node window outbound =>
      have hold : ∀ j ∈ b.dispatcher.jobs,
          (((createSubscriber id key node window outbound).apply r b).subscriber j.subscriber).id =
            (b.subscriber j.subscriber).id := fun j hj => by
        rw [apply, subscriber_addSubscriber, if_neg (Nat.ne_of_lt (hs.jobs j hj).1)]
      have he : ((createSubscriber id key node window outbound).apply r b).standing h m =
          b.standing h m := standing_congr rfl (fun _ => rfl) Iff.rfl (attempts_congr rfl hold)
      exact he ▸ .refl
  | connect s outbound =>
      refine hsame rfl (fun _ => rfl) rfl rfl fun u => ?_
      rw [apply, subscriber_modifySubscriber]
      split <;> rfl
  | track key =>
      simp only [apply, record, track_eq]
      split
      · exact .refl
      · exact hsame rfl (fun t => b.buffer_trackNew key t) rfl rfl fun _ => rfl
  | buffer batch p t =>
      exact moves_accept (c := b.raiseSlot p (.ofNat batch.length)) (hs.raiseSlot p _) hd batch hu.1
        fun _ hn => hn
  | rebuffer key l => exact moves_putBack hs hd hu fun t ht hm => .rebuffered hm ht
  | requeue n type =>
      refine moves_putBack hs hd (l := [n]) (fun k hk => ?_) fun t ht hm => ?_
      · rw [List.mem_singleton.1 hk]; exact hu
      · rw [List.mem_singleton] at hm
        subst hm
        exact .requeued ht
  | flush vetoes now t => exact moves_delivery hs hd hu rfl rfl (flush_delivers b (hs.active_nodup t))
  | send vetoes now t =>
      exact moves_delivery hs hd hu rfl rfl (sendBuffered_delivers b (hs.active_nodup t))
  | findNext t active =>
      simp only [apply, record, Broker.findNext]
      split
      · next hempty =>
          rw [List.isEmpty_iff] at hempty
          subst hempty
          obtain he | ⟨topic, hstep⟩ := b.standing_evict h m t
          · rw [he]
          · exact .single ⟨_, .unheard topic, hstep⟩
      · exact hsame (by simp) (fun v => (tracker_nextSubscriber b t v active).2.1) (by simp) (by simp)
          (by simp)
  | clear key =>
      simp only [apply, record, Broker.clear]
      cases ht : b.find? key with
      | none => exact .refl
      | some t =>
          have hdrained : (b.drain t).standing
                { h with dropped := h.dropped ++ (b.tracker t).buffer } m =
              { (b.standing h m).drain t with
                dropped := m ∈ h.dropped ∨ m ∈ (b.tracker t).buffer } := by
            rw [← standing_drain]
            simp [standing]
          dsimp only
          rw [hdrained]
          by_cases hm : m ∈ (b.tracker t).buffer
          · have hstep := @Standing.Step.cleared (b.standing h m) t (List.count_pos_iff.2 hm)
            exact .single ⟨_, .cleared ht, by simpa [hm] using hstep⟩
          · rw [Standing.drain_of_empty fun hp => hm (List.count_pos_iff.1 hp)]
            simp only [hm, or_false]
            exact .refl
  | purge now key storageQueue =>
      have hrecorded : (b.recordPurge storageQueue now).standing h m = b.standing h m := rfl
      simp only [apply, record, Broker.purge]
      cases ht : (b.recordPurge storageQueue now).find? key with
      | none => exact .refl
      | some t =>
          dsimp only
          rw [standing_consumePurged, standing_drain, hrecorded]
          split
          · next hm =>
              exact .single ⟨_, .purged ht, .purged (List.count_pos_iff.2 hm)⟩
          · next hm => rw [Standing.drain_of_empty fun hp => hm (List.count_pos_iff.1 hp)]
  | acknowledge s n type =>
      by_cases hm : m = n
      · subst hm
        simp only [apply, record, standing_acknowledge]
        exact .single ⟨_, .acknowledged s type, .acknowledged _ _ type⟩
      · have he := (Touches.acknowledge b s n type).standing (h := h)
          (hs.apart_of_distinct hd hu.2) hm
        exact he ▸ .refl
  | runJob place =>
      obtain he | ⟨j, -, -, ⟨-, hstep⟩ | ⟨-, hstep⟩⟩ := standing_runJob hs hd h place m
      · exact he ▸ .refl
      · exact .single ⟨_, .written _, hstep⟩
      · exact .single ⟨_, .failed _, hstep⟩
  | shutdown => exact moves_shutdown hs hd
  | deleteExpired condition => exact moves_deletion (b.deleteExpired_deletes condition)

end Operation

theorem Operation.standing_apply {P : Standing → Prop} (hs : b.Sound) (hd : b.Distinct)
    (hu : op.uses b) (start : P (b.standing h m))
    (step : ∀ e st st', op.Brings r b m e → st.Step e st' → P st → P st') :
    P ((op.apply r b).standing (op.record b h) m) := by
  have hmoves := op.moves hs hd hu r h m
  generalize (op.apply r b).standing (op.record b h) m = st at hmoves ⊢
  induction hmoves with
  | refl => exact start
  | tail _ hnext ih =>
      obtain ⟨e, hbrings, hstep⟩ := hnext
      exact step e _ _ hbrings hstep ih

/-- What every event that a run's operations bring keeps of a message's standing holds of every
message in every state the run reaches. -/
theorem Reaches.standing_induction {terms : Broker → Journal → Operation → Prop}
    {P : Standing → Prop} (hr : Reaches r terms b h)
    (hterms : ∀ b h op, terms b h op → op.Distinguishes b)
    (start : ∀ m, P ((default : Broker).standing default m))
    (step : ∀ b h op m e st st', Reaches r terms b h → op.uses b → terms b h op →
      op.Brings r b m e → st.Step e st' → P st → P st') (m : MessageRef) : P (b.standing h m) := by
  induction hr with
  | start => exact start m
  | @step b h op prior hu ht ih =>
      exact op.standing_apply prior.sound (prior.distinct hterms) hu ih fun e st st' =>
        step b h op m e st st' prior hu ht

end Courier
