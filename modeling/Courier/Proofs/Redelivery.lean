import Courier.Proofs.Draining
import Courier.Proofs.Placement
import Courier.Proofs.Withdrawn

namespace Courier

open Broker
open Relation (ReflTransGen)

/-- New messages have ids of their own, and a batch brings messages that are in no buffer. -/
def placeTerms (b : Broker) (_ : Journal) (op : Operation) : Prop := op.KeepsPlaces b

instance (b : Broker) (h : Journal) (op : Operation) : Decidable (placeTerms b h op) :=
  inferInstanceAs (Decidable (op.KeepsPlaces b))

structure Broker.Clear (b : Broker) (vetoes : List Veto) (now : UInt64) (t : TrackerRef)
    (s : SubscriberRef) (m : MessageRef) : Prop extends b.Unopposed vetoes now t m where
  queue : (b.tracker t).isTopic = false
  sole : b.active t = [s]

/-- Buffers are flushed and jobs are run, and other messages are acknowledged. Where the message is
delivered from, nothing speaks against it, and its jobs succeed. -/
def pursuitTerms (s : SubscriberRef) (m : MessageRef) (b : Broker) (_ : Journal) :
    Operation → Prop
  | .flush vetoes now t | .send vetoes now t =>
      m ∈ (b.tracker t).buffer → b.Clear vetoes now t s m
  | .runJob place => ∀ j ∈ b.dispatcher.jobs[place]?, j.message = m →
      (b.send j.subscriber m).1 = .sent
  | .acknowledge _ n _ => n ≠ m
  | _ => False

instance (s : SubscriberRef) (m : MessageRef) (b : Broker) (h : Journal) (place : Nat) :
    Decidable (pursuitTerms s m b h (.runJob place)) :=
  inferInstanceAs (Decidable (∀ j ∈ b.dispatcher.jobs[place]?, j.message = m →
    (b.send j.subscriber m).1 = .sent))

/-- The place of the message in a buffer, counted from one, and zero if it has none. -/
def placeIn (m : MessageRef) (l : List MessageRef) : Nat := if m ∈ l then l.idxOf m + 1 else 0

theorem placeIn_of_not_mem {m : MessageRef} {l : List MessageRef} (hm : m ∉ l) : placeIn m l = 0 :=
  if_neg hm

theorem placeIn_pos {m : MessageRef} {l : List MessageRef} (hm : m ∈ l) : 0 < placeIn m l := by
  rw [placeIn, if_pos hm]
  exact Nat.succ_pos _

theorem placeIn_le_length (m : MessageRef) (l : List MessageRef) : placeIn m l ≤ l.length := by
  by_cases hm : m ∈ l
  · rw [placeIn, if_pos hm]
    exact List.idxOf_lt_length_iff.2 hm
  · rw [placeIn_of_not_mem hm]
    exact Nat.zero_le _

theorem placeIn_append {k m : MessageRef} (hk : k ≠ m) (l : List MessageRef) :
    placeIn m (l ++ [k]) = placeIn m l := by
  by_cases hm : m ∈ l
  · rw [placeIn, placeIn, if_pos hm, if_pos (List.mem_append_left _ hm), List.idxOf_append_of_mem hm]
  · rw [placeIn, placeIn, if_neg hm, if_neg (by simp [hm, Ne.symm hk])]

theorem placeIn_tail_le {k m : MessageRef} (hk : k ≠ m) (l : List MessageRef) :
    placeIn m l ≤ placeIn m (k :: l) - 1 := by
  by_cases hm : m ∈ l
  · rw [placeIn, placeIn, if_pos hm, if_pos (List.mem_cons_of_mem k hm), List.idxOf_cons_ne l hk]
    exact Nat.le_refl _
  · rw [placeIn, if_neg hm]
    exact Nat.zero_le _

def Event.source : Event → Option TrackerRef
  | .offered t _ _ | .spread t _ _ _ | .overrun t _ | .retired t _ | .evicted t => some t
  | _ => none

theorem Operation.Brings.source {r : Rules} {b : Broker} {m : MessageRef} {op : Operation} {e : Event}
    {vetoes : List Veto} {now : UInt64} {t : TrackerRef} (hb : op.Brings r b m e)
    (hop : op.delivery? = some (vetoes, now, t)) : e.source = some t := by
  cases hb with
  | offered hop' | spread hop' | overrun hop' | retired hop' | evicted hop' =>
      exact congrArg some (Operation.tracker_of_delivery hop hop')
  | _ => exact nomatch hop

namespace Standing

theorem Step.places_pos {st st' : Standing} {e : Event} {t : TrackerRef} (hs : st.Step e st')
    (he : e.source = some t) : 0 < st.places t := by
  cases hs with
  | offered hp | spread hp | overrun hp | retired _ _ hp | evicted hp => exact Option.some.inj he ▸ hp
  | _ => exact nomatch he

theorem Step.written_frame {st st' : Standing} {a : Attempt} (hs : st.Step (.written a) st') :
    st'.message.buffered = st.message.buffered ∧
      ∀ id, st.message.awaits id = true → st'.message.awaits id = true := by
  cases hs with
  | written =>
      unfold deliver
      split
      · next hscheduled =>
          refine ⟨rfl, fun id hid => ?_⟩
          have hne : id ≠ a.subscriber := fun he => by
            rw [Message.awaits_iff, he] at hid
            obtain hid | hid := hid <;> exact nomatch hscheduled.symm.trans hid
          rw [Message.awaits_iff, setStatus, Message.status?_setStatus, if_neg hne]
          exact Message.awaits_iff.1 hid
      · exact ⟨rfl, fun _ hid => hid⟩

def queuedFor (st : Standing) (id : SubscriberId) : Nat :=
  st.attempts.countP fun a => decide (a.subscriber = id)

theorem Handled.eq_submit {st st' : Standing} {a : Attempt} (hh : Handled a st .dispatched st') :
    st' = st.submit a := by
  cases hh
  rfl

end Standing

variable {r : Rules} {b c d : Broker} {h : Journal} {m : MessageRef} {s : SubscriberRef}
  {t u : TrackerRef} {op : Operation} {now : UInt64} {vetoes : List Veto} {n : Nat}
  {batch : List MessageRef}

namespace Broker

theorem queuedFor_standing (b : Broker) (h : Journal) (m : MessageRef) (id : SubscriberId) :
    (b.standing h m).queuedFor id = queuedFor b m id := by
  change ((b.dispatcher.jobs.filter fun j => j.message = m).map b.attempt).countP _ = _
  rw [List.countP_map, List.countP_filter, queuedFor]
  refine List.countP_congr fun j _ => ?_
  simp only [isFor, Function.comp_apply, Bool.and_eq_true, decide_eq_true_eq]
  exact and_comm

/-- The message is on its way to the subscriber: it is buffered, waits with a job or was written,
and all of this counts up to the same number for good. -/
structure Pursued (s : SubscriberRef) (m : MessageRef) (n : Nat) (b : Broker) (h : Journal) :
    Prop where
  accepting : b.dispatcher.accepting = true
  placed : (b.standing h m).Placed
  awaited : (b.message m).buffered = true → (b.message m).awaits (b.subscriber s).id = true
  total : writesOf b h m (b.subscriber s).id + (b.message m).buffered.toNat = n

namespace Pursued

theorem of_standing (hp : Pursued s m n b h) (hst : c.standing h m = b.standing h m)
    (hid : (c.subscriber s).id = (b.subscriber s).id)
    (ha : c.dispatcher.accepting = b.dispatcher.accepting) : Pursued s m n c h := by
  have hm : c.message m = b.message m := congrArg Standing.message hst
  have hq : queuedFor c m (b.subscriber s).id = queuedFor b m (b.subscriber s).id := by
    rw [← queuedFor_standing c h, ← queuedFor_standing b h, hst]
  refine ⟨ha.trans hp.accepting, hst ▸ hp.placed, ?_, ?_⟩
  · rw [hm, hid]; exact hp.awaited
  · rw [hm, hid, writesOf, hq]; exact hp.total

theorem submitted (hp : Pursued s m n b h) {policy : FailurePolicy}
    (buffered : 0 < (b.standing h m).places t)
    (hst : c.standing h m =
      ((b.standing h m).unbuffer t).submit ⟨(b.subscriber s).id, t, policy⟩)
    (hid : (c.subscriber s).id = (b.subscriber s).id)
    (ha : c.dispatcher.accepting = b.dispatcher.accepting) : Pursued s m n c h := by
  have hin : (b.message m).buffered = true := hp.placed.flagged buffered
  have hout : (c.message m).buffered = false :=
    (congrArg (fun st : Standing => st.message.buffered) hst).trans
      (Standing.buffered_unbuffer buffered)
  have hq : queuedFor c m (b.subscriber s).id = queuedFor b m (b.subscriber s).id + 1 := by
    rw [← queuedFor_standing c h, ← queuedFor_standing b h, hst, Standing.queuedFor, Standing.queuedFor,
      Standing.submit, List.countP_append, (Standing.unbuffer_frame _ t).2.2.2.2.2.1]
    simp
  refine ⟨ha.trans hp.accepting, ?_, fun h => absurd (hout.symm.trans h) nofun, ?_⟩
  · rw [hst]
    exact (hp.placed.unbuffer t).congr rfl rfl
  · have htotal := hp.total
    rw [hin] at htotal
    rw [hid, hout, writesOf, hq, ← htotal, writesOf, Bool.toNat_false, Bool.toNat_true]
    omega

end Pursued

theorem Clear.congr (hc : b.Clear vetoes now t s m) (hp : Preserves b c) (hpurges : c.purges = b.purges)
    (hm : c.message m = b.message m) : c.Clear vetoes now t s m where
  toUnopposed := hc.toUnopposed.congr hp hpurges (by rw [hm]) (by rw [hm])
  queue := by rw [Tracker.isTopic, hp.key]; exact hc.queue
  sole := (hp.active_eq t).trans hc.sole

theorem Pursued.offer (hp : Pursued s m n b h) (ha : b.Apart m) (hclear : b.Clear vetoes now t s m)
    {rest : List MessageRef} (front : (b.tracker t).buffer = m :: rest) (r : Rules) :
    Pursued s m n ((b.unbuffer t m).offer { r with vetoes } now t s m).2 h ∧
      m ∉ (((b.unbuffer t m).offer { r with vetoes } now t s m).2.tracker t).buffer := by
  have ht := Touches.unbuffer b t m
  have hplace : 0 < (b.standing h m).places t := List.count_pos_iff.2 (by simp [front])
  have hflag : (b.message m).buffered = true := hp.placed.flagged hplace
  have hmessage : (b.unbuffer t m).message m = { b.message m with buffered := false } := by
    rw [message_unbuffer, if_pos ⟨rfl, (isBufferedIn_iff b t m).2 ⟨m, by simp [front], rfl⟩⟩]
  have hunopposed : (b.unbuffer t m).Unopposed vetoes now t m :=
    hclear.toUnopposed.congr ht.toPreserves ht.purges (by rw [hmessage]) (by rw [hmessage])
  have hsole : s ∈ (b.unbuffer t m).active t := by
    rw [ht.active_eq, hclear.sole]
    exact List.mem_singleton_self s
  have hawaits : ((b.unbuffer t m).message m).awaits ((b.unbuffer t m).subscriber s).id = true := by
    rw [hmessage, ht.subscriber_id]
    exact hp.awaited hflag
  have hdeliverable : Deliverable { r with vetoes } now s m (b.unbuffer t m) :=
    hunopposed.deliverable hsole
  have hopen := ht.accepting.trans hp.accepting
  have hh : Handled { r with vetoes } now s m t .rebuffer (b.unbuffer t m) .dispatched _ :=
    .dispatched hdeliverable hawaits hopen
  have hid := (ht.toPreserves.trans hh.touches.toPreserves).subscriber_id s
  have haccepting := hh.touches.accepting.trans ht.accepting
  have hstanding := (hh.standing h).eq_submit
  rw [standing_unbuffer ha, ht.subscriber_id] at hstanding
  unfold Broker.offer
  rw [handle_of_deliverable hdeliverable hawaits hopen]
  have hsubmitted := hp.submitted hplace hstanding hid haccepting
  refine ⟨hsubmitted, not_mem_of_unflagged hsubmitted.placed ?_ t⟩
  have hout := congrArg (fun st : Standing => st.message.buffered) hstanding
  exact hout.trans (Standing.buffered_unbuffer hplace)

theorem Pursued.passStep (hp : Pursued s m n c h) (hs : c.Sound) (hd : c.Distinct)
    (queue : (c.tracker t).isTopic = false)
    (hclear : m ∈ (c.tracker t).buffer → c.Clear vetoes now t s m)
    (hstep : PassStep { r with vetoes } now t [s] batch c d) :
    Pursued s m n d h ∧ (m ∈ (d.tracker t).buffer → d.Clear vetoes now t s m) ∧
      ((d.tracker t).buffer = (c.tracker t).buffer ∨
        placeIn m (d.tracker t).buffer ≤ placeIn m (c.tracker t).buffer - 1) := by
  cases hstep with
  | turn =>
      obtain ⟨-, hbuffer, -⟩ := tracker_nextSubscriber c t t [s]
      have hturn := Touches.nextSubscriber m c t [s]
      refine ⟨hp.of_standing (standing_of_frame (by simp)
        (fun v => (tracker_nextSubscriber c t v _).2.1) (by simp) (by simp) (by simp)) (by simp) (by simp),
        fun hmem => (hclear (hbuffer ▸ hmem)).congr hturn.toPreserves hturn.purges (by simp),
        .inl hbuffer⟩
  | offer k rest s' _ front _ hs' =>
      obtain rfl := (List.mem_singleton.1 hs').symm
      have hk : k ∈ (c.tracker t).buffer := by simp [front]
      have hapart := hs.apart_of_distinct hd (hs.buffered t k hk)
      by_cases hkm : k = m
      · subst hkm
        obtain ⟨hafter, hout⟩ := hp.offer hapart (hclear hk) front r
        exact ⟨hafter, fun hmem => absurd hmem hout,
          .inr (by rw [placeIn_of_not_mem hout]; exact Nat.zero_le _)⟩
      · have ht := (Touches.unbuffer c t k).trans
          (Touches.offer (c.unbuffer t k) { r with vetoes } now t s k)
        have hback := c.offer_front { r with vetoes } now s front hp.accepting
        have hmem : m ∈ (((c.unbuffer t k).offer { r with vetoes } now t s k).2.tracker t).buffer →
            m ∈ (c.tracker t).buffer := fun hmem => (ht.gains t m hmem).resolve_right (Ne.symm hkm)
        refine ⟨hp.of_standing (ht.standing hapart (Ne.symm hkm)) (ht.subscriber_id s) ht.accepting,
          fun hin => (hclear (hmem hin)).congr ht.toPreserves ht.purges (ht.others m (Ne.symm hkm)),
          .inr ?_⟩
        rw [front]
        obtain ⟨-, hrest⟩ | ⟨-, -, hrest, -⟩ := hback
        · rw [hrest]; exact placeIn_tail_le hkm rest
        · rw [hrest, placeIn_append hkm]; exact placeIn_tail_le hkm rest
  | discard _ _ topic | spread _ _ topic | retire _ topic =>
      exact absurd (queue.symm.trans topic) Bool.false_ne_true

theorem Pursued.delivers (hp : Pursued s m n b h) (hs : b.Sound) (hd : b.Distinct)
    (ht : b.hasTracker t) (hclear : b.Clear vetoes now t s m)
    (hdel : Delivers { r with vetoes } now t b c) :
    Pursued s m n c h ∧ ((c.tracker t).buffer = (b.tracker t).buffer ∨
      placeIn m (c.tracker t).buffer ≤ placeIn m (b.tracker t).buffer - 1) := by
  cases hdel with
  | letGo unheard => exact absurd (hclear.sole.symm.trans unheard) (List.cons_ne_nil _ _)
  | nothing => exact ⟨hp, .inl rfl⟩
  | pass _ _ steps =>
      have hactive : ∀ u ∈ b.active t, b.hasSubscriber u := fun u hu => (hs.mem_active hu).1
      suffices hall : Pursued s m n c h ∧ (m ∈ (c.tracker t).buffer → c.Clear vetoes now t s m) ∧
          ((c.tracker t).buffer = (b.tracker t).buffer ∨
            placeIn m (c.tracker t).buffer ≤ placeIn m (b.tracker t).buffer - 1) from
        ⟨hall.1, hall.2.2⟩
      induction steps with
      | refl => exact ⟨hp, fun _ => hclear, .inl rfl⟩
      | @tail v w prior next ih =>
          obtain ⟨hpc, hclearc, hplace⟩ := ih
          obtain ⟨hsc, hbc⟩ := hs.passSteps prior ht hactive (hs.buffered t)
          have hdc := hd.passSteps hs ht hactive (hs.buffered t) prior
          have hqueue : (v.tracker t).isTopic = false := by
            rw [Tracker.isTopic, hbc.key t]
            exact hclear.queue
          rw [hclear.sole] at next
          obtain ⟨hpd, hcleard, hnext⟩ := hpc.passStep hsc hdc hqueue hclearc next
          refine ⟨hpd, hcleard, ?_⟩
          obtain he | he := hnext
          · rwa [he]
          · obtain he' | he' := hplace
            · exact .inr (he' ▸ he)
            · exact .inr (by omega)

theorem standing_delivery (hs : b.Sound) (hd : b.Distinct) (hu : op.uses b)
    (hop : op.delivery? = some (vetoes, now, t)) (hm : m ∉ (b.tracker t).buffer) (r : Rules)
    (h : Journal) : (op.apply r b).standing (op.record b h) m = b.standing h m := by
  refine op.standing_apply (P := fun st => st = b.standing h m) hs hd hu rfl
    fun e st st' hbrings hstep hst => ?_
  have hp := hstep.places_pos (hbrings.source hop)
  rw [hst] at hp
  exact absurd (List.count_pos_iff.1 hp) hm

theorem Pursued.delivery (hp : Pursued s m n b h) (hs : b.Sound) (hd : b.Distinct)
    (hu : op.uses b) (ht : b.hasTracker t) (hop : op.delivery? = some (vetoes, now, t))
    (hclear : m ∈ (b.tracker t).buffer → b.Clear vetoes now t s m)
    (hdel : Delivers { r with vetoes } now t b (op.apply r b))
    (hid : ((op.apply r b).subscriber s).id = (b.subscriber s).id)
    (ha : (op.apply r b).dispatcher.accepting = b.dispatcher.accepting) :
    Pursued s m n (op.apply r b) (op.record b h) := by
  have hrecord : op.record b h = h := by
    cases op with
    | flush | send => rfl
    | _ => exact nomatch hop
  rw [hrecord]
  by_cases hm : m ∈ (b.tracker t).buffer
  · exact (hp.delivers hs hd ht (hclear hm) hdel).1
  · have hst := standing_delivery hs hd hu hop hm r h
    rw [hrecord] at hst
    exact hp.of_standing hst hid ha

theorem Pursued.runJob (hp : Pursued s m n b h) (hs : b.Sound) (hd : b.Distinct) {place : Nat}
    (hsend : ∀ j ∈ b.dispatcher.jobs[place]?, j.message = m → (b.send j.subscriber m).1 = .sent) :
    Pursued s m n (b.runJob place) (h.runJob b place) := by
  have hid := (Sound.preserves_runJob b place).subscriber_id s
  have ha := Sound.accepting_runJob b place
  have hwrites : writesOf (b.runJob place) (h.runJob b place) m (b.subscriber s).id =
      writesOf b h m (b.subscriber s).id :=
    writesOf_runJob fun j hj hfor => by
      have hm : j.message = m := of_decide_eq_true (Bool.and_eq_true_iff.1 hfor).1
      exact hm ▸ hsend j hj hm
  obtain he | ⟨j, hj, rfl, ⟨-, hstep⟩ | ⟨hfailed, -⟩⟩ := standing_runJob hs hd h place m
  · have hm : (b.runJob place).message m = b.message m := congrArg Standing.message he
    refine ⟨ha.trans hp.accepting, he ▸ hp.placed, ?_, ?_⟩
    · rw [hm, hid]; exact hp.awaited
    · rw [hm, hid, hwrites]; exact hp.total
  · obtain ⟨hflag, hawaits⟩ := hstep.written_frame
    refine ⟨ha.trans hp.accepting, hp.placed.step hstep nofun, ?_, ?_⟩
    · rw [hid]
      exact fun hb => hawaits _ (hp.awaited (hflag.symm.trans hb))
    · have hflag' : ((b.runJob place).message j.message).buffered = (b.message j.message).buffered :=
        hflag
      rw [hid, hwrites, hflag']
      exact hp.total
  · exact absurd (hsend j hj rfl) hfailed

theorem Pursued.acknowledge (hp : Pursued s m n b h) (hs : b.Sound) (hd : b.Distinct)
    {k : MessageRef} (hk : b.hasMessage k) (hkm : k ≠ m) (u : SubscriberRef) (type : DestinationType) :
    Pursued s m n (b.acknowledge u k type) h := by
  have ht := Touches.acknowledge b u k type
  exact hp.of_standing (ht.standing (hs.apart_of_distinct hd hk) (Ne.symm hkm)) (ht.subscriber_id s)
    ht.accepting

theorem Pursued.apply (hp : Pursued s m n b h) (hs : b.Sound) (hd : b.Distinct) (hu : op.uses b)
    (ht : pursuitTerms s m b h op) (r : Rules) :
    Pursued s m n (op.apply r b) (op.record b h) ∧
      ((op.apply r b).subscriber s).id = (b.subscriber s).id := by
  cases op with
  | flush vetoes now t =>
      have hkept : Preserves b ((Operation.flush vetoes now t).apply r b) := hs.preserves rfl hu r
      have hid := hkept.subscriber_id s
      exact ⟨hp.delivery hs hd hu hu rfl ht (flush_delivers b (hs.active_nodup t)) hid
        (hs.accepting_apply hu nofun nofun r), hid⟩
  | send vetoes now t =>
      have hkept : Preserves b ((Operation.send vetoes now t).apply r b) := hs.preserves rfl hu r
      have hid := hkept.subscriber_id s
      exact ⟨hp.delivery hs hd hu hu rfl ht (sendBuffered_delivers b (hs.active_nodup t)) hid
        (hs.accepting_apply hu nofun nofun r), hid⟩
  | runJob place => exact ⟨hp.runJob hs hd ht, (Sound.preserves_runJob b place).subscriber_id s⟩
  | acknowledge u k type =>
      exact ⟨hp.acknowledge hs hd hu.2 ht u type, (Touches.acknowledge b u k type).subscriber_id s⟩
  | _ => exact absurd ht id

theorem Pursued.place_delivery (hp : Pursued s m n b h) (hs : b.Sound) (hd : b.Distinct)
    (hu : op.uses b) (ht : b.hasTracker u) (hop : op.delivery? = some (vetoes, now, u))
    (hclear : m ∈ (b.tracker u).buffer → b.Clear vetoes now u s m)
    (hdel : Delivers { r with vetoes } now u b (op.apply r b)) (t : TrackerRef) :
    placeIn m ((op.apply r b).tracker t).buffer ≤ placeIn m (b.tracker t).buffer := by
  by_cases hut : t = u
  · subst hut
    by_cases hm : m ∈ (b.tracker t).buffer
    · obtain he | hless := (hp.delivers hs hd ht (hclear hm) hdel).2
      · exact Nat.le_of_eq (congrArg (placeIn m) he)
      · exact Nat.le_trans hless (Nat.sub_le _ _)
    · have hst := standing_delivery hs hd hu hop hm r h
      have hcount : ((op.apply r b).tracker t).buffer.count m = (b.tracker t).buffer.count m :=
        congrFun (congrArg Standing.places hst) t
      have hout : m ∉ ((op.apply r b).tracker t).buffer := by
        rwa [← List.count_eq_zero, hcount, List.count_eq_zero]
      rw [placeIn_of_not_mem hout]
      exact Nat.zero_le _
  · exact Nat.le_of_eq (congrArg (placeIn m) (hs.buffer_delivers_of_ne ht hdel hut))

theorem Pursued.place_flush (hp : Pursued s m n b h) (hs : b.Sound) (hd : b.Distinct)
    (ht : b.hasTracker t) (hm : m ∈ (b.tracker t).buffer) (hclear : b.Clear vetoes now t s m)
    (ready : Ready r t b) :
    placeIn m ((b.flush { r with vetoes } now t).2.tracker t).buffer ≤
      placeIn m (b.tracker t).buffer - 1 := by
  have hready : Ready { r with vetoes } t b := ⟨ready.accepting, ready.below, ready.heard, ready.room⟩
  obtain hsame | hless := (hp.delivers hs hd ht hclear (flush_delivers b (hs.active_nodup t))).2
  · cases flush_advances hclear.queue hready (List.ne_nil_of_mem hm) now with
    | shorter fewer => exact absurd fewer (by rw [hsame]; exact Nat.lt_irrefl _)
    | rotated k rest u front turn recorded back =>
        have hu : u ∈ b.active t := mem_of_nextSubscriber turn
        rw [hclear.sole] at hu
        obtain rfl := (List.mem_singleton.1 hu).symm
        have hkm : k ≠ m := fun he => by
          subst he
          have hplace : 0 < (b.standing h k).places t := List.count_pos_iff.2 hm
          exact absurd ((hp.awaited (hp.placed.flagged hplace)).symm.trans recorded) nofun
        rw [back, placeIn_append hkm, front]
        exact placeIn_tail_le hkm rest
  · exact hless

/-- No operation takes the message farther from the front. -/
theorem Pursued.place_le (hp : Pursued s m n b h) (hs : b.Sound) (hd : b.Distinct)
    (hu : op.uses b) (ht : pursuitTerms s m b h op) (r : Rules) (t : TrackerRef) :
    placeIn m ((op.apply r b).tracker t).buffer ≤ placeIn m (b.tracker t).buffer := by
  cases op with
  | flush vetoes now u =>
      exact hp.place_delivery (r := r) hs hd hu hu rfl ht (flush_delivers b (hs.active_nodup u)) t
  | send vetoes now u =>
      exact hp.place_delivery hs hd hu hu rfl ht (sendBuffered_delivers b (hs.active_nodup u)) t
  | runJob place =>
      obtain he | ⟨j, hj, -, -, hfailed, he⟩ := b.buffer_runJob place t
      · exact Nat.le_of_eq (congrArg (placeIn m) he)
      · have hother : j.message ≠ m := fun hm => hfailed (hm ▸ ht j hj hm)
        exact Nat.le_of_eq (by rw [Operation.apply, he, placeIn_append hother])
  | acknowledge v k type =>
      exact Nat.le_of_eq (congrArg (placeIn m) ((acknowledge_frame b v k type).1 t))
  | _ => exact absurd ht id

/-- A flush with nothing in its way brings it nearer. -/
theorem Pursued.place_apply (hp : Pursued s m n b h) (hs : b.Sound) (hd : b.Distinct)
    (hu : op.uses b) (ht : pursuitTerms s m b h op) (hready : op.flushes t = true → Ready r t b) :
    placeIn m ((op.apply r b).tracker t).buffer ≤
      placeIn m (b.tracker t).buffer - (op.flushes t).toNat := by
  have hle := hp.place_le hs hd hu ht r t
  cases op with
  | flush vetoes now u =>
      by_cases hut : u = t
      · subst hut
        rw [Operation.flushes, decide_eq_true rfl]
        by_cases hm : m ∈ (b.tracker u).buffer
        · exact hp.place_flush hs hd hu hm (ht hm) (hready (decide_eq_true rfl))
        · rw [placeIn_of_not_mem hm] at hle ⊢
          exact hle
      · rw [Operation.flushes, decide_eq_false hut]
        exact hle
  | _ => exact hle

end Broker

inductive Operation.PutsBack (b : Broker) (m : MessageRef) (t : TrackerRef) : Operation → Prop
  | rebuffered {key : TrackedKey} {l : List MessageRef} (ht : b.find? key = some t) (hm : m ∈ l) :
      PutsBack b m t (.rebuffer key l)
  | requeued {type : DestinationType} (ht : b.find? ⟨type, (b.message m).destination⟩ = some t) :
      PutsBack b m t (.requeue m type)

theorem Operation.PutsBack.apply_eq (hback : op.PutsBack b m t) (r : Rules) :
    ∃ l : List MessageRef, m ∈ l ∧ op.apply r b = l.foldl (returnToBuffer t) b := by
  cases hback with
  | @rebuffered key l ht hm =>
      refine ⟨l, hm, ?_⟩
      rw [apply_rebuffer, ht]
  | @requeued type ht =>
      refine ⟨[m], List.mem_singleton_self m, ?_⟩
      change (rebuffer ⟨type, (b.message m).destination⟩ [m]).apply r b = _
      rw [apply_rebuffer, ht]

/-- Putting a message back has its attempts withdrawn, so that it awaits its dispatch unless the
subscriber is done with it. -/
theorem Broker.Pursued.returned (hs : b.Sound) (hd : b.Distinct) (hx : b.Placed) (hu : op.uses b)
    (hback : op.PutsBack b m t) (queue : (b.tracker t).isTopic = false)
    (accepting : b.dispatcher.accepting = true)
    (unanswered : ((b.message m).status? (b.subscriber s).id).any RecipientStatus.isFinal = false)
    (r : Rules) :
    Pursued s m (writesOf b h m (b.subscriber s).id + 1) (op.apply r b) h ∧
      ((op.apply r b).subscriber s).id = (b.subscriber s).id := by
  have hplaced : (op.apply r b).Placed := by
    cases hback <;> exact hx.apply hs hd hu trivial r
  have hkept : Preserves b (op.apply r b) := by
    cases hback <;> exact hs.preserves rfl hu r
  obtain ⟨l, hm, happly⟩ := hback.apply_eq r
  have hjobs : (op.apply r b).dispatcher = b.dispatcher := by rw [happly, dispatcher_returned]
  have hflag : ((op.apply r b).message m).buffered = true := by
    rw [happly, buffered_returned, decide_eq_true hm, Bool.true_or]
  have hstatus : ((op.apply r b).message m).status? (b.subscriber s).id =
      if (b.message m).isHeldBy (b.subscriber s).id = true then none
      else (b.message m).status? (b.subscriber s).id := by
    rw [happly, status?_returned queue hs.tidy]
    simp only [hm, true_and]
  have hid := hkept.subscriber_id s
  refine ⟨⟨by rw [hjobs]; exact accepting, (hplaced m).congr rfl rfl, fun _ => ?_, ?_⟩, hid⟩
  · rw [hid]
    refine Message.awaits_of_not_isHeldBy ?_ ?_
    · rw [hstatus]
      split
      · rfl
      · exact unanswered
    · rw [Message.isHeldBy, hstatus]
      split
      · rfl
      · next hfree => exact Bool.eq_false_iff.2 hfree
  · rw [hid, hflag, writesOf_congr (h := h) (congrArg Dispatcher.jobs hjobs)
      (fun j _ => hkept.subscriber_id j.subscriber) rfl m]
    rfl

def promptPursuitTerms (r : Rules) (t : TrackerRef) (s : SubscriberRef) (m : MessageRef) (b : Broker)
    (h : Journal) (op : Operation) : Prop :=
  pursuitTerms s m b h op ∧ (op.flushes t = true → Ready r t b)

theorem distinguishes_of_pursuitTerms (ht : pursuitTerms s m b h op) : op.Distinguishes b := by
  cases op with
  | createMessage => exact absurd ht id
  | _ => trivial

theorem Broker.Pursued.replay (hp : Pursued s m n b h) (hs : b.Sound) (hd : b.Distinct)
    (l : List Operation) (hl : Follows r (pursuitTerms s m) l b h) :
    Pursued s m n (replay r l b h).1 (replay r l b h).2 ∧
      ((replay r l b h).1.subscriber s).id = (b.subscriber s).id := by
  induction l generalizing b h with
  | nil => exact ⟨hp, rfl⟩
  | cons op l ih =>
      obtain ⟨⟨hu, ht⟩, hl⟩ := hl
      obtain ⟨hp', hid⟩ := hp.apply hs hd hu ht r
      have hd' := hd.apply hs hu (distinguishes_of_pursuitTerms ht) r
      obtain ⟨hend, hid'⟩ := ih hp' (hs.apply r op hu) hd' hl
      exact ⟨hend, hid'.trans hid⟩

theorem Broker.Pursued.place_le_replay (hp : Pursued s m n b h) (hs : b.Sound) (hd : b.Distinct)
    (l : List Operation) (hl : Follows r (pursuitTerms s m) l b h) (t : TrackerRef) :
    placeIn m ((Courier.replay r l b h).1.tracker t).buffer ≤ placeIn m (b.tracker t).buffer := by
  induction l generalizing b h with
  | nil => exact Nat.le_refl _
  | cons op l ih =>
      obtain ⟨⟨hu, ht⟩, hl⟩ := hl
      have hd' := hd.apply hs hu (distinguishes_of_pursuitTerms ht) r
      exact Nat.le_trans (ih (hp.apply hs hd hu ht r).1 (hs.apply r op hu) hd' hl)
        (hp.place_le hs hd hu ht r t)

theorem Broker.Pursued.place_replay (hp : Pursued s m n b h) (hs : b.Sound) (hd : b.Distinct)
    (l : List Operation) (hl : Follows r (promptPursuitTerms r t s m) l b h) :
    placeIn m ((Courier.replay r l b h).1.tracker t).buffer ≤
      placeIn m (b.tracker t).buffer - l.countP (Operation.flushes t) := by
  induction l generalizing b h with
  | nil => exact Nat.le_refl _
  | cons op l ih =>
      obtain ⟨⟨hu, ht, hready⟩, hl⟩ := hl
      have hd' := hd.apply hs hu (distinguishes_of_pursuitTerms ht) r
      have hstep := hp.place_apply hs hd hu ht hready
      have hrest := ih (hp.apply hs hd hu ht r).1 (hs.apply r op hu) hd' hl
      rw [Courier.replay, List.countP_cons]
      cases hflushes : op.flushes t with
      | false | true =>
          rw [hflushes] at hstep
          simp only [Bool.toNat_false, Bool.toNat_true, Bool.false_eq_true, if_true,
            if_false] at hstep ⊢
          omega

theorem Broker.Pursued.unflagged_replay (hp : Pursued s m n b h) (hs : b.Sound) (hd : b.Distinct)
    (hm : m ∈ (b.tracker t).buffer) (l : List Operation)
    (hl : Follows r (promptPursuitTerms r t s m) l b h)
    (hlength : (b.tracker t).buffer.length ≤ l.countP (Operation.flushes t)) :
    ((Courier.replay r l b h).1.message m).buffered = false := by
  have hpursuit := follows_mono (fun _ _ _ ht => ht.1) hl
  refine (unflagged_iff (hp.replay hs hd l hpursuit).1.placed).2 fun u hmem => ?_
  have hlast := placeIn_pos hmem
  by_cases hut : u = t
  · subst hut
    have hplace := hp.place_replay hs hd l hl
    have hfirst := placeIn_le_length m (b.tracker u).buffer
    omega
  · have hplace : 0 < (b.standing h m).places t := List.count_pos_iff.2 hm
    have hout : m ∉ (b.tracker u).buffer :=
      List.count_eq_zero.1 ((hp.placed.only hplace u).trans (if_neg hut))
    have hle := hp.place_le_replay hs hd l hpursuit u
    rw [placeIn_of_not_mem hout] at hle
    exact absurd hlast (Nat.not_lt.2 hle)

/-- A message that is put back at a queue whose only subscriber is not done with it goes to that
subscriber once more, and beyond that as often as jobs for it were still queued at that time: exactly
once, if no job was. When nothing is in the way, as many flushes as the buffer is long bring it out
of the buffer. -/
theorem redelivered_once_more (hr : Reaches r placeTerms b h) (hu : op.uses b)
    (hback : op.PutsBack b m t) (queue : (b.tracker t).isTopic = false)
    (accepting : b.dispatcher.accepting = true)
    (unanswered : ((b.message m).status? (b.subscriber s).id).any RecipientStatus.isFinal = false)
    (l : List Operation) :
    (Follows r (pursuitTerms s m) l (op.apply r b) (op.record b h) →
      ((replay r l (op.apply r b) (op.record b h)).1.message m).buffered = false →
      queuedFor (replay r l (op.apply r b) (op.record b h)).1 m (b.subscriber s).id = 0 →
      (replay r l (op.apply r b) (op.record b h)).2.sent.count (m, (b.subscriber s).id) =
        h.sent.count (m, (b.subscriber s).id) + queuedFor b m (b.subscriber s).id + 1) ∧
    ∀ v, m ∈ ((op.apply r b).tracker v).buffer →
      Follows r (promptPursuitTerms r v s m) l (op.apply r b) (op.record b h) →
      ((op.apply r b).tracker v).buffer.length ≤ l.countP (Operation.flushes v) →
      ((replay r l (op.apply r b) (op.record b h)).1.message m).buffered = false := by
  obtain ⟨hs, hd, hx⟩ := (hr.leads fun _ _ _ hk => hk).placed
  have hs' : (op.apply r b).Sound := hs.apply r op hu
  have hd' : (op.apply r b).Distinct := hd.apply hs hu (by cases hback <;> trivial) r
  have hrecord : op.record b h = h := by cases hback <;> rfl
  obtain ⟨hp, hid⟩ := Pursued.returned (h := h) hs hd hx hu hback queue accepting unanswered r
  rw [hrecord]
  refine ⟨fun hl hout hidle => ?_, fun v hv hl hlength => ?_⟩
  · obtain ⟨hend, hid'⟩ := hp.replay hs' hd' l hl
    have htotal := hend.total
    rw [hid', hid, hout, writesOf, hidle, writesOf] at htotal
    simp only [Bool.toNat_false] at htotal
    omega
  · exact hp.unflagged_replay hs' hd' hv l hl hlength

def orderRun : List Operation :=
  [.createSlot "stored", .createMessage 1 "orders" "stored" "book" 0 0,
    .createSubscriber "worker" ⟨"orders", .amqp, .queue⟩ "local" 2 default, .register ⟨0⟩,
    .track ⟨"orders", .amqp, .queue⟩, .buffer [⟨0⟩] ⟨0⟩ ⟨0⟩, .flush [] 0 ⟨0⟩]

def roomyRules : Rules := { workerRules with ceiling := 2 }

theorem redelivered_once_more_orderRun :
    let b := (replay roomyRules (orderRun ++ [.runJob 0]) default default).1
    let h := (replay roomyRules (orderRun ++ [.runJob 0]) default default).2
    let op := Operation.requeue ⟨0⟩ .queue
    let after := replay roomyRules [.flush [] 0 ⟨0⟩, .runJob 0] (op.apply roomyRules b) (op.record b h)
    (after.1.message ⟨0⟩).buffered = false ∧
      after.2.sent.count (⟨0⟩, "worker") = h.sent.count (⟨0⟩, "worker") + 0 + 1 := by
  intro b h op after
  have hf : Follows roomyRules placeTerms (orderRun ++ [.runJob 0]) default default := by decide
  have hclear : (op.apply roomyRules b).Clear [] 0 ⟨0⟩ ⟨0⟩ ⟨0⟩ :=
    ⟨⟨⟨by decide, by decide, by decide⟩, nofun⟩, by decide, by decide⟩
  obtain ⟨hcount, hleaves⟩ := redelivered_once_more (s := ⟨0⟩) (Reaches.start.replay _ hf)
    (by decide : op.uses b) (.requeued (t := ⟨0⟩) (by decide)) (by decide) (by decide) (by decide)
    [.flush [] 0 ⟨0⟩, .runJob 0]
  have hl : Follows roomyRules (promptPursuitTerms roomyRules ⟨0⟩ ⟨0⟩ ⟨0⟩)
      [.flush [] 0 ⟨0⟩, .runJob 0] (op.apply roomyRules b) (op.record b h) :=
    ⟨⟨by decide, fun _ => hclear, fun _ => by decide⟩, ⟨trivial, by decide, nofun⟩, trivial⟩
  have hout := hleaves ⟨0⟩ (by decide) hl (by decide)
  exact ⟨hout, hcount (follows_mono (fun _ _ _ ht => ht.1) hl) hout (by decide)⟩

/-- The order's first job still waits when it is put back. It is run like the second, and the worker
gets the order twice. -/
theorem redelivered_twice_orderRun :
    ¬ ∀ (r : Rules) (b : Broker) (h : Journal), Reaches r placeTerms b h →
      ∀ (op : Operation) (m : MessageRef) (s : SubscriberRef) (t : TrackerRef) (l : List Operation),
      op.uses b → op.PutsBack b m t → (b.tracker t).isTopic = false → b.active t = [s] → Ready r t b →
      (b.message m).settled = false → (b.message m).status? (b.subscriber s).id = some .scheduled →
      Follows r (pursuitTerms s m) l (op.apply r b) (op.record b h) →
      ((replay r l (op.apply r b) (op.record b h)).1.message m).buffered = false →
      (replay r l (op.apply r b) (op.record b h)).1.dispatcher.jobs = [] →
      (replay r l (op.apply r b) (op.record b h)).2.sent.count (m, (b.subscriber s).id) =
        h.sent.count (m, (b.subscriber s).id) + 1 := by
  intro hall
  have hf : Follows roomyRules placeTerms orderRun default default := by decide
  let b := (replay roomyRules orderRun default default).1
  let h := (replay roomyRules orderRun default default).2
  let op := Operation.requeue ⟨0⟩ .queue
  have hclear : (op.apply roomyRules b).Clear [] 0 ⟨0⟩ ⟨0⟩ ⟨0⟩ :=
    ⟨⟨⟨by decide, by decide, by decide⟩, nofun⟩, by decide, by decide⟩
  have hl : Follows roomyRules (pursuitTerms ⟨0⟩ ⟨0⟩) [.flush [] 0 ⟨0⟩, .runJob 0, .runJob 0]
      (op.apply roomyRules b) (op.record b h) :=
    ⟨⟨by decide, fun _ => hclear⟩, ⟨trivial, by decide⟩, ⟨trivial, by decide⟩, trivial⟩
  have honce := hall roomyRules b h (Reaches.start.replay _ hf) op ⟨0⟩ ⟨0⟩ ⟨0⟩ _ (by decide)
    (.requeued (by decide)) (by decide) (by decide) (by decide) (by decide) (by decide) hl
    (by decide) (by decide)
  exact absurd honce (by decide)

end Courier
