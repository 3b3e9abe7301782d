import Courier.Proofs.Cycles

namespace Courier

namespace Broker

variable {r : Rules} {now : UInt64} {t : TrackerRef} {active : List SubscriberRef} {b c : Broker}
  {m : MessageRef} {s : SubscriberRef} {ceiling : UInt64}

theorem takeTurns_frame (t : TrackerRef) (active : List SubscriberRef) (k : Nat) (b : Broker) :
    (∀ m, (takeTurns t active k b).message m = b.message m) ∧
      (∀ s, (takeTurns t active k b).subscriber s = b.subscriber s) ∧
      (takeTurns t active k b).purges = b.purges ∧
      (takeTurns t active k b).dispatcher = b.dispatcher := by
  induction k generalizing b with
  | zero => exact ⟨fun _ => rfl, fun _ => rfl, rfl, rfl⟩
  | succ k ih =>
      obtain ⟨hmessage, hsubscriber, hpurges, hdispatcher⟩ := ih (b.nextSubscriber t active).2
      obtain ⟨-, hm, hs, -, -, hp, -, -, hd⟩ := nextSubscriber_frame b t active
      exact ⟨fun m => (hmessage m).trans (hm m), fun s => (hsubscriber s).trans (hs s),
        hpurges.trans hp, hdispatcher.trans hd⟩

theorem hasRoom_nextSubscriber (b : Broker) (t : TrackerRef) (active : List SubscriberRef) :
    (b.nextSubscriber t active).2.hasRoom = b.hasRoom := by
  funext s
  simp [hasRoom]

/-- A scan finds the first with room among those who have the next turns. -/
theorem nextWithRoom_eq_find (t : TrackerRef) (active : List SubscriberRef) (n : Nat) (b : Broker) :
    (nextWithRoom t active n b).1 = (turns t active n b).find? b.hasRoom := by
  induction n generalizing b with
  | zero => rfl
  | succ n ih =>
      have hroom := b.hasRoom_nextSubscriber t active
      rw [nextWithRoom, turns]
      generalize b.nextSubscriber t active = p at hroom ⊢
      obtain ⟨_ | s, c⟩ := p
      · rw [← hroom]
        exact ih c
      · rw [← hroom, Option.toList_some, List.singleton_append, List.find?_cons]
        dsimp only
        cases hs : c.hasRoom s with
        | true => rfl
        | false => exact ih c

theorem nextWithRoom_takes (t : TrackerRef) (active : List SubscriberRef) (n : Nat) (b : Broker) :
    ∃ k, (nextWithRoom t active n b).2 = takeTurns t active k b ∧
      ((nextWithRoom t active n b).1 = none → k = n) := by
  induction n generalizing b with
  | zero => exact ⟨0, rfl, fun _ => rfl⟩
  | succ n ih =>
      unfold nextWithRoom
      split
      · next s c hc =>
          split
          · exact ⟨1, by rw [takeTurns, takeTurns, hc], nofun⟩
          · obtain ⟨k, hk, hnone⟩ := ih c
            exact ⟨k + 1, by rw [takeTurns, hc, hk], fun h => congrArg Nat.succ (hnone h)⟩
      · next c hc =>
          obtain ⟨k, hk, hnone⟩ := ih c
          exact ⟨k + 1, by rw [takeTurns, hc, hk], fun h => congrArg Nat.succ (hnone h)⟩

theorem nextWithRoom_frame (t : TrackerRef) (active : List SubscriberRef) (n : Nat) (b : Broker) :
    (∀ m, (nextWithRoom t active n b).2.message m = b.message m) ∧
      (∀ s, (nextWithRoom t active n b).2.subscriber s = b.subscriber s) ∧
      (nextWithRoom t active n b).2.purges = b.purges ∧
      (nextWithRoom t active n b).2.dispatcher = b.dispatcher := by
  obtain ⟨k, hk, -⟩ := nextWithRoom_takes t active n b
  rw [hk]
  exact takeTurns_frame t active k b

theorem InTurn.nextWithRoom (h : b.InTurn t active) (distinct : (b.idsOf active).Nodup) (n : Nat) :
    (nextWithRoom t active n b).2.InTurn t active := by
  obtain ⟨k, hk, -⟩ := nextWithRoom_takes t active n b
  rw [hk]
  exact h.takeTurns distinct k

/-- In the cycle a scan passes over nobody. -/
theorem nextWithRoom_eq_none (inTurn : b.InTurn t active) (distinct : (b.idsOf active).Nodup) :
    (nextWithRoom t active active.length b).1 = none ↔ ∀ s ∈ active, b.hasRoom s = false := by
  rw [nextWithRoom_eq_find, List.find?_eq_none]
  by_cases heard : active = []
  · subst heard
    exact ⟨fun _ => nofun, fun _ => nofun⟩
  · simp [(turns_perm heard distinct inTurn).mem_iff]

theorem length_due (once : (b.tracker t).cursor.order.Nodup) :
    (b.due t active).length ≤ active.length := by
  have hnodup : ((b.tracker t).cursor.remaining (b.idsOf active)).Nodup :=
    (once.sublist (List.drop_sublist _ _)).filter _
  have hsub : (b.tracker t).cursor.remaining (b.idsOf active) ⊆ b.idsOf active := fun id hid =>
    of_decide_eq_true (List.mem_filter.1 hid).2
  have hlength := (hnodup.subperm hsub).length_le
  rwa [← idsOf_due, idsOf, idsOf, List.length_map, List.length_map] at hlength

/-- As many turns as there are active subscribers bring any cursor into its cycle. -/
theorem inTurn_takeTurns (once : (b.tracker t).cursor.order.Nodup)
    (distinct : (b.idsOf active).Nodup) : (takeTurns t active active.length b).InTurn t active := by
  have hlength : (b.due t active).length ≤ active.length := length_due once
  obtain ⟨i, hi⟩ := Nat.exists_eq_add_of_le hlength
  have hnone := (turns_of_due (t := t) distinct).2
  rw [hi, takeTurns_add]
  exact (inTurn_of_due_nil hnone).takeTurns (by rwa [idsOf_takeTurns]) i

/-- Why a pass went no further: nothing is left, the ceiling is reached, nobody has room, the
dispatcher refuses, or the last message was put back because somebody active has a record of it. -/
inductive Rests (ceiling : UInt64) (t : TrackerRef) (active : List SubscriberRef) (c : Broker) : Prop
  | emptied (empty : (c.tracker t).buffer = [])
  | ceiling (reached : ceiling ≤ (c.tracker t).inFlight.value)
  | saturated (full : ∀ s ∈ active, c.hasRoom s = false)
  | closed (closed : c.dispatcher.accepting = false)
  | recorded (l : List MessageRef) (m : MessageRef) (s : SubscriberRef)
      (back : (c.tracker t).buffer = l ++ [m]) (hs : s ∈ active)
      (held : (c.message m).awaits (c.subscriber s).id = false)

theorem InTurn.congr (h : b.InTurn t active) (hcursor : (c.tracker t).cursor = (b.tracker t).cursor)
    (hid : ∀ s, (c.subscriber s).id = (b.subscriber s).id) : c.InTurn t active := by
  have hids : c.idsOf active = b.idsOf active := by simp [idsOf, hid]
  have hfind : c.findById active = b.findById active := by
    funext id
    simp [findById, hid]
  rwa [InTurn, due, hcursor, hids, hfind]

theorem awaits_of_alreadyInFlight (b : Broker) (r : Rules) (now : UInt64) (t : TrackerRef)
    (s : SubscriberRef) (m : MessageRef) (h : (b.offer r now t s m).1 = .alreadyInFlight) :
    ((b.offer r now t s m).2.message m).awaits ((b.offer r now t s m).2.subscriber s).id = false := by
  obtain ⟨outcome, c, hc, hh⟩ := exists_handled b r now s m t .rebuffer
  unfold offer at h ⊢
  rw [hc] at h ⊢
  cases hh with
  | alreadyInFlight _ held => simpa [Message.awaits, Message.status?, message_rebuffer] using held
  | purged | marked | expired | vetoed | dispatched | failed => simp at h

theorem offer_rests (b : Broker) (r : Rules) (now : UInt64) (hs : s ∈ active)
    {rest : List MessageRef} (front : (b.tracker t).buffer = m :: rest)
    (hends : endsPass ((b.unbuffer t m).offer r now t s m).1 = true) :
    Rests ceiling t active ((b.unbuffer t m).offer r now t s m).2 := by
  cases haccepting : b.dispatcher.accepting with
  | true =>
      obtain ⟨hgoes, -⟩ | ⟨hrecord, -, hback, -⟩ := b.offer_front r now s front haccepting
      · exact absurd (hgoes.symm.trans hends) Bool.false_ne_true
      · exact .recorded rest m s hback hs (awaits_of_alreadyInFlight _ r now t s m hrecord)
  | false =>
      have htouch := (Touches.unbuffer b t m).trans (Touches.offer (b.unbuffer t m) r now t s m)
      exact .closed (htouch.accepting.trans haccepting)

theorem queuePass_rests (r : Rules) (now : UInt64) (ceiling : UInt64) (l : List MessageRef)
    (b : Broker) (hl : (b.tracker t).buffer = l) (inTurn : b.InTurn t active)
    (distinct : (b.idsOf active).Nodup) :
    Rests ceiling t active (queuePass r now t active ceiling l b).2 := by
  induction l generalizing b with
  | nil => exact .emptied hl
  | cons m rest ih =>
      unfold queuePass
      split
      · next hreached => exact .ceiling hreached
      · have hnone := nextWithRoom_eq_none inTurn distinct
        have hmem : ∀ s, (nextWithRoom t active active.length b).1 = some s → s ∈ active :=
          fun s hs => (mem_of_nextWithRoom active.length b hs).1
        obtain ⟨-, hsubscriber, -, -⟩ := nextWithRoom_frame t active active.length b
        have hbuffer := (tracker_nextWithRoom t active active.length b t).2.1
        have hturn := inTurn.nextWithRoom distinct active.length
        generalize nextWithRoom t active active.length b = p at *
        obtain ⟨_ | s, c⟩ := p
        · refine .saturated fun s hs => ?_
          rw [hasRoom, hsubscriber]
          exact hnone.1 rfl s hs
        · have hs : s ∈ active := hmem s rfl
          have hfront : (c.tracker t).buffer = m :: rest := hbuffer.trans hl
          have hids : c.idsOf active = b.idsOf active := by simp [idsOf, hsubscriber]
          have hoffer := offer_buffer (c.unbuffer t m) r now t t s m
          have hrests : endsPass ((c.unbuffer t m).offer r now t s m).1 = true →
              Rests ceiling t active ((c.unbuffer t m).offer r now t s m).2 :=
            c.offer_rests r now hs hfront
          have htouch := (Touches.unbuffer c t m).trans (Touches.offer (c.unbuffer t m) r now t s m)
          have hcursor := ((SameTurn.unbuffer c t m).trans (SameTurn.offer _ r now t s m)) t
          rw [buffer_unbuffer_front c t m rest hfront] at hoffer
          dsimp only
          generalize (c.unbuffer t m).offer r now t s m = p at *
          obtain ⟨outcome, d⟩ := p
          have hnext : endsPass outcome = false →
              Rests ceiling t active (queuePass r now t active ceiling rest d).2 := fun hgoes =>
            ih d (hoffer hgoes) (hturn.congr hcursor htouch.subscriber_id)
              (by rwa [htouch.idsOf, hids])
          cases outcome with
          | dispatched => exact hnext rfl
          | purged | expired | vetoed => exact hnext rfl
          | alreadyInFlight | failed => exact hrests rfl

theorem turns_of_scan (heard : active ≠ []) (distinct : (b.idsOf active).Nodup)
    (once : (b.tracker t).cursor.order.Nodup) :
    turns t active active.length b =
      b.due t active ++ active.take (active.length - (b.due t active).length) := by
  have hlength : (b.due t active).length ≤ active.length := length_due once
  obtain ⟨i, hi⟩ := Nat.exists_eq_add_of_le hlength
  obtain ⟨hdue, hnone⟩ := turns_of_due (t := t) distinct
  have hlater : turns t active i (takeTurns t active (b.due t active).length b) = active.take i := by
    refine List.ext_getElem? fun j => ?_
    rw [List.getElem?_take]
    split
    · next hj =>
        have hnone' : (takeTurns t active (b.due t active).length b).due t active =
            active.drop active.length := by rw [hnone, List.drop_length]
        rw [turns_of_drop heard (by rwa [idsOf_takeTurns]) (Nat.le_refl _) hnone' hj,
          Nat.add_mod_left, Nat.mod_eq_of_lt (by omega)]
    · next hj =>
        rw [List.getElem?_eq_none]
        rwa [length_turns heard, ← Nat.not_lt]
  rw [hi, turns_add, hdue, Nat.add_sub_cancel_left, hlater]

/-- A scan asks those who are due and then the first of the active subscribers, as many as there are
active subscribers, and finds the first of these with room. If the turns go round it asks everybody
once, so it finds nobody only if nobody has room, and a pass over the queue does not stop while
somebody has. From any other remembered order a scan that finds nobody makes the turns go round. -/
theorem scan_asks (b : Broker) (t : TrackerRef) (heard : active ≠ [])
    (distinct : (b.idsOf active).Nodup) (once : (b.tracker t).cursor.order.Nodup) :
    (nextWithRoom t active active.length b).1 =
        (b.due t active ++ active.take (active.length - (b.due t active).length)).find? b.hasRoom ∧
      (b.InTurn t active →
        (b.due t active ++ active.take (active.length - (b.due t active).length)).Perm active ∧
          ((nextWithRoom t active active.length b).1 = none ↔ ∀ s ∈ active, b.hasRoom s = false) ∧
          ∀ r now ceiling,
            Rests ceiling t active (deliver r now t active (.queue ceiling) b).2) ∧
      ((nextWithRoom t active active.length b).1 = none →
        (nextWithRoom t active active.length b).2.InTurn t active) := by
  refine ⟨?_, fun inTurn => ⟨?_, nextWithRoom_eq_none inTurn distinct, fun r now ceiling => ?_⟩,
    fun hnone => ?_⟩
  · rw [nextWithRoom_eq_find, turns_of_scan heard distinct once]
  · rw [← turns_of_scan heard distinct once]
    exact turns_perm heard distinct inTurn
  · exact queuePass_rests r now ceiling _ b rfl inTurn distinct
  · obtain ⟨k, hk, hall⟩ := nextWithRoom_takes t active active.length b
    rw [hk, hall hnone]
    exact inTurn_takeTurns once distinct

end Broker

open Broker

/-- Where nobody joins a destination in the middle of a cycle, no flush of a queue stops while
somebody has room. -/
theorem Reaches.flush_rests {r : Rules} {b : Broker} {h : Journal} (hr : Reaches r cycleTerms b h)
    {t : TrackerRef} (queue : (b.tracker t).isTopic = false) (heard : b.active t ≠ [])
    (now : UInt64) : Rests r.ceiling t (b.active t) (b.flush r now t).2 := by
  rw [flush_heard r now heard, strategyFor_of_queue r queue, deliver]
  exact queuePass_rests r now r.ceiling _ b rfl (hr.cyclic t).inTurn (hr.sound.active_nodup t)

def fourRules : Rules := { workerRules with ceiling := 4 }

/-- Two workers take three of four orders, and then another worker joins them. -/
def joinedRun : List Operation :=
  [.createSlot "stored", .createMessage 1 "orders" "stored" "book" 0 0,
    .createMessage 2 "orders" "stored" "pen" 0 0, .createMessage 3 "orders" "stored" "ink" 0 0,
    .createMessage 4 "orders" "stored" "map" 0 0,
    .createSubscriber "first" ⟨"orders", .amqp, .queue⟩ "local" 2 default,
    .createSubscriber "second" ⟨"orders", .amqp, .queue⟩ "local" 1 default,
    .createSubscriber "third" ⟨"orders", .amqp, .queue⟩ "local" 1 default,
    .register ⟨0⟩, .register ⟨1⟩, .track ⟨"orders", .amqp, .queue⟩,
    .buffer [⟨0⟩, ⟨1⟩, ⟨2⟩, ⟨3⟩] ⟨0⟩ ⟨0⟩, .flush [] 0 ⟨0⟩, .register ⟨2⟩]

def joined : Broker := (replay fourRules joinedRun default default).1

/-- The scan does not get as far as the one who joined, but the next one does. -/
theorem scan_asks_joined :
    joined.active ⟨0⟩ ≠ [] ∧ (joined.idsOf (joined.active ⟨0⟩)).Nodup ∧
      (joined.tracker ⟨0⟩).cursor.order.Nodup ∧
      (nextWithRoom ⟨0⟩ (joined.active ⟨0⟩) 3 joined).1 = none ∧
      (nextWithRoom ⟨0⟩ (joined.active ⟨0⟩) 3 joined).2.InTurn ⟨0⟩ (joined.active ⟨0⟩) ∧
      ∀ now, Rests 4 ⟨0⟩ (joined.active ⟨0⟩) (deliver fourRules now ⟨0⟩ (joined.active ⟨0⟩) (.queue 4)
        (nextWithRoom ⟨0⟩ (joined.active ⟨0⟩) 3 joined).2).2 :=
  have heard : joined.active ⟨0⟩ ≠ [] := by decide
  have distinct : (joined.idsOf (joined.active ⟨0⟩)).Nodup := by decide
  have once : (joined.tracker ⟨0⟩).cursor.order.Nodup := by decide
  have hnone : (nextWithRoom ⟨0⟩ (joined.active ⟨0⟩) 3 joined).1 = none := by decide
  have inTurn := (scan_asks joined ⟨0⟩ heard distinct once).2.2 hnone
  ⟨heard, distinct, once, hnone, inTurn, fun now =>
    ((scan_asks _ ⟨0⟩ heard (by decide) (by decide)).2.1 inTurn).2.2 fourRules now 4⟩

/-- The scan asks the second worker twice and the one who joined never, so the flush leaves an order
in the buffer although the one who joined has room. -/
theorem overlooked_joinedRun :
    (¬ ∀ (r : Rules) (b : Broker) (h : Journal), Reaches r (fun _ _ _ => True) b h →
      ∀ t, b.active t ≠ [] → (turns t (b.active t) (b.active t).length b).Nodup) ∧
      (¬ ∀ (r : Rules) (b : Broker) (h : Journal), Reaches r (fun _ _ _ => True) b h →
        ∀ t, b.active t ≠ [] → (nextWithRoom t (b.active t) (b.active t).length b).1 = none →
          ∀ s ∈ b.active t, b.hasRoom s = false) ∧
      ¬ ∀ (r : Rules) (b : Broker) (h : Journal), Reaches r (fun _ _ _ => True) b h →
        ∀ t now, b.active t ≠ [] → (b.tracker t).isTopic = false →
          Rests r.ceiling t (b.active t) (b.flush r now t).2 := by
  have hf : Follows fourRules (fun _ _ _ => True) joinedRun default default := by decide
  have hr : Reaches fourRules (fun _ _ _ => True) joined _ := Reaches.start.replay _ hf
  refine ⟨fun hall => ?_, fun hall => ?_, fun hall => ?_⟩
  · exact absurd (hall _ _ _ hr ⟨0⟩ (by decide)) (by decide)
  · exact absurd (hall _ _ _ hr ⟨0⟩ (by decide) (by decide) ⟨2⟩ (by decide)) (by decide)
  · cases hall _ _ _ hr ⟨0⟩ 0 (by decide) (by decide) with
    | emptied empty => exact absurd empty (by decide)
    | ceiling reached => exact absurd reached (by decide)
    | saturated full => exact absurd (full ⟨2⟩ (by decide)) (by decide)
    | closed closed => exact absurd closed (by decide)
    | recorded l m s back hs held =>
        have hbuffer : ((joined.flush fourRules 0 ⟨0⟩).2.tracker ⟨0⟩).buffer = [⟨3⟩] := by decide
        have hm : m ∈ [⟨3⟩] := by
          rw [← hbuffer, back]
          exact List.mem_append_right l List.mem_cons_self
        have hlacks : ∀ s ∈ joined.active ⟨0⟩, ((joined.flush fourRules 0 ⟨0⟩).2.message ⟨3⟩).awaits
            ((joined.flush fourRules 0 ⟨0⟩).2.subscriber s).id = true := by decide
        rw [List.mem_singleton.1 hm, hlacks s hs] at held
        exact nomatch held

end Courier
