import Courier.Proofs.QueueProgress
import Mathlib.Data.List.Rotate

namespace Courier

namespace Cursor

variable {active : List SubscriberId} {c : Cursor} {id : SubscriberId} {rest : List SubscriberId}

def remaining (c : Cursor) (active : List SubscriberId) : List SubscriberId :=
  c.upcoming.filter fun id => decide (id ∈ active)

theorem seek_eq_none (l : List SubscriberId) (place : Nat)
    (h : (l.filter fun id => decide (id ∈ active)) = []) : seek active place l = none := by
  induction l generalizing place with
  | nil => rfl
  | cons s l ih =>
      rw [List.filter_cons] at h
      split at h
      · exact nomatch h
      · next hs => rw [seek, if_neg (by simpa using hs), ih _ h]

/-- Seeking passes over those who have left, and what comes after the one found is still to come. -/
theorem seek_eq_some (l : List SubscriberId) (place : Nat)
    (h : (l.filter fun id => decide (id ∈ active)) = id :: rest) :
    ∃ n, seek active place l = some (id, place + n) ∧
      ((l.drop n).filter fun id => decide (id ∈ active)) = rest := by
  induction l generalizing place with
  | nil => exact nomatch h
  | cons s l ih =>
      rw [List.filter_cons] at h
      split at h
      · next hs =>
          obtain ⟨rfl, rfl⟩ := List.cons.inj h
          exact ⟨1, by rw [seek, if_pos (by simpa using hs)], rfl⟩
      · next hs =>
          obtain ⟨n, hseek, hrest⟩ := ih (place + 1) h
          refine ⟨n + 1, ?_, hrest⟩
          rw [seek, if_neg (by simpa using hs), hseek, Nat.add_assoc, Nat.add_comm 1]

theorem next_of_remaining (h : c.remaining active = id :: rest) :
    (c.next active).1 = some id ∧ (c.next active).2.order = c.order ∧
      (c.next active).2.remaining active = rest := by
  cases active with
  | nil => exact absurd (h ▸ List.mem_cons_self : id ∈ c.remaining []) (by simp [remaining])
  | cons first others =>
      obtain ⟨n, hseek, hrest⟩ := seek_eq_some c.upcoming c.position h
      rw [next, hseek]
      refine ⟨rfl, rfl, ?_⟩
      rw [upcoming, List.drop_drop] at hrest
      exact hrest

theorem next_of_remaining_nil {first : SubscriberId} {others : List SubscriberId}
    (h : c.remaining (first :: others) = []) :
    c.next (first :: others) = (some first, ⟨first :: others, 1⟩) := by
  rw [next, seek_eq_none c.upcoming c.position h]

theorem remaining_renewed (first : SubscriberId) (others : List SubscriberId) :
    remaining ⟨first :: others, 1⟩ (first :: others) = others :=
  List.filter_eq_self.2 fun _ hs => decide_eq_true (List.mem_cons_of_mem first hs)

end Cursor

namespace Broker

variable {t : TrackerRef} {active : List SubscriberRef} {b : Broker} {s : SubscriberRef}

theorem findById_nextSubscriber (b : Broker) (t : TrackerRef) (active l : List SubscriberRef) :
    (b.nextSubscriber t active).2.findById l = b.findById l := by
  funext id
  simp [findById]

theorem idsOf_nextSubscriber (b : Broker) (t : TrackerRef) (active l : List SubscriberRef) :
    (b.nextSubscriber t active).2.idsOf l = b.idsOf l := by
  simp [idsOf]

theorem cursor_nextSubscriber (b : Broker) (t : TrackerRef) (active : List SubscriberRef) :
    ((b.nextSubscriber t active).2.tracker t).cursor =
      ((b.tracker t).cursor.next (b.idsOf active)).2 := by
  simp [nextSubscriber, tracker_modifyTracker]

theorem eq_of_idsOf_nodup (distinct : (b.idsOf active).Nodup) {u : SubscriberRef} (hs : s ∈ active)
    (hu : u ∈ active) (hid : (b.subscriber s).id = (b.subscriber u).id) : s = u :=
  List.inj_on_of_nodup_map distinct hs hu hid

theorem nodup_of_idsOf (distinct : (b.idsOf active).Nodup) : active.Nodup :=
  List.Nodup.of_map _ distinct

theorem findById_of_mem (distinct : (b.idsOf active).Nodup) (hs : s ∈ active) :
    b.findById active (b.subscriber s).id = some s := by
  obtain ⟨u, hu⟩ : ∃ u, b.findById active (b.subscriber s).id = some u :=
    Option.isSome_iff_exists.1 (List.find?_isSome.2 ⟨s, hs, decide_eq_true rfl⟩)
  have hid : (b.subscriber u).id = (b.subscriber s).id := by simpa using List.find?_some hu
  rw [hu, eq_of_idsOf_nodup distinct (List.mem_of_find?_eq_some hu) hs hid]

theorem idsOf_cons (b : Broker) (s : SubscriberRef) (l : List SubscriberRef) :
    b.idsOf (s :: l) = (b.subscriber s).id :: b.idsOf l := rfl

def due (b : Broker) (t : TrackerRef) (active : List SubscriberRef) : List SubscriberRef :=
  ((b.tracker t).cursor.remaining (b.idsOf active)).filterMap (b.findById active)

theorem filterMap_findById (distinct : (b.idsOf active).Nodup) {l : List SubscriberRef}
    (hl : l ⊆ active) : (b.idsOf l).filterMap (b.findById active) = l := by
  induction l with
  | nil => rfl
  | cons s l ih =>
      obtain ⟨hs, hl⟩ := List.cons_subset.1 hl
      rw [idsOf, List.map_cons, List.filterMap_cons_some (findById_of_mem distinct hs)]
      exact congrArg (s :: ·) (ih hl)

theorem idsOf_due (b : Broker) (t : TrackerRef) (active : List SubscriberRef) :
    b.idsOf (b.due t active) = (b.tracker t).cursor.remaining (b.idsOf active) := by
  have hfound : ∀ id ∈ (b.tracker t).cursor.remaining (b.idsOf active),
      ∃ s, b.findById active id = some s ∧ (b.subscriber s).id = id := fun id hid => by
    obtain ⟨s, hs, rfl⟩ := List.mem_map.1 (of_decide_eq_true (List.mem_filter.1 hid).2)
    obtain ⟨u, hu⟩ : ∃ u, b.findById active (b.subscriber s).id = some u :=
      Option.isSome_iff_exists.1 (List.find?_isSome.2 ⟨s, hs, decide_eq_true rfl⟩)
    exact ⟨u, hu, by simpa using List.find?_some hu⟩
  unfold due
  generalize (b.tracker t).cursor.remaining (b.idsOf active) = l at hfound ⊢
  induction l with
  | nil => rfl
  | cons id l ih =>
      obtain ⟨s, hs, hid⟩ := hfound id List.mem_cons_self
      rw [List.filterMap_cons_some hs, idsOf, List.map_cons, hid]
      exact congrArg (id :: ·) (ih fun id' h => hfound id' (List.mem_cons_of_mem _ h))

theorem due_nextSubscriber (b : Broker) (t : TrackerRef) (active : List SubscriberRef) :
    (b.nextSubscriber t active).2.due t active =
      (((b.tracker t).cursor.next (b.idsOf active)).2.remaining (b.idsOf active)).filterMap
        (b.findById active) := by
  rw [due, cursor_nextSubscriber, idsOf_nextSubscriber, findById_nextSubscriber]

theorem nextSubscriber_of_due {l : List SubscriberRef} (h : b.due t active = s :: l)
    (distinct : (b.idsOf active).Nodup) :
    (b.nextSubscriber t active).1 = some s ∧ (b.nextSubscriber t active).2.due t active = l := by
  have hids := b.idsOf_due t active
  rw [h, idsOf, List.map_cons] at hids
  have hsub : s :: l ⊆ active := fun u hu => by
    rw [← h, due, List.mem_filterMap] at hu
    obtain ⟨id, -, hid⟩ := hu
    exact List.mem_of_find?_eq_some hid
  obtain ⟨hnext, -, hrest⟩ := Cursor.next_of_remaining hids.symm
  refine ⟨?_, ?_⟩
  · rw [nextSubscriber, hnext]
    exact findById_of_mem distinct (hsub List.mem_cons_self)
  · rw [due_nextSubscriber, hrest]
    exact filterMap_findById distinct fun u hu => hsub (List.mem_cons_of_mem s hu)

theorem nextSubscriber_of_due_nil {l : List SubscriberRef} (h : b.due t (s :: l) = [])
    (distinct : (b.idsOf (s :: l)).Nodup) :
    (b.nextSubscriber t (s :: l)).1 = some s ∧ (b.nextSubscriber t (s :: l)).2.due t (s :: l) = l := by
  have hids := b.idsOf_due t (s :: l)
  rw [h, idsOf_cons] at hids
  have hnext := Cursor.next_of_remaining_nil hids.symm
  refine ⟨?_, ?_⟩
  · rw [nextSubscriber, idsOf_cons, hnext]
    exact findById_of_mem distinct List.mem_cons_self
  · rw [due_nextSubscriber, idsOf_cons, hnext, Cursor.remaining_renewed]
    exact filterMap_findById distinct fun u hu => List.mem_cons_of_mem s hu

def turns (t : TrackerRef) (active : List SubscriberRef) : Nat → Broker → List SubscriberRef
  | 0, _ => []
  | n + 1, b => (b.nextSubscriber t active).1.toList ++ turns t active n (b.nextSubscriber t active).2

def takeTurns (t : TrackerRef) (active : List SubscriberRef) : Nat → Broker → Broker
  | 0, b => b
  | n + 1, b => takeTurns t active n (b.nextSubscriber t active).2

theorem turns_add (t : TrackerRef) (active : List SubscriberRef) (i j : Nat) (b : Broker) :
    turns t active (i + j) b = turns t active i b ++ turns t active j (takeTurns t active i b) := by
  induction i generalizing b with
  | zero => rw [Nat.zero_add]; rfl
  | succ i ih =>
      rw [Nat.succ_add, turns, turns, takeTurns, ih, List.append_assoc]

theorem takeTurns_add (t : TrackerRef) (active : List SubscriberRef) (i j : Nat) (b : Broker) :
    takeTurns t active (i + j) b = takeTurns t active j (takeTurns t active i b) := by
  induction i generalizing b with
  | zero => rw [Nat.zero_add]; rfl
  | succ i ih => rw [Nat.succ_add, takeTurns, takeTurns, ih]

theorem mem_of_mem_turns {k : Nat} (h : s ∈ turns t active k b) : s ∈ active := by
  induction k generalizing b with
  | zero => exact nomatch h
  | succ k ih =>
      obtain h | h := List.mem_append.1 h
      · exact mem_of_nextSubscriber (Option.mem_toList.1 h)
      · exact ih h

theorem length_turns (heard : active ≠ []) (k : Nat) (b : Broker) :
    (turns t active k b).length = k := by
  induction k generalizing b with
  | zero => rfl
  | succ k ih =>
      obtain ⟨s, -, hs⟩ := b.exists_nextSubscriber t heard
      rw [turns, hs, List.length_append, ih, Option.toList_some, List.length_singleton, Nat.add_comm]

theorem idsOf_takeTurns (t : TrackerRef) (active l : List SubscriberRef) (k : Nat) (b : Broker) :
    (takeTurns t active k b).idsOf l = b.idsOf l := by
  induction k generalizing b with
  | zero => rfl
  | succ k ih => rw [takeTurns, ih, idsOf_nextSubscriber]

theorem turns_of_due (distinct : (b.idsOf active).Nodup) :
    turns t active (b.due t active).length b = b.due t active ∧
      (takeTurns t active (b.due t active).length b).due t active = [] := by
  generalize hl : b.due t active = l
  induction l generalizing b with
  | nil => exact ⟨rfl, hl⟩
  | cons s l ih =>
      obtain ⟨hs, hdue⟩ := nextSubscriber_of_due hl distinct
      obtain ⟨hturns, hlast⟩ := ih (by rwa [idsOf_nextSubscriber]) hdue
      refine ⟨?_, hlast⟩
      rw [List.length_cons, turns, hs, hturns]
      rfl

/-- The ones due are the last of the active subscribers, in order. -/
def InTurn (b : Broker) (t : TrackerRef) (active : List SubscriberRef) : Prop :=
  b.due t active <:+ active

instance (b : Broker) (t : TrackerRef) (active : List SubscriberRef) :
    Decidable (b.InTurn t active) :=
  inferInstanceAs (Decidable (_ <:+ _))

theorem InTurn.exists_drop (h : b.InTurn t active) :
    ∃ p ≤ active.length, b.due t active = active.drop p :=
  ⟨_, Nat.sub_le _ _, List.suffix_iff_eq_drop.1 h⟩

theorem inTurn_iff (distinct : (b.idsOf active).Nodup) :
    b.InTurn t active ↔ (b.tracker t).cursor.remaining (b.idsOf active) <:+ b.idsOf active := by
  refine ⟨fun h => ?_, fun h => ?_⟩
  · rw [← idsOf_due]
    exact h.map _
  · obtain ⟨p, hp⟩ : ∃ p, (b.tracker t).cursor.remaining (b.idsOf active) = b.idsOf (active.drop p) :=
      ⟨_, (List.suffix_iff_eq_drop.1 h).trans (List.map_drop ..).symm⟩
    rw [InTurn, due, hp, filterMap_findById distinct (List.drop_subset _ _)]
    exact List.drop_suffix _ _

theorem inTurn_of_due_nil (h : b.due t active = []) : b.InTurn t active := by
  rw [InTurn, h]
  exact List.nil_suffix

theorem nextSubscriber_of_drop (heard : active ≠ []) (distinct : (b.idsOf active).Nodup) {p : Nat}
    (hp : p ≤ active.length) (h : b.due t active = active.drop p) :
    (b.nextSubscriber t active).1 = active[p % active.length]? ∧
      (b.nextSubscriber t active).2.due t active = active.drop (p % active.length + 1) := by
  obtain hlt | rfl := Nat.lt_or_eq_of_le hp
  · rw [List.drop_eq_getElem_cons hlt] at h
    rw [Nat.mod_eq_of_lt hlt, List.getElem?_eq_getElem hlt]
    exact nextSubscriber_of_due h distinct
  · rw [List.drop_length] at h
    rw [Nat.mod_self]
    cases active with
    | nil => exact absurd rfl heard
    | cons s l => exact nextSubscriber_of_due_nil h distinct

theorem InTurn.nextSubscriber (h : b.InTurn t active) (distinct : (b.idsOf active).Nodup) :
    (b.nextSubscriber t active).2.InTurn t active := by
  by_cases heard : active = []
  · subst heard
    have hnone : (b.nextSubscriber t []).2.due t [] = [] := by
      rw [due_nextSubscriber]
      exact List.filterMap_eq_nil_iff.2 fun _ _ => rfl
    exact inTurn_of_due_nil hnone
  · obtain ⟨p, hp, hdue⟩ := h.exists_drop
    rw [InTurn, (nextSubscriber_of_drop heard distinct hp hdue).2]
    exact List.drop_suffix _ _

theorem InTurn.takeTurns (h : b.InTurn t active) (distinct : (b.idsOf active).Nodup) (k : Nat) :
    (takeTurns t active k b).InTurn t active := by
  induction k generalizing b with
  | zero => exact h
  | succ k ih => exact ih (h.nextSubscriber distinct) (by rwa [idsOf_nextSubscriber])

theorem turns_of_drop (heard : active ≠ []) (distinct : (b.idsOf active).Nodup) {p : Nat}
    (hp : p ≤ active.length) (h : b.due t active = active.drop p) {k i : Nat} (hi : i < k) :
    (turns t active k b)[i]? = active[(p + i) % active.length]? := by
  induction k generalizing b p i with
  | zero => exact absurd hi (Nat.not_lt_zero i)
  | succ k ih =>
      obtain ⟨hs, hdue⟩ := nextSubscriber_of_drop heard distinct hp h
      have hmod : p % active.length < active.length := Nat.mod_lt _ (List.length_pos_iff.2 heard)
      rw [List.getElem?_eq_getElem hmod] at hs
      rw [turns, hs, Option.toList_some, List.singleton_append]
      cases i with
      | zero => rw [List.getElem?_cons_zero, Nat.add_zero, List.getElem?_eq_getElem hmod]
      | succ i =>
          rw [List.getElem?_cons_succ, ih (by rwa [idsOf_nextSubscriber]) hmod hdue
            (Nat.lt_of_succ_lt_succ hi), Nat.succ_eq_add_one, Nat.add_assoc, Nat.mod_add_mod,
            Nat.add_comm 1 i]

theorem turns_perm (heard : active ≠ []) (distinct : (b.idsOf active).Nodup)
    (h : b.InTurn t active) : (turns t active active.length b).Perm active := by
  obtain ⟨p, hp, hdue⟩ := h.exists_drop
  suffices hturns : turns t active active.length b = active.rotate p from
    hturns ▸ List.rotate_perm active p
  refine List.ext_getElem? fun i => ?_
  by_cases hi : i < active.length
  · rw [turns_of_drop heard distinct hp hdue hi, List.getElem?_rotate hi, Nat.add_comm]
  · rw [List.getElem?_eq_none (by rwa [length_turns heard, Nat.not_lt] at *),
      List.getElem?_eq_none (by rwa [List.length_rotate, Nat.not_lt] at *)]

theorem inTurn_of_order (horder : (b.tracker t).cursor.order = b.idsOf active)
    (distinct : (b.idsOf active).Nodup) : b.InTurn t active := by
  rw [inTurn_iff distinct, Cursor.remaining, Cursor.upcoming, horder, List.filter_eq_self.2 fun id hid =>
    decide_eq_true (List.mem_of_mem_drop hid)]
  exact List.drop_suffix _ _

/-- Turns are taken fairly: whoever has one is active, a cycle in the order remembered gives each
active subscriber one turn and is repeated for ever, and from any remembered order whatever each
has had a turn after those who were due and one cycle. -/
theorem turns_fair (b : Broker) (t : TrackerRef) (heard : active ≠ [])
    (distinct : (b.idsOf active).Nodup) :
    (∀ k, (turns t active k b).length = k ∧ ∀ s ∈ turns t active k b, s ∈ active) ∧
      ((b.tracker t).cursor.order = b.idsOf active →
        (∀ k, ((turns t active (k + active.length) b).drop k).Perm active) ∧
          ∀ k i, i + active.length < k →
            (turns t active k b)[i + active.length]? = (turns t active k b)[i]?) ∧
      ∀ s ∈ active, s ∈ turns t active
        (((b.tracker t).cursor.remaining (b.idsOf active)).length + active.length) b := by
  refine ⟨fun k => ⟨length_turns heard k b, fun s => mem_of_mem_turns⟩, fun horder => ⟨?_, ?_⟩, ?_⟩
  · intro k
    rw [turns_add, List.drop_left' (length_turns heard k b)]
    refine turns_perm heard (by rwa [idsOf_takeTurns]) ?_
    exact (inTurn_of_order horder distinct).takeTurns distinct k
  · intro k i hi
    obtain ⟨p, hp, hdue⟩ := (inTurn_of_order horder distinct).exists_drop
    rw [turns_of_drop heard distinct hp hdue hi, turns_of_drop heard distinct hp hdue (by omega),
      ← Nat.add_assoc, Nat.add_mod_right]
  · intro s hs
    obtain ⟨-, hnone⟩ := turns_of_due (t := t) distinct
    rw [← idsOf_due, idsOf, List.length_map, turns_add]
    refine List.mem_append_right _ ((turns_perm heard ?_ (inTurn_of_due_nil hnone)).mem_iff.2 hs)
    rwa [idsOf_takeTurns]

theorem turns_fair_twoWorkers :
    twoWorkers.active ⟨0⟩ ≠ [] ∧ (twoWorkers.idsOf (twoWorkers.active ⟨0⟩)).Nodup ∧
      (twoWorkers.tracker ⟨0⟩).cursor.order = twoWorkers.idsOf (twoWorkers.active ⟨0⟩) ∧
      (∀ k, ((turns ⟨0⟩ (twoWorkers.active ⟨0⟩) (k + 2) twoWorkers).drop k).Perm
        (twoWorkers.active ⟨0⟩)) ∧
      ∀ s ∈ twoWorkers.active ⟨0⟩, s ∈ turns ⟨0⟩ (twoWorkers.active ⟨0⟩) (2 + 2) twoWorkers :=
  have heard : twoWorkers.active ⟨0⟩ ≠ [] := by decide
  have distinct : (twoWorkers.idsOf (twoWorkers.active ⟨0⟩)).Nodup := by decide
  have horder : (twoWorkers.tracker ⟨0⟩).cursor.order =
      twoWorkers.idsOf (twoWorkers.active ⟨0⟩) := by decide
  have hfair := turns_fair twoWorkers ⟨0⟩ heard distinct
  ⟨heard, distinct, horder, (hfair.2.1 horder).1, hfair.2.2⟩

end Broker

end Courier
