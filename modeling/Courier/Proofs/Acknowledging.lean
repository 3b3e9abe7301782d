import Courier.Proofs.Returning
import Courier.Proofs.Run
import Mathlib.Data.List.Perm.Basic

namespace Courier

theorem ite_apply_comm {α : Type} (p q : Prop) [Decidable p] [Decidable q] (f : α → α) (x : α) :
    (if p then f (if q then f x else x) else if q then f x else x) =
      if q then f (if p then f x else x) else if p then f x else x := by
  split <;> split <;> rfl

section

variable {σ α : Type}

/-- Up to `R` the steps of `A` commute and repeat for nothing, in the states of `P`. -/
structure Orderless (R : σ → σ → Prop) (P : σ → Prop) (A : α → Prop) (f : σ → α → σ) : Prop where
  equiv : Equivalence R
  keeps : ∀ b a, P b → P (f b a)
  congr : ∀ b c a, R b c → R (f b a) (f c a)
  comm : ∀ b a a', P b → A a → A a' → R (f (f b a) a') (f (f b a') a)
  again : ∀ b a, P b → A a → R (f (f b a) a) (f b a)

namespace Orderless

variable {R : σ → σ → Prop} {P : σ → Prop} {A : α → Prop} {f : σ → α → σ} {b c : σ} {a : α}
  {l l' : List α}

theorem foldl_congr (h : Orderless R P A f) (l : List α) (hbc : R b c) :
    R (l.foldl f b) (l.foldl f c) := by
  induction l generalizing b c with
  | nil => exact hbc
  | cons a l ih => exact ih (h.congr b c a hbc)

theorem foldl_perm (h : Orderless R P A f) (hp : P b) (hl : ∀ a ∈ l, A a) (perm : l.Perm l') :
    R (l.foldl f b) (l'.foldl f b) := by
  induction perm generalizing b with
  | nil => exact h.equiv.refl b
  | cons a _ ih => exact ih (h.keeps b a hp) fun x hx => hl x (List.mem_cons_of_mem a hx)
  | swap a a' l =>
      exact h.foldl_congr l (h.comm b a' a hp (hl a' (by simp)) (hl a (by simp)))
  | trans hfirst _ ih ih' =>
      exact h.equiv.trans (ih hp hl) (ih' hp fun x hx => hl x (hfirst.mem_iff.2 hx))

/-- A step that is made later anyway need not be made now. -/
theorem foldl_absorb (h : Orderless R P A f) (hp : P b) (hl : ∀ a ∈ l, A a) (ha : a ∈ l) :
    R (l.foldl f (f b a)) (l.foldl f b) := by
  induction l generalizing b with
  | nil => exact absurd ha List.not_mem_nil
  | cons x l ih =>
      have hx := hl x List.mem_cons_self
      obtain rfl | ha' := List.mem_cons.1 ha
      · exact h.foldl_congr l (h.again b a hp hx)
      · exact h.equiv.trans (h.foldl_congr l (h.comm b a x hp (hl a ha) hx))
          (ih (h.keeps b x hp) (fun y hy => hl y (List.mem_cons_of_mem x hy)) ha')

theorem foldl_append_of_subset (h : Orderless R P A f) (hp : P b) (hl : ∀ a ∈ l, A a)
    (hsub : l' ⊆ l) : R ((l' ++ l).foldl f b) (l.foldl f b) := by
  induction l' generalizing b with
  | nil => exact h.equiv.refl _
  | cons a l' ih =>
      obtain ⟨ha, hsub⟩ := List.cons_subset.1 hsub
      exact h.equiv.trans (ih (h.keeps b a hp) hsub) (h.foldl_absorb hp hl ha)

theorem foldl_of_mem_iff (h : Orderless R P A f) (hp : P b) (hl : ∀ a ∈ l, A a)
    (same : ∀ a, a ∈ l' ↔ a ∈ l) : R (l.foldl f b) (l'.foldl f b) := by
  have hl' : ∀ a ∈ l', A a := fun a ha => hl a ((same a).1 ha)
  have hall : ∀ a ∈ l' ++ l, A a := fun a ha => (List.mem_append.1 ha).elim (hl' a) (hl a)
  have hfirst : R (l.foldl f b) ((l' ++ l).foldl f b) :=
    h.equiv.symm (h.foldl_append_of_subset hp hl fun a ha => (same a).1 ha)
  have hlast : R ((l ++ l').foldl f b) (l'.foldl f b) :=
    h.foldl_append_of_subset hp hl' fun a ha => (same a).2 ha
  exact h.equiv.trans hfirst (h.equiv.trans (h.foldl_perm hp hall List.perm_append_comm) hlast)

end Orderless

end

namespace Dict

variable {κ α : Type} [DecidableEq κ]

theorem put_put (k : κ) (a c : α) (l : List (κ × α)) : put k c (put k a l) = put k c l := by
  induction l with
  | nil => simp [put]
  | cons e l ih => by_cases he : e.1 = k <;> simp [put, he, ih]

theorem put_comm {k j : κ} (hk : k ≠ j) (a c : α) (l : List (κ × α)) :
    (put k a (put j c l)).Perm (put j c (put k a l)) := by
  induction l with
  | nil => simpa [put, hk, hk.symm] using List.Perm.swap (k, a) (j, c) []
  | cons e l ih =>
      by_cases hek : e.1 = k
      · simp [put, hek, hk]
      · by_cases hej : e.1 = j
        · simp [put, hej, hk.symm]
        · simpa [put, hek, hej] using ih

theorem put_of_find_none {k : κ} {l : List (κ × α)} (h : find k l = none) (a : α) :
    put k a l = l ++ [(k, a)] := by
  induction l with
  | nil => rfl
  | cons e l ih =>
      rw [find] at h
      split at h
      · cases h
      · next he => simp [put, he, ih h]

theorem put_perm_of_find [DecidableEq α] {k : κ} {v : α} {l : List (κ × α)}
    (h : find k l = some v) (a : α) : (put k a l).Perm ((k, a) :: l.erase (k, v)) := by
  induction l with
  | nil => exact nomatch h
  | cons e l ih =>
      rw [find] at h
      split at h
      · next he =>
          obtain rfl : e = (k, v) := Prod.ext he (Option.some.inj h)
          simp [put]
      · next he =>
          have hne : e ≠ (k, v) := fun h => he (congrArg Prod.fst h)
          rw [put, if_neg he, List.erase_cons_tail (by simpa using hne)]
          exact ((ih h).cons e).trans (List.Perm.swap _ _ _)

theorem put_perm [DecidableEq α] {k : κ} {l l' : List (κ × α)} (perm : l.Perm l')
    (same : find k l = find k l') (a : α) : (put k a l).Perm (put k a l') := by
  cases hv : find k l with
  | none =>
      rw [put_of_find_none hv, put_of_find_none (same.symm.trans hv)]
      exact perm.append_right _
  | some v =>
      refine (put_perm_of_find hv a).trans (.trans ?_ (put_perm_of_find (same.symm.trans hv) a).symm)
      exact (perm.erase (k, v)).cons (k, a)

theorem all_put {p : κ × α → Bool} {k : κ} {a : α} {l : List (κ × α)} (ha : p (k, a) = true)
    (hl : l.all p = true) : (put k a l).all p = true := by
  induction l with
  | nil => simp [put, ha]
  | cons e l ih =>
      obtain ⟨he, hl⟩ : p e = true ∧ l.all p = true := by simpa using hl
      rw [put]
      split
      · simp [ha, hl]
      · simp [he, ih hl]

theorem put_ne_nil (k : κ) (a : α) (l : List (κ × α)) : put k a l ≠ [] := by
  cases l with
  | nil => simp [put]
  | cons e l => rw [put]; split <;> simp

end Dict

namespace Message

variable {x y z : Message} {id id' : SubscriberId} {type : DestinationType}

structure Alike (x y : Message) : Prop where
  records : x.recipients.entries.Perm y.recipients.entries
  status : ∀ s, x.status? s = y.status? s
  rest : { x with recipients := .empty } = { y with recipients := .empty }

namespace Alike

theorem refl (x : Message) : x.Alike x := ⟨.refl _, fun _ => rfl, rfl⟩

theorem symm (h : x.Alike y) : y.Alike x :=
  ⟨h.records.symm, fun s => (h.status s).symm, h.rest.symm⟩

theorem trans (h : x.Alike y) (h' : y.Alike z) : x.Alike z :=
  ⟨h.records.trans h'.records, fun s => (h.status s).trans (h'.status s), h.rest.trans h'.rest⟩

theorem buffered (h : x.Alike y) : x.buffered = y.buffered := (congrArg Message.buffered h.rest :)

theorem settled (h : x.Alike y) : x.settled = y.settled := (congrArg Message.settled h.rest :)

theorem slot (h : x.Alike y) : x.slot = y.slot := (congrArg Message.slot h.rest :)

theorem destination (h : x.Alike y) : x.destination = y.destination :=
  (congrArg Message.destination h.rest :)

theorem isComplete (h : x.Alike y) : x.isComplete = y.isComplete := by
  simp only [Message.isComplete, Dict.values, h.buffered, h.records.isEmpty_eq,
    (h.records.map Prod.snd).all_eq]

theorem setStatus (h : x.Alike y) (s : SubscriberId) (status : RecipientStatus) :
    (x.setStatus s status).Alike (y.setStatus s status) where
  records := Dict.put_perm h.records (h.status s) status
  status u := by simp only [status?_setStatus, h.status]
  rest := h.rest

end Alike

theorem setStatus_comm (x : Message) (hid : id ≠ id') (status : RecipientStatus) :
    ((x.setStatus id status).setStatus id' status).Alike
      ((x.setStatus id' status).setStatus id status) where
  records := Dict.put_comm hid.symm status status _
  status s := by
    simp only [status?_setStatus]
    split <;> split <;> rfl
  rest := rfl

theorem isComplete_setStatus (h : x.isComplete = true) {status : RecipientStatus}
    (hs : status.isFinal = true) (id : SubscriberId) : (x.setStatus id status).isComplete = true := by
  simp only [isComplete, Bool.and_eq_true, Bool.not_eq_true', List.isEmpty_eq_false_iff,
    Dict.values, List.all_map] at h ⊢
  exact ⟨⟨h.1.1, Dict.put_ne_nil id status _⟩, Dict.all_put hs h.2⟩

def acknowledged (x : Message) (id : SubscriberId) (type : DestinationType) : Message :=
  { x.setStatus id .acknowledged with
    settled := x.settled || decide (type ≠ .topic) || (x.setStatus id .acknowledged).isComplete }

theorem acknowledged_eq (x : Message) (id : SubscriberId) (type : DestinationType) :
    x.acknowledged id type =
      if type ≠ .topic ∨ (x.setStatus id .acknowledged).isComplete = true then
        { x.setStatus id .acknowledged with settled := true }
      else x.setStatus id .acknowledged := by
  unfold acknowledged
  split
  · next h => obtain h | h := h <;> simp [h]
  · next h =>
      obtain ⟨ht, hc⟩ := not_or.1 h
      simp only [Decidable.not_not.1 ht, hc, ne_eq, not_true_eq_false, decide_false, Bool.or_false]
      rfl

theorem status?_acknowledged (x : Message) (id : SubscriberId) (type : DestinationType)
    (s : SubscriberId) :
    (x.acknowledged id type).status? s = if s = id then some .acknowledged else x.status? s :=
  status?_setStatus x id s .acknowledged

@[simp] theorem acknowledged_frame (x : Message) (id : SubscriberId) (type : DestinationType) :
    (x.acknowledged id type).slot = x.slot ∧
      (x.acknowledged id type).destination = x.destination :=
  ⟨rfl, rfl⟩

theorem settled_acknowledged (h : x.settled = true) (id : SubscriberId) (type : DestinationType) :
    (x.acknowledged id type).settled = true := by
  simp [acknowledged, h]

theorem Alike.of_settled (h : x.Alike y) (a c : Bool) (hac : a = c) :
    { x with settled := a }.Alike { y with settled := c } where
  records := h.records
  status := h.status
  rest := congrArg₂ (fun (z : Message) settled => { z with settled }) h.rest hac

theorem Alike.acknowledged (h : x.Alike y) (id : SubscriberId) (type : DestinationType) :
    (x.acknowledged id type).Alike (y.acknowledged id type) :=
  (h.setStatus id .acknowledged).of_settled _ _ (by
    rw [h.settled, (h.setStatus id .acknowledged).isComplete])

theorem settled_acknowledged_twice (x : Message) (id id' : SubscriberId) (type : DestinationType) :
    ((x.acknowledged id type).acknowledged id' type).settled =
      (x.settled || decide (type ≠ .topic) ||
        ((x.setStatus id .acknowledged).setStatus id' .acknowledged).isComplete) := by
  have hmono : (x.setStatus id .acknowledged).isComplete = true →
      ((x.setStatus id .acknowledged).setStatus id' .acknowledged).isComplete = true :=
    fun h => isComplete_setStatus h rfl id'
  change (x.settled || decide (type ≠ .topic) || (x.setStatus id .acknowledged).isComplete ||
    decide (type ≠ .topic) ||
      ((x.setStatus id .acknowledged).setStatus id' .acknowledged).isComplete) = _
  cases h : (x.setStatus id .acknowledged).isComplete with
  | true => simp [hmono h]
  | false => cases x.settled <;> cases decide (type ≠ .topic) <;> rfl

theorem acknowledged_again (x : Message) (id : SubscriberId) (type : DestinationType) :
    (x.acknowledged id type).acknowledged id type = x.acknowledged id type := by
  have hrecords : ∀ y : Message, (y.setStatus id .acknowledged).setStatus id .acknowledged =
      y.setStatus id .acknowledged := fun y => by
    simp only [setStatus, Dict.insert, Dict.put_put]
  have hsettled := settled_acknowledged_twice x id id type
  rw [hrecords] at hsettled
  refine (congrArg (fun z : Message => { z with settled :=
    ((x.acknowledged id type).acknowledged id type).settled }) (hrecords x)).trans ?_
  rw [hsettled]
  rfl

theorem acknowledged_comm (x : Message) (hid : id ≠ id') (type : DestinationType) :
    ((x.acknowledged id type).acknowledged id' type).Alike
      ((x.acknowledged id' type).acknowledged id type) :=
  (setStatus_comm x hid .acknowledged).of_settled _ _ (by
    refine (settled_acknowledged_twice x id id' type).trans
      (.trans ?_ (settled_acknowledged_twice x id' id type).symm)
    rw [(setStatus_comm x hid .acknowledged).isComplete])

end Message

namespace Broker

theorem slot_settle (b : Broker) (m : MessageRef) (p : SlotRef) :
    (b.settle m).slot p =
      if (b.message m).settled = false ∧ (b.message m).slot = some p then
        { b.slot p with pending := (b.slot p).pending.lower }
      else b.slot p := by
  unfold settle releaseSlot
  split
  · next h => simp [h]
  · next h =>
      cases hs : (b.message m).slot with
      | none => simp
      | some q => simp [h, lowerSlot, slot_modifySlot, eq_comm]

theorem tracker_releaseTracked (b : Broker) (key : TrackedKey) (v : TrackerRef) :
    (b.releaseTracked key).tracker v =
      if b.find? key = some v then
        { b.tracker v with inFlight := (b.tracker v).inFlight.lower }
      else b.tracker v := by
  unfold releaseTracked
  cases b.find? key with
  | none => simp
  | some t => simp [releaseInFlight, tracker_modifyTracker, eq_comm]

structure Ack where
  subscriber : SubscriberRef
  message : MessageRef
  type : DestinationType
  deriving DecidableEq

namespace Ack

def apply (b : Broker) (a : Ack) : Broker := b.acknowledge a.subscriber a.message a.type

def answers (b : Broker) (a : Ack) : Bool :=
  ((b.message a.message).status? (b.subscriber a.subscriber).id).any RecipientStatus.isOutstanding

def settles (b : Broker) (a : Ack) : Bool :=
  !(b.message a.message).settled &&
    ((b.message a.message).acknowledged (b.subscriber a.subscriber).id a.type).settled

variable {b c : Broker} {a a' : Ack}

def answered (b : Broker) (a : Ack) : Broker :=
  let c := (if answers b a then b.release a.subscriber else b).setStatus a.message
    (b.subscriber a.subscriber).id .acknowledged
  if a.type ≠ .topic ∧ answers b a then
    c.releaseTracked ⟨a.type, (c.message a.message).destination⟩
  else c

theorem apply_eq (b : Broker) (a : Ack) :
    apply b a =
      if a.type ≠ .topic ∨ ((answered b a).message a.message).isComplete = true then
        (answered b a).settle a.message
      else answered b a := by
  unfold apply acknowledge answered answers
  by_cases ht : a.type = .topic
  · simp [ht, settleIfComplete]
  · simp [ht]

theorem message_answered (b : Broker) (a : Ack) (n : MessageRef) :
    (answered b a).message n =
      if n = a.message then (b.message n).setStatus (b.subscriber a.subscriber).id .acknowledged
      else b.message n := by
  unfold answered
  split <;> split <;> simp [setStatus, release, message_modifyMessage]

theorem slot_answered (b : Broker) (a : Ack) (p : SlotRef) :
    (answered b a).slot p = b.slot p := by
  unfold answered
  split <;> split <;> simp [setStatus, release]

theorem message_apply (b : Broker) (a : Ack) (n : MessageRef) :
    (apply b a).message n =
      if n = a.message then (b.message n).acknowledged (b.subscriber a.subscriber).id a.type
      else b.message n := by
  rw [apply_eq]
  by_cases hn : n = a.message
  · subst hn
    rw [if_pos rfl, apply_ite (fun c : Broker => c.message a.message), message_settle, if_pos rfl,
      message_answered, if_pos rfl, Message.acknowledged_eq]
  · split <;> simp [message_settle, message_answered, hn]

theorem subscriber_apply (b : Broker) (a : Ack) (u : SubscriberRef) :
    (apply b a).subscriber u =
      if u = a.subscriber ∧ answers b a = true then (b.subscriber u).release else b.subscriber u :=
  subscriber_acknowledge b a.subscriber u a.message a.type

theorem tracker_apply (b : Broker) (a : Ack) (v : TrackerRef) :
    (apply b a).tracker v =
      if answers b a = true ∧ a.type ≠ .topic ∧
          b.find? ⟨a.type, (b.message a.message).destination⟩ = some v then
        { b.tracker v with inFlight := (b.tracker v).inFlight.lower }
      else b.tracker v := by
  have hsettle : (apply b a).tracker v = (answered b a).tracker v := by
    rw [apply_eq]
    split <;> simp
  rw [hsettle]
  by_cases h : a.type ≠ .topic ∧ answers b a = true
  · rw [answered, if_pos h, tracker_releaseTracked]
    simp [h, release, setStatus, message_modifyMessage, find?, Message.setStatus]
  · have hsame : (answered b a).tracker v = b.tracker v := by
      rw [answered, if_neg h]
      split <;> simp [release, setStatus]
    rw [hsame, if_neg fun held => h ⟨held.2.1, held.1⟩]

theorem slot_apply (b : Broker) (a : Ack) (p : SlotRef) :
    (apply b a).slot p =
      if settles b a = true ∧ (b.message a.message).slot = some p then
        { b.slot p with pending := (b.slot p).pending.lower }
      else b.slot p := by
  have hx : (answered b a).message a.message =
      (b.message a.message).setStatus (b.subscriber a.subscriber).id .acknowledged := by
    rw [message_answered, if_pos rfl]
  rw [apply_eq, hx, settles, Message.acknowledged_eq]
  split
  · rw [slot_settle, slot_answered, hx]
    exact if_congr (by simp [Message.setStatus]) rfl rfl
  · simp [slot_answered, Message.setStatus]

@[simp] theorem apply_frame (b : Broker) (a : Ack) :
    (apply b a).registry = b.registry ∧ (apply b a).tracked = b.tracked ∧
      (apply b a).purges = b.purges ∧ (apply b a).expired = b.expired ∧
      (apply b a).store = b.store ∧ (apply b a).dispatcher = b.dispatcher := by
  simp [apply]

@[simp] theorem subscriber_id_apply (b : Broker) (a : Ack) (u : SubscriberRef) :
    ((apply b a).subscriber u).id = (b.subscriber u).id :=
  (Touches.acknowledge b a.subscriber a.message a.type).subscriber_id u

@[simp] theorem message_slot_apply (b : Broker) (a : Ack) (n : MessageRef) :
    ((apply b a).message n).slot = (b.message n).slot ∧
      ((apply b a).message n).destination = (b.message n).destination := by
  rw [message_apply]
  split <;> simp

def Apart (b : Broker) (a a' : Ack) : Prop :=
  a.message ≠ a'.message ∨
    a.type = a'.type ∧ (b.subscriber a.subscriber).id ≠ (b.subscriber a'.subscriber).id

theorem Apart.symm (h : Apart b a a') : Apart b a' a :=
  h.imp Ne.symm fun h => ⟨h.1.symm, h.2.symm⟩

theorem Apart.answers (h : Apart b a a') : answers (apply b a') a = answers b a := by
  rw [Ack.answers, Ack.answers, message_apply, subscriber_id_apply]
  split
  · next hm =>
      rw [Message.status?_acknowledged, if_neg (h.resolve_left fun hne => hne hm).2]
  · rfl

theorem settles_apply_of_ne (h : a.message ≠ a'.message) :
    settles (apply b a') a = settles b a := by
  rw [settles, settles, message_apply, if_neg h, subscriber_id_apply]

end Ack

/-- The same counters, flags and records, the records of a message in some order. -/
structure Alike (b c : Broker) : Prop where
  message : ∀ m, (b.message m).Alike (c.message m)
  slot : ∀ p, b.slot p = c.slot p
  subscriber : ∀ s, b.subscriber s = c.subscriber s
  tracker : ∀ t, b.tracker t = c.tracker t
  registry : b.registry = c.registry
  tracked : b.tracked = c.tracked
  purges : b.purges = c.purges
  expired : b.expired = c.expired
  store : b.store = c.store
  dispatcher : b.dispatcher = c.dispatcher

namespace Alike

variable {b c d : Broker} {a : Ack}

theorem equivalence : Equivalence Alike where
  refl _ := ⟨fun _ => .refl _, fun _ => rfl, fun _ => rfl, fun _ => rfl, rfl, rfl, rfl, rfl, rfl, rfl⟩
  symm h := ⟨fun m => (h.message m).symm, fun p => (h.slot p).symm, fun s => (h.subscriber s).symm,
    fun t => (h.tracker t).symm, h.registry.symm, h.tracked.symm, h.purges.symm, h.expired.symm,
    h.store.symm, h.dispatcher.symm⟩
  trans h h' := ⟨fun m => (h.message m).trans (h'.message m), fun p => (h.slot p).trans (h'.slot p),
    fun s => (h.subscriber s).trans (h'.subscriber s), fun t => (h.tracker t).trans (h'.tracker t),
    h.registry.trans h'.registry, h.tracked.trans h'.tracked, h.purges.trans h'.purges,
    h.expired.trans h'.expired, h.store.trans h'.store, h.dispatcher.trans h'.dispatcher⟩

theorem answers (h : Alike b c) (a : Ack) : a.answers b = a.answers c := by
  rw [Ack.answers, Ack.answers, (h.message _).status, h.subscriber]

theorem settles (h : Alike b c) (a : Ack) : a.settles b = a.settles c := by
  rw [Ack.settles, Ack.settles, (h.message _).settled, h.subscriber,
    ((h.message _).acknowledged _ _).settled]

theorem apply (h : Alike b c) (a : Ack) : Alike (a.apply b) (a.apply c) where
  message m := by
    rw [Ack.message_apply, Ack.message_apply, h.subscriber]
    split
    · exact (h.message m).acknowledged _ _
    · exact h.message m
  slot p := by
    rw [Ack.slot_apply, Ack.slot_apply, h.settles, (h.message _).slot, h.slot]
  subscriber s := by
    rw [Ack.subscriber_apply, Ack.subscriber_apply, h.answers, h.subscriber]
  tracker t := by
    rw [Ack.tracker_apply, Ack.tracker_apply, h.answers, (h.message _).destination, find?, find?,
      h.tracked, h.tracker]
  registry := by simp [h.registry]
  tracked := by simp [h.tracked]
  purges := by simp [h.purges]
  expired := by simp [h.expired]
  store := by simp [h.store]
  dispatcher := by simp [h.dispatcher]

theorem again (b : Broker) (a : Ack) : Alike (a.apply (a.apply b)) (a.apply b) := by
  have hanswers : a.answers (a.apply b) = false := by
    rw [Ack.answers, Ack.message_apply, if_pos rfl, Ack.subscriber_id_apply,
      Message.status?_acknowledged, if_pos rfl]
    rfl
  have hsettles : a.settles (a.apply b) = false := by
    rw [Ack.settles, Ack.message_apply, if_pos rfl, Ack.subscriber_id_apply,
      Message.acknowledged_again, Bool.not_and_self]
  refine ⟨fun m => ?_, fun p => ?_, fun s => ?_, fun t => ?_, by simp, by simp, by simp, by simp,
    by simp, by simp⟩
  · rw [Ack.message_apply _ a m, Ack.subscriber_id_apply]
    split
    · next hm =>
        subst hm
        rw [Ack.message_apply, if_pos rfl, Message.acknowledged_again]
        exact .refl _
    · exact .refl _
  · rw [Ack.slot_apply _ a p, hsettles, if_neg fun h => nomatch h.1]
  · rw [Ack.subscriber_apply _ a s, hanswers, if_neg fun h => nomatch h.2]
  · rw [Ack.tracker_apply _ a t, hanswers, if_neg fun h => nomatch h.1]

/-- Two acknowledgements of one message lower its slot at most once, whichever settles it. -/
theorem slot_twice {a a' : Ack} (hm : a'.message = a.message) (ht : a'.type = a.type) (p : SlotRef) :
    (a'.apply (a.apply b)).slot p =
      if ((b.message a.message).settled = false ∧
          (((b.message a.message).acknowledged (b.subscriber a.subscriber).id a.type).acknowledged
            (b.subscriber a'.subscriber).id a.type).settled = true) ∧
          (b.message a.message).slot = some p then
        { b.slot p with pending := (b.slot p).pending.lower }
      else b.slot p := by
  rw [Ack.slot_apply _ a', (Ack.message_slot_apply b a a'.message).1, hm, Ack.slot_apply b a]
  have hfirst : a.settles b = (!(b.message a.message).settled &&
      ((b.message a.message).acknowledged (b.subscriber a.subscriber).id a.type).settled) := rfl
  have hsecond : a'.settles (a.apply b) =
      (!((b.message a.message).acknowledged (b.subscriber a.subscriber).id a.type).settled &&
        (((b.message a.message).acknowledged (b.subscriber a.subscriber).id a.type).acknowledged
          (b.subscriber a'.subscriber).id a.type).settled) := by
    rw [Ack.settles, Ack.message_apply, if_pos hm, Ack.subscriber_id_apply, hm, ht]
  rw [hfirst, hsecond]
  -- a message that one of the two finds settled stays so
  cases h₀ : (b.message a.message).settled with
  | true => simp [Message.settled_acknowledged h₀]
  | false =>
      cases h₁ : ((b.message a.message).acknowledged (b.subscriber a.subscriber).id a.type).settled with
      | true => simp [Message.settled_acknowledged h₁]
      | false => simp

theorem comm {a a' : Ack} (h : a.Apart b a') :
    Alike (a'.apply (a.apply b)) (a.apply (a'.apply b)) := by
  have ha := h.answers
  have ha' := h.symm.answers
  refine ⟨fun m => ?_, fun p => ?_, fun s => ?_, fun t => ?_, by simp, by simp, by simp, by simp,
    by simp, by simp⟩
  · simp only [Ack.message_apply, Ack.subscriber_id_apply]
    by_cases hm : m = a.message <;> by_cases hm' : m = a'.message
    · obtain ⟨ht, hid⟩ := h.resolve_left fun hne => hne (hm.symm.trans hm')
      simp only [if_pos hm, if_pos hm', ← ht]
      exact Message.acknowledged_comm _ hid a.type
    · simp only [if_pos hm, if_neg hm']
      exact .refl _
    · simp only [if_neg hm, if_pos hm']
      exact .refl _
    · simp only [if_neg hm, if_neg hm']
      exact .refl _
  · by_cases hm : a.message = a'.message
    · obtain ⟨ht, hid⟩ := h.resolve_left fun hne => hne hm
      rw [slot_twice hm.symm ht.symm, slot_twice hm ht, ← hm, ← ht,
        (Message.acknowledged_comm _ hid a.type).settled]
    · simp only [Ack.slot_apply, Ack.settles_apply_of_ne hm, Ack.settles_apply_of_ne (Ne.symm hm),
        Ack.message_slot_apply]
      exact ite_apply_comm _ _ (fun x : Slot => { x with pending := x.pending.lower }) _
  · simp only [Ack.subscriber_apply, ha, ha']
    exact ite_apply_comm _ _ Subscription.release _
  · simp only [Ack.tracker_apply, ha, ha', find?, Ack.apply_frame, Ack.message_slot_apply]
    exact ite_apply_comm _ _ (fun x : Tracker => { x with inFlight := x.inFlight.lower }) _

end Alike

/-- One handle stands for each subscriber, and a message has one type of destination. -/
structure Coherent (b : Broker) (l : List Ack) : Prop where
  handle : ∀ a ∈ l, ∀ a' ∈ l, (b.subscriber a.subscriber).id = (b.subscriber a'.subscriber).id →
    a.subscriber = a'.subscriber
  type : ∀ a ∈ l, ∀ a' ∈ l, a.message = a'.message → a.type = a'.type

instance (b : Broker) (l : List Ack) : Decidable (Coherent b l) :=
  decidable_of_iff ((∀ a ∈ l, ∀ a' ∈ l,
      (b.subscriber a.subscriber).id = (b.subscriber a'.subscriber).id →
        a.subscriber = a'.subscriber) ∧
      ∀ a ∈ l, ∀ a' ∈ l, a.message = a'.message → a.type = a'.type)
    ⟨fun h => ⟨h.1, h.2⟩, fun h => ⟨h.handle, h.type⟩⟩

theorem Coherent.eq_or_apart {b : Broker} {l : List Ack} (h : Coherent b l) {a a' : Ack} (ha : a ∈ l)
    (ha' : a' ∈ l) : a = a' ∨ a.Apart b a' := by
  by_cases hm : a.message = a'.message
  · have ht := h.type a ha a' ha' hm
    by_cases hid : (b.subscriber a.subscriber).id = (b.subscriber a'.subscriber).id
    · left
      cases a
      cases a'
      cases hm
      cases ht
      cases h.handle _ ha _ ha' hid
      rfl
    · exact .inr (.inr ⟨ht, hid⟩)
  · exact .inr (.inl hm)

theorem orderless_acknowledgements (l : List Ack) :
    Orderless Alike (fun b => Coherent b l) (· ∈ l) Ack.apply where
  equiv := Alike.equivalence
  keeps b a h := ⟨by simpa using h.handle, h.type⟩
  congr _ _ a h := h.apply a
  comm b a a' h ha ha' := by
    obtain rfl | h := h.eq_or_apart ha ha'
    · exact Alike.equivalence.refl _
    · exact Alike.comm h
  again b a _ _ := Alike.again b a

/-- Acknowledgements may come in any order and repeatedly: two lists with the same members lead to
the same counters, flags and records. -/
theorem acknowledged_in_any_order (b : Broker) (l l' : List Ack) (coherent : Coherent b l)
    (same : ∀ a, a ∈ l' ↔ a ∈ l) : Alike (l.foldl Ack.apply b) (l'.foldl Ack.apply b) :=
  (orderless_acknowledgements l).foldl_of_mem_iff coherent (fun _ ha => ha) same

def sentRun : List Operation :=
  [.createSlot "stored", .createMessage 1 "news" "stored" "story" 0 0,
    .createMessage 2 "orders" "stored" "book" 0 0,
    .createSubscriber "ann" ⟨"news", .amqp, .topic⟩ "local" 1 default, .register ⟨0⟩,
    .createSubscriber "bob" ⟨"news", .amqp, .topic⟩ "local" 1 default, .register ⟨1⟩,
    .createSubscriber "worker" ⟨"orders", .amqp, .queue⟩ "local" 1 default, .register ⟨2⟩,
    .track ⟨"news", .amqp, .topic⟩, .track ⟨"orders", .amqp, .queue⟩, .buffer [⟨0⟩] ⟨0⟩ ⟨0⟩,
    .buffer [⟨1⟩] ⟨0⟩ ⟨1⟩, .flush [] 0 ⟨0⟩, .flush [] 0 ⟨1⟩, .runJob 0, .runJob 0, .runJob 0]

def sentState : Broker := (replay workerRules sentRun default default).1

def answersInTurn : List Ack := [⟨⟨0⟩, ⟨0⟩, .topic⟩, ⟨⟨1⟩, ⟨0⟩, .topic⟩, ⟨⟨2⟩, ⟨1⟩, .queue⟩]

def answersMixed : List Ack :=
  [⟨⟨2⟩, ⟨1⟩, .queue⟩, ⟨⟨1⟩, ⟨0⟩, .topic⟩, ⟨⟨2⟩, ⟨1⟩, .queue⟩, ⟨⟨0⟩, ⟨0⟩, .topic⟩,
    ⟨⟨1⟩, ⟨0⟩, .topic⟩]

theorem acknowledged_in_any_order_sentRun :
    Coherent sentState answersInTurn ∧ (sentState.slot ⟨0⟩).pending = ⟨2⟩ ∧
      ((answersInTurn.foldl Ack.apply sentState).slot ⟨0⟩).pending = ⟨0⟩ ∧
      Alike (answersInTurn.foldl Ack.apply sentState) (answersMixed.foldl Ack.apply sentState) :=
  have hcoherent : Coherent sentState answersInTurn := by decide
  have hsame : ∀ a, a ∈ answersMixed ↔ a ∈ answersInTurn := fun a => by
    simp only [answersMixed, answersInTurn, List.mem_cons, List.not_mem_nil, or_false]
    tauto
  ⟨hcoherent, by decide, by decide,
    acknowledged_in_any_order sentState answersInTurn answersMixed hcoherent hsame⟩

end Broker

end Courier
