import Courier.Proofs.Run
import Courier.Proofs.HeldCopies

namespace Courier

open Broker
open Relation (ReflTransGen)

structure Staff where
  workers : Nat
  capacity : Nat
  hash : SubscriberId → UInt64

namespace Staff

def size (w : Staff) : Nat := max w.workers 1

def room (w : Staff) : Nat := max w.capacity 1

def workerOf (w : Staff) (id : SubscriberId) : Nat := (w.hash id).toNat % w.size

theorem workerOf_lt (w : Staff) (id : SubscriberId) : w.workerOf id < w.size :=
  Nat.mod_lt _ (Nat.lt_of_lt_of_le Nat.one_pos (Nat.le_max_right _ _))

end Staff

structure Ticket where
  number : Nat
  job : Job
  id : SubscriberId
  deriving DecidableEq

def Staff.on (w : Staff) (i : Nat) (l : List Ticket) : List Ticket :=
  l.filter fun t => w.workerOf t.id = i

/-- How far a call of `submit` has come. -/
inductive Phase where
  | entered
  /-- There is no sender, or none that leads anywhere: the job is about to be failed. -/
  | turnedAway
  | holding
  | counted
  /-- The worker is gone, and the job is still counted. -/
  | bounced
  /-- The job is in the queue. The sender is kept until the call returns. -/
  | returning
  deriving DecidableEq

namespace Phase

def isOpen : Phase → Bool
  | returning => false
  | _ => true

def isCounted : Phase → Bool
  | counted | bounced => true
  | _ => false

def holdsSender : Phase → Bool
  | holding | counted | bounced | returning => true
  | _ => false

theorem isOpen_of_isCounted {p : Phase} : p.isCounted = true → p.isOpen = true := by
  cases p <;> decide

end Phase

def undecided (calls : List (Ticket × Phase)) : List Ticket :=
  (calls.filter fun c => c.2.isOpen).map Prod.fst

def countedCalls (calls : List (Ticket × Phase)) : Nat := calls.countP fun c => c.2.isCounted

inductive Hand where
  | idle
  | took (t : Ticket)
  | wrote (t : Ticket) (result : SendResult)
  /-- The job has been run and is still counted. -/
  | concluded (t : Ticket)
  | gone
  deriving DecidableEq

namespace Hand

def busy : Hand → List Ticket
  | took t | wrote t _ | concluded t => [t]
  | _ => []

def written : Hand → List Ticket
  | wrote t _ | concluded t => [t]
  | _ => []

def run : Hand → List Ticket
  | concluded t => [t]
  | _ => []

def unwritten : Hand → List Ticket
  | took t => [t]
  | _ => []

theorem busy_eq (h : Hand) : h.busy = h.written ++ h.unwritten := by
  cases h <;> rfl

theorem count_run_le (h : Hand) (t : Ticket) : h.run.count t ≤ h.busy.count t := by
  cases h <;> simp [run, busy]

end Hand

def Broker.conclude (b : Broker) (j : Job) (result : SendResult) : Broker :=
  if result = .sent then b.markDelivered j.message (b.subscriber j.subscriber).id else b.fail j

def Broker.KeepsNames (b b' : Broker) : Prop :=
  ∀ u, b.hasSubscriber u → b'.hasSubscriber u ∧ (b'.subscriber u).id = (b.subscriber u).id

namespace Broker

theorem KeepsNames.refl (b : Broker) : b.KeepsNames b := fun _ hu => ⟨hu, rfl⟩

theorem KeepsNames.trans {b₁ b₂ b₃ : Broker} (h₁ : b₁.KeepsNames b₂) (h₂ : b₂.KeepsNames b₃) :
    b₁.KeepsNames b₃ := by
  intro u hu
  obtain ⟨hu₂, hid₂⟩ := h₁ u hu
  obtain ⟨hu₃, hid₃⟩ := h₂ u hu₂
  exact ⟨hu₃, hid₃.trans hid₂⟩

theorem Touches.keepsNames {m : MessageRef} {b b' : Broker} (h : Touches m b b') :
    b.KeepsNames b' :=
  fun u hu => ⟨h.toPreserves.hasSubscriber hu, h.subscriber_id u⟩

theorem conclude_touches (b : Broker) (j : Job) (result : SendResult) :
    Touches j.message b (b.conclude j result) := by
  rw [conclude]
  split
  · exact .markDelivered b j.message _
  · exact .fail b j

end Broker

/-- The dispatcher at work: the calls of `submit` under way, the queues and the workers. A call takes
a sender, counts the job and sends it in steps of their own, between which other calls, the workers
and a shutdown may do anything. The number of counted jobs is bounded by memory, long before its
counter would run over. What has been done is on record in the order in which it was done. -/
structure Crew where
  broker : Broker
  accepting : Bool
  pending : Nat
  calls : List (Ticket × Phase)
  queues : Nat → List Ticket
  hands : Nat → Hand
  submitted : List Ticket
  accepted : List Ticket
  /-- Refused with the failure policy applied. -/
  refused : List Ticket
  /-- Every call of a subscriber's outbound. -/
  sent : List Ticket
  executed : List (Ticket × SendResult)
  /-- Executed and no longer counted. -/
  finished : List Ticket
  /-- Every application of a failure policy. -/
  failed : List Ticket

namespace Crew

def start (b : Broker) : Crew :=
  ⟨b, true, 0, [], fun _ => [], fun _ => .idle, [], [], [], [], [], [], []⟩

def ticket (s : Crew) (j : Job) : Ticket :=
  ⟨s.submitted.length, j, (s.broker.subscriber j.subscriber).id⟩

@[simp] theorem ticket_job (s : Crew) (j : Job) : (s.ticket j).job = j := rfl

def setCalls (s : Crew) (calls : List (Ticket × Phase)) : Crew := { s with calls }

def enter (s : Crew) (j : Job) : Crew :=
  { s with submitted := s.submitted ++ [s.ticket j], calls := s.calls ++ [(s.ticket j, .entered)] }

def count (s : Crew) (calls : List (Ticket × Phase)) : Crew :=
  { s with calls, pending := s.pending + 1 }

def uncount (s : Crew) (calls : List (Ticket × Phase)) : Crew :=
  { s with calls, pending := s.pending - 1 }

def enqueue (w : Staff) (s : Crew) (t : Ticket) (calls : List (Ticket × Phase)) : Crew :=
  { s with
    calls
    queues := Function.update s.queues (w.workerOf t.id) (s.queues (w.workerOf t.id) ++ [t])
    accepted := s.accepted ++ [t] }

def refuse (s : Crew) (t : Ticket) (calls : List (Ticket × Phase)) : Crew :=
  { s with
    broker := s.broker.fail t.job, calls, refused := s.refused ++ [t], failed := s.failed ++ [t] }

def take (s : Crew) (i : Nat) (t : Ticket) (rest : List Ticket) : Crew :=
  { s with
    queues := Function.update s.queues i rest, hands := Function.update s.hands i (.took t) }

def write (s : Crew) (i : Nat) (t : Ticket) : Crew :=
  { s with
    broker := s.broker.written t.job.subscriber t.job.message
    hands := Function.update s.hands i (.wrote t (s.broker.send t.job.subscriber t.job.message).1)
    sent := s.sent ++ [t] }

def conclude (s : Crew) (i : Nat) (t : Ticket) (result : SendResult) : Crew :=
  { s with
    broker := s.broker.conclude t.job result
    hands := Function.update s.hands i (.concluded t)
    executed := s.executed ++ [(t, result)]
    failed := s.failed ++ if result = .sent then [] else [t] }

def finish (s : Crew) (i : Nat) (t : Ticket) : Crew :=
  { s with
    pending := s.pending - 1
    hands := Function.update s.hands i .idle
    finished := s.finished ++ [t] }

def dismiss (s : Crew) (i : Nat) : Crew := { s with hands := Function.update s.hands i .gone }

def close (s : Crew) : Crew := { s with accepting := false }

def withBroker (s : Crew) (broker : Broker) : Crew := { s with broker }

section

variable (w : Staff) (s : Crew)

inductive Work : Crew → Prop
  | turnedAway {before after : List (Ticket × Phase)} {t : Ticket}
      (hc : s.calls = before ++ (t, .entered) :: after) (closed : s.accepting = false) :
      Work (s.setCalls (before ++ (t, .turnedAway) :: after))
  | held {before after : List (Ticket × Phase)} {t : Ticket}
      (hc : s.calls = before ++ (t, .entered) :: after) (accepting : s.accepting = true) :
      Work (s.setCalls (before ++ (t, .holding) :: after))
  | counted {before after : List (Ticket × Phase)} {t : Ticket}
      (hc : s.calls = before ++ (t, .holding) :: after) :
      Work (s.count (before ++ (t, .counted) :: after))
  /-- The call waits while the queue is full. -/
  | accepted {before after : List (Ticket × Phase)} {t : Ticket}
      (hc : s.calls = before ++ (t, .counted) :: after) (here : s.hands (w.workerOf t.id) ≠ .gone)
      (room : (s.queues (w.workerOf t.id)).length < w.room) :
      Work (enqueue w s t (before ++ (t, .returning) :: after))
  | bounced {before after : List (Ticket × Phase)} {t : Ticket}
      (hc : s.calls = before ++ (t, .counted) :: after) (gone : s.hands (w.workerOf t.id) = .gone) :
      Work (s.setCalls (before ++ (t, .bounced) :: after))
  | uncounted {before after : List (Ticket × Phase)} {t : Ticket}
      (hc : s.calls = before ++ (t, .bounced) :: after) :
      Work (s.uncount (before ++ (t, .turnedAway) :: after))
  | refused {before after : List (Ticket × Phase)} {t : Ticket}
      (hc : s.calls = before ++ (t, .turnedAway) :: after) : Work (s.refuse t (before ++ after))
  | returned {before after : List (Ticket × Phase)} {t : Ticket}
      (hc : s.calls = before ++ (t, .returning) :: after) : Work (s.setCalls (before ++ after))
  | took {i : Nat} {t : Ticket} {rest : List Ticket} (hi : i < w.size) (hh : s.hands i = .idle)
      (hq : s.queues i = t :: rest) : Work (s.take i t rest)
  | wrote {i : Nat} {t : Ticket} (hi : i < w.size) (hh : s.hands i = .took t) : Work (s.write i t)
  | concluded {i : Nat} {t : Ticket} {result : SendResult} (hi : i < w.size)
      (hh : s.hands i = .wrote t result) : Work (s.conclude i t result)
  | finished {i : Nat} {t : Ticket} (hi : i < w.size) (hh : s.hands i = .concluded t) :
      Work (s.finish i t)
  /-- A worker ends when its queue is empty and nobody can send to it any more. -/
  | ended {i : Nat} (hi : i < w.size) (hh : s.hands i = .idle) (hq : s.queues i = [])
      (closed : s.accepting = false)
      (unheld : ∀ c ∈ s.calls, c.2.holdsSender = true → w.workerOf c.1.id ≠ i) :
      Work (s.dismiss i)

/-- A shutdown begins, or something else happens to the broker: subscribers keep their ids. -/
inductive Aside : Crew → Prop
  | closed : Aside s.close
  | meanwhile {b : Broker} (hb : s.broker.KeepsNames b) : Aside (s.withBroker b)

inductive Step : Crew → Prop
  | submitted (j : Job) (hj : s.broker.hasSubscriber j.subscriber) : Step (s.enter j)
  | work {s' : Crew} (h : Work w s s') : Step s'
  | aside {s' : Crew} (h : Aside s s') : Step s'

end

variable {w : Staff} {s s' : Crew} {before after : List (Ticket × Phase)} {t : Ticket} {p p' : Phase}
  {i n : Nat}

theorem Work.keepsNames (h : Work w s s') : s.broker.KeepsNames s'.broker := by
  cases h with
  | @refused before after t hc => exact (Touches.fail s.broker t.job).keepsNames
  | @wrote i t => exact (Touches.send t.job.message s.broker t.job.subscriber t.job.message).keepsNames
  | @concluded i t result => exact (conclude_touches s.broker t.job result).keepsNames
  | _ => exact .refl s.broker

theorem Step.keepsNames (h : Step w s s') : s.broker.KeepsNames s'.broker := by
  cases h with
  | submitted j hj => exact .refl s.broker
  | work h => exact h.keepsNames
  | aside h =>
      cases h with
      | closed => exact .refl s.broker
      | meanwhile hb => exact hb

theorem keepsNames_of_run (h : ReflTransGen (Step w) s s') : s.broker.KeepsNames s'.broker := by
  induction h with
  | refl => exact .refl s.broker
  | tail _ next ih => exact ih.trans next.keepsNames

structure Orderly (w : Staff) (s : Crew) : Prop where
  numbers : s.submitted.map Ticket.number = List.range s.submitted.length
  known : ∀ t ∈ s.submitted, s.broker.hasSubscriber t.job.subscriber ∧
    t.id = (s.broker.subscriber t.job.subscriber).id
  decided : ∀ t, s.submitted.count t =
    (undecided s.calls).count t + (s.accepted.count t + s.refused.count t)
  accepted : ∀ i, w.on i s.accepted = w.on i s.finished ++ ((s.hands i).busy ++ s.queues i)
  sent : ∀ i, w.on i s.sent = w.on i s.finished ++ (s.hands i).written
  executed : ∀ i, w.on i (s.executed.map Prod.fst) = w.on i s.finished ++ (s.hands i).run
  failed : ∀ t, s.failed.count t =
    s.refused.count t + ((s.executed.filter fun e => e.2 ≠ .sent).map Prod.fst).count t
  pending : s.pending + s.finished.length = countedCalls s.calls + s.accepted.length
  gone : ∀ i, s.hands i = .gone → s.queues i = [] ∧ s.accepting = false ∧
    ∀ c ∈ s.calls, c.2.holdsSender = true → w.workerOf c.1.id ≠ i
  unbounced : ∀ c ∈ s.calls, c.2 ≠ .bounced
  unrefused : s.accepting = true → s.refused = [] ∧ ∀ c ∈ s.calls, c.2 ≠ .turnedAway

theorem count_undecided (before after : List (Ticket × Phase)) (t : Ticket) (p : Phase) (u : Ticket) :
    (undecided (before ++ (t, p) :: after)).count u =
      (if p.isOpen then [t] else []).count u + (undecided (before ++ after)).count u := by
  cases hp : p.isOpen <;> simp [undecided, hp, List.count_cons]
  omega

theorem countedCalls_split (before after : List (Ticket × Phase)) (t : Ticket) (p : Phase) :
    countedCalls (before ++ (t, p) :: after) =
      (if p.isCounted then 1 else 0) + countedCalls (before ++ after) := by
  simp only [countedCalls, List.countP_append, List.countP_cons]
  omega

theorem mem_of_split {c d : Ticket × Phase} (hd : d ∈ before ++ after) :
    d ∈ before ++ c :: after := by
  rcases List.mem_append.1 hd with hd | hd
  · exact List.mem_append_left _ hd
  · exact List.mem_append_right _ (List.mem_cons_of_mem _ hd)

theorem forall_mem_split {P : Ticket × Phase → Prop} {c c' : Ticket × Phase}
    (h : ∀ d ∈ before ++ c :: after, P d) (hc : P c → P c') : ∀ d ∈ before ++ c' :: after, P d := by
  intro d hd
  rcases List.mem_append.1 hd with hd | hd
  · exact h d (List.mem_append_left _ hd)
  · rcases List.mem_cons.1 hd with rfl | hd
    · exact hc (h c (List.mem_append_right _ List.mem_cons_self))
    · exact h d (List.mem_append_right _ (List.mem_cons_of_mem _ hd))

theorem on_append (w : Staff) (i : Nat) (l : List Ticket) (t : Ticket) :
    w.on i (l ++ [t]) = w.on i l ++ if w.workerOf t.id = i then [t] else [] := by
  rw [Staff.on, List.filter_append, List.filter_singleton]
  simp [Staff.on]

theorem count_on (w : Staff) (t : Ticket) (l : List Ticket) :
    (w.on (w.workerOf t.id) l).count t = l.count t :=
  List.count_filter (by simp)

namespace Orderly

theorem start (w : Staff) (b : Broker) : (Crew.start b).Orderly w where
  numbers := rfl
  known _ := nofun
  decided _ := rfl
  accepted _ := rfl
  sent _ := rfl
  executed _ := rfl
  failed _ := rfl
  pending := rfl
  gone _ := nofun
  unbounced _ := nofun
  unrefused _ := ⟨rfl, nofun⟩

theorem nodup_submitted (hs : s.Orderly w) : s.submitted.Nodup :=
  .of_map Ticket.number (by rw [hs.numbers]; exact List.nodup_range)

theorem workerOf_eq (hs : s.Orderly w) (ht : t ∈ (s.hands i).busy ++ s.queues i) :
    w.workerOf t.id = i := by
  have hon : t ∈ w.on i s.accepted := by
    rw [hs.accepted]
    exact List.mem_append_right _ ht
  simpa using (List.mem_filter.1 hon).2

/-- A job is accepted as often as it is finished, being run, or waiting. -/
theorem count_accepted (hs : s.Orderly w) (t : Ticket) :
    s.accepted.count t = s.finished.count t +
      ((s.hands (w.workerOf t.id)).busy.count t + (s.queues (w.workerOf t.id)).count t) := by
  have hcount := congrArg (List.count t) (hs.accepted (w.workerOf t.id))
  rwa [List.count_append, List.count_append, count_on, count_on] at hcount

theorem finished_lt (hs : s.Orderly w) (ht : (s.hands i).busy = [t]) :
    s.finished.length < s.accepted.length := by
  have hsub : List.Subperm (s.finished ++ [t]) s.accepted := by
    rw [List.subperm_ext_iff]
    intro u _
    have hcount := hs.count_accepted u
    rw [List.count_append]
    by_cases hu : u = t
    · subst hu
      have hi := hs.workerOf_eq (i := i) (t := u) (by simp [ht])
      rw [hi, ht] at hcount
      omega
    · have hnone : [t].count u = 0 := List.count_eq_zero_of_not_mem (by simpa using hu)
      omega
  have hlength := hsub.length_le
  rw [List.length_append] at hlength
  exact hlength

theorem submitted (hs : s.Orderly w) (j : Job) (hj : s.broker.hasSubscriber j.subscriber) :
    (s.enter j).Orderly w := by
  rw [enter]
  have hopen := count_undecided s.calls [] (s.ticket j) .entered
  have hcounted := countedCalls_split s.calls [] (s.ticket j) .entered
  rw [List.append_nil] at hopen hcounted
  exact { hs with
    numbers := by
      simp [hs.numbers, ticket, List.range_succ]
    known := fun t ht => by
      rcases List.mem_append.1 ht with ht | ht
      · exact hs.known t ht
      · rw [List.mem_singleton.1 ht]
        exact ⟨hj, rfl⟩
    decided := fun t => by
      have hdecided := hs.decided t
      have hnew := hopen t
      rw [List.count_append]
      dsimp only [Phase.isOpen] at hnew ⊢
      simp only [if_true] at hnew
      omega
    pending := by
      have hpending := hs.pending
      dsimp only [Phase.isCounted] at hcounted ⊢
      simp only [Bool.false_eq_true, if_false] at hcounted
      omega
    gone := fun i hi => by
      obtain ⟨hqueue, hclosed, hheld⟩ := hs.gone i hi
      refine ⟨hqueue, hclosed, List.forall_mem_append.2 ⟨hheld, ?_⟩⟩
      simp [Phase.holdsSender]
    unbounced := List.forall_mem_append.2 ⟨hs.unbounced, by simp⟩
    unrefused := fun haccepting => by
      obtain ⟨hnone, hcalls⟩ := hs.unrefused haccepting
      exact ⟨hnone, List.forall_mem_append.2 ⟨hcalls, by simp⟩⟩ }

theorem split (hs : s.Orderly w) (hc : s.calls = before ++ (t, p) :: after) :
    (∀ u, s.submitted.count u = (if p.isOpen then [t] else []).count u +
      (undecided (before ++ after)).count u + (s.accepted.count u + s.refused.count u)) ∧
    s.pending + s.finished.length =
      (if p.isCounted then 1 else 0) + countedCalls (before ++ after) + s.accepted.length ∧
    (∀ i, s.hands i = .gone → s.queues i = [] ∧ s.accepting = false ∧
      ∀ c ∈ before ++ (t, p) :: after, c.2.holdsSender = true → w.workerOf c.1.id ≠ i) ∧
    (∀ c ∈ before ++ (t, p) :: after, c.2 ≠ .bounced) ∧
    (s.accepting = true → s.refused = [] ∧ ∀ c ∈ before ++ (t, p) :: after, c.2 ≠ .turnedAway) := by
  refine ⟨fun u => ?_, ?_, ?_, ?_, ?_⟩
  · rw [← count_undecided, ← hc]
    exact hs.decided u
  · rw [← countedCalls_split, ← hc]
    exact hs.pending
  · rw [← hc]
    exact hs.gone
  · rw [← hc]
    exact hs.unbounced
  · rw [← hc]
    exact hs.unrefused

theorem moved (hs : s.Orderly w) (hc : s.calls = before ++ (t, p) :: after)
    (hopen : p'.isOpen = p.isOpen)
    (hsender : p'.holdsSender = true → p.holdsSender = true ∨ s.accepting = true)
    (hbounced : p' ≠ .bounced) (hturned : p' = .turnedAway → s.accepting = false)
    (hpending : n + (if p.isCounted then 1 else 0) = s.pending + if p'.isCounted then 1 else 0) :
    Orderly w { s with calls := before ++ (t, p') :: after, pending := n } := by
  obtain ⟨hdecided, hcounted, hgone, hunbounced, hunrefused⟩ := hs.split hc
  refine { hs with
    decided := fun u => ?_
    pending := ?_
    gone := fun i hi => ?_
    unbounced := forall_mem_split hunbounced fun _ => hbounced
    unrefused := fun haccepting => ?_ }
  · rw [hdecided, count_undecided, hopen]
  · rw [countedCalls_split]
    dsimp only
    omega
  · obtain ⟨hqueue, hclosed, hheld⟩ := hgone i hi
    refine ⟨hqueue, hclosed, forall_mem_split hheld fun hp hnew => ?_⟩
    rcases hsender hnew with hold | haccepting
    · exact hp hold
    · exact absurd (hclosed.symm.trans haccepting) Bool.false_ne_true
  · obtain ⟨hnone, hcalls⟩ := hunrefused haccepting
    refine ⟨hnone, forall_mem_split hcalls fun _ hnew => ?_⟩
    exact Bool.false_ne_true ((hturned hnew).symm.trans haccepting)

theorem queued (hs : s.Orderly w) (hc : s.calls = before ++ (t, .counted) :: after)
    (here : s.hands (w.workerOf t.id) ≠ .gone) :
    (enqueue w s t (before ++ (t, .returning) :: after)).Orderly w := by
  rw [enqueue]
  obtain ⟨hdecided, hcounted, hgone, hunbounced, hunrefused⟩ := hs.split hc
  refine { hs with
    decided := fun u => ?_
    accepted := fun i => ?_
    pending := ?_
    gone := fun i hi => ?_
    unbounced := forall_mem_split hunbounced fun _ => nofun
    unrefused := fun haccepting =>
      ⟨(hunrefused haccepting).1, forall_mem_split (hunrefused haccepting).2 fun _ => nofun⟩ }
  · rw [hdecided, count_undecided, List.count_append]
    simp only [Phase.isOpen, if_true, Bool.false_eq_true, if_false, List.count_nil]
    omega
  · rw [on_append, hs.accepted]
    by_cases hi : w.workerOf t.id = i
    · subst hi
      simp
    · simp [hi, Function.update_of_ne (Ne.symm hi)]
  · rw [countedCalls_split, List.length_append]
    simp only [Phase.isCounted, if_true, Bool.false_eq_true, if_false] at hcounted ⊢
    exact hcounted.trans (by rw [List.length_singleton]; omega)
  · obtain ⟨hqueue, hclosed, hheld⟩ := hgone i hi
    have hne : i ≠ w.workerOf t.id := fun he => here (he ▸ hi)
    refine ⟨?_, hclosed, forall_mem_split hheld fun hp _ => hp rfl⟩
    dsimp only
    rwa [Function.update_of_ne hne]

theorem returned (hs : s.Orderly w) (hc : s.calls = before ++ (t, .returning) :: after) :
    (s.setCalls (before ++ after)).Orderly w := by
  rw [setCalls]
  obtain ⟨hdecided, hcounted, hgone, hunbounced, hunrefused⟩ := hs.split hc
  exact { hs with
    decided := fun u => (hdecided u).trans (by simp [Phase.isOpen])
    pending := hcounted.trans (by simp [Phase.isCounted])
    gone := fun i hi => by
      obtain ⟨hqueue, hclosed, hheld⟩ := hgone i hi
      exact ⟨hqueue, hclosed, fun c hmem => hheld c (mem_of_split hmem)⟩
    unbounced := fun c hmem => hunbounced c (mem_of_split hmem)
    unrefused := fun haccepting =>
      ⟨(hunrefused haccepting).1, fun c hmem => (hunrefused haccepting).2 c (mem_of_split hmem)⟩ }

theorem refused (hs : s.Orderly w) (hc : s.calls = before ++ (t, .turnedAway) :: after) :
    Orderly w { s with
      calls := before ++ after, refused := s.refused ++ [t], failed := s.failed ++ [t] } := by
  obtain ⟨hdecided, hcounted, hgone, hunbounced, hunrefused⟩ := hs.split hc
  exact { hs with
    decided := fun u => by
      rw [hdecided, List.count_append]
      simp only [Phase.isOpen, if_true]
      omega
    failed := fun u => by
      rw [List.count_append, List.count_append, hs.failed, Nat.add_right_comm]
    pending := hcounted.trans (by simp [Phase.isCounted])
    gone := fun i hi => by
      obtain ⟨hqueue, hclosed, hheld⟩ := hgone i hi
      exact ⟨hqueue, hclosed, fun c hmem => hheld c (mem_of_split hmem)⟩
    unbounced := fun c hmem => hunbounced c (mem_of_split hmem)
    unrefused := fun haccepting =>
      absurd rfl ((hunrefused haccepting).2 _ (List.mem_append_right _ List.mem_cons_self)) }

theorem meanwhile (hs : s.Orderly w) {b : Broker} (hb : s.broker.KeepsNames b) :
    (s.withBroker b).Orderly w :=
  { hs with
    known := fun t ht => by
      obtain ⟨hhas, hname⟩ := hs.known t ht
      obtain ⟨hstill, hsame⟩ := hb _ hhas
      exact ⟨hstill, hname.trans hsame.symm⟩ }

theorem gone_of_update {hands : Nat → Hand} {h : Hand} {k : Nat}
    (hk : Function.update hands i h k = .gone) (hh : h ≠ .gone) : k ≠ i ∧ hands k = .gone := by
  by_cases hki : k = i
  · subst hki
    rw [Function.update_self] at hk
    exact absurd hk hh
  · rw [Function.update_of_ne hki] at hk
    exact ⟨hki, hk⟩

theorem same_of_update {hands : Nat → Hand} {h : Hand} (f : Hand → List Ticket)
    (hf : f h = f (hands i)) (k : Nat) : f (Function.update hands i h k) = f (hands k) := by
  by_cases hki : k = i
  · subst hki
    rw [Function.update_self, hf]
  · rw [Function.update_of_ne hki]

theorem took (hs : s.Orderly w) {rest : List Ticket} (hh : s.hands i = .idle)
    (hq : s.queues i = t :: rest) : (s.take i t rest).Orderly w := by
  rw [take]
  refine { hs with
    accepted := fun k => ?_, sent := fun k => ?_, executed := fun k => ?_, gone := fun k hk => ?_ }
  · by_cases hki : k = i
    · subst hki
      simp [hs.accepted, hh, hq, Hand.busy]
    · simp [hs.accepted, Function.update_of_ne hki]
  · exact (hs.sent k).trans (by rw [same_of_update Hand.written (by rw [hh]; rfl)])
  · exact (hs.executed k).trans (by rw [same_of_update Hand.run (by rw [hh]; rfl)])
  · obtain ⟨hki, hgone⟩ := gone_of_update hk nofun
    simp only [Function.update_of_ne hki]
    exact hs.gone k hgone

theorem wrote (hs : s.Orderly w) (hh : s.hands i = .took t) (result : SendResult) :
    Orderly w { s with
      hands := Function.update s.hands i (.wrote t result), sent := s.sent ++ [t] } := by
  have hi : w.workerOf t.id = i := hs.workerOf_eq (by simp [hh, Hand.busy])
  refine { hs with
    accepted := fun k => ?_, sent := fun k => ?_, executed := fun k => ?_
    gone := fun k hk => hs.gone k (gone_of_update hk nofun).2 }
  · exact (hs.accepted k).trans (by rw [same_of_update Hand.busy (by rw [hh]; rfl)])
  · by_cases hki : k = i
    · subst hki
      simp [on_append, hs.sent, hh, hi, Hand.written]
    · simp [on_append, hs.sent, hi, Ne.symm hki, Function.update_of_ne hki]
  · exact (hs.executed k).trans (by rw [same_of_update Hand.run (by rw [hh]; rfl)])

theorem concluded (hs : s.Orderly w) {result : SendResult} (hh : s.hands i = .wrote t result) :
    Orderly w { s with
      hands := Function.update s.hands i (.concluded t)
      executed := s.executed ++ [(t, result)]
      failed := s.failed ++ if result = .sent then [] else [t] } := by
  have hi : w.workerOf t.id = i := hs.workerOf_eq (by simp [hh, Hand.busy])
  refine { hs with
    accepted := fun k => ?_, sent := fun k => ?_, executed := fun k => ?_, failed := fun u => ?_
    gone := fun k hk => hs.gone k (gone_of_update hk nofun).2 }
  · exact (hs.accepted k).trans (by rw [same_of_update Hand.busy (by rw [hh]; rfl)])
  · exact (hs.sent k).trans (by rw [same_of_update Hand.written (by rw [hh]; rfl)])
  · by_cases hki : k = i
    · subst hki
      simp [on_append, hs.executed, hh, hi, Hand.run]
    · simp [on_append, hs.executed, hi, Ne.symm hki, Function.update_of_ne hki]
  · rw [List.count_append, hs.failed, List.filter_append, List.map_append, List.count_append,
      Nat.add_assoc]
    by_cases hresult : result = .sent <;> simp [hresult]

theorem finished (hs : s.Orderly w) (hh : s.hands i = .concluded t) :
    (s.finish i t).Orderly w := by
  rw [finish]
  have hi : w.workerOf t.id = i := hs.workerOf_eq (by simp [hh, Hand.busy])
  have hlt := hs.finished_lt (i := i) (t := t) (by rw [hh]; rfl)
  have hpending := hs.pending
  refine { hs with
    accepted := fun k => ?_, sent := fun k => ?_, executed := fun k => ?_, pending := ?_
    gone := fun k hk => hs.gone k (gone_of_update hk nofun).2 }
  · by_cases hki : k = i
    · subst hki
      simp [on_append, hs.accepted, hh, hi, Hand.busy]
    · simp [on_append, hs.accepted, hi, Ne.symm hki, Function.update_of_ne hki]
  · by_cases hki : k = i
    · subst hki
      simp [on_append, hs.sent, hh, hi, Hand.written]
    · simp [on_append, hs.sent, hi, Ne.symm hki, Function.update_of_ne hki]
  · by_cases hki : k = i
    · subst hki
      simp [on_append, hs.executed, hh, hi, Hand.run]
    · simp [on_append, hs.executed, hi, Ne.symm hki, Function.update_of_ne hki]
  · rw [List.length_append, List.length_singleton]
    dsimp only
    omega

theorem ended (hs : s.Orderly w) (hh : s.hands i = .idle) (hq : s.queues i = [])
    (closed : s.accepting = false)
    (unheld : ∀ c ∈ s.calls, c.2.holdsSender = true → w.workerOf c.1.id ≠ i) :
    (s.dismiss i).Orderly w := by
  rw [dismiss]
  refine { hs with
    accepted := fun k => ?_, sent := fun k => ?_, executed := fun k => ?_, gone := fun k hk => ?_ }
  · exact (hs.accepted k).trans (by rw [same_of_update Hand.busy (by rw [hh]; rfl)])
  · exact (hs.sent k).trans (by rw [same_of_update Hand.written (by rw [hh]; rfl)])
  · exact (hs.executed k).trans (by rw [same_of_update Hand.run (by rw [hh]; rfl)])
  · by_cases hki : k = i
    · subst hki
      exact ⟨hq, closed, unheld⟩
    · dsimp only at hk
      rw [Function.update_of_ne hki] at hk
      exact hs.gone k hk

theorem work (hs : s.Orderly w) (h : Work w s s') : s'.Orderly w := by
  have hnames := h.keepsNames
  cases h with
  | turnedAway hc closed => exact hs.moved hc rfl nofun nofun (fun _ => closed) rfl
  | held hc accepting => exact hs.moved hc rfl (fun _ => .inr accepting) nofun nofun rfl
  | counted hc => exact hs.moved hc rfl (fun _ => .inl rfl) nofun nofun rfl
  | accepted hc here => exact hs.queued hc here
  | @bounced before after t hc gone =>
      have hmem : (t, Phase.counted) ∈ s.calls := hc ▸ List.mem_append_right _ List.mem_cons_self
      exact absurd rfl ((hs.gone _ gone).2.2 _ hmem rfl)
  | @uncounted before after t hc =>
      have hmem : (t, Phase.bounced) ∈ s.calls := hc ▸ List.mem_append_right _ List.mem_cons_self
      exact absurd rfl (hs.unbounced _ hmem)
  | refused hc => exact (hs.refused hc).meanwhile hnames
  | returned hc => exact hs.returned hc
  | took hi hh hq => exact hs.took hh hq
  | wrote hi hh => exact (hs.wrote hh _).meanwhile hnames
  | concluded hi hh => exact (hs.concluded hh).meanwhile hnames
  | finished hi hh => exact hs.finished hh
  | ended hi hh hq closed unheld => exact hs.ended hh hq closed unheld

theorem closed (hs : s.Orderly w) : s.close.Orderly w :=
  { hs with
    gone := fun i hi => ⟨(hs.gone i hi).1, rfl, (hs.gone i hi).2.2⟩
    unrefused := nofun }

theorem aside (hs : s.Orderly w) (h : Aside s s') : s'.Orderly w := by
  cases h with
  | closed => exact hs.closed
  | meanwhile hb => exact hs.meanwhile hb

theorem step (hs : s.Orderly w) (h : Step w s s') : s'.Orderly w := by
  cases h with
  | submitted j hj => exact hs.submitted j hj
  | work h => exact hs.work h
  | aside h => exact hs.aside h

theorem run (hs : s.Orderly w) (h : ReflTransGen (Step w) s s') : s'.Orderly w := by
  induction h with
  | refl => exact hs
  | tail _ next ih => exact ih.step next

end Orderly

end Crew
end Courier
