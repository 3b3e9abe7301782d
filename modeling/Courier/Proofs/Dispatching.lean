import Courier.Proofs.Workers

namespace Courier.Crew

open Broker
open Relation (ReflTransGen)

variable {w : Staff} {s s' : Crew} {before after : List (Ticket × Phase)} {t : Ticket} {i : Nat}

def ExecutedOnce (s : Crew) (t : Ticket) : Prop :=
  s.accepted.count t = 1 ∧ t ∉ s.refused ∧ s.sent.count t = 1 ∧
    ∃ result, s.executed.filter (fun e => e.1 = t) = [(t, result)] ∧
      s.failed.count t = if result = .sent then 0 else 1

def RefusedOnce (s : Crew) (t : Ticket) : Prop :=
  s.refused.count t = 1 ∧ s.failed.count t = 1 ∧ t ∉ s.accepted ∧ t ∉ s.sent ∧
    t ∉ s.executed.map Prod.fst

def Over (s : Crew) : Prop := ∀ t ∈ s.submitted, t ∈ s.finished ∨ t ∈ s.refused

theorem count_map_fst (l : List (Ticket × SendResult)) (t : Ticket) :
    (l.map Prod.fst).count t = (l.filter fun e => e.1 = t).length := by
  rw [List.count, List.countP_map, List.countP_eq_length_filter]
  rfl

namespace Orderly

theorem count_le_one (hs : s.Orderly w) (t : Ticket) :
    (undecided s.calls).count t + (s.accepted.count t + s.refused.count t) ≤ 1 := by
  rw [← hs.decided]
  exact List.nodup_iff_count_le_one.1 hs.nodup_submitted t

theorem count_sent (hs : s.Orderly w) (t : Ticket) :
    s.sent.count t = s.finished.count t + (s.hands (w.workerOf t.id)).written.count t := by
  have hcount := congrArg (List.count t) (hs.sent (w.workerOf t.id))
  rwa [List.count_append, count_on, count_on] at hcount

theorem count_executed (hs : s.Orderly w) (t : Ticket) :
    (s.executed.map Prod.fst).count t =
      s.finished.count t + (s.hands (w.workerOf t.id)).run.count t := by
  have hcount := congrArg (List.count t) (hs.executed (w.workerOf t.id))
  rwa [List.count_append, count_on, count_on] at hcount

theorem decided_once (hs : s.Orderly w) : (s.accepted ++ s.refused).Nodup := by
  rw [List.nodup_iff_count_le_one]
  intro t
  have hle := hs.count_le_one t
  rw [List.count_append]
  omega

theorem count_accepted_split (hs : s.Orderly w) (t : Ticket) :
    s.accepted.count t = s.sent.count t +
      ((s.hands (w.workerOf t.id)).unwritten.count t + (s.queues (w.workerOf t.id)).count t) := by
  have haccepted := hs.count_accepted t
  rw [Hand.busy_eq, List.count_append] at haccepted
  rw [hs.count_sent]
  omega

theorem executedOnce (hs : s.Orderly w) (ht : t ∈ s.finished) : s.ExecutedOnce t := by
  have hfinished := List.count_pos_iff.2 ht
  have hdecided := hs.count_le_one t
  have haccepted := hs.count_accepted_split t
  have hsent := hs.count_sent t
  have hall := hs.count_accepted t
  have hexecuted := hs.count_executed t
  have hrun := (s.hands (w.workerOf t.id)).count_run_le t
  have hone : s.accepted.count t = 1 := by omega
  have honce : (s.executed.map Prod.fst).count t = 1 := by omega
  refine ⟨hone, ?_, by omega, ?_⟩
  · rw [← List.count_eq_zero]
    omega
  · rw [count_map_fst, List.length_eq_one_iff] at honce
    obtain ⟨⟨u, result⟩, hfilter⟩ := honce
    have hmem : (u, result) ∈ s.executed.filter fun e => e.1 = t := hfilter ▸ List.mem_singleton_self _
    obtain rfl : u = t := by simpa using (List.mem_filter.1 hmem).2
    refine ⟨result, hfilter, ?_⟩
    rw [hs.failed, count_map_fst, List.filter_comm, hfilter]
    by_cases hresult : result = .sent
    · simp [hresult]
      omega
    · simp [hresult]
      omega

theorem refusedOnce (hs : s.Orderly w) (ht : t ∈ s.refused) : s.RefusedOnce t := by
  have hrefused := List.count_pos_iff.2 ht
  have hdecided := hs.count_le_one t
  have haccepted := hs.count_accepted t
  have hsent := hs.count_accepted_split t
  have hexecuted := hs.count_executed t
  have hrun := (s.hands (w.workerOf t.id)).count_run_le t
  have hfailed := hs.failed t
  have hnever : (s.executed.map Prod.fst).count t = 0 := by omega
  have hsub : ((s.executed.filter fun e => e.2 ≠ .sent).map Prod.fst).count t = 0 :=
    Nat.le_zero.1 (hnever ▸ (List.filter_sublist.map Prod.fst).count_le t)
  refine ⟨by omega, by omega, ?_, ?_, List.count_eq_zero.1 hnever⟩ <;> rw [← List.count_eq_zero] <;>
    omega

/-- What was accepted for one worker is what was sent, in that order, and then what waits. -/
theorem accepted_eq (hs : s.Orderly w) (i : Nat) :
    w.on i s.accepted = w.on i s.sent ++ ((s.hands i).unwritten ++ s.queues i) := by
  rw [hs.accepted, hs.sent, Hand.busy_eq]
  simp

theorem mem_accepted_of_sent (hs : s.Orderly w) (ht : t ∈ s.sent) : t ∈ s.accepted := by
  have hcount := hs.count_accepted_split t
  have hpos := List.count_pos_iff.2 ht
  rw [← List.count_pos_iff]
  omega

theorem mem_submitted (hs : s.Orderly w) (ht : t ∈ s.accepted) : t ∈ s.submitted := by
  have hcount := hs.decided t
  have hpos := List.count_pos_iff.2 ht
  rw [← List.count_pos_iff]
  omega

theorem filter_accepted (hs : s.Orderly w) {p : Ticket → Bool}
    (hp : ∀ t ∈ s.accepted, p t = true → w.workerOf t.id = i) :
    s.accepted.filter p =
      s.sent.filter p ++ ((s.hands i).unwritten ++ s.queues i).filter p := by
  have hon : ∀ l : List Ticket, (∀ t ∈ l, t ∈ s.accepted) → (w.on i l).filter p = l.filter p := by
    intro l hl
    rw [Staff.on, List.filter_filter]
    refine List.filter_congr fun t ht => ?_
    cases hpt : p t with
    | true => simp [hp t (hl t ht) hpt]
    | false => rfl
  have hsplit := congrArg (List.filter p) (hs.accepted_eq i)
  rwa [List.filter_append, hon _ fun t ht => ht, hon _ fun t ht => hs.mem_accepted_of_sent ht] at hsplit

theorem nodup_finished (hs : s.Orderly w) : s.finished.Nodup := by
  rw [List.nodup_iff_count_le_one]
  intro t
  have hle := hs.count_le_one t
  have hcount := hs.count_accepted t
  omega

theorem mem_accepted_of_finished (hs : s.Orderly w) (ht : t ∈ s.finished) : t ∈ s.accepted := by
  have hcount := hs.count_accepted t
  have hpos := List.count_pos_iff.2 ht
  rw [← List.count_pos_iff]
  omega

theorem unfinished_le (hs : s.Orderly w) :
    (s.accepted.filter fun t => t ∉ s.finished).length ≤ s.pending := by
  have hdone : s.finished.length ≤ (s.accepted.filter fun t => t ∈ s.finished).length := by
    refine (List.subperm_of_subset hs.nodup_finished fun t ht => ?_).length_le
    exact List.mem_filter.2 ⟨hs.mem_accepted_of_finished ht, decide_eq_true ht⟩
  have hparts := List.length_eq_length_filter_add (l := s.accepted)
    fun t => decide (t ∈ s.finished)
  have hpending := hs.pending
  simp only [decide_not]
  omega

theorem nothing_left (hs : s.Orderly w) (ho : s.Over) (t : Ticket) :
    (undecided s.calls).count t = 0 ∧ s.accepted.count t = s.finished.count t := by
  have hle := hs.count_le_one t
  have hdecided := hs.decided t
  have haccepted := hs.count_accepted t
  by_cases ht : t ∈ s.submitted
  · rcases ho t ht with hdone | hdone
    · have hfinished := List.count_pos_iff.2 hdone
      omega
    · have hrefused := List.count_pos_iff.2 hdone
      omega
  · have hnone := List.count_eq_zero_of_not_mem ht
    omega

theorem pending_of_over (hs : s.Orderly w) (ho : s.Over) : s.pending = 0 := by
  have hcalls : countedCalls s.calls = 0 := by
    refine List.countP_eq_zero.2 fun c hc hcounted => ?_
    have hundecided : c.1 ∈ undecided s.calls :=
      List.mem_map.2 ⟨c, List.mem_filter.2 ⟨hc, Phase.isOpen_of_isCounted hcounted⟩, rfl⟩
    exact List.count_eq_zero.1 (hs.nothing_left ho c.1).1 hundecided
  have haccepted : s.accepted.Perm s.finished :=
    List.perm_iff_count.2 fun t => (hs.nothing_left ho t).2
  have hlength := haccepted.length_eq
  have hpending := hs.pending
  omega

theorem finished_of_pending (hs : s.Orderly w) (hp : s.pending = 0) (ht : t ∈ s.accepted) :
    t ∈ s.finished := by
  have hpending := hs.pending
  have hsub : s.finished.Subperm s.accepted :=
    List.subperm_of_subset hs.nodup_finished fun _ => hs.mem_accepted_of_finished
  exact (hsub.perm_of_length_le (by omega)).mem_iff.2 ht

end Orderly

def callSteps : Phase → Nat
  | .entered => 8
  | .holding => 7
  | .counted => 6
  | .bounced => 2
  | .turnedAway => 1
  | .returning => 1

def handSteps : Hand → Nat
  | .took _ => 4
  | .wrote _ _ => 3
  | .concluded _ => 2
  | .idle => 1
  | .gone => 0

def workerSteps (w : Staff) (queues : Nat → List Ticket) (hands : Nat → Hand) : Nat :=
  ((List.range w.size).map fun i => 4 * (queues i).length + handSteps (hands i)).sum

def stepsLeft (w : Staff) (s : Crew) : Nat :=
  (s.calls.map fun c => callSteps c.2).sum + workerSteps w s.queues s.hands

theorem callSteps_split (before after : List (Ticket × Phase)) (t : Ticket) (p : Phase) :
    ((before ++ (t, p) :: after).map fun c => callSteps c.2).sum =
      callSteps p + ((before ++ after).map fun c => callSteps c.2).sum := by
  simp only [List.map_append, List.map_cons, List.sum_append, List.sum_cons]
  omega

theorem workerSteps_add {queues queues' : Nat → List Ticket} {hands hands' : Nat → Hand}
    (hi : i < w.size) (hq : ∀ k, k ≠ i → queues' k = queues k)
    (hh : ∀ k, k ≠ i → hands' k = hands k) :
    workerSteps w queues' hands' + (4 * (queues i).length + handSteps (hands i)) =
      workerSteps w queues hands + (4 * (queues' i).length + handSteps (hands' i)) := by
  have hsame : ∀ k ∈ List.range w.size, k ≠ i →
      4 * (queues' k).length + handSteps (hands' k) = 4 * (queues k).length + handSteps (hands k) :=
    fun k _ hk => by rw [hq k hk, hh k hk]
  exact sum_map_add List.nodup_range (List.mem_range.2 hi) hsame

theorem stepsLeft_lt_of_call {p p' : Phase} (hc : s.calls = before ++ (t, p) :: after)
    (hc' : s'.calls = before ++ (t, p') :: after) (hq : s'.queues = s.queues)
    (hh : s'.hands = s.hands) (hlt : callSteps p' < callSteps p) :
    s'.stepsLeft w < s.stepsLeft w := by
  rw [stepsLeft, stepsLeft, hc, hc', callSteps_split, callSteps_split, hq, hh]
  omega

theorem stepsLeft_lt_of_return {p : Phase} (hc : s.calls = before ++ (t, p) :: after)
    (hc' : s'.calls = before ++ after) (hq : s'.queues = s.queues) (hh : s'.hands = s.hands) :
    s'.stepsLeft w < s.stepsLeft w := by
  have hpos : 0 < callSteps p := by
    cases p <;> decide
  rw [stepsLeft, stepsLeft, hc, hc', callSteps_split, hq, hh]
  omega

theorem stepsLeft_lt_of_worker (hi : i < w.size) (hc : s'.calls = s.calls)
    (hq : ∀ k, k ≠ i → s'.queues k = s.queues k) (hh : ∀ k, k ≠ i → s'.hands k = s.hands k)
    (hlt : 4 * (s'.queues i).length + handSteps (s'.hands i) <
      4 * (s.queues i).length + handSteps (s.hands i)) : s'.stepsLeft w < s.stepsLeft w := by
  have hsum := workerSteps_add hi hq hh
  rw [stepsLeft, stepsLeft, hc]
  omega

theorem Work.stepsLeft_lt (h : Work w s s') : s'.stepsLeft w < s.stepsLeft w := by
  have hupdate : ∀ {α : Type} (f : Nat → α) (i : Nat) (a : α) (k : Nat), k ≠ i →
      Function.update f i a k = f k := fun f i a k hk => Function.update_of_ne hk a f
  cases h with
  | turnedAway hc | held hc | counted hc | bounced hc | uncounted hc =>
      exact stepsLeft_lt_of_call hc rfl rfl rfl (by decide)
  | refused hc | returned hc => exact stepsLeft_lt_of_return hc rfl rfl rfl
  | @accepted before after t hc =>
      -- the worker owes four steps more and the call five less
      have hsum := workerSteps_add (w.workerOf_lt t.id)
        (hupdate s.queues _ (s.queues (w.workerOf t.id) ++ [t])) fun k _ => (rfl : s.hands k = _)
      rw [stepsLeft, stepsLeft, hc, enqueue, callSteps_split, callSteps_split]
      simp only [Function.update_self, List.length_append, List.length_singleton, callSteps] at hsum ⊢
      omega
  | took hi hh hq =>
      refine stepsLeft_lt_of_worker hi rfl (hupdate _ _ _) (hupdate _ _ _) ?_
      simp [take, hh, hq, handSteps]
      omega
  | wrote hi hh | concluded hi hh | finished hi hh | ended hi hh =>
      refine stepsLeft_lt_of_worker hi rfl (fun _ _ => rfl) (hupdate _ _ _) ?_
      simp [write, conclude, finish, dismiss, hh, handSteps]

theorem Aside.stepsLeft_eq (h : Aside s s') : s'.stepsLeft w = s.stepsLeft w := by
  cases h <;> rfl

theorem stepsLeft_of_aside (h : ReflTransGen Aside s s') : s'.stepsLeft w = s.stepsLeft w := by
  induction h with
  | refl => rfl
  | tail _ next ih => exact next.stepsLeft_eq.trans ih

/-- Work comes to an end, whatever happens besides. -/
theorem work_accessible (w : Staff) (s : Crew) :
    Acc (fun s'' s => ∃ s', ReflTransGen Aside s s' ∧ Work w s' s'') s := by
  refine (Subrelation.wf ?_ (measure (stepsLeft w)).wf).apply s
  rintro s'' s ⟨s', haside, hwork⟩
  have hlt := hwork.stepsLeft_lt
  rwa [stepsLeft_of_aside haside] at hlt

def Onward (w : Staff) (s s' : Crew) : Prop := Work w s s' ∨ Aside s s'

theorem Onward.step (h : Onward w s s') : Step w s s' := h.elim .work .aside

theorem Onward.submitted_eq (h : Onward w s s') : s'.submitted = s.submitted := by
  obtain h | h := h <;> cases h <;> rfl

theorem submitted_of_onward (h : ReflTransGen (Onward w) s s') : s'.submitted = s.submitted := by
  induction h with
  | refl => rfl
  | tail _ next ih => exact next.submitted_eq.trans ih

theorem Orderly.through (hs : s.Orderly w) (hstuck : ∀ s', ¬ Work w s s') :
    s.calls = [] ∧ ∀ i < w.size, (s.hands i).busy = [] ∧ s.queues i = [] := by
  have hworkers : ∀ i < w.size, (s.hands i).busy = [] ∧ s.queues i = [] := by
    intro i hi
    cases hh : s.hands i with
    | idle =>
        refine ⟨rfl, ?_⟩
        cases hq : s.queues i with
        | nil => rfl
        | cons t rest => exact absurd (.took hi hh hq) (hstuck _)
    | took t => exact absurd (.wrote hi hh) (hstuck _)
    | wrote t result => exact absurd (.concluded hi hh) (hstuck _)
    | concluded t => exact absurd (.finished hi hh) (hstuck _)
    | gone => exact ⟨rfl, (hs.gone i hh).1⟩
  refine ⟨?_, hworkers⟩
  cases hcalls : s.calls with
  | nil => rfl
  | cons c rest =>
      obtain ⟨t, p⟩ := c
      have hc : s.calls = [] ++ (t, p) :: rest := hcalls
      exfalso
      cases p with
      | entered =>
          cases ha : s.accepting with
          | true => exact hstuck _ (.held hc ha)
          | false => exact hstuck _ (.turnedAway hc ha)
      | turnedAway => exact hstuck _ (.refused hc)
      | holding => exact hstuck _ (.counted hc)
      | counted =>
          by_cases hgone : s.hands (w.workerOf t.id) = .gone
          · exact hstuck _ (.bounced hc hgone)
          · refine hstuck _ (.accepted hc hgone ?_)
            -- an idle worker has an empty queue by now
            rw [(hworkers _ (w.workerOf_lt t.id)).2]
            exact Nat.lt_of_lt_of_le Nat.one_pos (Nat.le_max_right _ _)
      | bounced => exact hstuck _ (.uncounted hc)
      | returning => exact hstuck _ (.returned hc)

theorem Orderly.finished_of_through (hs : s.Orderly w)
    (hworkers : ∀ i < w.size, (s.hands i).busy = [] ∧ s.queues i = []) (ht : t ∈ s.accepted) :
    t ∈ s.finished := by
  obtain ⟨hbusy, hqueue⟩ := hworkers _ (w.workerOf_lt t.id)
  have hcount := hs.count_accepted t
  have hpos := List.count_pos_iff.2 ht
  rw [hcount, hbusy, hqueue] at hpos
  exact List.count_pos_iff.1 (by simpa using hpos)

theorem Orderly.over_of_through (hs : s.Orderly w) (hcalls : s.calls = [])
    (hworkers : ∀ i < w.size, (s.hands i).busy = [] ∧ s.queues i = []) : s.Over := by
  intro t ht
  have hpos := List.count_pos_iff.2 ht
  rw [hs.decided, hcalls] at hpos
  by_cases haccepted : t ∈ s.accepted
  · exact .inl (hs.finished_of_through hworkers haccepted)
  · rw [List.count_eq_zero_of_not_mem haccepted] at hpos
    exact .inr (List.count_pos_iff.1 (by simpa [undecided] using hpos))

/-- However work goes on, at its end every job has been executed or refused. -/
theorem Orderly.over (hs : s.Orderly w) (hstuck : ∀ s', ¬ Work w s s') : s.Over := by
  obtain ⟨hcalls, hworkers⟩ := hs.through hstuck
  exact hs.over_of_through hcalls hworkers

def callsTo (s : Crew) (u : SubscriberRef) : List MessageRef :=
  (s.sent.filter fun t => t.job.subscriber = u).map fun t => t.job.message

def acceptedFor (s : Crew) (u : SubscriberRef) : List MessageRef :=
  (s.accepted.filter fun t => t.job.subscriber = u).map fun t => t.job.message

namespace Orderly

theorem workerOf_subscriber (hs : s.Orderly w) (u : SubscriberRef) (ht : t ∈ s.accepted)
    (hu : decide (t.job.subscriber = u) = true) :
    w.workerOf t.id = w.workerOf (s.broker.subscriber u).id := by
  rw [(hs.known t (hs.mem_submitted ht)).2, of_decide_eq_true hu]

theorem callsTo_prefix (hs : s.Orderly w) (u : SubscriberRef) : s.callsTo u <+: s.acceptedFor u := by
  rw [callsTo, acceptedFor, hs.filter_accepted fun _ => hs.workerOf_subscriber u, List.map_append]
  exact List.prefix_append _ _

theorem idle_of_over (hs : s.Orderly w) (ho : s.Over) (i : Nat) :
    (s.hands i).busy = [] ∧ s.queues i = [] := by
  rw [← List.append_eq_nil_iff, List.eq_nil_iff_forall_not_mem]
  intro t ht
  have hi := hs.workerOf_eq ht
  subst hi
  have haccepted := hs.count_accepted t
  have hfinished := (hs.nothing_left ho t).2
  have hpos := List.count_pos_iff.2 ht
  rw [List.count_append] at hpos
  omega

theorem callsTo_of_over (hs : s.Orderly w) (ho : s.Over) (u : SubscriberRef) :
    s.callsTo u = s.acceptedFor u := by
  obtain ⟨hbusy, hqueue⟩ := hs.idle_of_over ho (w.workerOf (s.broker.subscriber u).id)
  rw [Hand.busy_eq, List.append_eq_nil_iff] at hbusy
  rw [callsTo, acceptedFor, hs.filter_accepted fun _ => hs.workerOf_subscriber u, hbusy.2, hqueue]
  simp

end Orderly

def accept (w : Staff) (s : Crew) (j : Job) : Crew :=
  enqueue w ((s.enter j).count []) (s.ticket j) []

theorem accept_run (j : Job) (hj : s.broker.hasSubscriber j.subscriber) (hc : s.calls = [])
    (accepting : s.accepting = true) (here : s.hands (w.workerOf (s.ticket j).id) ≠ .gone)
    (room : (s.queues (w.workerOf (s.ticket j).id)).length < w.room) :
    ReflTransGen (Step w) s (accept w s j) := by
  let t := s.ticket j
  let held := (s.enter j).setCalls ([] ++ (t, .holding) :: [])
  let counted := held.count ([] ++ (t, .counted) :: [])
  let queued := enqueue w counted t ([] ++ (t, .returning) :: [])
  have hentered : (s.enter j).calls = [] ++ (t, .entered) :: [] := by
    rw [enter, hc]
  have h₁ : Step w s (s.enter j) := .submitted j hj
  have h₂ : Step w (s.enter j) held := .work (.held hentered accepting)
  have h₃ : Step w held counted := .work (.counted rfl)
  have h₄ : Step w counted queued := .work (.accepted rfl here room)
  have h₅ : Step w queued (queued.setCalls ([] ++ [])) := .work (.returned rfl)
  exact ((((ReflTransGen.single h₁).tail h₂).tail h₃).tail h₄).tail h₅

def turnAway (s : Crew) (j : Job) : Crew := (s.enter j).refuse (s.ticket j) []

theorem turnAway_run (j : Job) (hj : s.broker.hasSubscriber j.subscriber) (hc : s.calls = [])
    (closed : s.accepting = false) : ReflTransGen (Step w) s (s.turnAway j) := by
  let t := s.ticket j
  let turned := (s.enter j).setCalls ([] ++ (t, .turnedAway) :: [])
  have hentered : (s.enter j).calls = [] ++ (t, .entered) :: [] := by
    rw [enter, hc]
  have h₁ : Step w s (s.enter j) := .submitted j hj
  have h₂ : Step w (s.enter j) turned := .work (.turnedAway hentered closed)
  have h₃ : Step w turned (turned.refuse t ([] ++ [])) := .work (.refused rfl)
  exact ((ReflTransGen.single h₁).tail h₂).tail h₃

def serve (s : Crew) (i : Nat) (t : Ticket) (rest : List Ticket) : Crew :=
  let result := (s.broker.send t.job.subscriber t.job.message).1
  (((s.take i t rest).write i t).conclude i t result).finish i t

theorem serve_run {rest : List Ticket} (hi : i < w.size) (hh : s.hands i = .idle)
    (hq : s.queues i = t :: rest) : ReflTransGen (Step w) s (s.serve i t rest) := by
  let result := (s.broker.send t.job.subscriber t.job.message).1
  let taken := s.take i t rest
  let written := taken.write i t
  let concluded := written.conclude i t result
  have h₁ : Step w s taken := .work (.took hi hh hq)
  have h₂ : Step w taken written := .work (.wrote hi (Function.update_self _ _ _))
  have h₃ : Step w written concluded := .work (.concluded hi (Function.update_self _ _ _))
  have h₄ : Step w concluded (s.serve i t rest) := .work (.finished hi (Function.update_self _ _ _))
  exact (((ReflTransGen.single h₁).tail h₂).tail h₃).tail h₄

structure Mirrors (b : Broker) (s : Crew) : Prop where
  broker : s.broker = b
  queue : (s.queues 0).map Ticket.job = b.dispatcher.jobs
  accepting : s.accepting = b.dispatcher.accepting
  calls : s.calls = []
  idle : s.hands 0 = .idle

theorem workerOf_lone (hw : w.size = 1) (id : SubscriberId) : w.workerOf id = 0 := by
  rw [Staff.workerOf, hw, Nat.mod_one]

theorem execute_eq_conclude (b : Broker) (j : Job) :
    b.execute j =
      (b.written j.subscriber j.message).conclude j (b.send j.subscriber j.message).1 := by
  have hid := (Touches.send j.message b j.subscriber j.message).subscriber_id j.subscriber
  rw [execute_eq, Broker.conclude, written, hid]

theorem withDispatcher_step (s : Crew) (d : Dispatcher) :
    Step w s (s.withBroker { s.broker with dispatcher := d }) :=
  .aside (.meanwhile fun _ hu => ⟨hu, rfl⟩)

namespace Mirrors

variable {b : Broker} {j : Job}

theorem submit (hm : Mirrors b s) (hw : w.size = 1) (hj : b.hasSubscriber j.subscriber)
    (room : (s.queues 0).length < w.room) :
    ∃ s', ReflTransGen (Step w) s s' ∧ Mirrors (b.submit j).2 s' ∧
      s'.accepted = s.accepted ++ if (b.submit j).1 then [s.ticket j] else [] := by
  obtain ⟨rfl, hqueue, haccepting, hcalls, hidle⟩ := hm
  have hworker := workerOf_lone hw (s.ticket j).id
  cases ha : s.broker.dispatcher.accepting with
  | true =>
      have here : s.hands (w.workerOf (s.ticket j).id) ≠ .gone := by
        rw [hworker, hidle]
        nofun
      have haccepted := accept_run (w := w) j hj hcalls (haccepting.trans ha) here (by rwa [hworker])
      have hset := withDispatcher_step (w := w) (accept w s j) (s.broker.submit j).2.dispatcher
      refine ⟨_, haccepted.tail hset, ?_⟩
      rw [submit_of_accepting j ha]
      refine ⟨⟨rfl, ?_, haccepting, rfl, hidle⟩, rfl⟩
      simp [withBroker, accept, enqueue, Crew.count, enter, hworker, hqueue]
  | false =>
      refine ⟨_, turnAway_run j hj hcalls (haccepting.trans ha), ?_⟩
      rw [submit_of_closed j ha]
      refine ⟨⟨rfl, ?_, ?_, rfl, hidle⟩, (List.append_nil _).symm⟩
      · simpa [turnAway, refuse, enter, fail_frame] using hqueue
      · simpa [turnAway, refuse, enter, fail_frame] using haccepting

theorem runNext {b' : Broker} (hm : Mirrors b s) (hw : w.size = 1) (hrun : b.runNext = some b') :
    ∃ s', ReflTransGen (Step w) s s' ∧ Mirrors b' s' ∧ s'.accepted = s.accepted := by
  obtain ⟨rfl, hqueue, haccepting, hcalls, hidle⟩ := hm
  cases hjobs : s.broker.dispatcher.jobs with
  | nil => simp [Broker.runNext, hjobs] at hrun
  | cons j rest =>
      have hb' : b' = (s.broker.withJobs rest).execute j := by
        simpa [Broker.runNext, hjobs, withJobs] using hrun.symm
      rw [hjobs] at hqueue
      obtain ⟨t, waiting, hwaiting, rfl, hrest⟩ := List.map_eq_cons_iff.1 hqueue
      let s₁ := s.withBroker (s.broker.withJobs rest)
      have hset : Step w s s₁ := withDispatcher_step s _
      have hserved := serve_run (w := w) (s := s₁) (hw ▸ Nat.one_pos) hidle hwaiting
      refine ⟨_, .head hset hserved, ⟨?_, ?_, ?_, hcalls, rfl⟩, rfl⟩
      · rw [hb', execute_eq_conclude]
        rfl
      · rw [hb', (execute_frame _ _).2.2.2.2.2]
        exact hrest
      · rw [hb', (execute_frame _ _).2.2.2.2.2]
        exact haccepting

theorem run (hm : Mirrors b s) (hw : w.size = 1) (n : Nat) :
    ∃ s', ReflTransGen (Step w) s s' ∧ Mirrors (b.run n).2 s' := by
  induction n generalizing b s with
  | zero => exact ⟨s, .refl, hm⟩
  | succ n ih =>
      rw [Broker.run]
      cases hnext : b.runNext with
      | none => exact ⟨s, .refl, hm⟩
      | some b' =>
          obtain ⟨s₁, hpath, hm₁, -⟩ := hm.runNext hw hnext
          obtain ⟨s₂, hrest, hm₂⟩ := ih hm₁
          exact ⟨s₂, hpath.trans hrest, hm₂⟩

theorem shutdown (hm : Mirrors b s) (hw : w.size = 1) :
    ∃ s', ReflTransGen (Step w) s s' ∧ Mirrors b.shutdown s' := by
  obtain ⟨s₁, hpath, hbroker, hqueue, -, hcalls, hidle⟩ := hm.run hw b.pendingJobs
  have hset := withDispatcher_step (w := w) s₁.close { s₁.broker.dispatcher with accepting := false }
  refine ⟨_, (hpath.tail (.aside .closed)).tail hset, ?_, hqueue, rfl, hcalls, hidle⟩
  rw [Broker.shutdown, runAll, ← hbroker]
  rfl

/-- One worker, given one job after the other, executes each before it is given the next. -/
theorem exists_run (hm : Mirrors b s) (hw : w.size = 1) (hopen : b.dispatcher = ⟨[], true⟩)
    (jobs : List Job) (hjobs : ∀ j ∈ jobs, b.hasSubscriber j.subscriber) :
    ∃ b' s', ReflTransGen (Step w) s s' ∧ Mirrors b' s' ∧ b'.dispatcher = ⟨[], true⟩ ∧
      s'.accepted.map Ticket.job = s.accepted.map Ticket.job ++ jobs := by
  induction jobs generalizing b s with
  | nil => exact ⟨b, s, .refl, hm, hopen, (List.append_nil _).symm⟩
  | cons j jobs ih =>
      obtain ⟨hj, hrest⟩ := List.forall_mem_cons.1 hjobs
      have hempty : s.queues 0 = [] := by
        have hqueue := hm.queue
        rw [hopen] at hqueue
        exact List.map_eq_nil_iff.1 hqueue
      have hsubmit : b.submit j = (true, b.withJobs [j]) := by
        rw [submit_of_accepting j (by rw [hopen]), hopen]
        rfl
      obtain ⟨s₁, hpath, hm₁, haccepted⟩ := hm.submit hw hj (by
        rw [hempty]
        exact Nat.lt_of_lt_of_le Nat.one_pos (Nat.le_max_right _ _))
      rw [hsubmit] at hm₁ haccepted
      have hnext : (b.withJobs [j]).runNext = some ((b.withJobs []).execute j) := rfl
      obtain ⟨s₂, hran, hm₂, haccepted₂⟩ := hm₁.runNext hw hnext
      have htouch := Touches.execute (b.withJobs []) j
      have hopen₂ : ((b.withJobs []).execute j).dispatcher = ⟨[], true⟩ := by
        rw [(execute_frame _ _).2.2.2.2.2, withJobs, hopen]
      obtain ⟨b', s', hmore, hm', hopen', hall⟩ := ih hm₂ hopen₂ fun i hi =>
        htouch.toPreserves.hasSubscriber (hrest i hi)
      refine ⟨b', s', (hpath.trans hran).trans hmore, hm', hopen', ?_⟩
      rw [hall, haccepted₂, haccepted]
      simp [ticket]

end Mirrors

/-- Whatever a dispatcher accepted, one that starts alike with a single worker may accept and
execute, in the same order. -/
theorem exists_lone_run {v : Staff} {b : Broker} (hv : v.size = 1)
    (run : ReflTransGen (Step w) (start b) s) :
    ∃ c, ReflTransGen (Step v) (start b) c ∧ c.Over ∧
      c.accepted.map Ticket.job = s.accepted.map Ticket.job := by
  have hs := (Orderly.start w b).run run
  let b₁ : Broker := { s.broker with dispatcher := ⟨[], true⟩ }
  have hnames : b.KeepsNames b₁ := keepsNames_of_run run
  have hset : Step v (start b) ((start b).withBroker b₁) := .aside (.meanwhile hnames)
  have hmirrors : Mirrors b₁ ((start b).withBroker b₁) := ⟨rfl, rfl, rfl, rfl, rfl⟩
  obtain ⟨b', c, hpath, hm, hopen, haccepted⟩ :=
    hmirrors.exists_run hv rfl (s.accepted.map Ticket.job) fun j hj => by
      obtain ⟨t, ht, rfl⟩ := List.mem_map.1 hj
      exact (hs.known t (hs.mem_submitted ht)).1
  have hrun := ReflTransGen.head hset hpath
  have hqueue := hm.queue
  rw [hopen] at hqueue
  refine ⟨c, hrun, ((Orderly.start v b).run hrun).over_of_through hm.calls fun i hi => ?_, haccepted⟩
  obtain rfl : i = 0 := by omega
  rw [hm.idle]
  exact ⟨rfl, List.map_eq_nil_iff.1 hqueue⟩

theorem acceptedFor_congr {c : Crew} (h : c.accepted.map Ticket.job = s.accepted.map Ticket.job)
    (u : SubscriberRef) : c.acceptedFor u = s.acceptedFor u := by
  have hjobs : ∀ c : Crew, c.acceptedFor u =
      ((c.accepted.map Ticket.job).filter fun j => j.subscriber = u).map Job.message := by
    intro c
    rw [acceptedFor, List.filter_map, List.map_map]
    rfl
  rw [hjobs, hjobs, h]

structure Faithful (w : Staff) (b : Broker) (s : Crew) : Prop where
  decided_once : (s.accepted ++ s.refused).Nodup
  executed_once : ∀ t ∈ s.finished, s.ExecutedOnce t
  refused_once : ∀ t ∈ s.refused, s.RefusedOnce t
  unrefused : s.accepting = true → s.refused = []
  /-- What is under way comes to an end, also if a shutdown begins in between. -/
  ends : Acc (fun s'' s => ∃ s', ReflTransGen Aside s s' ∧ Work w s' s'') s
  /-- At that end each job has met its fate. -/
  settled : ∀ s', ReflTransGen (Onward w) s s' → (∀ s'', ¬ Work w s' s'') →
    s'.submitted = s.submitted ∧ s'.Over ∧ ∀ t ∈ s.submitted, s'.ExecutedOnce t ∨ s'.RefusedOnce t
  joined : (∀ i < w.size, s.hands i = .gone) → ∀ t ∈ s.accepted, t ∈ s.finished
  sent_in_order : ∀ id,
    (s.sent.filter fun t => t.id = id) <+: s.accepted.filter fun t => t.id = id
  calls_in_order : ∀ u, s.callsTo u <+: s.acceptedFor u
  /-- A single worker accepts the same jobs in the same order, and then it makes the same calls. -/
  as_alone : ∀ v : Staff, v.size = 1 →
    (∃ c, ReflTransGen (Step v) (start b) c ∧ c.Over ∧
      c.accepted.map Ticket.job = s.accepted.map Ticket.job) ∧
    ∀ c, ReflTransGen (Step v) (start b) c → c.Over →
      c.accepted.map Ticket.job = s.accepted.map Ticket.job →
        ∀ u, s.callsTo u <+: c.callsTo u ∧ (s.Over → s.callsTo u = c.callsTo u)
  unfinished_le : (s.accepted.filter fun t => t ∉ s.finished).length ≤ s.pending
  pending_of_over : s.Over → s.pending = 0
  finished_of_pending : s.pending = 0 → ∀ t ∈ s.accepted, t ∈ s.finished

/-- Nothing is lost, repeated or reordered, for any number of workers, any hash, any capacity and any
interleaving. -/
theorem faithful {w : Staff} {b : Broker} {s : Crew} (run : ReflTransGen (Step w) (start b) s) :
    s.Faithful w b := by
  have hs := (Orderly.start w b).run run
  refine {
    decided_once := hs.decided_once
    executed_once := fun _ => hs.executedOnce
    refused_once := fun _ => hs.refusedOnce
    unrefused := fun haccepting => (hs.unrefused haccepting).1
    ends := work_accessible w s
    settled := fun s' honward hstuck => ?_
    joined := fun hgone t => hs.finished_of_through fun i hi => ?_
    sent_in_order := fun id => ?_
    calls_in_order := hs.callsTo_prefix
    as_alone := fun v hv => ⟨exists_lone_run hv run, fun c hc hover haccepted u => ?_⟩
    unfinished_le := hs.unfinished_le
    pending_of_over := hs.pending_of_over
    finished_of_pending := fun hp _ => hs.finished_of_pending hp }
  · have hs' := hs.run (ReflTransGen.mono (fun _ _ => Onward.step) _ _ honward)
    have hsubmitted := submitted_of_onward honward
    have hover := hs'.over hstuck
    refine ⟨hsubmitted, hover, fun t ht => ?_⟩
    exact (hover t (hsubmitted ▸ ht)).imp hs'.executedOnce hs'.refusedOnce
  · rw [hgone i hi]
    exact ⟨rfl, (hs.gone i (hgone i hi)).1⟩
  · rw [hs.filter_accepted (i := w.workerOf id) fun t _ ht => by rw [of_decide_eq_true ht]]
    exact List.prefix_append _ _
  · have hlone := ((Orderly.start v b).run hc).callsTo_of_over hover u
    rw [hlone, acceptedFor_congr haccepted]
    exact ⟨hs.callsTo_prefix u, fun ho => hs.callsTo_of_over ho u⟩

def desks : Staff := ⟨2, 1, fun id => if id = "first" then 0 else 1⟩

def morning : Broker :=
  (replay workerRules [.createMessage 1 "orders" "stored" "book" 0 0,
    .createMessage 2 "orders" "stored" "pen" 0 0, .createMessage 3 "orders" "stored" "ink" 0 0,
    .createSubscriber "first" ⟨"orders", .amqp, .topic⟩ "local" 1 default,
    .createSubscriber "second" ⟨"orders", .amqp, .topic⟩ "local" 1 ⟨[.panicked], .record []⟩]
    default default).1

def book : Ticket := ⟨0, ⟨⟨0⟩, ⟨0⟩, ⟨0⟩, .discard⟩, "first"⟩

def pen : Ticket := ⟨1, ⟨⟨1⟩, ⟨1⟩, ⟨0⟩, .discard⟩, "second"⟩

def ink : Ticket := ⟨2, ⟨⟨0⟩, ⟨2⟩, ⟨0⟩, .discard⟩, "first"⟩

def closing : Crew := (accept desks (accept desks (start morning) book.job) pen.job).close.turnAway ink.job

def evening : Crew := (((closing.serve 1 pen []).serve 0 book []).dismiss 0).dismiss 1

theorem evening_reached : ReflTransGen (Step desks) (start morning) evening := by
  have hbook := accept_run (w := desks) (s := start morning) book.job (by decide) rfl rfl (by decide)
    (by decide)
  have hpen := hbook.trans (accept_run pen.job (by decide) rfl rfl (by decide) (by decide))
  have hink := (hpen.tail (.aside .closed)).trans (turnAway_run ink.job (by decide) rfl rfl)
  have hpenDone : ReflTransGen (Step desks) closing (closing.serve 1 pen []) :=
    serve_run (by decide) rfl rfl
  have hbookDone : ReflTransGen (Step desks) (closing.serve 1 pen [])
      ((closing.serve 1 pen []).serve 0 book []) := serve_run (by decide) rfl rfl
  refine ((((hink.trans hpenDone).trans hbookDone).tail (.work (.ended ?_ rfl rfl rfl ?_))).tail
    (.work (.ended ?_ rfl rfl rfl ?_)))
  · decide
  · nofun
  · decide
  · nofun

theorem faithful_evening :
    evening.Faithful desks morning ∧ evening.accepted = [book, pen] ∧
      evening.finished = [pen, book] ∧ evening.refused = [ink] ∧ evening.failed = [ink, pen] :=
  ⟨faithful evening_reached, by decide, by decide, by decide, by decide⟩

end Courier.Crew
