import Courier.Lists
import Courier.Proofs.Resumption
import Mathlib.Data.List.Induction

namespace Courier.Recovery

open Stage (noteAll noteAll_append)

namespace Entry

def trouble? : Entry → Option (RecoveryStep × Stop)
  | looked _ true | called _ _ (.ok _) _ => none
  | looked step false => some (step, .gateClosed)
  | called step q (.error e) _ => some (step, .failed (q.cause e))
  | called step _ .panicked _ => some (step, .panicked)

def request? : Entry → Option Request
  | looked .. => none
  | called _ q _ _ => some q

end Entry

namespace Stage

def request? : Stage → Option Request
  | ask _ q _ => some q
  | _ => none

def passed? : Stage → Option Queue
  | passOver q => some q
  | _ => none

end Stage

namespace Abides

variable {l : List Entry} {done left : List Stage} {stop : Option (RecoveryStep × Stop)}

/-- Only the last entry can be trouble, and then the entries stop there. -/
theorem trouble (h : Abides l done left stop) :
    stop = none ∧ (∀ x ∈ l, x.trouble? = none) ∨
      ∃ l' x, l = l' ++ [x] ∧ (∀ y ∈ l', y.trouble? = none) ∧ stop ≠ none ∧ x.trouble? = stop := by
  induction h with
  | through => exact .inl ⟨rfl, fun _ hx => absurd hx List.not_mem_nil⟩
  | passedOver _ _ ih => exact ih
  | looked step _ ih | answered step _ _ _ ih =>
      rcases ih with ⟨hstop, hfine⟩ | ⟨l', x, rfl, hfine, hstop, hx⟩
      · exact .inl ⟨hstop, List.forall_mem_cons.2 ⟨rfl, hfine⟩⟩
      · exact .inr ⟨_ :: l', x, rfl, List.forall_mem_cons.2 ⟨rfl, hfine⟩, hstop, hx⟩
  | gateClosed | failed | panicked =>
      exact .inr ⟨[], _, rfl, fun _ hy => absurd hy List.not_mem_nil, Option.some_ne_none _, rfl⟩

theorem after_trouble (h : Abides l done left stop) {before after : List Entry} {x : Entry}
    (hl : l = before ++ x :: after) (hx : x.trouble? ≠ none) : after = [] ∧ x.trouble? = stop := by
  rcases h.trouble with ⟨-, hfine⟩ | ⟨l', y, rfl, hfine, -, hy⟩
  · exact absurd (hfine x (by simp [hl])) hx
  · obtain ⟨init, hinit, rfl⟩ := exists_init_of_concat_eq hl
    cases init with
    | nil =>
        cases hinit
        exact ⟨rfl, hy⟩
    | cons z init =>
        obtain ⟨rfl, -⟩ := List.cons.inj hinit
        exact absurd (hfine x (by simp)) hx

theorem granted_eq (h : Abides l done left stop) :
    l.filterMap Entry.granted? = done.filterMap Stage.request? := by
  induction h with
  | through | gateClosed | failed | panicked => rfl
  | passedOver _ _ ih | looked _ _ ih => exact ih
  | answered step a notices _ ih => exact congrArg (List.cons _) ih

theorem isPrefix_requests (h : Abides l done left stop) :
    l.filterMap Entry.request? <+: (done ++ left).filterMap Stage.request? := by
  induction h with
  | through | gateClosed => exact List.nil_prefix
  | passedOver _ _ ih | looked _ _ ih => exact ih
  | answered step a notices _ ih => exact (List.prefix_cons_inj _).2 ih
  | failed | panicked => exact (List.prefix_cons_inj _).2 List.nil_prefix

end Abides

def tallyOf (l : List Request) (skipped : Nat) : RecoveryReport where
  subscriptionsBroadcast := l.countP (· matches .publish _)
  exchangesAdded := l.countP (· matches .replay (.exchange .added _))
  exchangesRemoved := l.countP (· matches .replay (.exchange .deleted _))
  queuesAdded := l.countP (· matches .replay (.queue .added _))
  queuesRemoved := l.countP (· matches .replay (.queue .deleted _))
  queuesSkipped := skipped
  bindingsAdded := l.countP (· matches .replay (.binding .added _))
  bindingsRemoved := l.countP (· matches .replay (.binding .deleted _))
  subscriptionsReloaded := decide (.reload ∈ l)

theorem note_tallyOf (step : RecoveryStep) (q : Request) (a : q.Value) (l : List Request)
    (k : Nat) :
    (Stage.ask step q a).note (tallyOf l k) = tallyOf (l ++ [q]) k := by
  have hreload : decide (.reload ∈ l ++ [q]) = (decide (q = .reload) || decide (.reload ∈ l)) := by
    simp [Bool.or_comm, eq_comm]
  simp only [tallyOf, List.countP_append, hreload]
  cases q with
  | replay e => rcases e with ⟨_ | _, _⟩ | ⟨_ | _, _⟩ | ⟨_ | _, _⟩ <;> rfl
  | _ => rfl

theorem noteAll_eq_tallyOf (done : List Stage) :
    noteAll .empty done =
      tallyOf (done.filterMap Stage.request?) (done.filterMap Stage.passed?).length := by
  induction done using List.reverseRecOn with
  | nil => rfl
  | append_singleton done x ih =>
      rw [noteAll_append, ih, List.filterMap_append, List.filterMap_append, List.length_append]
      cases x with
      | look step => exact congrArg (tallyOf · _) (List.append_nil _).symm
      | passOver q => exact congrArg (tallyOf · _) (List.append_nil _).symm
      | ask step q a => exact note_tallyOf step q a _ _

def Request.isDeed : Request → Bool
  | publish _ | replay _ | reload => true
  | _ => false

namespace Itinerary

def deeds (i : Itinerary) (full : Bool) : List Request :=
  (if full then i.subscriptions.map Request.publish else []) ++
    i.exchanges.delta.toAdd.map (fun x => Request.replay (.exchange .added x)) ++
    i.exchanges.delta.toRemove.map (fun x => Request.replay (.exchange .deleted x)) ++
    (i.queues.delta.toAdd.filter fun q => !isSkipped q).map
      (fun q => Request.replay (.queue .added q)) ++
    i.queues.delta.toRemove.map (fun q => Request.replay (.queue .deleted q)) ++
    i.rounds.flatMap (fun x =>
      x.2.delta.toAdd.map (fun b => Request.replay (.binding .added b)) ++
        x.2.delta.toRemove.map fun b => Request.replay (.binding .deleted b)) ++
    [Request.reload]

def deedsOf (l : List Stage) : List Request := (l.filterMap Stage.request?).filter Request.isDeed

theorem deedsOf_append (l l' : List Stage) : deedsOf (l ++ l') = deedsOf l ++ deedsOf l' := by
  rw [deedsOf, List.filterMap_append, List.filter_append, deedsOf, deedsOf]

theorem deedsOf_flatMap {α : Type} (f : α → List Stage) (l : List α) :
    deedsOf (l.flatMap f) = l.flatMap fun x => deedsOf (f x) := by
  induction l with
  | nil => rfl
  | cons x l ih => rw [List.flatMap_cons, deedsOf_append, ih, List.flatMap_cons]

theorem deedsOf_asks {α : Type} (step : RecoveryStep) (f : α → ClusterEvent) (l : List α) :
    deedsOf (l.map fun x => .ask step (.replay (f x)) ()) = l.map fun x => .replay (f x) := by
  induction l with
  | nil => rfl
  | cons x l ih => exact congrArg (List.cons _) ih

theorem deedsOf_publish (l : List SubscriptionRecord) :
    deedsOf (l.map fun r => .ask .broadcastSubscriptions (.publish r) ()) = l.map .publish := by
  induction l with
  | nil => rfl
  | cons x l ih => exact congrArg (List.cons _) ih

theorem deedsOf_addedQueues (l : List Queue) :
    deedsOf (l.map addedQueue) =
      (l.filter fun q => !isSkipped q).map fun q => .replay (.queue .added q) := by
  induction l with
  | nil => rfl
  | cons q l ih =>
      rw [List.map_cons, ← List.singleton_append, deedsOf_append, ih, addedQueue, List.filter_cons]
      cases isSkipped q <;> rfl

theorem deedsOf_deltaStages {α : Type} (step : RecoveryStep) (event : Change → α → ClusterEvent)
    (d : Delta α) :
    deedsOf (deltaStages step event d) =
      d.toAdd.map (fun x => .replay (event .added x)) ++
        d.toRemove.map fun x => .replay (event .deleted x) := by
  rw [deltaStages, deedsOf_append, deedsOf_asks, deedsOf_asks]

theorem deedsOf_rounds (l : List (Exchange × Reading Binding)) :
    deedsOf (l.flatMap fun x => round x.1 x.2) =
      l.flatMap fun x => x.2.delta.toAdd.map (fun b => .replay (.binding .added b)) ++
        x.2.delta.toRemove.map fun b => .replay (.binding .deleted b) := by
  rw [deedsOf_flatMap]
  exact List.flatMap_congr fun x _ => deedsOf_deltaStages .bindings .binding _

theorem deedsOf_stages (i : Itinerary) (full : Bool) :
    deedsOf (i.stages (steps full)) = i.deeds full := by
  have hexchanges : deedsOf (i.stagesOf .exchanges) =
      i.exchanges.delta.toAdd.map (fun x => .replay (.exchange .added x)) ++
        i.exchanges.delta.toRemove.map fun x => .replay (.exchange .deleted x) :=
    deedsOf_deltaStages .exchanges .exchange _
  have hqueues : deedsOf (i.stagesOf .queues) =
      (i.queues.delta.toAdd.filter fun q => !isSkipped q).map
          (fun q => .replay (.queue .added q)) ++
        i.queues.delta.toRemove.map fun q => .replay (.queue .deleted q) := by
    refine (deedsOf_append _ _).trans ?_
    rw [deedsOf_addedQueues, deedsOf_asks]
  have hbindings : deedsOf (i.stagesOf .bindings) = _ := deedsOf_rounds i.rounds
  have hreload : deedsOf (i.stagesOf .subscriptions) = [.reload] := rfl
  have hfirst : deedsOf (if full then i.stagesOf .broadcastSubscriptions else []) =
      if full then i.subscriptions.map .publish else [] := by
    cases full with
    | true => exact deedsOf_publish i.subscriptions
    | false => rfl
  rw [stages_steps, deeds]
  simp only [deedsOf_append, hfirst, hexchanges, hqueues, hbindings, hreload, List.append_assoc]

theorem passed_replays {α : Type} (step : RecoveryStep) (f : α → ClusterEvent) (l : List α) :
    (l.map fun x => .ask step (.replay (f x)) ()).filterMap Stage.passed? = [] := by
  rw [List.filterMap_map]
  exact List.filterMap_eq_nil_iff.2 fun _ _ => rfl

theorem passed_deltaStages {α : Type} (step : RecoveryStep) (event : Change → α → ClusterEvent)
    (d : Delta α) : (deltaStages step event d).filterMap Stage.passed? = [] := by
  rw [deltaStages, List.filterMap_append, passed_replays, passed_replays]
  rfl

theorem passed_addedQueues (l : List Queue) :
    (l.map addedQueue).filterMap Stage.passed? = l.filter isSkipped := by
  induction l with
  | nil => rfl
  | cons q l ih =>
      rw [List.map_cons, ← List.singleton_append, List.filterMap_append, ih, addedQueue,
        List.filter_cons]
      cases isSkipped q <;> rfl

theorem passed_stages (i : Itinerary) (full : Bool) :
    (i.stages (steps full)).filterMap Stage.passed? = i.queues.delta.toAdd.filter isSkipped := by
  have hfirst : (if full then i.stagesOf .broadcastSubscriptions else []).filterMap
      Stage.passed? = [] := by
    cases full with
    | true =>
        refine (List.filterMap_map ..).trans ?_
        exact List.filterMap_eq_nil_iff.2 fun _ _ => rfl
    | false => rfl
  have hexchanges : (i.stagesOf .exchanges).filterMap Stage.passed? = [] :=
    passed_deltaStages .exchanges .exchange i.exchanges.delta
  have hqueues : (i.stagesOf .queues).filterMap Stage.passed? =
      i.queues.delta.toAdd.filter isSkipped := by
    refine List.filterMap_append.trans ?_
    rw [passed_addedQueues, passed_replays, List.append_nil]
  have hbindings : (i.stagesOf .bindings).filterMap Stage.passed? = [] := by
    refine (List.filterMap_flatMap ..).trans (List.flatMap_eq_nil_iff.2 fun x _ => ?_)
    exact passed_deltaStages .bindings .binding x.2.delta
  have hreload : (i.stagesOf .subscriptions).filterMap Stage.passed? = [] := rfl
  rw [stages_steps]
  simp only [List.filterMap_append, hfirst, hexchanges, hqueues, hbindings, hreload,
    List.append_nil, List.nil_append]

theorem not_mem_deeds (i : Itinerary) (full : Bool) {q : Queue} (hq : isSkipped q = true) :
    .replay (.queue .added q) ∉ i.deeds full := by
  cases full <;> simp [deeds, hq]

end Itinerary

structure Recounts (full : Bool) (l : List Entry) (o : RecoveryOutcome) (r : RecoveryReport)
    (i : Itinerary) (done left : List Stage) (stop : Option (RecoveryStep × Stop)) : Prop where
  stages : i.stages (steps full) = done ++ left
  abides : Abides l done left stop
  concludes : conclude stop r = some o
  tally : r = tallyOf (l.filterMap Entry.granted?) (done.filterMap Stage.passed?).length
  /-- What is passed over is what must not be added of the queues that were missing. -/
  passed : done.filterMap Stage.passed? <+: i.queues.delta.toAdd.filter isSkipped
  order : (l.filterMap Entry.request?).filter Request.isDeed <+: i.deeds full
  /-- A queue that is to be passed over is not replayed as added. -/
  notAdded : ∀ q, isSkipped q = true → .replay (.queue .added q) ∉ l.filterMap Entry.request?
  /-- A call that fails is the last one, and is what the pass is aborted with. -/
  fails : ∀ before step q e notices after,
    l = before ++ .called step q (.error e) notices :: after →
      after = [] ∧ o = .aborted step (q.cause e) r

/-- However a pass comes to an end, whoever answers its calls: its report is the tally of them. -/
theorem report_recounts {σ : Type} (c : Collaborators σ) (full : Bool) (task : RecoveryTask) (w : σ)
    {o : RecoveryOutcome} {r : RecoveryReport} (hvalue : (trigger c full task w).value = some o)
    (hreport : o.report? = some r) :
    ∃ i done left stop, Recounts full (transcript c full task w) o r i done left stop := by
  obtain ⟨hidle, hopen⟩ : task.running = false ∧ task.operational = true := by
    -- otherwise the trigger is refused or finds the gate closed, and reports nothing
    rcases task with ⟨_ | _, _ | _⟩
    · cases hvalue
      cases hreport
    · exact ⟨rfl, rfl⟩
    all_goals
      cases hvalue
      cases hreport
  obtain ⟨i, done, left, stop, hstages, habides, hconclude⟩ :=
    transcript_abides c full task w hidle hopen
  have hr : r = noteAll .empty done := by
    rw [hvalue] at hconclude
    rcases stop with _ | ⟨step, _ | cause | _⟩ <;> cases hconclude <;> cases hreport <;> rfl
  rw [hvalue, ← hr] at hconclude
  have hdeeds : ((transcript c full task w).filterMap Entry.request?).filter Request.isDeed <+:
      i.deeds full := by
    rw [← i.deedsOf_stages full, hstages]
    exact habides.isPrefix_requests.filter _
  have hpassed : done.filterMap Stage.passed? <+: i.queues.delta.toAdd.filter isSkipped := by
    rw [← i.passed_stages full, hstages]
    exact (List.prefix_append done left).filterMap _
  refine ⟨i, done, left, stop, hstages, habides, hconclude.symm, ?_, hpassed, hdeeds, ?_, ?_⟩
  · rw [hr, noteAll_eq_tallyOf, habides.granted_eq]
  · intro q hq hmem
    exact i.not_mem_deeds full hq (hdeeds.subset (List.mem_filter.2 ⟨hmem, rfl⟩))
  · intro before step q e notices after hl
    obtain ⟨hafter, hstop⟩ := habides.after_trouble hl (Option.some_ne_none _)
    rw [← hstop] at hconclude
    exact ⟨hafter, Option.some.inj hconclude⟩

/-- The second binding is refused, when an exchange, a queue and a binding have been replayed and
one queue has been passed over. -/
theorem report_recounts_refused :
    let w := { beset with cues := [⟨.bindingEvent, 2, .fail (.rejected "too late")⟩] }
    let r : RecoveryReport := ⟨0, 1, 1, 1, 1, 1, 1, 0, false⟩
    (trigger Cluster.collaborators true default w).value =
        some (.aborted .bindings (.rejected "too late") r) ∧
      ∃ i done left stop, Recounts true (transcript Cluster.collaborators true default w)
        (.aborted .bindings (.rejected "too late") r) r i done left stop :=
  ⟨rfl, report_recounts _ _ _ _ rfl rfl⟩

end Courier.Recovery
