import Courier.Proofs.Calls

namespace Courier

namespace RecoveryReport

def topology (r : RecoveryReport) : RecoveryReport :=
  { r with subscriptionsBroadcast := 0, subscriptionsReloaded := false }

def tally (r : RecoveryReport) (l : List ClusterEvent) (skipped : Nat) : RecoveryReport :=
  let r := l.foldl count r
  { r with queuesSkipped := r.queuesSkipped + skipped }

theorem topology_count (r : RecoveryReport) (e : ClusterEvent) :
    (r.count e).topology = r.topology.tally [e] 0 := by
  rcases e with ⟨_ | _, _⟩ | ⟨_ | _, _⟩ | ⟨_ | _, _⟩ <;> rfl

theorem count_skipped (r : RecoveryReport) (e : ClusterEvent) (k : Nat) :
    { r with queuesSkipped := r.queuesSkipped + k }.count e =
      { r.count e with queuesSkipped := (r.count e).queuesSkipped + k } := by
  rcases e with ⟨_ | _, _⟩ | ⟨_ | _, _⟩ | ⟨_ | _, _⟩ <;> rfl

theorem foldl_count_skipped (r : RecoveryReport) (l : List ClusterEvent) (k : Nat) :
    l.foldl count { r with queuesSkipped := r.queuesSkipped + k } =
      { l.foldl count r with queuesSkipped := (l.foldl count r).queuesSkipped + k } := by
  induction l generalizing r with
  | nil => rfl
  | cons e l ih => rw [List.foldl_cons, count_skipped, ih, List.foldl_cons]

theorem tally_tally (r : RecoveryReport) (l l' : List ClusterEvent) (k k' : Nat) :
    (r.tally l k).tally l' k' = r.tally (l ++ l') (k + k') := by
  rw [tally, tally, tally, foldl_count_skipped, List.foldl_append]
  simp only [Nat.add_assoc]

end RecoveryReport

namespace Recovery

open LiveView (walk walk_const)

structure Performed (report : RecoveryReport) (l : List ClusterEvent) (skipped : Nat)
    (calls : List Called) (value : Option Stop × RecoveryReport) : Prop where
  asks : asked calls <+: l
  replays : value.1 = none → replayed calls = l
  reports : value.1 = none → value.2.topology = report.topology.tally l skipped

namespace Performed

variable {report report' : RecoveryReport} {l l' : List ClusterEvent} {k k' : Nat}
variable {calls calls' : List Called} {value : Option Stop × RecoveryReport}

theorem stopped {s : Stop} (hasks : asked calls <+: l) :
    Performed report l k calls (some s, report') := ⟨hasks, nofun, nofun⟩

theorem cons {q : Request} (hq : q.event? = none) (task : RecoveryTask) (answered : Bool)
    (h : Performed report l k calls value) :
    Performed report l k (⟨q, task, answered⟩ :: calls) value where
  asks := by
    rw [asked_cons, hq]
    exact h.asks
  replays hvalue := by
    rw [replayed_cons, hq, Option.toList_none, ite_self]
    exact h.replays hvalue
  reports := h.reports

theorem asked_eq (h : Performed report l k calls (none, report')) : asked calls = l :=
  h.asks.eq_of_length_le (h.replays rfl ▸ (replayed_sublist calls).length_le)

theorem append (h : Performed report l k calls (none, report'))
    (h' : Performed report' l' k' calls' value) :
    Performed report (l ++ l') (k + k') (calls ++ calls') value where
  asks := by
    -- the first step went through: it asked for all of its events, not for a beginning only
    rw [asked_append, h.asked_eq]
    exact (List.prefix_append_right_inj l).2 h'.asks
  replays hvalue := by rw [replayed_append, h.replays rfl, h'.replays hvalue]
  reports hvalue := by
    have hreport : report'.topology = report.topology.tally l k := h.reports rfl
    rw [h'.reports hvalue, hreport, RecoveryReport.tally_tally]

end Performed

namespace Mirror

variable {σ : Type} {c : Collaborators σ} {p : Persisted}

def Performs (m : Mirror c p) (v : LiveView) (step : Step) (l : List ClusterEvent) (k : Nat) : Prop :=
  ∀ report task w, m.holds w → m.live w = v →
    Performed report l k ((step report).calls c task w) ((step report).run c task w).value

variable {m : Mirror c p} {v : LiveView} {k k' : Nat} {l l' : List ClusterEvent}
variable {step first second : Step}

theorem performs_counting {f : RecoveryReport → RecoveryReport}
    (hf : ∀ r, (f r).topology = r.topology.tally [] k) : m.Performs v (counting f) [] k :=
  fun report _ _ _ _ => ⟨List.prefix_rfl, fun _ => rfl, fun _ => hf report⟩

theorem performs_asking {q : Request} {next : q.Value → Step} (hq : q.event? = none)
    (hnext : ∀ a, p.Answers v q a → m.Performs v (next a) l k) :
    m.Performs v (asking q next) l k := by
  intro report task w hw hv
  rw [asking, Script.calls, Script.run]
  refine .cons hq _ _ ?_
  cases hreply : (c q task w).reply with
  | ok a =>
      exact hnext a (hv ▸ m.answers q task w a hw hreply) _ _ _ (m.holds_call q task w hw)
        ((m.live_call q task w hw hq).trans hv)
  | _ => exact .stopped List.nil_prefix

theorem performs_replay (e : ClusterEvent) : m.Performs v (replay e) [e] 0 := by
  intro report task w _ _
  rw [replay, asking, Script.calls, Script.run]
  cases (c (.replay e) task w).reply with
  | ok a => exact ⟨List.prefix_rfl, fun _ => rfl, fun _ => report.topology_count e⟩
  | _ => exact .stopped List.prefix_rfl

theorem performs_gated (h : m.Performs v step l k) : m.Performs v (gated step) l k := by
  intro report task w hw hv
  rw [gated, Script.calls, Script.run]
  cases task.operational with
  | true => exact h report task w hw hv
  | false => exact .stopped List.nil_prefix

theorem performs_andThen (h : m.Performs v first l k)
    (h' : m.Performs (v.follow l) second l' k') :
    m.Performs v (andThen first second) (l ++ l') (k + k') := by
  intro report task w hw hv
  have hfirst := h report task w hw hv
  obtain ⟨hholds, hlive⟩ := m.run hw (first report) task
  rw [andThen, Script.calls_bind, Script.run_bind]
  rcases hvalue : ((first report).run c task w).value with ⟨_ | s, report'⟩
  · rw [hvalue] at hfirst
    rw [hfirst.replays rfl, hv] at hlive
    simp only [hvalue]
    exact hfirst.append (h' report' _ _ hholds hlive)
  · simp only [hvalue, Script.calls, List.append_nil]
    exact .stopped (hfirst.asks.trans (List.prefix_append l l'))

theorem performs_forEach {α : Type} {act : α → Step} {events : α → LiveView → List ClusterEvent}
    (hact : ∀ x v, m.Performs v (act x) (events x v) 0) (l : List α) (v : LiveView) :
    m.Performs v (forEach act l) (walk events l v) 0 := by
  induction l generalizing v with
  | nil => exact performs_counting fun _ => rfl
  | cons x l ih => exact performs_andThen (hact x v) (ih _)

theorem performs_replays {α : Type} (event : α → ClusterEvent) (l : List α) (v : LiveView) :
    m.Performs v (forEach (fun x => replay (event x)) l) (l.map event) 0 := by
  rw [List.map_eq_flatMap, ← walk_const _ l v]
  exact performs_forEach (fun x _ => performs_replay (event x)) l v

theorem performs_broadcastSubscriptions : m.Performs v broadcastSubscriptions [] 0 := by
  refine performs_asking rfl fun records _ => ?_
  have hnone : walk (fun (_ : SubscriptionRecord) _ => []) records v = [] := by
    rw [walk_const, List.flatMap_eq_nil_iff]
    exact fun _ _ => rfl
  rw [← hnone]
  refine performs_forEach (fun r _ => ?_) records v
  exact performs_asking (q := .publish r) rfl fun _ _ => performs_counting fun _ => rfl

theorem performs_reloadExchanges : m.Performs v reloadExchanges (p.exchangeEvents v) 0 :=
  performs_asking rfl fun _ hpersisted => performs_asking rfl fun _ hlive => by
    rw [hpersisted, hlive]
    exact performs_andThen (performs_replays _ _ _) (performs_replays _ _ _)

theorem performs_replayAddedQueues (l : List Queue) (v : LiveView) :
    m.Performs v (forEach replayAddedQueue l)
      ((l.filter fun q => !isSkipped q).map (.queue .added)) (l.countP isSkipped) := by
  induction l generalizing v with
  | nil => exact performs_counting fun _ => rfl
  | cons q l ih =>
      rw [List.filter_cons, List.countP_cons, forEach, replayAddedQueue]
      cases isSkipped q with
      | true =>
          rw [Nat.add_comm]
          exact performs_andThen (performs_counting fun _ => rfl) (ih v)
      | false =>
          rw [← Nat.zero_add (_ + _)]
          exact performs_andThen (performs_replay (.queue .added q)) (ih _)

theorem performs_reloadQueues : m.Performs v reloadQueues (p.queueEvents v) (p.skipped v) :=
  performs_asking rfl fun _ hpersisted => performs_asking rfl fun _ hlive => by
    rw [hpersisted, hlive]
    exact performs_andThen (performs_replayAddedQueues _ _) (performs_replays _ _ _)

theorem performs_reloadBindingsOf (x : Exchange) (v : LiveView) :
    m.Performs v (reloadBindingsOf x) (p.bindingEventsOf x.name v) 0 :=
  performs_asking rfl fun _ hpersisted => performs_asking rfl fun _ hlive => by
    rw [hpersisted, hlive]
    exact performs_andThen (performs_replays _ _ _) (performs_replays _ _ _)

theorem performs_reloadBindings :
    m.Performs v reloadBindings (p.bindingEvents p.exchanges v) 0 :=
  performs_asking rfl fun _ hpersisted => by
    rw [hpersisted]
    exact performs_forEach (fun x v => performs_gated (performs_reloadBindingsOf x v)) _ v

theorem performs_reloadSubscriptions : m.Performs v reloadSubscriptions [] 0 :=
  performs_asking rfl fun _ _ => performs_counting fun _ => rfl

theorem performs_steps (full : Bool) (v : LiveView) :
    m.Performs v (forEach (fun step => gated (stepOf step)) (steps full)) (p.events v)
      (p.skipped (p.withExchanges v)) := by
  have hrest : m.Performs v (forEach (fun step => gated (stepOf step)) (steps false)) (p.events v)
      (p.skipped (p.withExchanges v)) := by
    have h := performs_andThen (performs_gated performs_reloadExchanges (m := m) (v := v)) <|
      performs_andThen (performs_gated performs_reloadQueues) <|
      performs_andThen (performs_gated performs_reloadBindings) <|
      performs_andThen (performs_gated performs_reloadSubscriptions) <|
      performs_counting (f := id) (k := 0) fun _ => rfl
    rw [List.nil_append, List.append_nil, ← List.append_assoc, Nat.zero_add] at h
    exact h
  cases full with
  | false => exact hrest
  | true =>
      have h := performs_andThen (performs_gated performs_broadcastSubscriptions) hrest
      rw [Nat.zero_add] at h
      exact h

end Mirror

section

variable {σ : Type} {c : Collaborators σ} {report r : RecoveryReport} {task : RecoveryTask} {w : σ}

theorem calls_runSteps (l : List RecoveryStep) :
    (runSteps l report).calls c task w =
      (forEach (fun step => gated (stepOf step)) l report).calls c task w := by
  induction l generalizing report task w with
  | nil => rfl
  | cons step l ih =>
      rw [runSteps, forEach, andThen, Script.calls_bind, Script.calls_bind]
      rcases hvalue : ((gated (stepOf step) report).run c task w).value with
        ⟨_ | ⟨_ | _ | _⟩, report'⟩ <;> simp only [hvalue, ih] <;> rfl

theorem runSteps_completed (l : List RecoveryStep) :
    ((runSteps l report).run c task w).value = some (.completed r) ↔
      ((forEach (fun step => gated (stepOf step)) l report).run c task w).value = (none, r) := by
  induction l generalizing report task w with
  | nil => simp [runSteps, forEach, counting, Script.run]
  | cons step l ih =>
      rw [runSteps, forEach, andThen, Script.run_bind, Script.run_bind]
      rcases hvalue : ((gated (stepOf step) report).run c task w).value with
        ⟨_ | ⟨_ | _ | _⟩, report'⟩ <;> simp [hvalue, ih, Script.run]

end

namespace Mirror

variable {σ : Type} {c : Collaborators σ} {p : Persisted} (m : Mirror c p) {w : σ}

/-- A trigger performs a pass or less: it may be refused, pause or end early. -/
theorem trigger_performed (hw : m.holds w) (full : Bool) (task : RecoveryTask) :
    ∃ value, Performed .empty (p.events (m.live w)) (p.skipped (p.withExchanges (m.live w)))
        (triggerCalls c full task w) value ∧
      ∀ r, (Recovery.trigger c full task w).value = some (.completed r) → value = (none, r) := by
  have hnothing : Performed .empty (p.events (m.live w)) (p.skipped (p.withExchanges (m.live w))) []
      (some .gateClosed, .empty) := .stopped List.nil_prefix
  rw [triggerCalls, Recovery.trigger]
  split
  -- refused, run or paused: only a run calls anybody
  · exact ⟨_, hnothing, fun r hr => by cases hr⟩
  · rw [pass, Script.calls, Script.run]
    cases task.operational with
    | true =>
        refine ⟨_, ?_, fun r hr => (runSteps_completed _).1 hr⟩
        rw [if_pos rfl, calls_runSteps]
        exact m.performs_steps full _ _ _ w hw rfl
    | false => exact ⟨_, hnothing, fun r hr => by cases hr⟩

variable {full : Bool} {task : RecoveryTask} {r : RecoveryReport}

theorem asked_trigger (hw : m.holds w) :
    asked (triggerCalls c full task w) <+: p.events (m.live w) := by
  obtain ⟨value, hperformed, -⟩ := m.trigger_performed hw full task
  exact hperformed.asks

theorem live_completed (hw : m.holds w)
    (hr : (Recovery.trigger c full task w).value = some (.completed r)) :
    m.live (Recovery.trigger c full task w).world = (m.live w).follow (p.events (m.live w)) := by
  obtain ⟨value, hperformed, hvalue⟩ := m.trigger_performed hw full task
  rw [(m.trigger hw full task).2, hperformed.replays (by rw [hvalue r hr])]

theorem report_completed (hw : m.holds w)
    (hr : (Recovery.trigger c full task w).value = some (.completed r)) :
    r.topology = RecoveryReport.empty.tally (p.events (m.live w))
      (p.skipped (p.withExchanges (m.live w))) := by
  obtain ⟨value, hperformed, hvalue⟩ := m.trigger_performed hw full task
  obtain rfl := hvalue r hr
  exact hperformed.reports rfl

end Mirror

namespace Obliging

variable {σ : Type} {c : Collaborators σ}

def GoesThrough (o : Obliging c) (step : Step) : Prop :=
  ∀ report (task : RecoveryTask) w, o.holds w → task.operational = true →
    let ending := (step report).run c task w
    o.holds ending.world ∧ ending.task.operational = true ∧ ending.value.1 = none

variable {o : Obliging c} {step first second : Step}

theorem goesThrough_counting (f : RecoveryReport → RecoveryReport) : o.GoesThrough (counting f) :=
  fun _ _ _ hw hopen => ⟨hw, hopen, rfl⟩

theorem goesThrough_asking {q : Request} {next : q.Value → Step}
    (hnext : ∀ a, o.GoesThrough (next a)) : o.GoesThrough (asking q next) := by
  intro report task w hw hopen
  have hanswered := o.answered q task w hw
  rw [asking, Script.run]
  cases hreply : (c q task w).reply with
  | ok a =>
      exact hnext a report _ _ (o.holds_call q task w hw) (o.operational q task w hw hopen)
  | _ => exact nomatch hreply ▸ hanswered

theorem goesThrough_gated (h : o.GoesThrough step) : o.GoesThrough (gated step) := by
  intro report task w hw hopen
  rw [gated, Script.run, hopen]
  exact h report task w hw hopen

theorem goesThrough_andThen (h : o.GoesThrough first) (h' : o.GoesThrough second) :
    o.GoesThrough (andThen first second) := by
  intro report task w hw hopen
  obtain ⟨hholds, hstill, hvalue⟩ := h report task w hw hopen
  rw [andThen, Script.run_bind]
  rcases hending : ((first report).run c task w).value with ⟨s, report'⟩
  rw [hending] at hvalue
  obtain rfl : s = none := hvalue
  simp only [hending]
  exact h' report' _ _ hholds hstill

theorem goesThrough_forEach {α : Type} {act : α → Step} (hact : ∀ x, o.GoesThrough (act x))
    (l : List α) : o.GoesThrough (forEach act l) := by
  induction l with
  | nil => exact goesThrough_counting id
  | cons x l ih => exact goesThrough_andThen (hact x) ih

theorem goesThrough_replay (e : ClusterEvent) : o.GoesThrough (replay e) :=
  goesThrough_asking fun _ => goesThrough_counting _

theorem goesThrough_replayDelta {α : Type} {add remove : α → Step}
    (hadd : ∀ x, o.GoesThrough (add x)) (hremove : ∀ x, o.GoesThrough (remove x)) (d : Delta α) :
    o.GoesThrough (replayDelta add remove d) :=
  goesThrough_andThen (goesThrough_forEach hadd _) (goesThrough_forEach hremove _)

theorem goesThrough_replayAddedQueue (q : Queue) : o.GoesThrough (replayAddedQueue q) := by
  rw [replayAddedQueue]
  split
  · exact goesThrough_counting _
  · exact goesThrough_replay _

theorem goesThrough_stepOf (step : RecoveryStep) : o.GoesThrough (stepOf step) := by
  cases step with
  | broadcastSubscriptions =>
      exact goesThrough_asking fun l =>
        goesThrough_forEach (fun _ => goesThrough_asking fun _ => goesThrough_counting _) l
  | exchanges =>
      exact goesThrough_asking fun _ => goesThrough_asking fun _ =>
        goesThrough_replayDelta (fun _ => goesThrough_replay _) (fun _ => goesThrough_replay _) _
  | queues =>
      exact goesThrough_asking fun _ => goesThrough_asking fun _ =>
        goesThrough_replayDelta goesThrough_replayAddedQueue (fun _ => goesThrough_replay _) _
  | bindings =>
      exact goesThrough_asking fun l => goesThrough_forEach (fun _ => goesThrough_gated <|
        goesThrough_asking fun _ => goesThrough_asking fun _ =>
          goesThrough_replayDelta (fun _ => goesThrough_replay _) (fun _ => goesThrough_replay _) _) l
  | subscriptions => exact goesThrough_asking fun _ => goesThrough_counting _

theorem completes (o : Obliging c) {w : σ} {task : RecoveryTask} (hw : o.holds w)
    (hidle : task.running = false) (hopen : task.operational = true) (full : Bool) :
    ∃ r, (trigger c full task w).value = some (.completed r) := by
  obtain ⟨running, operational⟩ := task
  obtain rfl : running = false := hidle
  obtain rfl : operational = true := hopen
  obtain ⟨-, -, hvalue⟩ := goesThrough_forEach (fun step => goesThrough_gated (goesThrough_stepOf step))
    (steps full) .empty ⟨true, true⟩ w hw rfl
  exact ⟨_, (runSteps_completed _).2 (Prod.ext hvalue rfl)⟩

end Obliging

end Recovery

end Courier
