import Courier.Proofs.Transcript

namespace Courier.Recovery

open Stage (noteAll noteAll_append)

structure Reading (α : Type) where
  persisted : List α
  live : List α
  deriving Inhabited

def Reading.delta {α κ : Type} [NaturalKey α κ] [DecidableEq κ] (r : Reading α) : Delta α :=
  .between r.persisted r.live

structure Itinerary where
  subscriptions : List SubscriptionRecord
  exchanges : Reading Exchange
  queues : Reading Queue
  /-- The exchanges as they are read anew, each with what is read of its bindings. -/
  rounds : List (Exchange × Reading Binding)
  deriving Inhabited

def deltaStages {α : Type} (step : RecoveryStep) (event : Change → α → ClusterEvent) (d : Delta α) :
    List Stage :=
  d.toAdd.map (fun x => .ask step (.replay (event .added x)) ()) ++
    d.toRemove.map fun x => .ask step (.replay (event .deleted x)) ()

namespace Itinerary

def addedQueue (q : Queue) : Stage :=
  if isSkipped q then .passOver q else .ask .queues (.replay (.queue .added q)) ()

def round (x : Exchange) (r : Reading Binding) : List Stage :=
  .look .bindings :: .ask .bindings (.readBindings x.name) r.persisted ::
    .ask .bindings (.liveBindings x.name) r.live :: deltaStages .bindings .binding r.delta

def stagesOf (i : Itinerary) : RecoveryStep → List Stage
  | .broadcastSubscriptions =>
      .look .broadcastSubscriptions :: .ask .broadcastSubscriptions .subscriptions i.subscriptions ::
        i.subscriptions.map fun r => .ask .broadcastSubscriptions (.publish r) ()
  | .exchanges =>
      .look .exchanges :: .ask .exchanges .readExchanges i.exchanges.persisted ::
        .ask .exchanges .liveExchanges i.exchanges.live ::
          deltaStages .exchanges .exchange i.exchanges.delta
  | .queues =>
      .look .queues :: .ask .queues .readQueues i.queues.persisted ::
        .ask .queues .liveQueues i.queues.live ::
          (i.queues.delta.toAdd.map addedQueue ++
            i.queues.delta.toRemove.map fun q => .ask .queues (.replay (.queue .deleted q)) ())
  | .bindings =>
      .look .bindings :: .ask .bindings .readExchanges (i.rounds.map Prod.fst) ::
        i.rounds.flatMap fun x => round x.1 x.2
  | .subscriptions => [.look .subscriptions, .ask .subscriptions .reload ()]

def stages (i : Itinerary) (l : List RecoveryStep) : List Stage := l.flatMap i.stagesOf

theorem stages_steps (i : Itinerary) (full : Bool) :
    i.stages (steps full) = (if full then i.stagesOf .broadcastSubscriptions else []) ++
      i.stagesOf .exchanges ++ i.stagesOf .queues ++ i.stagesOf .bindings ++
        i.stagesOf .subscriptions := by
  cases full <;> simp [stages, steps]

/-- What is learned in one step may be taken from one itinerary, and all else from another. -/
theorem exists_merged (i j : Itinerary) (step : RecoveryStep) :
    ∃ k : Itinerary, k.stagesOf step = i.stagesOf step ∧
      ∀ other, other ≠ step → k.stagesOf other = j.stagesOf other := by
  refine ⟨⟨if step = .broadcastSubscriptions then i.subscriptions else j.subscriptions,
    if step = .exchanges then i.exchanges else j.exchanges,
    if step = .queues then i.queues else j.queues,
    if step = .bindings then i.rounds else j.rounds⟩, ?_, fun other hother => ?_⟩
  · cases step <;> rfl
  · cases other <;> simp [stagesOf, Ne.symm hother]

end Itinerary

namespace Keeps

variable {step : RecoveryStep}

theorem publish (r : SubscriptionRecord) :
    Keeps step (Recovery.publish r) (· = [.ask step (.publish r) ()]) :=
  (deed (q := .publish r) fun _ _ => rfl).mono fun _ ⟨_, hw⟩ => hw

theorem replay (e : ClusterEvent) : Keeps step (Recovery.replay e) (· = [.ask step (.replay e) ()]) :=
  (deed (q := .replay e) fun _ _ => rfl).mono fun _ ⟨_, hw⟩ => hw

theorem replayAddedQueue (q : Queue) :
    Keeps .queues (Recovery.replayAddedQueue q) (· = [Itinerary.addedQueue q]) := by
  rw [Recovery.replayAddedQueue, Itinerary.addedQueue]
  split
  · exact passOver q
  · exact replay _

theorem delta {α : Type} (event : Change → α → ClusterEvent) (d : Delta α) :
    Keeps step
      (replayDelta (fun x => Recovery.replay (event .added x))
        (fun x => Recovery.replay (event .deleted x)) d)
      (· = deltaStages step event d) := by
  rw [deltaStages, List.map_eq_flatMap, List.map_eq_flatMap]
  exact (forEach_eq (fun _ => replay _) _).andThen_eq (forEach_eq (fun _ => replay _) _)

theorem bindingsOf (x : Exchange) :
    Keeps .bindings (gated (reloadBindingsOf x)) fun w => ∃ r, w = Itinerary.round x r := by
  have h : Keeps .bindings (gated (reloadBindingsOf x)) _ :=
    gate <| read (q := .readBindings x.name) (fun _ _ => rfl) fun persisted =>
      read (q := .liveBindings x.name) (fun _ _ => rfl) fun live =>
        delta .binding (.between persisted live)
  refine h.mono ?_
  rintro w ⟨_, ⟨persisted, _, ⟨live, _, rfl, rfl⟩, rfl⟩, rfl⟩
  exact ⟨⟨persisted, live⟩, rfl⟩

theorem rounds (l : List Exchange) :
    Keeps .bindings (forEach (fun x => gated (reloadBindingsOf x)) l) fun w =>
      ∃ rounds : List (Exchange × Reading Binding), rounds.map Prod.fst = l ∧
        w = rounds.flatMap fun x => Itinerary.round x.1 x.2 := by
  induction l with
  | nil => exact idle.mono fun w hw => ⟨[], rfl, hw⟩
  | cons x l ih =>
      refine ((bindingsOf x).andThen ih).mono ?_
      rintro w ⟨_, _, ⟨r, rfl⟩, ⟨rounds, rfl, rfl⟩, rfl⟩
      exact ⟨(x, r) :: rounds, rfl, rfl⟩

theorem stepOf (step : RecoveryStep) :
    Keeps step (gated (Recovery.stepOf step)) fun w => ∃ i : Itinerary, w = i.stagesOf step := by
  cases step with
  | broadcastSubscriptions =>
      have h : Keeps .broadcastSubscriptions (gated broadcastSubscriptions) _ :=
        gate <| read (q := .subscriptions) (fun _ _ => rfl) fun l => forEach_eq publish l
      refine h.mono ?_
      rintro w ⟨_, ⟨l, _, rfl, rfl⟩, rfl⟩
      refine ⟨{ (default : Itinerary) with subscriptions := l }, ?_⟩
      rw [Itinerary.stagesOf, List.map_eq_flatMap]
  | exchanges =>
      have h : Keeps .exchanges (gated reloadExchanges) _ :=
        gate <| read (q := .readExchanges) (fun _ _ => rfl) fun persisted =>
          read (q := .liveExchanges) (fun _ _ => rfl) fun live =>
            delta .exchange (.between persisted live)
      refine h.mono ?_
      rintro w ⟨_, ⟨persisted, _, ⟨live, _, rfl, rfl⟩, rfl⟩, rfl⟩
      exact ⟨{ (default : Itinerary) with exchanges := ⟨persisted, live⟩ }, rfl⟩
  | queues =>
      have h : Keeps .queues (gated reloadQueues) _ :=
        gate <| read (q := .readQueues) (fun _ _ => rfl) fun persisted =>
          read (q := .liveQueues) (fun _ _ => rfl) fun live =>
            (forEach_eq replayAddedQueue (Delta.between persisted live).toAdd).andThen_eq
              (forEach_eq (fun q => replay (.queue .deleted q))
                (Delta.between persisted live).toRemove)
      refine h.mono ?_
      rintro w ⟨_, ⟨persisted, _, ⟨live, _, rfl, rfl⟩, rfl⟩, rfl⟩
      refine ⟨{ (default : Itinerary) with queues := ⟨persisted, live⟩ }, ?_⟩
      rw [Itinerary.stagesOf, List.map_eq_flatMap, List.map_eq_flatMap]
      rfl
  | bindings =>
      have h : Keeps .bindings (gated reloadBindings) _ :=
        gate <| read (q := .readExchanges) (fun _ _ => rfl) rounds
      refine h.mono ?_
      rintro w ⟨_, ⟨_, _, ⟨rounds, rfl, rfl⟩, rfl⟩, rfl⟩
      exact ⟨{ (default : Itinerary) with rounds }, rfl⟩
  | subscriptions =>
      have h : Keeps .subscriptions (gated reloadSubscriptions) _ :=
        gate <| deed (q := .reload) fun _ _ => rfl
      refine h.mono ?_
      rintro w ⟨_, ⟨_, rfl⟩, rfl⟩
      exact ⟨default, rfl⟩

end Keeps

def conclude : Option (RecoveryStep × Stop) → RecoveryReport → Option RecoveryOutcome
  | none, report => some (.completed report)
  | some (step, .gateClosed), report => some (.halted step report)
  | some (step, .failed cause), report => some (.aborted step cause report)
  | some (_, .panicked), _ => none

theorem stepsTranscript_abides {σ : Type} (c : Collaborators σ) {l : List RecoveryStep} (hl : l.Nodup)
    (report : RecoveryReport) (task : RecoveryTask) (w : σ) :
    ∃ (i : Itinerary) (done left : List Stage) (stop : Option (RecoveryStep × Stop)),
      i.stages l = done ++ left ∧ Abides (stepsTranscript c l report task w) done left stop ∧
        ((runSteps l report).run c task w).value = conclude stop (noteAll report done) := by
  induction l generalizing report task w with
  | nil => exact ⟨default, [], [], none, rfl, .through, rfl⟩
  | cons step l ih =>
      obtain ⟨hstep, hl⟩ := List.nodup_cons.1 hl
      have hcourse := course_transcript (c := c) step (gated (stepOf step) report) task w
      rw [stepsTranscript, runSteps, Script.run_bind]
      rcases hvalue : ((gated (stepOf step) report).run c task w).value with ⟨stop, report'⟩
      rw [hvalue] at hcourse
      obtain ⟨done, left, ⟨i, hway⟩, habides, rfl⟩ := (Keeps.stepOf step).course hcourse
      cases stop with
      | none =>
          obtain rfl := habides.left_eq_nil rfl
          obtain ⟨j, done', left', stop, hstages, habides', hresult⟩ := ih hl (noteAll report done)
            ((gated (stepOf step) report).run c task w).task
            ((gated (stepOf step) report).run c task w).world
          obtain ⟨k, hown, hothers⟩ := i.exists_merged j step
          refine ⟨k, done ++ done', left', stop, ?_, ?_, ?_⟩
          · have hrest : k.stages l = j.stages l :=
              List.flatMap_congr fun other h => hothers other fun heq => hstep (heq ▸ h)
            rw [Itinerary.stages, List.flatMap_cons, hown, ← hway, List.append_nil, List.append_assoc,
              ← hstages, ← hrest]
            rfl
          · exact habides.append rfl habides'
          · rw [noteAll_append]
            simpa only [hvalue] using hresult
      | some s =>
          refine ⟨i, done, left ++ i.stages l, some (step, s), ?_, ?_, ?_⟩
          · rw [← List.append_assoc, hway]
            rfl
          · dsimp only
            rw [List.append_nil]
            exact habides.extend rfl _
          · cases s <;> simp only [hvalue] <;> rfl

/-- A pass that has come to an end has gone the first part of its way, and all of it if it has
completed. Where it stopped decides the outcome; what it has gone through is reported. -/
theorem transcript_abides {σ : Type} (c : Collaborators σ) (full : Bool) (task : RecoveryTask) (w : σ)
    (hidle : task.running = false) (hopen : task.operational = true) :
    ∃ (i : Itinerary) (done left : List Stage) (stop : Option (RecoveryStep × Stop)),
      i.stages (steps full) = done ++ left ∧ Abides (transcript c full task w) done left stop ∧
        (trigger c full task w).value = conclude stop (noteAll .empty done) := by
  obtain ⟨running, operational⟩ := task
  obtain rfl : running = false := hidle
  obtain rfl : operational = true := hopen
  have hnodup : (steps full).Nodup := by cases full <;> decide
  exact stepsTranscript_abides c hnodup .empty _ w

end Courier.Recovery
