import Courier.Proofs.Calls

namespace Courier.Recovery

inductive Entry where
  | looked (step : RecoveryStep) (isOpen : Bool)
  /-- The notices are those that came during the call. -/
  | called (step : RecoveryStep) (q : Request) (reply : Reply q.Fault q.Value)
      (notices : List HealthNotice)

namespace Entry

def notices : Entry → List HealthNotice
  | looked .. => []
  | called _ _ _ notices => notices

def granted? : Entry → Option Request
  | called _ q (.ok _) _ => some q
  | _ => none

def call? : Entry → Option (Request × Bool)
  | looked .. => none
  | called _ q reply _ => some (q, reply.isOk)

end Entry

section

variable {σ α β : Type} (c : Collaborators σ)

def Script.transcript (step : RecoveryStep) : Script α → RecoveryTask → σ → List Entry
  | done _, _, _ => []
  | gate next, task, world =>
      .looked step task.operational :: (next task.operational).transcript step task world
  | ask q next, task, world =>
      let answer := c q task world
      .called step q answer.reply answer.notices ::
        (next answer.reply).transcript step (task.observeAll answer.notices) answer.world

def stepsTranscript : List RecoveryStep → RecoveryReport → RecoveryTask → σ → List Entry
  | [], _, _, _ => []
  | step :: rest, report, task, world =>
      let script := gated (stepOf step) report
      let ending := script.run c task world
      script.transcript c step task world ++
        match ending.value with
        | (none, report) => stepsTranscript rest report ending.task ending.world
        | (some _, _) => []

def transcript (full : Bool) (task : RecoveryTask) (world : σ) : List Entry :=
  if task.running = false ∧ task.operational = true then
    stepsTranscript c (steps full) .empty { task with running := true } world
  else []

variable {c}

theorem Script.call?_transcript (step : RecoveryStep) (s : Script α) (task : RecoveryTask) (w : σ) :
    (s.transcript c step task w).filterMap Entry.call? =
      (s.calls c task w).map fun a => (a.request, a.answered) := by
  induction s generalizing task w with
  | done a => rfl
  | gate next ih => exact ih _ task w
  | ask q next ih => exact congrArg (List.cons _) (ih _ _ _)

theorem call?_stepsTranscript (l : List RecoveryStep) (report : RecoveryReport) (task : RecoveryTask)
    (w : σ) :
    (stepsTranscript c l report task w).filterMap Entry.call? =
      ((runSteps l report).calls c task w).map fun a => (a.request, a.answered) := by
  induction l generalizing report task w with
  | nil => rfl
  | cons step l ih =>
      rw [stepsTranscript, List.filterMap_append, Script.call?_transcript, runSteps, Script.calls_bind,
        List.map_append]
      rcases hvalue : ((gated (stepOf step) report).run c task w).value with
        ⟨_ | ⟨_ | _ | _⟩, report'⟩ <;> simp only [ih] <;> rfl

theorem call?_transcript (full : Bool) (task : RecoveryTask) (w : σ) :
    (transcript c full task w).filterMap Entry.call? =
      (triggerCalls c full task w).map fun a => (a.request, a.answered) := by
  obtain ⟨running, operational⟩ := task
  cases running with
  | true => rfl
  | false =>
      cases operational with
      | true => exact call?_stepsTranscript _ _ _ _
      | false => rfl

inductive Course (step : RecoveryStep) : Script α → List Entry → α → Prop
  | done (a : α) : Course step (.done a) [] a
  | gate {next : Bool → Script α} {l : List Entry} {a : α} (isOpen : Bool)
      (rest : Course step (next isOpen) l a) : Course step (.gate next) (.looked step isOpen :: l) a
  | ask {q : Request} {next : Reply q.Fault q.Value → Script α} {l : List Entry} {a : α}
      (reply : Reply q.Fault q.Value) (notices : List HealthNotice)
      (rest : Course step (next reply) l a) :
      Course step (.ask q next) (.called step q reply notices :: l) a

theorem course_transcript (step : RecoveryStep) (s : Script α) (task : RecoveryTask) (w : σ) :
    Course step s (s.transcript c step task w) (s.run c task w).value := by
  induction s generalizing task w with
  | done a => exact .done a
  | gate next ih => exact .gate _ (ih _ task w)
  | ask q next ih => exact .ask _ _ (ih _ _ _)

theorem Course.of_bind {step : RecoveryStep} {s : Script α} {f : α → Script β} {l : List Entry} {b : β}
    (h : Course step (s.bind f) l b) :
    ∃ l₁ a l₂, l = l₁ ++ l₂ ∧ Course step s l₁ a ∧ Course step (f a) l₂ b := by
  induction s generalizing l with
  | done a => exact ⟨[], a, l, rfl, .done a, h⟩
  | gate next ih =>
      cases h with
      | gate isOpen rest =>
          obtain ⟨l₁, a, l₂, rfl, hfirst, hsecond⟩ := ih isOpen rest
          exact ⟨_ :: l₁, a, l₂, rfl, .gate isOpen hfirst, hsecond⟩
  | ask q next ih =>
      cases h with
      | ask reply notices rest =>
          obtain ⟨l₁, a, l₂, rfl, hfirst, hsecond⟩ := ih reply rest
          exact ⟨_ :: l₁, a, l₂, rfl, .ask reply notices hfirst, hsecond⟩

end

inductive Stage where
  | look (step : RecoveryStep)
  | ask (step : RecoveryStep) (q : Request) (a : q.Value)
  | passOver (q : Queue)

namespace Stage

def note : Stage → RecoveryReport → RecoveryReport
  | ask _ (.publish _) _, r => { r with subscriptionsBroadcast := r.subscriptionsBroadcast + 1 }
  | ask _ (.replay e) _, r => r.count e
  | ask _ .reload _, r => { r with subscriptionsReloaded := true }
  | passOver _, r => { r with queuesSkipped := r.queuesSkipped + 1 }
  | _, r => r

def noteAll (r : RecoveryReport) (l : List Stage) : RecoveryReport := l.foldl (fun r x => x.note r) r

theorem noteAll_append (r : RecoveryReport) (l l' : List Stage) :
    noteAll r (l ++ l') = noteAll (noteAll r l) l' :=
  List.foldl_append

end Stage

open Stage (noteAll noteAll_append)

/-- The entries go through the first stages, those that are done. If they stop, they stop at the
first stage of those that are left. -/
inductive Abides : List Entry → List Stage → List Stage → Option (RecoveryStep × Stop) → Prop
  | through : Abides [] [] [] none
  | passedOver {l done left stop} (q : Queue) (rest : Abides l done left stop) :
      Abides l (.passOver q :: done) left stop
  | looked {l done left stop} (step : RecoveryStep) (rest : Abides l done left stop) :
      Abides (.looked step true :: l) (.look step :: done) left stop
  | answered {l done left stop} (step : RecoveryStep) {q : Request} (a : q.Value)
      (notices : List HealthNotice) (rest : Abides l done left stop) :
      Abides (.called step q (.ok a) notices :: l) (.ask step q a :: done) left stop
  | gateClosed (step : RecoveryStep) (left : List Stage) :
      Abides [.looked step false] [] (.look step :: left) (some (step, .gateClosed))
  | failed (step : RecoveryStep) {q : Request} (a : q.Value) (e : q.Fault)
      (notices : List HealthNotice) (left : List Stage) :
      Abides [.called step q (.error e) notices] [] (.ask step q a :: left)
        (some (step, .failed (q.cause e)))
  | panicked (step : RecoveryStep) {q : Request} (a : q.Value) (notices : List HealthNotice)
      (left : List Stage) :
      Abides [.called step q .panicked notices] [] (.ask step q a :: left) (some (step, .panicked))

namespace Abides

variable {l l' : List Entry} {done done' left left' : List Stage}
variable {stop : Option (RecoveryStep × Stop)}

theorem left_eq_nil (h : Abides l done left stop) (hstop : stop = none) : left = [] := by
  induction h with
  | through => rfl
  | passedOver _ _ ih | looked _ _ ih | answered _ _ _ _ ih => exact ih hstop
  | gateClosed | failed | panicked => cases hstop

theorem append {stop' : Option (RecoveryStep × Stop)} (h : Abides l done left stop)
    (hstop : stop = none) (h' : Abides l' done' left' stop') :
    Abides (l ++ l') (done ++ done') left' stop' := by
  induction h with
  | through => exact h'
  | passedOver q _ ih => exact .passedOver q (ih hstop)
  | looked step _ ih => exact .looked step (ih hstop)
  | answered step a notices _ ih => exact .answered step a notices (ih hstop)
  | gateClosed | failed | panicked => cases hstop

theorem extend {x : RecoveryStep × Stop} (h : Abides l done left stop) (hstop : stop = some x)
    (w : List Stage) : Abides l done (left ++ w) stop := by
  induction h with
  | through => cases hstop
  | passedOver q _ ih => exact .passedOver q (ih hstop)
  | looked step _ ih => exact .looked step (ih hstop)
  | answered step a notices _ ih => exact .answered step a notices (ih hstop)
  | gateClosed step left => exact .gateClosed step (left ++ w)
  | failed step a e notices left => exact .failed step a e notices (left ++ w)
  | panicked step a notices left => exact .panicked step a notices (left ++ w)

end Abides

structure Keeps (step : RecoveryStep) (act : Step) (way : List Stage → Prop) : Prop where
  exists_way : ∃ w, way w
  course : ∀ {report l stop r}, Course step (act report) l (stop, r) →
    ∃ done left, way (done ++ left) ∧ Abides l done left (stop.map (Prod.mk step)) ∧
      r = noteAll report done

namespace Keeps

variable {step : RecoveryStep} {act first second : Step} {way way' : List Stage → Prop}
variable {w w' : List Stage}

theorem mono (h : Keeps step act way) (hway : ∀ w, way w → way' w) : Keeps step act way' where
  exists_way := h.exists_way.imp hway
  course hcourse := by
    obtain ⟨done, left, hw, habides, hr⟩ := h.course hcourse
    exact ⟨done, left, hway _ hw, habides, hr⟩

theorem idle : Keeps step (counting id) (· = []) where
  exists_way := ⟨[], rfl⟩
  course hcourse := by
    cases hcourse
    exact ⟨[], [], rfl, .through, rfl⟩

theorem passOver (q : Queue) :
    Keeps step (counting fun t => { t with queuesSkipped := t.queuesSkipped + 1 })
      (· = [.passOver q]) where
  exists_way := ⟨_, rfl⟩
  course hcourse := by
    cases hcourse
    exact ⟨[.passOver q], [], rfl, .passedOver q .through, rfl⟩

theorem nonempty_value (q : Request) : Nonempty q.Value := by
  cases q <;> exact ⟨default⟩

theorem ask {q : Request} {next : q.Value → Step} {ways : q.Value → List Stage → Prop}
    (hnext : ∀ {a report l stop r}, Course step (next a report) l (stop, r) →
      ∃ done left, ways a (done ++ left) ∧ Abides l done left (stop.map (Prod.mk step)) ∧
        r = noteAll (Stage.note (.ask step q a) report) done)
    (hways : ∀ a, ∃ w, ways a w) :
    Keeps step (asking q next) fun w => ∃ a w', ways a w' ∧ w = .ask step q a :: w' where
  exists_way := by
    obtain ⟨a⟩ := nonempty_value q
    obtain ⟨w, hw⟩ := hways a
    exact ⟨_, a, w, hw, rfl⟩
  course hcourse := by
    obtain ⟨a⟩ := nonempty_value q
    obtain ⟨w, hw⟩ := hways a
    cases hcourse with
    | ask reply notices rest =>
        cases reply with
        | ok a =>
            obtain ⟨done, left, hway, habides, hr⟩ := hnext rest
            exact ⟨_ :: done, left, ⟨a, _, hway, rfl⟩, .answered step a notices habides, hr⟩
        | error e =>
            cases rest
            exact ⟨[], _, ⟨a, w, hw, rfl⟩, .failed step a e notices w, rfl⟩
        | panicked =>
            cases rest
            exact ⟨[], _, ⟨a, w, hw, rfl⟩, .panicked step a notices w, rfl⟩

theorem read {q : Request} {next : q.Value → Step} {ways : q.Value → List Stage → Prop}
    (hq : ∀ a r, Stage.note (.ask step q a) r = r) (hnext : ∀ a, Keeps step (next a) (ways a)) :
    Keeps step (asking q next) fun w => ∃ a w', ways a w' ∧ w = .ask step q a :: w' :=
  ask (fun hcourse => by rw [hq]; exact (hnext _).course hcourse) fun a => (hnext a).exists_way

theorem deed {q : Request} {f : RecoveryReport → RecoveryReport}
    (hq : ∀ a r, Stage.note (.ask step q a) r = f r) :
    Keeps step (asking q fun _ => counting f) fun w => ∃ a, w = [.ask step q a] := by
  have h : Keeps step (asking q fun _ => counting f) fun w =>
      ∃ a w', w' = [] ∧ w = .ask step q a :: w' :=
    ask (fun hcourse => by
      cases hcourse
      exact ⟨[], [], rfl, .through, (hq _ _).symm⟩) fun _ => ⟨[], rfl⟩
  exact h.mono fun w ⟨a, w', hw', hw⟩ => ⟨a, by rw [hw, hw']⟩

theorem gate (h : Keeps step act way) :
    Keeps step (gated act) fun w => ∃ w', way w' ∧ w = .look step :: w' where
  exists_way := by
    obtain ⟨w, hw⟩ := h.exists_way
    exact ⟨_, w, hw, rfl⟩
  course hcourse := by
    cases hcourse with
    | gate isOpen rest =>
        cases isOpen with
        | true =>
            obtain ⟨done, left, hway, habides, hr⟩ := h.course rest
            exact ⟨_ :: done, left, ⟨_, hway, rfl⟩, .looked step habides, hr⟩
        | false =>
            cases rest
            obtain ⟨w, hw⟩ := h.exists_way
            exact ⟨[], _, ⟨w, hw, rfl⟩, .gateClosed step w, rfl⟩

theorem andThen (h : Keeps step first way) (h' : Keeps step second way') :
    Keeps step (andThen first second) fun w => ∃ w₁ w₂, way w₁ ∧ way' w₂ ∧ w = w₁ ++ w₂ where
  exists_way := by
    obtain ⟨w₁, hw₁⟩ := h.exists_way
    obtain ⟨w₂, hw₂⟩ := h'.exists_way
    exact ⟨_, w₁, w₂, hw₁, hw₂, rfl⟩
  course hcourse := by
    obtain ⟨l₁, ⟨stop₁, r₁⟩, l₂, rfl, hfirst, hsecond⟩ := hcourse.of_bind
    obtain ⟨done, left, hway, habides, rfl⟩ := h.course hfirst
    cases stop₁ with
    | none =>
        obtain rfl := habides.left_eq_nil rfl
        obtain ⟨done', left', hway', habides', rfl⟩ := h'.course hsecond
        refine ⟨done ++ done', left', ⟨done, _, List.append_nil done ▸ hway, hway', ?_⟩,
          habides.append rfl habides', (noteAll_append _ _ _).symm⟩
        rw [List.append_assoc]
    | some s =>
        cases hsecond
        obtain ⟨w₂, hw₂⟩ := h'.exists_way
        refine ⟨done, left ++ w₂, ⟨_, w₂, hway, hw₂, ?_⟩, ?_, rfl⟩
        · rw [List.append_assoc]
        · rw [List.append_nil]
          exact habides.extend rfl w₂

theorem andThen_eq (h : Keeps step first (· = w)) (h' : Keeps step second (· = w')) :
    Keeps step (Recovery.andThen first second) (· = w ++ w') :=
  (h.andThen h').mono fun _ ⟨_, _, hw, hw', heq⟩ => by rw [heq, hw, hw']

theorem forEach_eq {α : Type} {act : α → Step} {words : α → List Stage}
    (hact : ∀ x, Keeps step (act x) (· = words x)) (l : List α) :
    Keeps step (forEach act l) (· = l.flatMap words) := by
  induction l with
  | nil => exact idle
  | cons x l ih => exact (hact x).andThen_eq ih

end Keeps

end Courier.Recovery
