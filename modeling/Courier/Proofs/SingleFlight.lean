import Courier.Proofs.GateChecks

namespace Courier.Recovery

namespace Script

variable {α β : Type}

def Returns (kind : α → Prop) : Script α → Prop
  | done a => kind a
  | gate next => ∀ isOpen, (next isOpen).Returns kind
  | ask _ next => (∀ a, (next (.ok a)).Returns kind) ∧ ∀ e, (next (.error e)).Returns kind

theorem Returns.bind {kind : α → Prop} {kind' : β → Prop} {s : Script α} {f : α → Script β}
    (h : s.Returns kind) (hf : ∀ a, kind a → (f a).Returns kind') : (s.bind f).Returns kind' := by
  induction s with
  | done a => exact hf a h
  | gate next ih =>
      intro isOpen
      exact ih isOpen (h isOpen)
  | ask q next ih =>
      constructor
      · intro a
        exact ih _ (h.1 a)
      · intro e
        exact ih _ (h.2 e)

end Script

theorem returns_of_course {α : Type} {kind : α → Prop} (step : RecoveryStep) {s : Script α}
    (h : ∀ l a, Course step s l a → (∀ x ∈ l, x.trouble? ≠ some (step, .panicked)) → kind a) :
    s.Returns kind := by
  induction s with
  | done a => exact h [] a (.done a) fun _ hx => absurd hx List.not_mem_nil
  | gate next ih =>
      intro isOpen
      have hlook : (Entry.looked step isOpen).trouble? ≠ some (step, .panicked) := by
        cases isOpen <;> exact fun h => nomatch h
      exact ih isOpen fun l a hcourse hl =>
        h _ a (.gate isOpen hcourse) (List.forall_mem_cons.2 ⟨hlook, hl⟩)
  | ask q next ih =>
      constructor
      · intro b
        exact ih _ fun l a hcourse hl =>
          h _ a (.ask (.ok b) [] hcourse) (List.forall_mem_cons.2 ⟨nofun, hl⟩)
      · intro e
        exact ih _ fun l a hcourse hl =>
          h _ a (.ask (.error e) [] hcourse) (List.forall_mem_cons.2 ⟨nofun, hl⟩)

theorem gated_stepOf_returns (step : RecoveryStep) (report : RecoveryReport) :
    (gated (stepOf step) report).Returns fun x => x.1 ≠ some .panicked := by
  refine returns_of_course step fun l x hcourse hl hpanicked => ?_
  obtain ⟨done, left, -, habides, -⟩ := (Keeps.stepOf step).course hcourse
  rw [hpanicked] at habides
  rcases habides.trouble with ⟨hstop, -⟩ | ⟨l', y, rfl, -, -, hy⟩
  · exact nomatch hstop
  · exact hl y (List.mem_append_right _ (List.mem_singleton_self y)) hy

theorem runSteps_returns (l : List RecoveryStep) (report : RecoveryReport) :
    (runSteps l report).Returns (· ≠ none) := by
  induction l generalizing report with
  | nil => exact Option.some_ne_none _
  | cons step l ih =>
      refine (gated_stepOf_returns step report).bind ?_
      rintro ⟨_ | _ | _ | _, report'⟩ hstop
      · exact ih report'
      · exact Option.some_ne_none _
      · exact Option.some_ne_none _
      · exact absurd rfl hstop

/-- Only a call that panics keeps a pass from coming to an outcome. -/
theorem pass_returns (full : Bool) : (pass full).Returns (· ≠ none) := by
  intro isOpen
  cases isOpen with
  | true => exact runSteps_returns _ _
  | false => exact Option.some_ne_none _

structure Flight where
  number : Nat
  rest : Script (Option RecoveryOutcome)
  calling : Bool

/-- The task, how many passes there have been, and the passes under way in each thread. A pass that
was triggered from inside a call comes before the one that has made the call. -/
structure Traffic (θ : Type) where
  task : RecoveryTask
  started : Nat
  flights : θ → List Flight

inductive Signal (θ : Type) where
  | triggered (t : θ) (full : Bool) (refusal : Option RecoveryOutcome)
  | looked (t : θ)
  | called (t : θ) (number : Nat) (q : Request)
  | replied (t : θ) (number : Nat) (q : Request) (reply : Reply q.Fault q.Value)
  | ended (t : θ) (number : Nat) (outcome : Option RecoveryOutcome)
  | noticed (notice : HealthNotice)

namespace Signal

variable {θ : Type}

def panics : Signal θ → Bool
  | replied _ _ _ .panicked => true
  | _ => false

def caller? : Signal θ → Option Nat
  | called _ number _ | replied _ number _ _ => some number
  | _ => none

def request? : Signal θ → Option Request
  | called _ _ q => some q
  | _ => none

theorem request?_noticed (l : List HealthNotice) :
    (l.map (noticed : HealthNotice → Signal θ)).filterMap request? = [] := by
  rw [List.filterMap_map]
  exact List.filterMap_eq_nil_iff.2 fun _ _ => rfl

end Signal

namespace Traffic

variable {θ : Type} [DecidableEq θ]

def start (operational : Bool) : Traffic θ := ⟨⟨false, operational⟩, 0, fun _ => []⟩

def put (s : Traffic θ) (t : θ) (l : List Flight) : Traffic θ :=
  { s with flights := Function.update s.flights t l }

/-- A thread may trigger a pass while it has none, and from inside a call. -/
def CanTrigger (s : Traffic θ) (t : θ) : Prop := ∀ f ∈ (s.flights t).head?, f.calling = true

inductive Step : Traffic θ → Signal θ → Traffic θ → Prop
  | taken (s t full) (hfree : s.task.running = false) (ht : s.CanTrigger t) :
      Step s (.triggered t full none)
        { task := { s.task with running := true }
          started := s.started + 1
          flights := Function.update s.flights t
            (⟨s.started, pass full, false⟩ :: s.flights t) }
  | refused (s t full) (hheld : s.task.running = true) (ht : s.CanTrigger t) :
      Step s (.triggered t full (some .alreadyRunning)) s
  | looked (s t) {number next rest} (ht : s.flights t = ⟨number, .gate next, false⟩ :: rest) :
      Step s (.looked t) (s.put t (⟨number, next s.task.operational, false⟩ :: rest))
  | called (s t) {number q next rest} (ht : s.flights t = ⟨number, .ask q next, false⟩ :: rest) :
      Step s (.called t number q) (s.put t (⟨number, .ask q next, true⟩ :: rest))
  | replied (s t) {number q next rest} (reply)
      (ht : s.flights t = ⟨number, .ask q next, true⟩ :: rest) :
      Step s (.replied t number q reply) (s.put t (⟨number, next reply, false⟩ :: rest))
  /-- The guard is given back, whoever holds it. -/
  | ended (s t) {number outcome rest}
      (ht : s.flights t = ⟨number, .done (some outcome), false⟩ :: rest) :
      Step s (.ended t number (some outcome))
        { s.put t rest with task := { s.task with running := false } }
  /-- A panic leaves the guard as it is. -/
  | unwound (s t) {number rest} (ht : s.flights t = ⟨number, .done none, false⟩ :: rest) :
      Step s (.ended t number none) (s.put t rest)
  | noticed (s notice) : Step s (.noticed notice) { s with task := s.task.observe notice }

inductive Run (s : Traffic θ) : List (Signal θ) → Traffic θ → Prop
  | nil : Run s [] s
  | snoc {l e s' s''} (h : Run s l s') (hstep : Step s' e s'') : Run s (l ++ [e]) s''

/-- The guard is free and no pass is under way, or it is held by the one pass that is: the last one
that was started. -/
inductive Orderly : Traffic θ → Prop
  | idle (task started) (hfree : task.running = false) : Orderly ⟨task, started, fun _ => []⟩
  | flying (task t) (f : Flight) (hheld : task.running = true) (hrest : f.rest.Returns (· ≠ none)) :
      Orderly ⟨task, f.number + 1, Function.update (fun _ => []) t [f]⟩

theorem running_observe (task : RecoveryTask) (n : HealthNotice) :
    (task.observe n).running = task.running := by
  rw [RecoveryTask.observe_eq]

namespace Orderly

variable {s s' : Traffic θ} {t : θ} {f g : Flight} {rest : List Flight} {e : Signal θ}

theorem only (h : Orderly s) (ht : s.flights t = f :: rest) :
    rest = [] ∧ s.flights = Function.update (fun _ => []) t [f] ∧ s.started = f.number + 1 ∧
      s.task.running = true ∧ f.rest.Returns (· ≠ none) := by
  cases h with
  | idle => exact nomatch ht
  | flying task t' f' hheld hrest =>
      by_cases heq : t = t'
      · subst heq
        dsimp only at ht
        rw [Function.update_self] at ht
        obtain ⟨rfl, rfl⟩ := List.cons.inj ht
        exact ⟨rfl, rfl, rfl, hheld, hrest⟩
      · dsimp only at ht
        rw [Function.update_of_ne heq] at ht
        exact nomatch ht

theorem put (h : Orderly s) (ht : s.flights t = f :: rest) (hnumber : g.number = f.number)
    (hrest : f.rest.Returns (· ≠ none) → g.rest.Returns (· ≠ none)) :
    Orderly (s.put t (g :: rest)) := by
  obtain ⟨rfl, hflights, hstarted, hheld, hreturns⟩ := h.only ht
  rw [Traffic.put, hflights, hstarted, Function.update_idem, ← hnumber]
  exact .flying _ t g hheld (hrest hreturns)

theorem land (h : Orderly s) (ht : s.flights t = f :: rest) :
    Orderly { s.put t rest with task := { s.task with running := false } } := by
  obtain ⟨rfl, hflights, -⟩ := h.only ht
  rw [Traffic.put, hflights, Function.update_idem, Function.update_eq_self]
  exact .idle _ _ rfl

theorem step (h : Orderly s) (hstep : Step s e s') (hcalm : e.panics = false) : Orderly s' := by
  cases hstep with
  | taken t full hfree =>
      cases h with
      | idle task started => exact .flying _ t ⟨started, pass full, false⟩ rfl (pass_returns full)
      | flying task t' f hheld => exact absurd (hfree.symm.trans hheld) Bool.false_ne_true
  | refused => exact h
  | looked t ht => exact h.put ht rfl fun hrest => hrest _
  | called t ht => exact h.put ht rfl id
  | replied t reply ht =>
      refine h.put ht rfl fun hrest => ?_
      cases reply with
      | ok a => exact hrest.1 a
      | error e => exact hrest.2 e
      | panicked => exact nomatch hcalm
  | ended t ht => exact h.land ht
  | unwound t ht => exact absurd rfl (h.only ht).2.2.2.2
  | noticed notice =>
      cases h with
      | idle task started hfree => exact .idle _ _ ((running_observe task notice).trans hfree)
      | flying task t f hheld hrest =>
          exact .flying _ t f ((running_observe task notice).trans hheld) hrest

theorem caller (h : Orderly s) (hstep : Step s e s') {n : Nat} (hn : e.caller? = some n) :
    s.started = n + 1 := by
  cases hstep with
  | called t ht | replied t reply ht =>
      obtain rfl := Option.some.inj hn
      exact (h.only ht).2.2.1
  | _ => exact nomatch hn

theorem running (h : Orderly s) (ht : s.flights t ≠ []) : s.task.running = true := by
  obtain ⟨f, rest, hf⟩ := List.exists_cons_of_ne_nil ht
  obtain ⟨-, -, -, hheld, -⟩ := h.only hf
  exact hheld

theorem length_le (h : Orderly s) (t : θ) : (s.flights t).length ≤ 1 := by
  rcases hf : s.flights t with _ | ⟨f, rest⟩
  · exact Nat.zero_le 1
  · obtain ⟨rfl, -⟩ := h.only hf
    exact Nat.le_refl 1

theorem same_thread (h : Orderly s) {t' : θ} (ht : s.flights t ≠ []) (ht' : s.flights t' ≠ []) :
    t = t' := by
  obtain ⟨f, rest, hf⟩ := List.exists_cons_of_ne_nil ht
  obtain ⟨-, hflights, -⟩ := h.only hf
  by_contra hne
  rw [hflights, Function.update_of_ne (Ne.symm hne)] at ht'
  exact ht' rfl

theorem free_iff (h : Orderly s) : s.task.running = false ↔ ∀ t, s.flights t = [] := by
  constructor
  · intro hfree t
    by_contra ht
    exact Bool.false_ne_true (hfree.symm.trans (h.running ht))
  · intro hnone
    cases h with
    | idle task started hfree => exact hfree
    | flying task t f =>
        have ht := hnone t
        dsimp only at ht
        rw [Function.update_self] at ht
        exact nomatch ht

end Orderly

theorem Step.started_le {s s' : Traffic θ} {e : Signal θ} (h : Step s e s') :
    s.started ≤ s'.started := by
  cases h with
  | taken => exact Nat.le_succ _
  | _ => exact Nat.le_refl _

theorem triggered_iff {s s' : Traffic θ} {t : θ} {full : Bool} {refusal : Option RecoveryOutcome}
    (hheld : s.task.running = true) (ht : s.CanTrigger t) :
    Step s (.triggered t full refusal) s' ↔ refusal = some .alreadyRunning ∧ s' = s := by
  constructor
  · intro hstep
    cases hstep with
    | taken _ _ hfree => exact absurd (hfree.symm.trans hheld) Bool.false_ne_true
    | refused => exact ⟨rfl, rfl⟩
  · rintro ⟨rfl, rfl⟩
    exact .refused s' t full hheld ht

theorem Run.orderly {s₀ s : Traffic θ} {l : List (Signal θ)} (h : Run s₀ l s) (h₀ : Orderly s₀)
    (hcalm : ∀ e ∈ l, e.panics = false) :
    Orderly s ∧ (l.filterMap Signal.caller?).Pairwise (· ≤ ·) ∧
      ∀ n ∈ l.filterMap Signal.caller?, n < s.started := by
  induction h with
  | nil => exact ⟨h₀, .nil, fun _ hn => absurd hn List.not_mem_nil⟩
  | @snoc l e s' s'' h hstep ih =>
      obtain ⟨hl, he⟩ := List.forall_mem_append.1 hcalm
      obtain ⟨hs', hsorted, hbound⟩ := ih hl
      have hcaller : ∀ n, e.caller? = some n → s'.started = n + 1 := fun n hn => hs'.caller hstep hn
      have hle := hstep.started_le
      refine ⟨hs'.step hstep (he e (List.mem_singleton_self e)), ?_, ?_⟩
      · rw [List.filterMap_append, List.pairwise_append]
        refine ⟨hsorted, ?_, ?_⟩
        · cases hn : e.caller? <;> simp [hn]
        · -- whoever calls now was started last
          intro n hn n' hn'
          have hlast := hcaller n' (by simpa using hn')
          have hearlier := hbound n hn
          omega
      · intro n hn
        rw [List.filterMap_append, List.mem_append] at hn
        rcases hn with hn | hn
        · exact (hbound n hn).trans_le hle
        · have hlast := hcaller n (by simpa using hn)
          omega

theorem Run.append {s s' s'' : Traffic θ} {l l' : List (Signal θ)} (h : Run s l s')
    (h' : Run s' l' s'') : Run s (l ++ l') s'' := by
  induction h' with
  | nil => rwa [List.append_nil]
  | snoc _ hstep ih =>
      rw [← List.append_assoc]
      exact .snoc ih hstep

theorem Run.cons {s s' s'' : Traffic θ} {e : Signal θ} {l : List (Signal θ)} (hstep : Step s e s')
    (h : Run s' l s'') : Run s (e :: l) s'' :=
  (Run.snoc .nil hstep).append h

theorem run_noticed (s : Traffic θ) (l : List HealthNotice) :
    Run s (l.map .noticed) { s with task := s.task.observeAll l } := by
  induction l generalizing s with
  | nil => exact .nil
  | cons n l ih => exact .cons (.noticed s n) (ih { s with task := s.task.observe n })

variable {σ : Type} (c : Collaborators σ)

/-- A pass that nobody disturbs goes through its script, with these calls. -/
theorem exists_run_script {s : Traffic θ} {t : θ} {number : Nat} {rest : List Flight}
    (script : Script (Option RecoveryOutcome)) (w : σ)
    (ht : s.flights t = ⟨number, script, false⟩ :: rest) :
    ∃ l, Run s l ⟨(script.run c s.task w).task, s.started, Function.update s.flights t
        (⟨number, .done (script.run c s.task w).value, false⟩ :: rest)⟩ ∧
      l.filterMap Signal.request? = (script.calls c s.task w).map Called.request := by
  induction script generalizing s w with
  | done o =>
      refine ⟨[], ?_, rfl⟩
      rw [Script.run, ← ht, Function.update_eq_self]
      exact .nil
  | gate next ih =>
      obtain ⟨l, hrun, hcalls⟩ := ih s.task.operational
        (s := s.put t (⟨number, next s.task.operational, false⟩ :: rest)) w
        (Function.update_self ..)
      rw [Traffic.put, Function.update_idem] at hrun
      exact ⟨_ :: l, .cons (.looked s t ht) hrun, hcalls⟩
  | ask q next ih =>
      -- the call begins, its notices come, and it ends
      let out := s.put t (⟨number, .ask q next, true⟩ :: rest)
      let back : Traffic θ := { out with task := s.task.observeAll (c q s.task w).notices }
      have hback : back.flights t = ⟨number, .ask q next, true⟩ :: rest := Function.update_self ..
      obtain ⟨l, hrun, hcalls⟩ := ih (c q s.task w).reply
        (s := back.put t (⟨number, next (c q s.task w).reply, false⟩ :: rest)) (c q s.task w).world
        (Function.update_self ..)
      refine ⟨.called t number q :: ((c q s.task w).notices.map .noticed ++
        .replied t number q (c q s.task w).reply :: l), ?_, ?_⟩
      · refine .cons (.called s t ht) ((run_noticed out _).append ?_)
        refine .cons (.replied back t _ hback) ?_
        simp only [out, back, Traffic.put, Function.update_idem] at hrun ⊢
        exact hrun
      · rw [List.filterMap_cons, List.filterMap_append, Signal.request?_noticed]
        exact congrArg (List.cons q) hcalls

theorem running_run {α : Type} (script : Script α) (task : RecoveryTask) (w : σ) :
    (script.run c task w).task.running = task.running := by
  rw [Script.run_task .exchanges, RecoveryTask.observeAll_eq]

/-- A trigger that finds the guard free and is left alone does what it does when there is no other
thread: it leaves the same task behind, makes the same calls and comes to the same outcome. -/
theorem exists_run_trigger {s : Traffic θ} {t : θ} (full : Bool) (w : σ)
    (hfree : s.task.running = false) (ht : s.CanTrigger t) :
    ∃ l s', Run s (l ++ [.ended t s.started (trigger c full s.task w).value]) s' ∧
      s'.task = (trigger c full s.task w).task ∧ s'.flights = s.flights ∧
      l.filterMap Signal.request? = (triggerCalls c full s.task w).map Called.request := by
  let up : Traffic θ := ⟨{ s.task with running := true }, s.started + 1,
    Function.update s.flights t (⟨s.started, pass full, false⟩ :: s.flights t)⟩
  have hup : up.flights t = ⟨s.started, pass full, false⟩ :: s.flights t := Function.update_self ..
  obtain ⟨l, hrun, hcalls⟩ := exists_run_script c (pass full) w hup
  have hheld : ((pass full).run c up.task w).task.running = true := running_run c _ _ w
  rw [trigger, triggerCalls, if_neg (by simp [hfree]), if_neg (by simp [hfree])]
  rcases hending : (pass full).run c { s.task with running := true } w with ⟨value, task, w'⟩
  have hending' : (pass full).run c up.task w = ⟨value, task, w'⟩ := hending
  rw [hending'] at hrun hheld
  have hback : ∀ l,
      Function.update (Function.update up.flights t l) t (s.flights t) = s.flights := by
    intro l
    rw [Function.update_idem, Function.update_idem, Function.update_eq_self]
  refine ⟨.triggered t full none :: l, ?_⟩
  have hflight := Run.cons (.taken s t full hfree ht) hrun
  cases value with
  | none =>
      refine ⟨_, hflight.snoc (.unwound _ t (Function.update_self ..)), ?_, hback _, hcalls⟩
      obtain ⟨running, operational⟩ := task
      obtain rfl : running = true := hheld
      rfl
  | some o => exact ⟨_, hflight.snoc (.ended _ t (Function.update_self ..)), rfl, hback _, hcalls⟩

/-- A pass is executed in one thread at most, and no other before it is over: its calls are not
mixed with those of another pass, a trigger meanwhile is refused and leaves everything as it is, and
the guard is free just when there is no pass. -/
theorem single_flight {operational : Bool} {l : List (Signal θ)} {s : Traffic θ}
    (h : Run (start operational) l s) (hcalm : ∀ e ∈ l, e.panics = false) :
    (∀ t, (s.flights t).length ≤ 1) ∧
      (∀ t t', s.flights t ≠ [] → s.flights t' ≠ [] → t = t') ∧
      (l.filterMap Signal.caller?).Pairwise (· ≤ ·) ∧
      (s.task.running = false ↔ ∀ t, s.flights t = []) ∧
      ∀ t', s.flights t' ≠ [] → ∀ full,
        (∀ t refusal s', s.CanTrigger t →
          (Step s (.triggered t full refusal) s' ↔ refusal = some .alreadyRunning ∧ s' = s)) ∧
        ∀ (σ : Type) (c : Collaborators σ) (w : σ),
          trigger c full s.task w = ⟨some .alreadyRunning, s.task, w⟩ ∧
            triggerCalls c full s.task w = [] := by
  obtain ⟨horderly, hsorted, -⟩ := h.orderly (.idle _ _ rfl) hcalm
  refine ⟨horderly.length_le, fun _ _ => horderly.same_thread, hsorted, horderly.free_iff, ?_⟩
  intro t' ht' full
  have hheld := horderly.running ht'
  constructor
  · intro t refusal s' ht
    exact triggered_iff hheld ht
  · intro σ c w
    rw [trigger, triggerCalls, if_pos hheld, if_pos hheld]
    exact ⟨rfl, rfl⟩

/-- While a call of the first pass is out, another thread and the call itself ask for a pass in
vain. The next trigger finds the guard free. -/
theorem single_flight_contended :
    let cause := StoreError.unavailable "db down"
    let l : List (Signal Bool) := [.triggered false false none, .looked false, .looked false,
      .called false 0 .readExchanges, .triggered true true (some .alreadyRunning),
      .triggered false false (some .alreadyRunning), .replied false 0 .readExchanges (.error cause),
      .ended false 0 (some (.aborted .exchanges (.store cause) .empty)), .triggered true true none]
    ∃ s, Run (start true) l s ∧ s.flights true ≠ [] ∧ s.flights false = [] := by
  intro cause l
  have hcalm : ∀ e ∈ l, e.panics = false := by simp [l, Signal.panics]
  have hidle : ∀ {s : Traffic Bool} {t : Bool}, s.flights t = [] → s.CanTrigger t := by
    intro s t ht f hf
    rw [ht] at hf
    exact nomatch hf
  obtain ⟨s, hrun, hflies⟩ : ∃ s, Run (start true) l s ∧ s.flights true ≠ [] := by
    refine ⟨_, .cons (.taken _ false false rfl (hidle rfl)) <| .cons (.looked _ false rfl) <|
      .cons (.looked _ false rfl) <| .cons (.called _ false rfl) <|
      .cons (.refused _ true true rfl (hidle rfl)) <| .cons (.refused _ false false rfl ?_) <|
      .cons (.replied _ false _ rfl) <| .cons (.ended _ false rfl) <|
      .cons (.taken _ true true rfl (hidle rfl)) .nil, List.cons_ne_nil _ _⟩
    rintro f ⟨⟩
    rfl
  refine ⟨s, hrun, hflies, ?_⟩
  by_contra hother
  exact Bool.false_ne_true ((single_flight hrun hcalm).2.1 false true hother hflies)

end Traffic

end Courier.Recovery
