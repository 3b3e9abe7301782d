import Courier.Proofs.GateChecks

namespace Courier.Recovery

open Stage (noteAll)

variable {σ : Type} (c : Collaborators σ)

structure Occasion (σ : Type) where
  meanwhile : σ → σ
  notices : List HealthNotice
  full : Bool

def Occasion.trigger (o : Occasion σ) (task : RecoveryTask) (w : σ) :
    Ending σ (Option RecoveryOutcome) :=
  Recovery.trigger c o.full (task.observeAll o.notices) (o.meanwhile w)

def Occasion.transcript (o : Occasion σ) (task : RecoveryTask) (w : σ) : List Entry :=
  Recovery.transcript c o.full (task.observeAll o.notices) (o.meanwhile w)

def series : List (Occasion σ) → RecoveryTask → σ → Ending σ (List (Option RecoveryOutcome))
  | [], task, w => ⟨[], task, w⟩
  | o :: l, task, w =>
      let first := o.trigger c task w
      let rest := series l first.task first.world
      { rest with value := first.value :: rest.value }

theorem series_concat (l : List (Occasion σ)) (o : Occasion σ) (task : RecoveryTask) (w : σ) :
    series c (l ++ [o]) task w =
      let s := series c l task w
      let last := o.trigger c s.task s.world
      ⟨s.value ++ [last.value], last.task, last.world⟩ := by
  induction l generalizing task w with
  | nil => rfl
  | cons first l ih =>
      rw [List.cons_append, series, ih]
      rfl

def Unwinds (l : List Entry) : Prop := ∃ x ∈ l, ∃ step, x.trouble? = some (step, .panicked)

def Performs (full : Bool) (l : List Entry) (outcome : Option RecoveryOutcome) : Prop :=
  ∃ (i : Itinerary) (done left : List Stage) (stop : Option (RecoveryStep × Stop)),
    i.stages (steps full) = done ++ left ∧ Abides l done left stop ∧
      outcome = conclude stop (noteAll .empty done)

namespace Performs

variable {full : Bool} {l : List Entry} {outcome : Option RecoveryOutcome}

theorem eq_none_iff (h : Performs full l outcome) : outcome = none ↔ Unwinds l := by
  obtain ⟨i, done, left, stop, -, habides, rfl⟩ := h
  constructor
  · intro hnone
    rcases stop with _ | ⟨step, _ | cause | _⟩
    · exact nomatch hnone
    · exact nomatch hnone
    · exact nomatch hnone
    · rcases habides.trouble with ⟨hstop, -⟩ | ⟨l', x, rfl, -, -, hx⟩
      · exact nomatch hstop
      · exact ⟨x, List.mem_append_right _ (List.mem_singleton_self x), step, hx⟩
  · rintro ⟨x, hmem, step, hx⟩
    obtain ⟨before, after, hl⟩ := List.append_of_mem hmem
    obtain ⟨-, hstop⟩ := habides.after_trouble hl (by simp [hx])
    rw [← hstop, hx]
    rfl

theorem ne_refused (h : Performs full l outcome) :
    outcome ≠ some .alreadyRunning ∧ outcome ≠ some .paused := by
  obtain ⟨i, done, left, stop, -, -, rfl⟩ := h
  rcases stop with _ | ⟨step, _ | cause | _⟩ <;> exact ⟨nofun, nofun⟩

end Performs

namespace Occasion

variable {c} {o : Occasion σ} {task : RecoveryTask} {w : σ}

theorem running_observeAll (task : RecoveryTask) (l : List HealthNotice) :
    (task.observeAll l).running = task.running := by
  rw [RecoveryTask.observeAll_eq]

theorem trigger_of_running (h : task.running = true) :
    o.trigger c task w = ⟨some .alreadyRunning, task.observeAll o.notices, o.meanwhile w⟩ ∧
      o.transcript c task w = [] := by
  rw [← running_observeAll task o.notices] at h
  constructor
  · exact if_pos h
  · exact if_neg fun hboth => Bool.false_ne_true (hboth.1.symm.trans h)

theorem trigger_of_closed (h : task.running = false)
    (hclosed : (task.observeAll o.notices).operational = false) :
    o.trigger c task w = ⟨some .paused, task.observeAll o.notices, o.meanwhile w⟩ ∧
      o.transcript c task w = [] := by
  rw [← running_observeAll task o.notices] at h
  rw [trigger, transcript]
  rcases htask : task.observeAll o.notices with ⟨running, operational⟩
  rw [htask] at h hclosed
  obtain rfl : running = false := h
  obtain rfl : operational = false := hclosed
  exact ⟨rfl, rfl⟩

theorem performs_of_open (h : task.running = false)
    (hopen : (task.observeAll o.notices).operational = true) :
    Performs o.full (o.transcript c task w) (o.trigger c task w).value :=
  transcript_abides c o.full _ _ ((running_observeAll task o.notices).trans h) hopen

theorem value_eq_none_iff (h : task.running = false) :
    (o.trigger c task w).value = none ↔ Unwinds (o.transcript c task w) := by
  cases hgate : (task.observeAll o.notices).operational with
  | true => exact (performs_of_open h hgate).eq_none_iff
  | false =>
      obtain ⟨htrigger, htranscript⟩ := trigger_of_closed (c := c) (w := w) h hgate
      rw [htrigger, htranscript]
      constructor
      · exact nofun
      · rintro ⟨x, hx, -⟩
        exact absurd hx List.not_mem_nil

theorem running_trigger (h : task.running = false) :
    (o.trigger c task w).task.running = (o.trigger c task w).value.isNone := by
  rw [← running_observeAll task o.notices] at h
  rw [trigger, Recovery.trigger, if_neg (by simp [h])]

end Occasion

theorem running_series_iff (operational : Bool) (w : σ) (l : List (Occasion σ)) :
    (series c l ⟨false, operational⟩ w).task.running = true ↔
      ∃ before o after, l = before ++ o :: after ∧
        let s := series c before ⟨false, operational⟩ w
        Unwinds (o.transcript c s.task s.world) := by
  induction l using List.reverseRecOn with
  | nil =>
      constructor
      · exact nofun
      · rintro ⟨before, o, after, hl, -⟩
        simp at hl
  | append_singleton l o ih =>
      rw [series_concat]
      dsimp only
      cases hrunning : (series c l ⟨false, operational⟩ w).task.running with
      | true =>
          rw [(Occasion.trigger_of_running hrunning).1]
          constructor
          · intro _
            obtain ⟨before, o', after, rfl, hunwinds⟩ := ih.1 hrunning
            exact ⟨before, o', after ++ [o], by simp, hunwinds⟩
          · intro _
            exact (Occasion.running_observeAll _ _).trans hrunning
      | false =>
          rw [Occasion.running_trigger hrunning, Option.isNone_iff_eq_none,
            Occasion.value_eq_none_iff hrunning]
          constructor
          · intro hunwinds
            exact ⟨l, o, [], rfl, hunwinds⟩
          · rintro ⟨before, o', after, hl, hunwinds⟩
            obtain ⟨rfl, hlast⟩ | ⟨after', hl', -⟩ : (before = l ∧ o' = o) ∨
                ∃ after', l = before ++ o' :: after' ∧ after = after' ++ [o] := by
              obtain ⟨init, hinit, hbefore⟩ := exists_init_of_concat_eq hl
              cases init with
              | nil =>
                  rw [List.append_nil] at hbefore
                  exact .inl ⟨hbefore.symm, (List.cons.inj hinit).1⟩
              | cons x init =>
                  obtain ⟨rfl, hafter⟩ := List.cons.inj hinit
                  exact .inr ⟨init, hbefore, hafter⟩
            · rwa [hlast] at hunwinds
            · -- an earlier panic would have left the guard taken
              have htaken := ih.2 ⟨before, o', after', hl', hunwinds⟩
              exact absurd (hrunning.symm.trans htaken) Bool.false_ne_true

/-- The guard is free after a trigger, and a pass is made of the next one or it finds the gate closed,
unless a panic has unwound out of a pass. From then on the guard is taken and every trigger is
refused. -/
theorem idle_unless_unwound (operational : Bool) (w : σ) (l : List (Occasion σ)) :
    let s := series c l ⟨false, operational⟩ w
    (s.task.running = true ↔
      ∃ before o after, l = before ++ o :: after ∧
        let s := series c before ⟨false, operational⟩ w
        Unwinds (o.transcript c s.task s.world)) ∧
    ∀ o : Occasion σ,
      (s.task.running = false →
        ((o.trigger c s.task s.world).task.running = true ↔
          Unwinds (o.transcript c s.task s.world)) ∧
        ((s.task.observeAll o.notices).operational = false →
          o.trigger c s.task s.world =
            ⟨some .paused, s.task.observeAll o.notices, o.meanwhile s.world⟩) ∧
        ((s.task.observeAll o.notices).operational = true →
          Performs o.full (o.transcript c s.task s.world) (o.trigger c s.task s.world).value)) ∧
      (s.task.running = true →
        o.trigger c s.task s.world =
            ⟨some .alreadyRunning, s.task.observeAll o.notices, o.meanwhile s.world⟩ ∧
          o.transcript c s.task s.world = []) := by
  intro s
  refine ⟨running_series_iff c operational w l, fun o => ⟨fun hfree => ⟨?_, ?_, ?_⟩, ?_⟩⟩
  · rw [Occasion.running_trigger hfree, Option.isNone_iff_eq_none, Occasion.value_eq_none_iff hfree]
  · intro hclosed
    exact (Occasion.trigger_of_closed hfree hclosed).1
  · exact Occasion.performs_of_open hfree
  · exact Occasion.trigger_of_running

def troubled : List (Occasion Cluster) :=
  [⟨id, [], false⟩, ⟨id, [], false⟩, ⟨id, [.up .context], true⟩]

def shaken : Occasion Cluster :=
  ⟨fun w => { w with cues := w.cues ++ [⟨.reload, 1, .panic⟩] }, [], false⟩

/-- The guard outlives passes that are halted and aborted, but not the one that panics. -/
theorem idle_unless_unwound_troubled :
    let s₁ := series Cluster.collaborators (troubled.take 1) ⟨false, true⟩ beset
    let s := series Cluster.collaborators troubled ⟨false, true⟩ beset
    let s' := series Cluster.collaborators (troubled ++ [shaken]) ⟨false, true⟩ beset
    s.value = [some (.halted .queues ⟨0, 1, 1, 0, 0, 0, 0, 0, false⟩), some .paused,
        some (.aborted .bindings (.rejected "too late") ⟨0, 0, 0, 1, 1, 1, 1, 0, false⟩)] ∧
      (Occasion.trigger Cluster.collaborators ⟨id, [], false⟩ s₁.task s₁.world).value =
        some .paused ∧
      Performs false (shaken.transcript Cluster.collaborators s.task s.world) none ∧
      Unwinds (shaken.transcript Cluster.collaborators s.task s.world) ∧
      ∀ o : Occasion Cluster,
        (o.trigger Cluster.collaborators s'.task s'.world).value = some .alreadyRunning := by
  intro s₁ s s'
  have hclosed := ((idle_unless_unwound Cluster.collaborators true beset (troubled.take 1)).2
    ⟨id, [], false⟩).1 rfl
  have hopen := ((idle_unless_unwound Cluster.collaborators true beset troubled).2 shaken).1 rfl
  refine ⟨rfl, ?_, hopen.2.2 rfl, hopen.1.1 rfl, fun o => ?_⟩
  · rw [hclosed.2.1 rfl]
  · have htaken := ((idle_unless_unwound Cluster.collaborators true beset (troubled ++ [shaken])).2
      o).2 rfl
    rw [htaken.1]

theorem refused_after_panic :
    ¬ ∀ (l : List (Occasion Cluster)) (w : Cluster),
      let s := series Cluster.collaborators l ⟨false, true⟩ w
      s.task.running = false ∧ ∀ o : Occasion Cluster,
        (o.trigger Cluster.collaborators s.task s.world).value ≠ some .alreadyRunning := by
  intro hall
  obtain ⟨hfree, -⟩ := hall [shaken] default
  exact nomatch hfree

end Courier.Recovery
