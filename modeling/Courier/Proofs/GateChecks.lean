import Courier.Proofs.Tallies

namespace Courier

def HealthNotice.gate? : HealthNotice → Option Bool
  | down .context _ => some false
  | up .context => some true
  | _ => none

namespace RecoveryTask

theorem observe_eq (t : RecoveryTask) (n : HealthNotice) :
    t.observe n = { t with operational := n.gate?.getD t.operational } := by
  cases n with
  | down store cause => cases store <;> rfl
  | up store => cases store <;> rfl

theorem observeAll_eq (t : RecoveryTask) (l : List HealthNotice) :
    t.observeAll l =
      { t with operational := ((l.filterMap HealthNotice.gate?).getLast?).getD t.operational } := by
  induction l generalizing t with
  | nil => rfl
  | cons n l ih =>
      have h : t.observeAll (n :: l) = (t.observe n).observeAll l := rfl
      rw [h, ih, observe_eq, List.filterMap_cons]
      cases n.gate? with
      | none => rfl
      | some isOpen => rw [List.getLast?_cons, Option.getD_some, Option.getD_some]

theorem observeAll_append (t : RecoveryTask) (l l' : List HealthNotice) :
    t.observeAll (l ++ l') = (t.observeAll l).observeAll l' :=
  List.foldl_append

end RecoveryTask

namespace Recovery

def leftOpen (l : List HealthNotice) : Bool := ((l.filterMap HealthNotice.gate?).getLast?).getD true

def heard (l : List Entry) : List HealthNotice := l.flatMap Entry.notices

/-- Reads of the context store. A reload reads it, too. -/
def Request.isRead : Request → Bool
  | readExchanges | readQueues | readBindings _ | reload => true
  | _ => false

namespace Entry

def isRead : Entry → Bool
  | looked .. => false
  | called _ q _ _ => q.isRead

def isLook : Entry → Bool
  | looked .. => true
  | called .. => false

end Entry

section

variable {σ α : Type} {c : Collaborators σ}

def Truthful (task : RecoveryTask) (l : List Entry) : Prop :=
  ∀ before step isOpen after, l = before ++ .looked step isOpen :: after →
    isOpen = (task.observeAll (heard before)).operational

theorem Truthful.nil (task : RecoveryTask) : Truthful task [] := by
  intro before step isOpen after h
  exact absurd h.symm (List.append_ne_nil_of_right_ne_nil _ (List.cons_ne_nil _ _))

theorem Truthful.cons {task : RecoveryTask} {x : Entry} {l : List Entry}
    (hx : ∀ step isOpen, x = .looked step isOpen → isOpen = task.operational)
    (h : Truthful (task.observeAll x.notices) l) : Truthful task (x :: l) := by
  intro before step isOpen after heq
  cases before with
  | nil => exact hx step isOpen (List.cons.inj heq).1
  | cons y before =>
      obtain ⟨rfl, hl⟩ := List.cons.inj heq
      rw [heard, List.flatMap_cons, RecoveryTask.observeAll_append]
      exact h before step isOpen after hl

theorem Truthful.append {task : RecoveryTask} {l l' : List Entry} (h : Truthful task l)
    (h' : Truthful (task.observeAll (heard l)) l') : Truthful task (l ++ l') := by
  intro before step isOpen after heq
  rcases List.append_eq_append_iff.1 heq with ⟨m, rfl, hm⟩ | ⟨m, rfl, hm⟩
  · rw [heard, List.flatMap_append, RecoveryTask.observeAll_append]
    exact h' m step isOpen after hm
  · cases m with
    | nil =>
        rw [List.append_nil] at h'
        have hfirst := h' [] step isOpen after hm.symm
        exact hfirst
    | cons y m =>
        obtain ⟨rfl, -⟩ := List.cons.inj hm
        exact h before step isOpen m rfl

theorem Script.truthful_transcript (step : RecoveryStep) (s : Script α) (task : RecoveryTask)
    (w : σ) : Truthful task (s.transcript c step task w) := by
  induction s generalizing task w with
  | done a => exact .nil task
  | gate next ih => exact .cons (fun _ _ h => by cases h; rfl) (ih _ task w)
  | ask q next ih => exact .cons nofun (ih _ _ _)

theorem Script.run_task (step : RecoveryStep) (s : Script α) (task : RecoveryTask) (w : σ) :
    (s.run c task w).task = task.observeAll (heard (s.transcript c step task w)) := by
  induction s generalizing task w with
  | done a => rfl
  | gate next ih => exact ih _ task w
  | ask q next ih =>
      rw [Script.transcript, heard, List.flatMap_cons, RecoveryTask.observeAll_append]
      exact ih _ _ _

theorem truthful_stepsTranscript (l : List RecoveryStep) (report : RecoveryReport)
    (task : RecoveryTask) (w : σ) : Truthful task (stepsTranscript c l report task w) := by
  induction l generalizing report task w with
  | nil => exact .nil task
  | cons step l ih =>
      refine (Script.truthful_transcript step _ task w).append ?_
      rw [← Script.run_task]
      rcases ((gated (stepOf step) report).run c task w).value with ⟨_ | _, report'⟩
      · exact ih report' _ _
      · exact .nil _

theorem started_of_transcript {full : Bool} {task : RecoveryTask} {w : σ}
    {before after : List Entry} {x : Entry} (h : transcript c full task w = before ++ x :: after) :
    task.running = false ∧ task.operational = true := by
  by_contra hstart
  rw [transcript, if_neg hstart] at h
  exact absurd h.symm (List.append_ne_nil_of_right_ne_nil _ (List.cons_ne_nil _ _))

theorem looked_eq {full : Bool} {task : RecoveryTask} {w : σ} {before after : List Entry}
    {step : RecoveryStep} {isOpen : Bool}
    (h : transcript c full task w = before ++ .looked step isOpen :: after) :
    isOpen = leftOpen (heard before) := by
  have hstart := started_of_transcript h
  rw [transcript, if_pos hstart] at h
  -- the gate was open when the pass began
  have hlook := truthful_stepsTranscript _ _ _ _ before step isOpen after h
  rw [RecoveryTask.observeAll_eq, hstart.2] at hlook
  exact hlook

end

/-- Every read comes right after a look. The first one may rest on a look before the list. -/
def Checked : Bool → List Stage → Prop
  | _, [] => True
  | _, .look _ :: l => Checked true l
  | looked, .ask _ q _ :: l => (q.isRead = true → looked = true) ∧ Checked false l
  | _, .passOver _ :: l => Checked false l

namespace Checked

variable {l l' : List Stage}

theorem of_false (looked : Bool) (h : Checked false l) : Checked looked l := by
  cases l with
  | nil => trivial
  | cons x l =>
      cases x with
      | look | passOver => exact h
      | ask => exact ⟨fun hq => absurd (h.1 hq) Bool.false_ne_true, h.2⟩

theorem append {looked : Bool} (h : Checked looked l) (h' : Checked false l') :
    Checked looked (l ++ l') := by
  induction l generalizing looked with
  | nil => exact h'.of_false looked
  | cons x l ih =>
      cases x with
      | look | passOver => exact ih h
      | ask => exact ⟨h.1, ih h.2⟩

theorem flatMap {β : Type} {f : β → List Stage} (h : ∀ x, Checked false (f x)) (l : List β) :
    Checked false (l.flatMap f) := by
  induction l with
  | nil => trivial
  | cons x l ih => exact (h x).append ih

theorem map {β : Type} {f : β → Stage} (h : ∀ x, Checked false [f x]) (l : List β) :
    Checked false (l.map f) := by
  rw [List.map_eq_flatMap]
  exact flatMap h l

theorem replay (step : RecoveryStep) (e : ClusterEvent) :
    Checked false [.ask step (.replay e) ()] := ⟨id, trivial⟩

theorem replays {β : Type} (step : RecoveryStep) (event : β → ClusterEvent) (l : List β) :
    Checked false (l.map fun x => .ask step (.replay (event x)) ()) :=
  map (fun _ => replay _ _) l

theorem addedQueue (q : Queue) : Checked false [Itinerary.addedQueue q] := by
  rw [Itinerary.addedQueue]
  split
  · trivial
  · exact replay _ _

theorem round (x : Exchange) (r : Reading Binding) : Checked false (Itinerary.round x r) :=
  ⟨fun _ => rfl, nofun, (replays _ _ _).append (replays _ _ _)⟩

theorem stagesOf (i : Itinerary) (step : RecoveryStep) : Checked false (i.stagesOf step) := by
  cases step with
  | broadcastSubscriptions => 
      exact ⟨nofun, map (f := fun r => .ask .broadcastSubscriptions (.publish r) ())
        (fun _ => ⟨nofun, trivial⟩) _⟩
  | exchanges => exact ⟨fun _ => rfl, nofun, (replays _ _ _).append (replays _ _ _)⟩
  | queues => exact ⟨fun _ => rfl, nofun, (map addedQueue _).append (replays _ _ _)⟩
  | bindings => exact ⟨fun _ => rfl, flatMap (fun _ => round _ _) _⟩
  | subscriptions => exact ⟨fun _ => rfl, trivial⟩

theorem stages (i : Itinerary) (l : List RecoveryStep) : Checked false (i.stages l) :=
  flatMap (stagesOf i) l

end Checked

def LooksFirst : Bool → List Entry → Prop
  | _, [] => True
  | _, .looked _ isOpen :: l => LooksFirst isOpen l
  | looked, .called _ q _ _ :: l => (q.isRead = true → looked = true) ∧ LooksFirst false l

theorem Abides.looksFirst {l : List Entry} {done left : List Stage}
    {stop : Option (RecoveryStep × Stop)} (h : Abides l done left stop) {looked : Bool}
    (hchecked : Checked looked (done ++ left)) : LooksFirst looked l := by
  induction h generalizing looked with
  | through | gateClosed => trivial
  | passedOver q _ ih => exact ih (Checked.of_false looked hchecked)
  | looked step _ ih => exact ih hchecked
  | answered step a notices _ ih => exact ⟨hchecked.1, ih hchecked.2⟩
  | failed | panicked => exact ⟨hchecked.1, trivial⟩

theorem LooksFirst.before_read {looked : Bool} {before after : List Entry} {x : Entry}
    (h : LooksFirst looked (before ++ x :: after)) (hx : x.isRead = true) :
    before = [] ∧ looked = true ∨ ∃ before' step, before = before' ++ [.looked step true] := by
  induction before generalizing looked with
  | nil =>
      cases x with
      | looked => exact nomatch hx
      | called => exact .inl ⟨rfl, h.1 hx⟩
  | cons y before ih =>
      cases y with
      | looked step isOpen =>
          rcases ih h with ⟨rfl, rfl⟩ | ⟨before', step', rfl⟩
          · exact .inr ⟨[], step, rfl⟩
          · exact .inr ⟨_ :: before', step', rfl⟩
      | called =>
          rcases ih h.2 with ⟨-, hlooked⟩ | ⟨before', step', rfl⟩
          · exact nomatch hlooked
          · exact .inr ⟨_ :: before', step', rfl⟩

section

variable {σ α : Type} {c c' : Collaborators σ}

def Alike (c c' : Collaborators σ) : Prop :=
  ∀ q task w, (c q task w).reply = (c' q task w).reply ∧ (c q task w).world = (c' q task w).world ∧
    (c q task w).notices.filterMap HealthNotice.gate? =
      (c' q task w).notices.filterMap HealthNotice.gate?

theorem Alike.run (h : Alike c c') (s : Script α) (task : RecoveryTask) (w : σ) :
    s.run c task w = s.run c' task w ∧ s.calls c task w = s.calls c' task w := by
  induction s generalizing task w with
  | done a => exact ⟨rfl, rfl⟩
  | gate next ih => exact ih _ task w
  | ask q next ih =>
      obtain ⟨hreply, hworld, hnotices⟩ := h q task w
      obtain ⟨hrun, hcalls⟩ := ih (c' q task w).reply (task.observeAll (c' q task w).notices)
        (c' q task w).world
      rw [Script.run, Script.run, Script.calls, Script.calls]
      simp only [hreply, hworld, RecoveryTask.observeAll_eq, hnotices] at hrun hcalls ⊢
      exact ⟨hrun, congrArg (List.cons _) hcalls⟩

theorem Alike.trigger (h : Alike c c') (full : Bool) (task : RecoveryTask) (w : σ) :
    trigger c full task w = trigger c' full task w ∧
      triggerCalls c full task w = triggerCalls c' full task w := by
  obtain ⟨hrun, hcalls⟩ := h.run (pass full) { task with running := true } w
  rw [Recovery.trigger, Recovery.trigger, triggerCalls, triggerCalls, hrun, hcalls]
  exact ⟨rfl, rfl⟩

end

/-- How a pass ends that finds the gate closed since this entry: at its next look, at a call that is
not answered and comes first, or, since nothing is left to look for, with the reload. -/
inductive EndsClosed (x : Entry) (after : List Entry) : Option RecoveryOutcome → Prop
  | halted (quiet : List Entry) (step : RecoveryStep) (r : RecoveryReport)
      (hafter : after = quiet ++ [.looked step false]) (hquiet : ∀ y ∈ quiet, y.isLook = false) :
      EndsClosed x after (some (.halted step r))
  | aborted (init : List Entry) (step : RecoveryStep) {q : Request} (e : q.Fault)
      (notices : List HealthNotice) (r : RecoveryReport)
      (hlast : x :: after = init ++ [.called step q (.error e) notices])
      (hquiet : ∀ y ∈ after, y.isLook = false) :
      EndsClosed x after (some (.aborted step (q.cause e) r))
  | panicked (init : List Entry) (step : RecoveryStep) (q : Request) (notices : List HealthNotice)
      (hlast : x :: after = init ++ [.called step q .panicked notices])
      (hquiet : ∀ y ∈ after, y.isLook = false) : EndsClosed x after none
  | completed (notices : List HealthNotice) (r : RecoveryReport)
      (hx : x = .called .subscriptions .reload (.ok ()) notices) (hafter : after = []) :
      EndsClosed x after (some (.completed r))

namespace Abides

variable {l : List Entry} {done done' left : List Stage} {stop : Option (RecoveryStep × Stop)}

theorem split (h : Abides l (done ++ done') left stop) :
    ∃ l₁ l₂, l = l₁ ++ l₂ ∧ Abides l₁ done [] none ∧ Abides l₂ done' left stop := by
  induction done generalizing l with
  | nil => exact ⟨[], l, rfl, .through, h⟩
  | cons x done ih =>
      cases h with
      | passedOver q rest =>
          obtain ⟨l₁, l₂, rfl, hfirst, hsecond⟩ := ih rest
          exact ⟨l₁, l₂, rfl, .passedOver q hfirst, hsecond⟩
      | looked step rest =>
          obtain ⟨l₁, l₂, rfl, hfirst, hsecond⟩ := ih rest
          exact ⟨_ :: l₁, l₂, rfl, .looked step hfirst, hsecond⟩
      | answered step a notices rest =>
          obtain ⟨l₁, l₂, rfl, hfirst, hsecond⟩ := ih rest
          exact ⟨_ :: l₁, l₂, rfl, .answered step a notices hfirst, hsecond⟩

theorem ends_with_reload {i : Itinerary} {full : Bool}
    (h : Abides l (i.stages (steps full)) [] none) :
    ∃ l' notices, l = l' ++ [.looked .subscriptions true] ++
      [.called .subscriptions .reload (.ok ()) notices] := by
  rw [i.stages_steps full] at h
  obtain ⟨l₁, l₂, rfl, -, hlast⟩ := h.split
  rw [Itinerary.stagesOf] at hlast
  cases hlast with
  | looked step rest =>
      cases rest with
      | answered step a notices rest =>
          cases rest
          exact ⟨l₁, notices, by rw [List.append_assoc]; rfl⟩

theorem endsClosed {i : Itinerary} {full : Bool} (h : Abides l done left stop)
    (hstages : i.stages (steps full) = done ++ left) (r : RecoveryReport)
    {before after : List Entry} {x : Entry} (hl : l = before ++ x :: after) (hx : x.isLook = false)
    (hclosed : ∀ step isOpen, .looked step isOpen ∈ after → isOpen = false) :
    EndsClosed x after (conclude stop r) := by
  have hquiet : ∀ y ∈ after, y.trouble? = none → y.isLook = false := by
    intro y hy hfine
    cases y with
    | looked step isOpen =>
        obtain rfl := hclosed step isOpen hy
        exact nomatch hfine
    | called => rfl
  rcases h.trouble with ⟨rfl, hfine⟩ | ⟨l', y, rfl, hfine, hstop, hy⟩
  · obtain rfl := h.left_eq_nil rfl
    rw [List.append_nil] at hstages
    rw [← hstages] at h
    obtain ⟨l', notices, hend⟩ := h.ends_with_reload
    obtain ⟨init, hinit, hl'⟩ := exists_init_of_concat_eq (hend.symm.trans hl)
    cases init with
    | nil =>
        cases hinit
        exact .completed notices r rfl rfl
    | cons z init =>
        -- the look before the reload would have to show an open gate
        obtain ⟨rfl, rfl⟩ := List.cons.inj hinit
        obtain ⟨init', hinit', -⟩ := exists_init_of_concat_eq hl'
        have hlook : .looked .subscriptions true ∈ x :: init := by simp [hinit']
        rcases List.mem_cons.1 hlook with rfl | hlook
        · exact nomatch hx
        · exact nomatch hclosed _ _ (List.mem_append_left _ hlook)
  · obtain ⟨init, hinit, rfl⟩ := exists_init_of_concat_eq hl
    cases y with
    | looked step isOpen =>
        cases init with
        | nil =>
            cases hinit
            exact nomatch hx
        | cons z init =>
            obtain ⟨rfl, rfl⟩ := List.cons.inj hinit
            obtain rfl := hclosed step isOpen (by simp)
            obtain rfl := hy
            refine .halted init step r rfl fun y hy => ?_
            exact hquiet y (List.mem_append_left _ hy) (hfine y (by simp [hy]))
    | called step q reply notices =>
        have hquiet' : ∀ y ∈ after, y.isLook = false := by
          intro y hy
          have hmem : y ∈ init ++ [.called step q reply notices] :=
            hinit ▸ List.mem_cons_of_mem x hy
          rcases List.mem_append.1 hmem with hmem | hmem
          · exact hquiet y hy (hfine y (List.mem_append_right _ hmem))
          · rw [List.mem_singleton.1 hmem]
            rfl
        cases reply with
        | ok a => exact absurd hy.symm hstop
        | error e =>
            obtain rfl := hy
            exact .aborted init step e notices r hinit hquiet'
        | panicked =>
            obtain rfl := hy
            exact .panicked init step q notices hinit hquiet'

end Abides

/-- The gate keeps a pass from reading a store that is down, whoever answers its calls. Every read,
and the reload, is asked for when the last notice of the context store left the gate open; notices
of the message store make no difference; and when a call leaves the gate closed and nothing opens it
again, nothing is read any more, and the pass ends at its next look. -/
theorem reads_gated {σ : Type} (c : Collaborators σ) (full : Bool) (task : RecoveryTask) (w : σ) :
    (∀ before x after, transcript c full task w = before ++ x :: after → x.isRead = true →
      leftOpen (heard before) = true) ∧
    (∀ c', Alike c c' → trigger c full task w = trigger c' full task w ∧
      triggerCalls c full task w = triggerCalls c' full task w) ∧
    ∀ before x after, transcript c full task w = before ++ x :: after → x.isLook = false →
      (∀ l, l <+: after → leftOpen (heard (before ++ x :: l)) = false) →
        (∀ y ∈ after, y.isRead = false) ∧
          EndsClosed x after (trigger c full task w).value := by
  have hreads : ∀ before x after, transcript c full task w = before ++ x :: after →
      x.isRead = true → leftOpen (heard before) = true := by
    intro before x after hl hx
    obtain ⟨hidle, hopen⟩ := started_of_transcript hl
    obtain ⟨i, done, left, stop, hstages, habides, -⟩ := transcript_abides c full task w hidle hopen
    have hfirst := habides.looksFirst (hstages ▸ Checked.stages i _)
    rw [hl] at hfirst
    rcases hfirst.before_read hx with ⟨-, hlooked⟩ | ⟨before', step, rfl⟩
    · exact nomatch hlooked
    · -- nothing is heard between the look and the read
      rw [List.append_assoc] at hl
      rw [heard, List.flatMap_append]
      exact (List.append_nil (heard before')).symm ▸ (looked_eq hl).symm
  refine ⟨hreads, fun c' h => h.trigger full task w, fun before x after hl hx hclosed => ⟨?_, ?_⟩⟩
  · intro y hy
    obtain ⟨l, rest, rfl⟩ := List.append_of_mem hy
    by_contra hread
    rw [Bool.not_eq_false] at hread
    rw [← List.cons_append, ← List.append_assoc] at hl
    have hopen := hreads _ y rest hl hread
    rw [hclosed l (List.prefix_append _ _)] at hopen
    exact Bool.false_ne_true hopen
  · obtain ⟨hidle, hopen⟩ := started_of_transcript hl
    obtain ⟨i, done, left, stop, hstages, habides, hvalue⟩ :=
      transcript_abides c full task w hidle hopen
    rw [hvalue]
    refine habides.endsClosed hstages _ hl hx fun step isOpen hlook => ?_
    obtain ⟨l, rest, rfl⟩ := List.append_of_mem hlook
    rw [← List.cons_append, ← List.append_assoc] at hl
    rw [looked_eq hl]
    exact hclosed l (List.prefix_append _ _)

/-- The store goes down while an exchange is removed: the queues are not read. -/
theorem reads_gated_beset :
    let down := Entry.called .exchanges (.replay (.exchange .deleted (.new "old" "direct")))
      (.ok ()) [.down .context (.unavailable "db down")]
    ∃ before, transcript Cluster.collaborators false default beset =
        before ++ down :: [.looked .queues false] ∧
      EndsClosed down [.looked .queues false]
        (trigger Cluster.collaborators false default beset).value := by
  intro down
  obtain ⟨before, hl, hopen⟩ : ∃ before, transcript Cluster.collaborators false default beset =
      before ++ down :: [.looked .queues false] ∧ heard before = [] :=
    ⟨(transcript Cluster.collaborators false default beset).take 4, rfl, rfl⟩
  have hclosed : ∀ l, l <+: [Entry.looked .queues false] →
      leftOpen (heard (before ++ down :: l)) = false := by
    intro l hprefix
    rw [heard, List.flatMap_append, ← heard, hopen]
    rcases List.prefix_cons_iff.1 hprefix with rfl | ⟨l, rfl, hnil⟩
    · rfl
    · rw [List.prefix_nil.1 hnil]
      rfl
  exact ⟨before, hl, ((reads_gated _ _ _ _).2.2 before down _ hl rfl hclosed).2⟩
end Recovery

end Courier
