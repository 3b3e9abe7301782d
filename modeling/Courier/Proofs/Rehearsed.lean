import Courier.Proofs.Calls
import Courier.Recovery.Rehearsal

namespace Courier.Recovery

namespace Cluster

def persisted (w : Cluster) : Persisted :=
  ⟨w.exchanges, w.queues, fun exchange => w.bindings.filter fun b => b.exchange = exchange⟩

theorem proper_persisted (w : Cluster) : w.persisted.Proper := fun _ _ hb =>
  of_decide_eq_true (List.mem_filter.1 hb).2

theorem play_cluster (l : List Cue) (s : Scene) :
    ∃ sights health, (play l s).2.cluster = { s.cluster with sights := sights, health := health } := by
  induction l generalizing s with
  | nil => exact ⟨_, _, rfl⟩
  | cons cue l ih =>
      rw [play]
      cases cue.act with
      | panic => exact ⟨_, _, rfl⟩
      | _ =>
          obtain ⟨sights, health, hplay⟩ := ih _
          exact ⟨sights, health, hplay⟩

theorem visit_cases {ε α : Type} (point : Point) (sight : Sight) (asError : BrokerError → ε)
    (effect : Cluster → α × Cluster) (task : RecoveryTask) (w : Cluster) :
    ∃ cues sights health,
      let w' := { w with cues := cues, sights := sights, health := health }
      (∃ notices, visit point sight asError effect task w =
          ⟨.ok (effect w').1, notices, (effect w').2⟩) ∨
        (visit point sight asError effect task w).reply.isOk = false ∧
          (visit point sight asError effect task w).world = w' := by
  rw [visit]
  split
  next due waiting _ =>
    obtain ⟨sights, health, hplay⟩ :=
      play_cluster due ⟨task, [], { w.see sight with cues := waiting }, none⟩
    refine ⟨waiting, sights, health, ?_⟩
    split
    · next heq =>
        rw [heq] at hplay
        exact .inr ⟨rfl, hplay⟩
    · next s heq =>
        rw [heq] at hplay
        split
        · exact .inr ⟨rfl, hplay⟩
        · refine .inl ⟨s.notices, ?_⟩
          rw [hplay]
          rfl

section

variable {β : Type} (f : Cluster → β)
variable (hnoted : ∀ w cues sights health, f { w with cues, sights, health } = f w)
include hnoted

theorem visit_kept {ε α : Type} {point : Point} {sight : Sight} {asError : BrokerError → ε}
    {effect : Cluster → α × Cluster} (heffect : ∀ w, f (effect w).2 = f w) (task : RecoveryTask)
    (w : Cluster) : f (visit point sight asError effect task w).world = f w := by
  obtain ⟨cues, sights, health, ⟨notices, hvisit⟩ | ⟨-, hworld⟩⟩ :=
    visit_cases point sight asError effect task w
  · rw [hvisit]
    exact (heffect _).trans (hnoted ..)
  · rw [hworld]
    exact hnoted ..

theorem call_kept {q : Request} (hreplay : ∀ e, q = .replay e → ∀ w, f (receive e w).2 = f w)
    (task : RecoveryTask) (w : Cluster) : f (collaborators q task w).world = f w := by
  cases q with
  | subscriptions | liveExchanges | liveQueues | liveBindings _ => rfl
  | replay e => exact visit_kept f hnoted (hreplay e rfl) task w
  | _ => exact visit_kept f hnoted (fun _ => rfl) task w

end

theorem read_answers {α : Type} {point : Point} {sight : Sight} {f : Cluster → α}
    (hnoted : ∀ w cues sights health, f { w with cues, sights, health } = f w) {task : RecoveryTask}
    {w : Cluster} {a : α} (ha : (read point sight f task w).reply = .ok a) : a = f w := by
  obtain ⟨cues, sights, health, ⟨notices, hvisit⟩ | ⟨hreply, -⟩⟩ :=
    visit_cases point sight asStoreError (fun w => (f w, w)) task w
  · rw [read, hvisit] at ha
    exact (Reply.ok.inj ha).symm.trans (hnoted ..)
  · rw [← read, ha] at hreply
    exact nomatch hreply

def mirror (p : Persisted) : Mirror collaborators p where
  live := live
  holds w := w.applies = true ∧ w.persisted = p
  holds_call q task w hw := by
    have hreceive : ∀ e w, (receive e w).2.applies = w.applies ∧
        (receive e w).2.persisted = w.persisted := fun e w => by
      rw [receive]
      split <;> exact ⟨rfl, rfl⟩
    exact ⟨(call_kept applies (fun _ _ _ _ => rfl) (fun e _ w => (hreceive e w).1) task w).trans hw.1,
      (call_kept persisted (fun _ _ _ _ => rfl) (fun e _ w => (hreceive e w).2) task w).trans hw.2⟩
  answers q task w a hw hreply := by
    obtain ⟨-, rfl⟩ := hw
    cases q with
    | readExchanges => exact read_answers (fun _ _ _ _ => rfl) hreply
    | readQueues => exact read_answers (fun _ _ _ _ => rfl) hreply
    | readBindings exchange => exact read_answers (fun _ _ _ _ => rfl) hreply
    | liveExchanges | liveQueues | liveBindings _ => exact (Reply.ok.inj hreply).symm
    | _ => trivial
  live_call q task w _ hq := call_kept live (fun _ _ _ _ => rfl)
    (fun e hreplay => by rw [hreplay] at hq; exact nomatch hq) task w
  live_replay e task w hw := by
    obtain ⟨cues, sights, health, ⟨notices, hvisit⟩ | ⟨hreply, hworld⟩⟩ :=
      visit_cases (.ofEvent e) (.event e) id (receive e) task w
    · rw [collaborators, hvisit, receive, if_pos hw.1]
      rfl
    · rw [collaborators, hreply, hworld]
      rfl

theorem visit_uncued {ε α : Type} (point : Point) (sight : Sight) (asError : BrokerError → ε)
    (effect : Cluster → α × Cluster) (task : RecoveryTask) {w : Cluster} (hw : w.cues = []) :
    visit point sight asError effect task w =
      ⟨.ok (effect (w.see sight)).1, [], (effect (w.see sight)).2⟩ := by
  obtain ⟨exchanges, queues, bindings, subscriptions, live, applies, cues, sights, health⟩ := w
  obtain rfl : cues = [] := hw
  rfl

theorem call_uncued (q : Request) (task : RecoveryTask) {w : Cluster} (hw : w.cues = []) :
    (collaborators q task w).reply.isOk = true ∧ (collaborators q task w).notices = [] ∧
      (collaborators q task w).world.cues = [] := by
  cases q with
  | subscriptions | liveExchanges | liveQueues | liveBindings _ => exact ⟨rfl, rfl, hw⟩
  | replay e =>
      rw [collaborators, visit_uncued _ _ _ _ task hw, receive]
      refine ⟨rfl, rfl, ?_⟩
      dsimp only
      split <;> exact hw
  | publish _ | reload =>
      rw [collaborators, visit_uncued _ _ _ _ task hw]
      exact ⟨rfl, rfl, hw⟩
  | readExchanges | readQueues | readBindings _ =>
      rw [collaborators, read, visit_uncued _ _ _ _ task hw]
      exact ⟨rfl, rfl, hw⟩

def obliging : Obliging collaborators where
  holds w := w.cues = []
  holds_call q task _ hw := (call_uncued q task hw).2.2
  answered q task _ hw := (call_uncued q task hw).1
  operational q task _ hw hopen := by
    rw [(call_uncued q task hw).2.1]
    exact hopen

end Cluster

end Courier.Recovery
