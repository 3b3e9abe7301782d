import Courier.Proofs.Reconciled

namespace Courier.Recovery

def Reply.isOk {ε α : Type} : Reply ε α → Bool
  | ok _ => true
  | _ => false

def Request.event? : Request → Option ClusterEvent
  | replay e => some e
  | _ => none

structure Called where
  request : Request
  task : RecoveryTask
  answered : Bool
  deriving DecidableEq

section

variable {σ α β : Type} (c : Collaborators σ)

namespace Script

def calls : Script α → RecoveryTask → σ → List Called
  | done _, _, _ => []
  | gate next, task, world => (next task.operational).calls task world
  | ask q next, task, world =>
      let answer := c q task world
      ⟨q, task, answer.reply.isOk⟩ ::
        (next answer.reply).calls (task.observeAll answer.notices) answer.world

theorem calls_bind (s : Script α) (f : α → Script β) (task : RecoveryTask) (world : σ) :
    (s.bind f).calls c task world =
      let ending := s.run c task world
      s.calls c task world ++ (f ending.value).calls c ending.task ending.world := by
  induction s generalizing task world with
  | done a => rfl
  | gate next ih => exact ih _ _ _
  | ask q next ih => exact congrArg (List.cons _) (ih _ _ _)

end Script

def triggerCalls (full : Bool) (task : RecoveryTask) (world : σ) : List Called :=
  if task.running then [] else (pass full).calls c { task with running := true } world

end

def asked (l : List Called) : List ClusterEvent := l.filterMap fun a => a.request.event?

def replayed (l : List Called) : List ClusterEvent := asked (l.filter Called.answered)

@[simp] theorem asked_append (l l' : List Called) : asked (l ++ l') = asked l ++ asked l' :=
  List.filterMap_append

@[simp] theorem replayed_append (l l' : List Called) :
    replayed (l ++ l') = replayed l ++ replayed l' := by
  rw [replayed, List.filter_append, asked_append, replayed, replayed]

theorem asked_cons (a : Called) (l : List Called) :
    asked (a :: l) = a.request.event?.toList ++ asked l := by
  rw [asked, List.filterMap_cons]
  cases a.request.event? <;> rfl

theorem replayed_cons (a : Called) (l : List Called) :
    replayed (a :: l) =
      (if a.answered then a.request.event?.toList else []) ++ replayed l := by
  rw [replayed, List.filter_cons]
  split
  · exact asked_cons a _
  · rfl

theorem replayed_sublist (l : List Called) : (replayed l).Sublist (asked l) :=
  List.filter_sublist.filterMap _

def Persisted.Answers (p : Persisted) (v : LiveView) : (q : Request) → q.Value → Prop
  | .readExchanges, a => a = p.exchanges
  | .readQueues, a => a = p.queues
  | .readBindings exchange, a => a = p.bindings exchange
  | .liveExchanges, a => a = v.exchangeList
  | .liveQueues, a => a = v.queueList
  | .liveBindings exchange, a => a = v.bindingsOf exchange
  | _, _ => True

/-- Collaborators that answer from one store and one live view. The store stays as it is; the view is
changed by the events that are replayed, and by nothing else. -/
structure Mirror {σ : Type} (c : Collaborators σ) (p : Persisted) where
  live : σ → LiveView
  /-- In such a world the collaborators keep to it, and they leave such a world. -/
  holds : σ → Prop
  holds_call : ∀ q task w, holds w → holds (c q task w).world
  answers : ∀ q task w a, holds w → (c q task w).reply = .ok a → p.Answers (live w) q a
  live_call : ∀ q task w, holds w → q.event? = none → live (c q task w).world = live w
  live_replay : ∀ e task w, holds w → live (c (.replay e) task w).world =
    if (c (.replay e) task w).reply.isOk then (live w).apply e else live w

namespace Mirror

variable {σ α : Type} {c : Collaborators σ} {p : Persisted} (m : Mirror c p)
variable {task : RecoveryTask} {w : σ}

theorem live_after (hw : m.holds w) (q : Request) (task : RecoveryTask) :
    m.live (c q task w).world =
      (m.live w).follow (if (c q task w).reply.isOk then q.event?.toList else []) := by
  cases q with
  | replay e =>
      rw [m.live_replay e task w hw]
      split <;> rfl
  | _ =>
      refine (m.live_call _ task w hw rfl).trans ?_
      split <;> rfl

/-- The view after a script is the one before it, with the events that were replayed. -/
theorem run (hw : m.holds w) (s : Script α) (task : RecoveryTask) :
    m.holds (s.run c task w).world ∧
      m.live (s.run c task w).world = (m.live w).follow (replayed (s.calls c task w)) := by
  induction s generalizing task w with
  | done a => exact ⟨hw, rfl⟩
  | gate next ih => exact ih _ hw _
  | ask q next ih =>
      obtain ⟨hholds, hlive⟩ :=
        ih _ (m.holds_call q task w hw) (task.observeAll (c q task w).notices)
      refine ⟨hholds, hlive.trans ?_⟩
      rw [m.live_after hw, ← LiveView.follow_append, Script.calls, replayed_cons]

theorem trigger (hw : m.holds w) (full : Bool) (task : RecoveryTask) :
    m.holds (trigger c full task w).world ∧
      m.live (trigger c full task w).world =
        (m.live w).follow (replayed (triggerCalls c full task w)) := by
  rw [Recovery.trigger, triggerCalls]
  split
  · exact ⟨hw, rfl⟩
  · exact m.run hw _ _

end Mirror

structure Obliging {σ : Type} (c : Collaborators σ) where
  holds : σ → Prop
  holds_call : ∀ q task w, holds w → holds (c q task w).world
  answered : ∀ q task w, holds w → (c q task w).reply.isOk = true
  operational : ∀ q (task : RecoveryTask) w, holds w → task.operational = true →
    (task.observeAll (c q task w).notices).operational = true

end Courier.Recovery
