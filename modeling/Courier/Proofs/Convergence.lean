import Courier.Proofs.Rehearsed
import Courier.Proofs.Replays

namespace Courier.Recovery

/-- Once a pass has completed, the next one finds nothing to replay, however it ends, and leaves the
live view as it is. If nothing stops it, it completes, and reports no more than the queues that it
passed over. -/
theorem second_pass_idle {σ : Type} {c : Collaborators σ} {p : Persisted} (m : Mirror c p)
    (hp : p.Proper) {full : Bool} {task : RecoveryTask} {w w' : σ} {r : RecoveryReport}
    (hw : m.holds w) (hkeyed : (m.live w).Keyed)
    (hfirst : (trigger c full task w).value = some (.completed r)) (hw' : m.holds w')
    (hsame : m.live w' = m.live (trigger c full task w).world) (full' : Bool)
    (task' : RecoveryTask) :
    asked (triggerCalls c full' task' w') = [] ∧
      m.live (trigger c full' task' w').world = m.live w' ∧
      (∀ r', (trigger c full' task' w').value = some (.completed r') →
        r'.topology = { RecoveryReport.empty with
          queuesSkipped := p.queues.countP fun q =>
            isSkipped q && !(m.live w').queues.contains q.name }) ∧
      ∀ o : Obliging c, o.holds w' → task'.running = false → task'.operational = true →
        ∃ r', (trigger c full' task' w').value = some (.completed r') := by
  have hlive : m.live w' = (m.live w).follow (p.events (m.live w)) :=
    hsame.trans (m.live_completed hw hfirst)
  have hkeyed' : (m.live w').Keyed := hlive ▸ hkeyed.follow _
  have hnone : p.events (m.live w') = [] :=
    Persisted.Reconciled.events_eq_nil (hlive ▸ Persisted.reconciled hkeyed hp) hkeyed' hp
  have hasked : asked (triggerCalls c full' task' w') = [] :=
    List.prefix_nil.1 (hnone ▸ m.asked_trigger hw')
  have hreplayed : replayed (triggerCalls c full' task' w') = [] :=
    List.sublist_nil.1 (hasked ▸ replayed_sublist _)
  refine ⟨hasked, ?_, fun r' hr' => ?_, fun o ho hidle hopen => o.completes ho hidle hopen full'⟩
  · rw [(m.trigger hw' full' task').2, hreplayed]
    rfl
  · rw [m.report_completed hw' hr', hnone, Persisted.skipped_withExchanges hkeyed']
    exact congrArg (fun k => { RecoveryReport.empty with queuesSkipped := k }) (Nat.zero_add _)

def drifted : Cluster :=
  { (default : Cluster) with
    exchanges := [.new "orders" "topic", .new "orders" "direct"]
    queues := [.new "jobs" .amqp, .new "sensors" .mqtt]
    bindings := [⟨"orders", "sensors", "k", .amqp⟩, ⟨"orders", "gone", "k", .amqp⟩]
    live := LiveView.empty.follow [.exchange .added (.new "old" "direct"),
      .queue .added (.new "old" .amqp), .binding .added ⟨"old", "old", "k", .amqp⟩]
    applies := true }

/-- The first pass replays seven events, the second one none. -/
theorem second_pass_idle_drifted :
    let first := trigger Cluster.collaborators false default drifted
    let second := trigger Cluster.collaborators true default first.world
    first.value = some (.completed ⟨0, 2, 1, 1, 1, 1, 2, 0, true⟩) ∧
      asked (triggerCalls Cluster.collaborators true default first.world) = [] ∧
      second.world.live = first.world.live ∧
      ∃ r, second.value = some (.completed r) ∧
        r.topology = { RecoveryReport.empty with queuesSkipped := 1 } := by
  have hfirst : (trigger Cluster.collaborators false default drifted).value =
      some (.completed ⟨0, 2, 1, 1, 1, 1, 2, 0, true⟩) := by decide
  have hkeyed : drifted.live.Keyed := LiveView.Keyed.empty.follow _
  have hholds := ((Cluster.mirror drifted.persisted).trigger ⟨rfl, rfl⟩ false default).1
  obtain ⟨hasked, hlive, hreport, hcompletes⟩ := second_pass_idle
    (Cluster.mirror drifted.persisted) drifted.proper_persisted ⟨rfl, rfl⟩ hkeyed hfirst hholds rfl
    true default
  have hcues : (trigger Cluster.collaborators false default drifted).world.cues = [] := by
    decide
  obtain ⟨r, hr⟩ := hcompletes Cluster.obliging hcues rfl rfl
  refine ⟨hfirst, hasked, hlive, r, hr, (hreport r hr).trans ?_⟩
  decide

/-- A pass that completes brings the live view in line with the store, but for stray bindings. -/
theorem completed_pass_converges {σ : Type} {c : Collaborators σ} {p : Persisted} (m : Mirror c p)
    (hp : p.Proper) (history : List ClusterEvent) {full : Bool} {task : RecoveryTask} {w : σ}
    {r : RecoveryReport} (hw : m.holds w) (hlive : m.live w = LiveView.empty.follow history)
    (hcompleted : (trigger c full task w).value = some (.completed r)) :
    p.Reconciled (m.live w) (m.live (trigger c full task w).world) := by
  have hkeyed : (m.live w).Keyed := hlive ▸ LiveView.Keyed.empty.follow history
  exact m.live_completed hw hcompleted ▸ Persisted.reconciled hkeyed hp

theorem completed_pass_converges_drifted :
    drifted.persisted.Reconciled drifted.live
      (trigger Cluster.collaborators true default drifted).world.live := by
  have hcompleted : (trigger Cluster.collaborators true default drifted).value =
      some (.completed ⟨0, 2, 1, 1, 1, 1, 2, 0, true⟩) := by decide
  exact completed_pass_converges (Cluster.mirror drifted.persisted) drifted.proper_persisted _
    ⟨rfl, rfl⟩ rfl hcompleted

/-- The binding was announced once more when its exchange had been deleted. -/
def overtaken : Cluster :=
  let late : ClusterEvent := .binding .added ⟨"orders", "jobs", "k", .amqp⟩
  { (default : Cluster) with
    exchanges := [.new "billing" "direct"]
    live := LiveView.empty.follow [.exchange .added (.new "orders" "topic"), late,
      .exchange .deleted (.new "orders" "topic"), late]
    applies := true }

/-- The store lists no binding at all, and yet the binding is live when the pass has completed. -/
theorem stray_kept_overtaken :
    ¬ ∀ (history : List ClusterEvent) (full : Bool) (task : RecoveryTask) (w : Cluster)
      (r : RecoveryReport), w.applies = true → w.live = LiveView.empty.follow history →
      (∀ b ∈ w.bindings, b.exchange ∈ w.exchanges.map Exchange.name) →
      (trigger Cluster.collaborators full task w).value = some (.completed r) →
      ∀ k, (trigger Cluster.collaborators full task w).world.live.bindings.contains k = true ↔
        k ∈ w.bindings.map Binding.key := by
  intro hall
  have hcompleted : (trigger Cluster.collaborators true default overtaken).value =
      some (.completed ⟨0, 1, 0, 0, 0, 0, 0, 0, true⟩) := by decide
  have hkept : (trigger Cluster.collaborators true default overtaken).world.live.bindings.contains
      ⟨"orders", "jobs", "k"⟩ = true := by decide
  exact nomatch (hall _ true default overtaken _ rfl rfl nofun hcompleted _).1 hkept

end Courier.Recovery
