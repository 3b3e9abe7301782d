import Courier.Proofs.Listing

namespace Courier

inductive Construct where
  | exchange (name : String)
  | queue (name : String)
  | binding (key : BindingKey)

abbrev Construct.Record : Construct → Type
  | exchange _ => Exchange
  | queue _ => Queue
  | binding _ => Binding

namespace ClusterEvent

/-- The event is about the construct, or it deletes the exchange or the queue that the construct
binds. -/
def Decides : ClusterEvent → Construct → Prop
  | exchange _ x, .exchange name => x.name = name
  | exchange .deleted x, .binding key => x.name = key.exchange
  | queue _ q, .queue name => q.name = name
  | queue .deleted q, .binding key => q.name = key.queue
  | binding _ b, .binding key => b.key = key
  | _, _ => False

def leaves : ClusterEvent → (k : Construct) → Option k.Record
  | exchange .added x, .exchange _ => some x
  | queue .added q, .queue _ => some q
  | binding .added b, .binding _ => some b
  | _, _ => none

theorem exists_last_decision (k : Construct) (l : List ClusterEvent) :
    (∀ e ∈ l, ¬ e.Decides k) ∨
      ∃ before e after, l = before ++ e :: after ∧ e.Decides k ∧ ∀ e' ∈ after, ¬ e'.Decides k := by
  induction l with
  | nil => exact .inl fun _ he => absurd he List.not_mem_nil
  | cons e l ih =>
      rcases ih with hnone | ⟨before, e', after, rfl, he', hafter⟩
      · by_cases he : e.Decides k
        · exact .inr ⟨[], e, l, rfl, he, hnone⟩
        · exact .inl (List.forall_mem_cons.2 ⟨he, hnone⟩)
      · exact .inr ⟨e :: before, e', after, rfl, he', hafter⟩

end ClusterEvent

namespace Dict.Keyed

variable {κ α ω : Type} [DecidableEq κ] [NaturalKey α κ] [LinearOrder ω] {d d' : Dict κ α}
variable {before : α → α → Bool} {f : α → ω}

theorem perm_values (hd : d.Keyed) (hd' : d'.Keyed) (h : ∀ k, d.get? k = d'.get? k) :
    d.values.Perm d'.values := by
  have hnodup : ∀ {d : Dict κ α}, d.Keyed → d.values.Nodup := by
    intro d hd
    exact .of_map NaturalKey.key (hd.map_values.symm ▸ hd.nodup)
  refine (List.perm_ext_iff_of_nodup (hnodup hd) (hnodup hd')).2 fun x => ?_
  rw [hd.mem_values, hd'.mem_values, h]

theorem sort_congr (hd : d.Keyed) (hd' : d'.Keyed) (h : ∀ k, d.get? k = d'.get? k)
    (hbefore : ∀ a b, before a b = decide (f a < f b))
    (hkey : ∀ a b, f a = f b → (NaturalKey.key a : κ) = NaturalKey.key b) (q : α → Bool) :
    Text.sort before (d.values.filter q) = Text.sort before (d'.values.filter q) := by
  refine Text.sort_congr hbefore (fun a ha b hb hab => ?_) ((hd.perm_values hd' h).filter q)
  exact hd'.eq_of_key (List.mem_of_mem_filter ha) (List.mem_of_mem_filter hb) (hkey a b hab)

end Dict.Keyed

namespace LiveView

variable {v v' : LiveView} {k : Construct} {e : ClusterEvent} {l : List ClusterEvent}

def record? (v : LiveView) : (k : Construct) → Option k.Record
  | .exchange name => v.exchanges.get? name
  | .queue name => v.queues.get? name
  | .binding key => v.bindings.get? key

theorem record?_apply_of_decides (v : LiveView) (he : e.Decides k) :
    (v.apply e).record? k = e.leaves k := by
  cases k with
  | exchange name =>
      cases e with
      | exchange change x =>
          obtain rfl := he
          cases change with
          | added => exact (v.exchanges.get?_insert _ _ x).trans (if_pos rfl)
          | deleted => exact (v.exchanges.get?_erase _ _).trans (if_pos rfl)
      | queue | binding => exact he.elim
  | queue name =>
      cases e with
      | queue change q =>
          obtain rfl := he
          cases change with
          | added => exact (v.queues.get?_insert _ _ q).trans (if_pos rfl)
          | deleted => exact (v.queues.get?_erase _ _).trans (if_pos rfl)
      | exchange | binding => exact he.elim
  | binding key =>
      cases e with
      | exchange change x =>
          cases change with
          | added => exact he.elim
          | deleted => exact (v.bindings.get?_filterKeys _ key).trans (if_neg (by simpa using he.symm))
      | queue change q =>
          cases change with
          | added => exact he.elim
          | deleted => exact (v.bindings.get?_filterKeys _ key).trans (if_neg (by simpa using he.symm))
      | binding change b =>
          obtain rfl := he
          cases change with
          | added => exact (v.bindings.get?_insert _ _ b).trans (if_pos rfl)
          | deleted => exact (v.bindings.get?_erase _ _).trans (if_pos rfl)

theorem record?_apply_of_not_decides (v : LiveView) (he : ¬ e.Decides k) :
    (v.apply e).record? k = v.record? k := by
  cases k with
  | exchange name =>
      cases e with
      | exchange change x =>
          have hname : name ≠ x.name := fun h => he h.symm
          cases change with
          | added => exact (v.exchanges.get?_insert _ _ x).trans (if_neg hname)
          | deleted => exact (v.exchanges.get?_erase _ _).trans (if_neg hname)
      | queue change | binding change => cases change <;> rfl
  | queue name =>
      cases e with
      | queue change q =>
          have hname : name ≠ q.name := fun h => he h.symm
          cases change with
          | added => exact (v.queues.get?_insert _ _ q).trans (if_neg hname)
          | deleted => exact (v.queues.get?_erase _ _).trans (if_neg hname)
      | exchange change | binding change => cases change <;> rfl
  | binding key =>
      cases e with
      | exchange change x =>
          cases change with
          | added => rfl
          | deleted =>
              have hname : key.exchange ≠ x.name := fun h => he h.symm
              exact (v.bindings.get?_filterKeys _ key).trans (if_pos (decide_eq_true hname))
      | queue change q =>
          cases change with
          | added => rfl
          | deleted =>
              have hname : key.queue ≠ q.name := fun h => he h.symm
              exact (v.bindings.get?_filterKeys _ key).trans (if_pos (decide_eq_true hname))
      | binding change b =>
          have hkey : key ≠ b.key := fun h => he h.symm
          cases change with
          | added => exact (v.bindings.get?_insert _ _ b).trans (if_neg hkey)
          | deleted => exact (v.bindings.get?_erase _ _).trans (if_neg hkey)

theorem record?_follow_of_not_decides (v : LiveView) (hl : ∀ e ∈ l, ¬ e.Decides k) :
    (v.follow l).record? k = v.record? k := by
  induction l generalizing v with
  | nil => rfl
  | cons e l ih =>
      obtain ⟨he, hl⟩ := List.forall_mem_cons.1 hl
      exact (ih (v.apply e) hl).trans (record?_apply_of_not_decides v he)

theorem record?_follow_of_last (v : LiveView) (before : List ClusterEvent) {after : List ClusterEvent}
    (he : e.Decides k) (hafter : ∀ e' ∈ after, ¬ e'.Decides k) :
    (v.follow (before ++ e :: after)).record? k = e.leaves k := by
  rw [follow_append]
  exact (record?_follow_of_not_decides _ hafter).trans (record?_apply_of_decides _ he)

theorem Keyed.lists_congr (hv : v.Keyed) (hv' : v'.Keyed) (h : ∀ k, v.record? k = v'.record? k) :
    v.exchangeList = v'.exchangeList ∧ v.queueList = v'.queueList ∧
      (∀ exchange, v.bindingsOf exchange = v'.bindingsOf exchange) ∧
      v.bindingCount = v'.bindingCount := by
  refine ⟨?_, ?_, fun exchange => ?_, ?_⟩
  · have hsort := hv.exchanges.sort_congr hv'.exchanges (fun name => h (.exchange name))
      exchange_before (fun _ _ => id) fun _ => true
    rwa [List.filter_true, List.filter_true] at hsort
  · have hsort := hv.queues.sort_congr hv'.queues (fun name => h (.queue name))
      queue_before (fun _ _ => id) fun _ => true
    rwa [List.filter_true, List.filter_true] at hsort
  · exact hv.bindings.sort_congr hv'.bindings (fun key => h (.binding key)) binding_before
      key_of_bindingRank _
  · have hlength := (hv.bindings.perm_values hv'.bindings fun key => h (.binding key)).length_eq
    rwa [Dict.values, Dict.values, List.length_map, List.length_map] at hlength

/-- A log of events can be replayed: the second time it changes nothing. The last event that decides
over a construct says what is kept of it, and what no event decides over stays as it was. -/
theorem event_log_replayable (v : LiveView) (l : List ClusterEvent) :
    (∀ k, (v.follow (l ++ l)).record? k = (v.follow l).record? k) ∧
      (∀ k before e after, l = before ++ e :: after → e.Decides k →
        (∀ e' ∈ after, ¬ e'.Decides k) → (v.follow l).record? k = e.leaves k) ∧
      (∀ k, (∀ e ∈ l, ¬ e.Decides k) → (v.follow l).record? k = v.record? k) ∧
      (v.Keyed →
        (v.follow (l ++ l)).exchangeList = (v.follow l).exchangeList ∧
          (v.follow (l ++ l)).queueList = (v.follow l).queueList ∧
          (∀ exchange, (v.follow (l ++ l)).bindingsOf exchange = (v.follow l).bindingsOf exchange) ∧
          (v.follow (l ++ l)).bindingCount = (v.follow l).bindingCount) := by
  have htwice : ∀ k, (v.follow (l ++ l)).record? k = (v.follow l).record? k := by
    intro k
    rw [follow_append]
    rcases ClusterEvent.exists_last_decision k l with hnone | ⟨before, e, after, rfl, he, hafter⟩
    · exact record?_follow_of_not_decides _ hnone
    · rw [record?_follow_of_last _ before he hafter, record?_follow_of_last _ before he hafter]
  refine ⟨htwice, ?_, fun k => record?_follow_of_not_decides v, fun hv => ?_⟩
  · rintro k before e after rfl he hafter
    exact record?_follow_of_last v before he hafter
  · exact (hv.follow _).lists_congr (hv.follow l) htwice

def lateLog : List ClusterEvent :=
  [.exchange .added (.new "orders" "topic"), .binding .added (.new "orders" "jobs" "k"),
    .exchange .deleted (.new "orders" "direct"), .binding .added ⟨"orders", "jobs", "k", .mqtt⟩,
    .queue .added (.new "jobs" .amqp)]

theorem event_log_replayable_lateLog :
    let v := empty.follow [.queue .added (.new "old" .mqtt)]
    (v.follow lateLog).record? (.binding ⟨"orders", "jobs", "k"⟩) =
        some ⟨"orders", "jobs", "k", .mqtt⟩ ∧
      (v.follow lateLog).record? (.exchange "orders") = none ∧
      (v.follow lateLog).record? (.queue "old") = some (.new "old" .mqtt) ∧
      (v.follow (lateLog ++ lateLog)).bindingsOf "orders" = (v.follow lateLog).bindingsOf "orders" := by
  intro v
  obtain ⟨-, hlast, hnone, hlists⟩ := event_log_replayable v lateLog
  refine ⟨?_, ?_, ?_, (hlists (Keyed.empty.follow _)).2.2.1 "orders"⟩
  · exact hlast _ (lateLog.take 3) _ (lateLog.drop 4) rfl rfl (by simp [lateLog, ClusterEvent.Decides])
  · exact hlast _ (lateLog.take 2) _ (lateLog.drop 3) rfl rfl (by simp [lateLog, ClusterEvent.Decides])
  · exact hnone _ (by simp [lateLog, ClusterEvent.Decides, Queue.new])

end LiveView

end Courier
