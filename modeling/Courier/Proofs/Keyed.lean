import Courier.Topology.Delta
import Courier.Topology.LiveView
import Mathlib.Data.List.Nodup

namespace Courier

open Delta (missingFrom mem_missingFrom)

namespace Dict

section

variable {κ α : Type} [DecidableEq κ] {d : Dict κ α} {k : κ} {x : α}

theorem contains_iff : d.contains k = true ↔ ∃ x, d.get? k = some x := Option.isSome_iff_exists

theorem contains_filterKeys (d : Dict κ α) (p : κ → Bool) (k : κ) :
    (d.filterKeys p).contains k = (p k && d.contains k) := by
  rw [contains, get?_filterKeys]
  cases p k <;> rfl

omit [DecidableEq κ] in
theorem filterKeys_filterKeys (d : Dict κ α) (p q : κ → Bool) :
    (d.filterKeys p).filterKeys q = d.filterKeys fun k => p k && q k := by
  simp [filterKeys, List.filter_filter, Bool.and_comm]

variable [NaturalKey α κ]

structure Keyed (d : Dict κ α) : Prop where
  nodup : d.keys.Nodup
  own : ∀ k x, d.get? k = some x → NaturalKey.key x = k

def Lists (d : Dict κ α) (scope : κ → Prop) (l : List α) : Prop :=
  ∀ x, x ∈ l ↔ x ∈ d.values ∧ scope (NaturalKey.key x)

def addAll (d : Dict κ α) (l : List α) : Dict κ α :=
  l.foldl (fun d x => d.insert (NaturalKey.key x) x) d

def dropAll (d : Dict κ α) (l : List α) : Dict κ α :=
  d.filterKeys fun k => decide (k ∉ l.map NaturalKey.key)

theorem get?_addAll_of_not_mem {l : List α} (hk : k ∉ l.map NaturalKey.key) :
    (d.addAll l).get? k = d.get? k := by
  induction l generalizing d with
  | nil => rfl
  | cons x l ih =>
      rw [List.map_cons, List.mem_cons, not_or] at hk
      refine (ih hk.2).trans ?_
      rw [get?_insert, if_neg hk.1]

theorem contains_addAll (d : Dict κ α) (l : List α) (k : κ) :
    (d.addAll l).contains k = true ↔ d.contains k = true ∨ k ∈ l.map NaturalKey.key := by
  induction l generalizing d with
  | nil => simp [addAll]
  | cons x l ih =>
      refine (ih _).trans ?_
      rw [List.map_cons, List.mem_cons, ← or_assoc]
      refine or_congr_left ?_
      rw [contains, get?_insert]
      split
      · next hk => simp [hk]
      · next hk => simp [hk, contains]

theorem get?_dropAll (d : Dict κ α) (l : List α) (k : κ) :
    (d.dropAll l).get? k = if k ∈ l.map NaturalKey.key then none else d.get? k := by
  rw [dropAll, get?_filterKeys]
  by_cases hk : k ∈ l.map NaturalKey.key <;> simp only [hk, not_true, not_false_eq_true, decide_true,
    decide_false, if_true, if_false, Bool.false_eq_true]

theorem contains_dropAll (d : Dict κ α) (l : List α) (k : κ) :
    (d.dropAll l).contains k = true ↔ d.contains k = true ∧ k ∉ l.map NaturalKey.key := by
  rw [dropAll, contains_filterKeys, Bool.and_eq_true, decide_eq_true_eq, and_comm]

theorem get?_reconciled {persisted added live : List α} (hk : k ∉ added.map NaturalKey.key)
    (hkept : k ∈ persisted.map NaturalKey.key) :
    ((d.addAll added).dropAll (missingFrom live persisted)).get? k = d.get? k := by
  rw [get?_dropAll, if_neg, get?_addAll_of_not_mem hk]
  intro hmem
  obtain ⟨x, hx, rfl⟩ := List.mem_map.1 hmem
  obtain ⟨y, hy, hkey⟩ := List.mem_map.1 hkept
  exact (mem_missingFrom.1 hx).2 y hy hkey

namespace Keyed

theorem empty : (Dict.empty : Dict κ α).Keyed := ⟨List.nodup_nil, nofun⟩

theorem insert (hd : d.Keyed) (x : α) : (d.insert (NaturalKey.key x) x).Keyed where
  nodup := by
    rw [keys_insert]
    split
    · exact hd.nodup
    · next hx => exact List.concat_eq_append .. ▸ hd.nodup.concat hx
  own j y hy := by
    rw [get?_insert] at hy
    split at hy
    · next hj => rw [← Option.some.inj hy, hj]
    · exact hd.own j y hy

theorem filterKeys (hd : d.Keyed) (p : κ → Bool) : (d.filterKeys p).Keyed where
  nodup := hd.nodup.sublist (List.filter_sublist.map _)
  own j y hy := by
    rw [get?_filterKeys] at hy
    split at hy
    · exact hd.own j y hy
    · cases hy

theorem erase (hd : d.Keyed) (k : κ) : (d.erase k).Keyed := hd.filterKeys _

theorem mem_values (hd : d.Keyed) : x ∈ d.values ↔ d.get? (NaturalKey.key x) = some x := by
  refine ⟨fun hx => ?_, fun hx => List.mem_map_of_mem (f := Prod.snd) (mem_of_get? hx)⟩
  obtain ⟨e, he, rfl⟩ := List.mem_map.1 hx
  have hget : d.get? e.1 = some e.2 := get?_of_mem hd.nodup he
  rw [hd.own _ _ hget, hget]

theorem mem_map_values (hd : d.Keyed) : k ∈ d.values.map NaturalKey.key ↔ d.contains k = true := by
  rw [contains_iff, List.mem_map]
  refine ⟨fun ⟨x, hx, hk⟩ => ⟨x, hk ▸ hd.mem_values.1 hx⟩, fun ⟨x, hx⟩ => ?_⟩
  have hk := hd.own k x hx
  exact ⟨x, hd.mem_values.2 (hk.symm ▸ hx), hk⟩

section

variable {persisted added live : List α} {scope : κ → Prop}

theorem mem_stale (hd : d.Keyed) (hlive : d.Lists scope live) :
    k ∈ (missingFrom live persisted).map NaturalKey.key ↔
      (d.contains k = true ∧ scope k) ∧ k ∉ persisted.map NaturalKey.key := by
  rw [← hd.mem_map_values, List.mem_map, List.mem_map]
  constructor
  · rintro ⟨x, hx, rfl⟩
    obtain ⟨hx, hnone⟩ := mem_missingFrom.1 hx
    refine ⟨⟨⟨x, ((hlive x).1 hx).1, rfl⟩, ((hlive x).1 hx).2⟩, fun hmem => ?_⟩
    obtain ⟨y, hy, hkey⟩ := List.mem_map.1 hmem
    exact hnone y hy hkey
  · rintro ⟨⟨⟨x, hx, rfl⟩, hscope⟩, hnone⟩
    refine ⟨x, mem_missingFrom.2 ⟨(hlive x).2 ⟨hx, hscope⟩, fun y hy hkey => ?_⟩, rfl⟩
    exact hnone (hkey ▸ List.mem_map_of_mem hy)

theorem not_mem_stale (hd : d.Keyed) (hlive : d.Lists (fun _ => True) live) :
    k ∉ (missingFrom live persisted).map NaturalKey.key ↔
      (d.contains k = true → k ∈ persisted.map NaturalKey.key) := by
  rw [hd.mem_stale hlive, and_true, not_and, not_not]

theorem mem_missing (hd : d.Keyed) (hlive : d.Lists scope live) :
    x ∈ missingFrom persisted live ↔
      x ∈ persisted ∧ ¬ (d.contains (NaturalKey.key x) = true ∧ scope (NaturalKey.key x)) := by
  rw [mem_missingFrom, ← hd.mem_map_values, List.mem_map]
  refine and_congr_right fun _ => ⟨?_, fun hnone y hy hkey => ?_⟩
  · rintro hnone ⟨⟨y, hy, hkey⟩, hscope⟩
    exact hnone y ((hlive y).2 ⟨hy, hkey ▸ hscope⟩) hkey
  · obtain ⟨hy, hscope⟩ := (hlive y).1 hy
    exact hnone ⟨⟨y, hy, hkey⟩, hkey ▸ hscope⟩

theorem mem_map_missing (hd : d.Keyed) (hlive : d.Lists scope live) :
    k ∈ (missingFrom persisted live).map NaturalKey.key ↔
      k ∈ persisted.map NaturalKey.key ∧ ¬ (d.contains k = true ∧ scope k) := by
  rw [List.mem_map, List.mem_map]
  constructor
  · rintro ⟨x, hx, rfl⟩
    obtain ⟨hx, hnone⟩ := (hd.mem_missing hlive).1 hx
    exact ⟨⟨x, hx, rfl⟩, hnone⟩
  · rintro ⟨⟨x, hx, rfl⟩, hnone⟩
    exact ⟨x, (hd.mem_missing hlive).2 ⟨hx, hnone⟩, rfl⟩

theorem missing_eq_nil (hd : d.Keyed) (hlive : d.Lists scope live)
    (hall : ∀ x ∈ persisted, d.contains (NaturalKey.key x) = true ∧ scope (NaturalKey.key x)) :
    missingFrom persisted live = [] :=
  List.eq_nil_iff_forall_not_mem.2 fun x hx =>
    ((hd.mem_missing hlive).1 hx).2 (hall x ((hd.mem_missing hlive).1 hx).1)

theorem stale_eq_nil (hd : d.Keyed) (hlive : d.Lists scope live)
    (hall : ∀ k, d.contains k = true → scope k → k ∈ persisted.map NaturalKey.key) :
    missingFrom live persisted = [] :=
  List.eq_nil_iff_forall_not_mem.2 fun x hx => by
    obtain ⟨⟨hk, hscope⟩, hnone⟩ :=
      (hd.mem_stale hlive).1 (List.mem_map_of_mem (f := NaturalKey.key) hx)
    exact hnone (hall _ hk hscope)

/-- A difference is made up for: some of what is missing is added, and what is listed is dropped
unless it is persisted. -/
theorem contains_reconciled (hd : d.Keyed) (hlive : d.Lists scope live)
    (hadded : ∀ x ∈ added, x ∈ persisted) (k : κ) :
    ((d.addAll added).dropAll (missingFrom live persisted)).contains k = true ↔
      k ∈ added.map NaturalKey.key ∨
        d.contains k = true ∧ (scope k → k ∈ persisted.map NaturalKey.key) := by
  have hkept : k ∈ added.map NaturalKey.key → k ∈ persisted.map NaturalKey.key := fun hk => by
    obtain ⟨x, hx, rfl⟩ := List.mem_map.1 hk
    exact List.mem_map_of_mem (hadded x hx)
  rw [contains_dropAll, contains_addAll, hd.mem_stale hlive]
  tauto

theorem contains_aligned (hd : d.Keyed) (hlive : d.Lists scope live) (k : κ) :
    ((d.addAll (missingFrom persisted live)).dropAll (missingFrom live persisted)).contains k = true ↔
      k ∈ persisted.map NaturalKey.key ∨ d.contains k = true ∧ ¬ scope k := by
  rw [hd.contains_reconciled hlive (fun _ hx => (mem_missingFrom.1 hx).1), hd.mem_map_missing hlive]
  tauto

end

end Keyed

end

end Dict

namespace LiveView

variable {v : LiveView}

def follow (v : LiveView) (l : List ClusterEvent) : LiveView := l.foldl apply v

theorem follow_append (v : LiveView) (l l' : List ClusterEvent) :
    v.follow (l ++ l') = (v.follow l).follow l' :=
  List.foldl_append

theorem follow_exchanges_added (v : LiveView) (l : List Exchange) :
    v.follow (l.map (.exchange .added)) = { v with exchanges := v.exchanges.addAll l } := by
  induction l generalizing v with
  | nil => rfl
  | cons x l ih => exact ih _

theorem follow_queues_added (v : LiveView) (l : List Queue) :
    v.follow (l.map (.queue .added)) = { v with queues := v.queues.addAll l } := by
  induction l generalizing v with
  | nil => rfl
  | cons q l ih => exact ih _

theorem follow_bindings_added (v : LiveView) (l : List Binding) :
    v.follow (l.map (.binding .added)) = { v with bindings := v.bindings.addAll l } := by
  induction l generalizing v with
  | nil => rfl
  | cons b l ih => exact ih _

theorem follow_exchanges_deleted (v : LiveView) (l : List Exchange) :
    v.follow (l.map (.exchange .deleted)) =
      { v with
        exchanges := v.exchanges.dropAll l
        bindings := v.bindings.filterKeys fun k => decide (k.exchange ∉ l.map Exchange.name) } := by
  induction l generalizing v with
  | nil => simp [follow, Dict.dropAll, Dict.filterKeys]
  | cons x l ih =>
      refine (ih _).trans ?_
      simp only [apply, Dict.erase, Dict.dropAll, Dict.filterKeys_filterKeys]
      congr 2 <;> funext k <;> simp [NaturalKey.key]

theorem follow_queues_deleted (v : LiveView) (l : List Queue) :
    v.follow (l.map (.queue .deleted)) =
      { v with
        queues := v.queues.dropAll l
        bindings := v.bindings.filterKeys fun k => decide (k.queue ∉ l.map Queue.name) } := by
  induction l generalizing v with
  | nil => simp [follow, Dict.dropAll, Dict.filterKeys]
  | cons q l ih =>
      refine (ih _).trans ?_
      simp only [apply, Dict.erase, Dict.dropAll, Dict.filterKeys_filterKeys]
      congr 2 <;> funext k <;> simp [NaturalKey.key]

theorem follow_bindings_deleted (v : LiveView) (l : List Binding) :
    v.follow (l.map (.binding .deleted)) = { v with bindings := v.bindings.dropAll l } := by
  induction l generalizing v with
  | nil => simp [follow, Dict.dropAll, Dict.filterKeys]
  | cons b l ih =>
      refine (ih _).trans ?_
      simp only [apply, Dict.erase, Dict.dropAll, Dict.filterKeys_filterKeys]
      congr 2
      funext k
      simp [NaturalKey.key]

structure Keyed (v : LiveView) : Prop where
  exchanges : v.exchanges.Keyed
  queues : v.queues.Keyed
  bindings : v.bindings.Keyed

namespace Keyed

theorem empty : LiveView.empty.Keyed := ⟨.empty, .empty, .empty⟩

theorem apply (hv : v.Keyed) (e : ClusterEvent) : (v.apply e).Keyed := by
  cases e with
  | exchange change x =>
      cases change with
      | added => exact { hv with exchanges := hv.exchanges.insert x }
      | deleted =>
          exact ⟨hv.exchanges.erase _, hv.queues, hv.bindings.filterKeys fun k => k.exchange ≠ x.name⟩
  | queue change q =>
      cases change with
      | added => exact { hv with queues := hv.queues.insert q }
      | deleted =>
          exact ⟨hv.exchanges, hv.queues.erase _, hv.bindings.filterKeys fun k => k.queue ≠ q.name⟩
  | binding change b =>
      cases change with
      | added => exact { hv with bindings := hv.bindings.insert b }
      | deleted => exact { hv with bindings := hv.bindings.erase _ }

theorem follow (hv : v.Keyed) (l : List ClusterEvent) : (v.follow l).Keyed := by
  induction l generalizing v with
  | nil => exact hv
  | cons e l ih => exact ih (hv.apply e)

end Keyed

theorem lists_exchangeList (v : LiveView) : v.exchanges.Lists (fun _ => True) v.exchangeList :=
  fun x => by rw [exchangeList, Text.mem_sort, and_true]

theorem lists_queueList (v : LiveView) : v.queues.Lists (fun _ => True) v.queueList :=
  fun q => by rw [queueList, Text.mem_sort, and_true]

theorem lists_bindingsOf (v : LiveView) (exchange : String) :
    v.bindings.Lists (fun k => k.exchange = exchange) (v.bindingsOf exchange) := fun b => by
  rw [bindingsOf, Text.mem_sort, List.mem_filter, decide_eq_true_eq]
  rfl

end LiveView

end Courier
