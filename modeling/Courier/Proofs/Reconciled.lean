import Courier.Proofs.Keyed
import Courier.Recovery.Pass

namespace Courier

/-- What is said of the members of a list, of each in the view that the members before it left. -/
def LiveView.walk {α : Type} (events : α → LiveView → List ClusterEvent) :
    List α → LiveView → List ClusterEvent
  | [], _ => []
  | x :: l, v => events x v ++ walk events l (v.follow (events x v))

theorem LiveView.walk_const {α : Type} (events : α → List ClusterEvent) (l : List α) (v : LiveView) :
    walk (fun x _ => events x) l v = l.flatMap events := by
  induction l generalizing v with
  | nil => rfl
  | cons x l ih => rw [walk, ih, List.flatMap_cons]

namespace Recovery

structure Persisted where
  exchanges : List Exchange
  queues : List Queue
  bindings : String → List Binding

namespace Persisted

section

variable (p : Persisted)

def exchangeDelta (v : LiveView) : Delta Exchange := .between p.exchanges v.exchangeList

def queueDelta (v : LiveView) : Delta Queue := .between p.queues v.queueList

def bindingDelta (exchange : String) (v : LiveView) : Delta Binding :=
  .between (p.bindings exchange) (v.bindingsOf exchange)

def exchangeEvents (v : LiveView) : List ClusterEvent :=
  (p.exchangeDelta v).toAdd.map (.exchange .added) ++
    (p.exchangeDelta v).toRemove.map (.exchange .deleted)

def queuesAdded (v : LiveView) : List Queue := (p.queueDelta v).toAdd.filter fun q => !isSkipped q

def queueEvents (v : LiveView) : List ClusterEvent :=
  (p.queuesAdded v).map (.queue .added) ++ (p.queueDelta v).toRemove.map (.queue .deleted)

def skipped (v : LiveView) : Nat := (p.queueDelta v).toAdd.countP isSkipped

def bindingEventsOf (exchange : String) (v : LiveView) : List ClusterEvent :=
  (p.bindingDelta exchange v).toAdd.map (.binding .added) ++
    (p.bindingDelta exchange v).toRemove.map (.binding .deleted)

def bindingEvents : List Exchange → LiveView → List ClusterEvent :=
  LiveView.walk fun x => p.bindingEventsOf x.name

def withExchanges (v : LiveView) : LiveView := v.follow (p.exchangeEvents v)

def withQueues (v : LiveView) : LiveView := v.follow (p.queueEvents v)

def withBindings (v : LiveView) : LiveView := v.follow (p.bindingEvents p.exchanges v)

def events (v : LiveView) : List ClusterEvent :=
  p.exchangeEvents v ++ p.queueEvents (p.withExchanges v) ++
    p.bindingEvents p.exchanges (p.withQueues (p.withExchanges v))

theorem follow_events (v : LiveView) :
    v.follow (p.events v) = p.withBindings (p.withQueues (p.withExchanges v)) := by
  rw [events, LiveView.follow_append, LiveView.follow_append]
  rfl

def Proper : Prop := ∀ exchange, ∀ b ∈ p.bindings exchange, b.exchange = exchange

def exchangeNames : List String := p.exchanges.map Exchange.name

def queueNames : List String := p.queues.map Queue.name

def Binds (k : BindingKey) : Prop :=
  k.exchange ∈ p.exchangeNames ∧ k ∈ (p.bindings k.exchange).map Binding.key

/-- A binding that no comparison finds: its exchange is neither persisted nor live, and its queue is
not one that is deleted. -/
def Stray (v : LiveView) (k : BindingKey) : Prop :=
  v.bindings.contains k = true ∧ k.exchange ∉ p.exchangeNames ∧
    v.exchanges.contains k.exchange = false ∧
    (v.queues.contains k.queue = true → k.queue ∈ p.queueNames)

end

variable {p : Persisted} {v : LiveView}

theorem withExchanges_eq (p : Persisted) (v : LiveView) :
    p.withExchanges v =
      { v with
        exchanges := (v.exchanges.addAll (p.exchangeDelta v).toAdd).dropAll (p.exchangeDelta v).toRemove
        bindings := v.bindings.filterKeys fun k =>
          decide (k.exchange ∉ (p.exchangeDelta v).toRemove.map Exchange.name) } := by
  rw [withExchanges, exchangeEvents, LiveView.follow_append, LiveView.follow_exchanges_added,
    LiveView.follow_exchanges_deleted]

theorem exchange_withExchanges (hv : v.Keyed) (k : String) :
    (p.withExchanges v).exchanges.contains k = true ↔ k ∈ p.exchangeNames := by
  rw [withExchanges_eq]
  refine (hv.exchanges.contains_aligned v.lists_exchangeList k).trans ?_
  rw [not_true, and_false, or_false]
  rfl

theorem exchange_kept (hv : v.Keyed) {k : String} (hlive : v.exchanges.contains k = true)
    (hk : k ∈ p.exchangeNames) : (p.withExchanges v).exchanges.get? k = v.exchanges.get? k := by
  rw [withExchanges_eq]
  refine Dict.get?_reconciled (fun hadded => ?_) hk
  exact ((hv.exchanges.mem_map_missing v.lists_exchangeList).1 hadded).2 ⟨hlive, trivial⟩

theorem get?_binding_withExchanges (hv : v.Keyed) (k : BindingKey) :
    (p.withExchanges v).bindings.get? k =
      if v.exchanges.contains k.exchange = true → k.exchange ∈ p.exchangeNames then v.bindings.get? k
      else none := by
  have hkept : k.exchange ∉ (p.exchangeDelta v).toRemove.map Exchange.name ↔
      (v.exchanges.contains k.exchange = true → k.exchange ∈ p.exchangeNames) :=
    hv.exchanges.not_mem_stale v.lists_exchangeList
  rw [withExchanges_eq, Dict.get?_filterKeys]
  simp only [hkept, decide_eq_true_eq]

theorem withQueues_eq (p : Persisted) (v : LiveView) :
    p.withQueues v =
      { v with
        queues := (v.queues.addAll (p.queuesAdded v)).dropAll (p.queueDelta v).toRemove
        bindings := v.bindings.filterKeys fun k =>
          decide (k.queue ∉ (p.queueDelta v).toRemove.map Queue.name) } := by
  rw [withQueues, queueEvents, LiveView.follow_append, LiveView.follow_queues_added,
    LiveView.follow_queues_deleted]

theorem mem_queuesAdded (hv : v.Keyed) {q : Queue} :
    q ∈ p.queuesAdded v ↔
      (q ∈ p.queues ∧ ¬ v.queues.contains q.name = true) ∧ isSkipped q = false := by
  rw [queuesAdded, List.mem_filter, Bool.not_eq_true']
  refine and_congr_left fun _ => (hv.queues.mem_missing v.lists_queueList).trans ?_
  rw [and_true]
  rfl

theorem queue_withQueues (hv : v.Keyed) (k : String) :
    (p.withQueues v).queues.contains k = true ↔
      (∃ q ∈ p.queues, q.name = k ∧ isSkipped q = false) ∨
        v.queues.contains k = true ∧ k ∈ p.queueNames := by
  have hpersisted : ∀ q ∈ p.queuesAdded v, q ∈ p.queues := fun _ hq =>
    ((mem_queuesAdded hv).1 hq).1.1
  have hkept := hv.queues.contains_reconciled v.lists_queueList hpersisted k
  have hadded : k ∈ (p.queuesAdded v).map NaturalKey.key ↔
      (∃ q ∈ p.queues, q.name = k ∧ isSkipped q = false) ∧ ¬ v.queues.contains k = true := by
    rw [List.mem_map]
    constructor
    · rintro ⟨q, hq, rfl⟩
      obtain ⟨⟨hq, hnone⟩, hskip⟩ := (mem_queuesAdded hv).1 hq
      exact ⟨⟨q, hq, rfl, hskip⟩, hnone⟩
    · rintro ⟨⟨q, hq, rfl, hskip⟩, hnone⟩
      exact ⟨q, (mem_queuesAdded hv).2 ⟨⟨hq, hnone⟩, hskip⟩, rfl⟩
  have hnames : (∃ q ∈ p.queues, q.name = k ∧ isSkipped q = false) → k ∈ p.queueNames := by
    rintro ⟨q, hq, rfl, -⟩
    exact List.mem_map_of_mem hq
  rw [withQueues_eq]
  refine hkept.trans ?_
  rw [hadded]
  constructor
  · rintro (⟨h, -⟩ | ⟨hlive, hk⟩)
    · exact .inl h
    · exact .inr ⟨hlive, hk trivial⟩
  · rintro (h | ⟨hlive, hk⟩)
    · by_cases hlive : v.queues.contains k = true
      · exact .inr ⟨hlive, fun _ => hnames h⟩
      · exact .inl ⟨h, hlive⟩
    · exact .inr ⟨hlive, fun _ => hk⟩

theorem queue_kept (hv : v.Keyed) {k : String} (hlive : v.queues.contains k = true)
    (hk : k ∈ p.queueNames) : (p.withQueues v).queues.get? k = v.queues.get? k := by
  rw [withQueues_eq]
  refine Dict.get?_reconciled (fun hadded => ?_) hk
  obtain ⟨q, hq, rfl⟩ := List.mem_map.1 hadded
  exact ((mem_queuesAdded hv).1 hq).1.2 hlive

theorem get?_binding_withQueues (hv : v.Keyed) (k : BindingKey) :
    (p.withQueues v).bindings.get? k =
      if v.queues.contains k.queue = true → k.queue ∈ p.queueNames then v.bindings.get? k
      else none := by
  have hkept : k.queue ∉ (p.queueDelta v).toRemove.map Queue.name ↔
      (v.queues.contains k.queue = true → k.queue ∈ p.queueNames) :=
    hv.queues.not_mem_stale v.lists_queueList
  rw [withQueues_eq, Dict.get?_filterKeys]
  simp only [hkept, decide_eq_true_eq]

theorem follow_bindingEventsOf (p : Persisted) (exchange : String) (v : LiveView) :
    v.follow (p.bindingEventsOf exchange v) =
      { v with
        bindings := (v.bindings.addAll (p.bindingDelta exchange v).toAdd).dropAll
          (p.bindingDelta exchange v).toRemove } := by
  rw [bindingEventsOf, LiveView.follow_append, LiveView.follow_bindings_added,
    LiveView.follow_bindings_deleted]

theorem binding_followOf (hv : v.Keyed) (hp : p.Proper) (exchange : String) (k : BindingKey) :
    (v.follow (p.bindingEventsOf exchange v)).bindings.contains k = true ↔
      if k.exchange = exchange then k ∈ (p.bindings exchange).map Binding.key
      else v.bindings.contains k = true := by
  have hown : k ∈ (p.bindings exchange).map Binding.key → k.exchange = exchange := fun hk => by
    obtain ⟨b, hb, rfl⟩ := List.mem_map.1 hk
    exact hp exchange b hb
  rw [follow_bindingEventsOf]
  refine (hv.bindings.contains_aligned (v.lists_bindingsOf exchange) k).trans ?_
  split
  · next hk => exact ⟨fun h => h.resolve_right fun h => h.2 hk, .inl⟩
  · next hk => exact ⟨fun h => h.elim (fun h => absurd (hown h) hk) And.left, fun h => .inr ⟨h, hk⟩⟩

theorem bindingEvents_cons (p : Persisted) (x : Exchange) (l : List Exchange) (v : LiveView) :
    p.bindingEvents (x :: l) v =
      p.bindingEventsOf x.name v ++ p.bindingEvents l (v.follow (p.bindingEventsOf x.name v)) := rfl

theorem binding_follow (hv : v.Keyed) (hp : p.Proper) (l : List Exchange) (k : BindingKey) :
    (v.follow (p.bindingEvents l v)).bindings.contains k = true ↔
      if k.exchange ∈ l.map Exchange.name then k ∈ (p.bindings k.exchange).map Binding.key
      else v.bindings.contains k = true := by
  induction l generalizing v with
  | nil => rfl
  | cons x l ih =>
      rw [bindingEvents_cons, LiveView.follow_append, ih (hv.follow _), binding_followOf hv hp,
        List.map_cons]
      by_cases hx : k.exchange = x.name
      · simp [hx]
      · simp [hx]

theorem get?_binding_followOf (hv : v.Keyed) (hp : p.Proper) {exchange : String} {k : BindingKey}
    (hk : k.exchange = exchange →
      v.bindings.contains k = true ∧ k ∈ (p.bindings exchange).map Binding.key) :
    (v.follow (p.bindingEventsOf exchange v)).bindings.get? k = v.bindings.get? k := by
  have hadded : k ∈ (p.bindingDelta exchange v).toAdd.map NaturalKey.key ↔ _ :=
    hv.bindings.mem_map_missing (v.lists_bindingsOf exchange)
  have hstale : k ∈ (p.bindingDelta exchange v).toRemove.map NaturalKey.key ↔ _ :=
    hv.bindings.mem_stale (v.lists_bindingsOf exchange)
  rw [follow_bindingEventsOf, Dict.get?_dropAll, if_neg, Dict.get?_addAll_of_not_mem]
  · rw [hadded]
    rintro ⟨hmem, hnone⟩
    obtain ⟨b, hb, rfl⟩ := List.mem_map.1 hmem
    exact hnone ⟨(hk (hp exchange b hb)).1, hp exchange b hb⟩
  · rw [hstale]
    rintro ⟨⟨-, hscope⟩, hnone⟩
    exact hnone (hk hscope).2

theorem get?_binding_follow (hv : v.Keyed) (hp : p.Proper) {l : List Exchange} {k : BindingKey}
    (hk : k.exchange ∈ l.map Exchange.name →
      v.bindings.contains k = true ∧ k ∈ (p.bindings k.exchange).map Binding.key) :
    (v.follow (p.bindingEvents l v)).bindings.get? k = v.bindings.get? k := by
  induction l generalizing v with
  | nil => rfl
  | cons x l ih =>
      rw [List.map_cons, List.mem_cons] at hk
      have hfirst : (v.follow (p.bindingEventsOf x.name v)).bindings.get? k = v.bindings.get? k :=
        get?_binding_followOf hv hp fun hx => hx ▸ hk (.inl hx)
      rw [bindingEvents_cons, LiveView.follow_append, ih (hv.follow _) fun hl => ?_, hfirst]
      rw [Dict.contains, hfirst]
      exact hk (.inr hl)

/-- Bindings are compared without regard to the exchanges and queues that are live. -/
theorem follow_bindingEvents_frame (p : Persisted) (l : List Exchange) (v : LiveView) :
    (v.follow (p.bindingEvents l v)).exchanges = v.exchanges ∧
      (v.follow (p.bindingEvents l v)).queues = v.queues := by
  induction l generalizing v with
  | nil => exact ⟨rfl, rfl⟩
  | cons x l ih =>
      rw [bindingEvents_cons, LiveView.follow_append]
      refine ⟨(ih _).1.trans ?_, (ih _).2.trans ?_⟩ <;> rw [follow_bindingEventsOf]

/-- The second view is the first one brought in line with the store, but for stray bindings. -/
structure Reconciled (p : Persisted) (v w : LiveView) : Prop where
  exchange : ∀ k, w.exchanges.contains k = true ↔ k ∈ p.exchangeNames
  queue : ∀ k, w.queues.contains k = true ↔
    (∃ q ∈ p.queues, q.name = k ∧ isSkipped q = false) ∨
      v.queues.contains k = true ∧ k ∈ p.queueNames
  binding : ∀ k, w.bindings.contains k = true ↔ p.Binds k ∨ p.Stray v k
  exchange_kept : ∀ k, v.exchanges.contains k = true → k ∈ p.exchangeNames →
    w.exchanges.get? k = v.exchanges.get? k
  queue_kept : ∀ k, v.queues.contains k = true → k ∈ p.queueNames →
    w.queues.get? k = v.queues.get? k
  /-- Unless its queue is deleted, which takes the binding along. -/
  binding_kept : ∀ k, v.bindings.contains k = true → p.Binds k →
    (v.queues.contains k.queue = true → k.queue ∈ p.queueNames) →
    w.bindings.get? k = v.bindings.get? k

theorem get?_binding_cascaded (hv : v.Keyed) (k : BindingKey) :
    (p.withQueues (p.withExchanges v)).bindings.get? k =
      if v.queues.contains k.queue = true → k.queue ∈ p.queueNames then
        if v.exchanges.contains k.exchange = true → k.exchange ∈ p.exchangeNames then
          v.bindings.get? k
        else none
      else none := by
  have hv₁ : (p.withExchanges v).Keyed := hv.follow _
  rw [get?_binding_withQueues hv₁, get?_binding_withExchanges hv, withExchanges_eq]

theorem stray_iff (hv : v.Keyed) (k : BindingKey) :
    p.Stray v k ↔ k.exchange ∉ p.exchangeNames ∧
      (p.withQueues (p.withExchanges v)).bindings.contains k = true := by
  rw [Dict.contains, get?_binding_cascaded hv, Stray, Bool.eq_false_iff]
  split
  · next hqueue =>
      split
      · next hexchange =>
          exact ⟨fun h => ⟨h.2.1, h.1⟩,
            fun h => ⟨h.2, h.1, fun hlive => h.1 (hexchange hlive), hqueue⟩⟩
      · next hexchange =>
          exact ⟨fun h => absurd (fun hlive => absurd hlive h.2.2.1) hexchange,
            fun h => absurd h.2 Bool.false_ne_true⟩
  · next hqueue =>
      exact ⟨fun h => absurd h.2.2.2 hqueue, fun h => absurd h.2 Bool.false_ne_true⟩

theorem reconciled (hv : v.Keyed) (hp : p.Proper) : p.Reconciled v (v.follow (p.events v)) := by
  have hv₁ : (p.withExchanges v).Keyed := hv.follow _
  have hv₂ : (p.withQueues (p.withExchanges v)).Keyed := hv₁.follow _
  obtain ⟨hexchanges, hqueues⟩ :=
    follow_bindingEvents_frame p p.exchanges (p.withQueues (p.withExchanges v))
  rw [follow_events]
  refine ⟨fun k => ?_, fun k => ?_, fun k => ?_, fun k hlive hk => ?_, fun k hlive hk => ?_,
    fun k hlive hk hqueue => ?_⟩
  · rw [withBindings, hexchanges, withQueues_eq]
    exact exchange_withExchanges hv k
  · rw [withBindings, hqueues, queue_withQueues hv₁, withExchanges_eq]
  · -- a key of a persisted exchange is compared, any other is what the deletions left
    rw [withBindings, binding_follow hv₂ hp, stray_iff hv, Binds]
    change (if k.exchange ∈ p.exchangeNames then _ else _) ↔ _
    split <;> tauto
  · rw [withBindings, hexchanges, withQueues_eq]
    exact exchange_kept hv hlive hk
  · rw [withBindings, hqueues, queue_kept hv₁ _ hk, withExchanges_eq]
    rwa [withExchanges_eq]
  · have hsame : (p.withQueues (p.withExchanges v)).bindings.get? k = v.bindings.get? k := by
      rw [get?_binding_cascaded hv, if_pos hqueue, if_pos fun _ => hk.1]
    rw [withBindings, get?_binding_follow hv₂ hp fun _ => ⟨?_, hk.2⟩, hsame]
    rwa [Dict.contains, hsame]

namespace Reconciled

variable {w : LiveView}

theorem exchangeEvents_eq_nil (h : p.Reconciled v w) (hw : w.Keyed) : p.exchangeEvents w = [] := by
  have hadd : (p.exchangeDelta w).toAdd = [] :=
    hw.exchanges.missing_eq_nil w.lists_exchangeList fun x hx =>
      ⟨(h.exchange x.name).2 (List.mem_map_of_mem hx), trivial⟩
  have hremove : (p.exchangeDelta w).toRemove = [] :=
    hw.exchanges.stale_eq_nil w.lists_exchangeList fun k hk _ => (h.exchange k).1 hk
  rw [exchangeEvents, hadd, hremove, List.map_nil, List.map_nil, List.append_nil]

theorem queueEvents_eq_nil (h : p.Reconciled v w) (hw : w.Keyed) : p.queueEvents w = [] := by
  have hadd : p.queuesAdded w = [] := List.eq_nil_iff_forall_not_mem.2 fun q hq => by
    obtain ⟨⟨hq, hnone⟩, hskip⟩ := (mem_queuesAdded hw).1 hq
    exact hnone ((h.queue q.name).2 (.inl ⟨q, hq, rfl, hskip⟩))
  have hremove : (p.queueDelta w).toRemove = [] :=
    hw.queues.stale_eq_nil w.lists_queueList fun k hk _ => by
      rcases (h.queue k).1 hk with ⟨q, hq, rfl, -⟩ | ⟨-, hk⟩
      · exact List.mem_map_of_mem hq
      · exact hk
  rw [queueEvents, hadd, hremove, List.map_nil, List.map_nil, List.append_nil]

theorem bindingEventsOf_eq_nil (h : p.Reconciled v w) (hw : w.Keyed) (hp : p.Proper)
    {exchange : String} (hexchange : exchange ∈ p.exchangeNames) :
    p.bindingEventsOf exchange w = [] := by
  have hiff : ∀ k : BindingKey, k.exchange = exchange →
      (w.bindings.contains k = true ↔ k ∈ (p.bindings exchange).map Binding.key) := by
    rintro k rfl
    rw [h.binding, Binds, Stray]
    tauto
  have hadd : (p.bindingDelta exchange w).toAdd = [] :=
    hw.bindings.missing_eq_nil (w.lists_bindingsOf exchange) fun b hb =>
      ⟨(hiff b.key (hp _ b hb)).2 (List.mem_map_of_mem hb), hp _ b hb⟩
  have hremove : (p.bindingDelta exchange w).toRemove = [] :=
    hw.bindings.stale_eq_nil (w.lists_bindingsOf exchange) fun k hk hscope => (hiff k hscope).1 hk
  rw [bindingEventsOf, hadd, hremove, List.map_nil, List.map_nil, List.append_nil]

theorem bindingEvents_eq_nil (h : p.Reconciled v w) (hw : w.Keyed) (hp : p.Proper)
    {l : List Exchange} (hl : l ⊆ p.exchanges) : p.bindingEvents l w = [] := by
  induction l with
  | nil => rfl
  | cons x l ih =>
      rw [List.cons_subset] at hl
      rw [bindingEvents_cons, h.bindingEventsOf_eq_nil hw hp (List.mem_map_of_mem hl.1)]
      exact ih hl.2

/-- There is nothing to be replayed to a view that was brought in line. -/
theorem events_eq_nil (h : p.Reconciled v w) (hw : w.Keyed) (hp : p.Proper) : p.events w = [] := by
  have hexchanges : p.withExchanges w = w := congrArg w.follow (h.exchangeEvents_eq_nil hw)
  have hqueues : p.withQueues w = w := congrArg w.follow (h.queueEvents_eq_nil hw)
  rw [events, hexchanges, hqueues, h.exchangeEvents_eq_nil hw, h.queueEvents_eq_nil hw,
    h.bindingEvents_eq_nil hw hp (List.Subset.refl _), List.append_nil, List.append_nil]

end Reconciled

theorem skipped_withExchanges (hv : v.Keyed) :
    p.skipped (p.withExchanges v) =
      p.queues.countP fun q => isSkipped q && !v.queues.contains q.name := by
  have hmissing : (p.queueDelta (p.withExchanges v)).toAdd =
      p.queues.filter fun q => !v.queues.contains q.name :=
    List.filter_congr fun q _ => by
      rw [withExchanges_eq, LiveView.queueList, Bool.eq_iff_iff, decide_eq_true_eq,
        Bool.not_eq_true', ← Bool.not_eq_true]
      refine not_congr ?_
      rw [← hv.queues.mem_map_values]
      simp only [List.mem_map, Text.mem_sort]
      rfl
  rw [skipped, hmissing, List.countP_filter]

end Persisted

end Recovery

end Courier
