import Courier.Proofs.Keyed
import Mathlib.Data.List.Sort
import Mathlib.Data.Prod.Lex
import Mathlib.Data.String.Basic

namespace Courier

namespace Text

theorem charsBefore_eq (l r : List Char) : charsBefore l r = decide (l < r) := by
  induction l, r using charsBefore.induct with
  | case1 l => simp [charsBefore]
  | case2 a l => simp [charsBefore]
  | case3 a l b r ih =>
      have hlt : a < b ↔ a.toNat < b.toNat := Char.lt_def.trans UInt32.lt_iff_toNat_lt
      have heq : a = b ↔ a.toNat = b.toNat := Char.toNat_inj.symm
      rw [charsBefore, ih, Bool.eq_iff_iff]
      simp only [Bool.or_eq_true, Bool.and_eq_true, decide_eq_true_eq, beq_iff_eq,
        List.cons_lt_cons_iff, hlt, heq]

theorem before_eq (s t : String) : before s t = decide (s < t) := by
  rw [before, charsBefore_eq]
  exact decide_eq_decide.2 String.lt_iff_toList_lt.symm

section

variable {α ω : Type} [LinearOrder ω] {before : α → α → Bool} {f : α → ω}
variable (hbefore : ∀ a b, before a b = decide (f a < f b))

include hbefore

theorem sort_eq_insertionSort (l : List α) :
    sort before l = l.insertionSort fun a b => f a ≤ f b := by
  have hinsert : ∀ a l, insertSorted before a l = l.orderedInsert (fun a b => f a ≤ f b) a := by
    intro a l
    induction l with
    | nil => rfl
    | cons b l ih => 
        rw [insertSorted, ih, List.orderedInsert_cons, hbefore]
        by_cases h : f a ≤ f b
        · simp [h, not_lt.2 h]
        · simp [h, not_le.1 h]
  induction l with
  | nil => rfl
  | cons a l ih => rw [sort, ih, hinsert, List.insertionSort_cons]

theorem perm_sort (l : List α) : (sort before l).Perm l := by
  rw [sort_eq_insertionSort hbefore]
  exact List.perm_insertionSort _ l

theorem pairwise_sort (l : List α) : (sort before l).Pairwise fun a b => f a ≤ f b := by
  rw [sort_eq_insertionSort hbefore]
  have : Std.Total fun a b => f a ≤ f b := ⟨fun a b => le_total (f a) (f b)⟩
  have : IsTrans α fun a b => f a ≤ f b := ⟨fun _ _ _ => le_trans⟩
  exact List.pairwise_insertionSort _ l

theorem eq_sort_of_perm {l l' : List α} (hl : ∀ a ∈ l, ∀ b ∈ l, f a = f b → a = b)
    (hsorted : l'.Pairwise fun a b => f a ≤ f b) (hperm : l'.Perm l) : l' = sort before l := by
  refine List.Perm.eq_of_pairwise (fun a b ha hb hab hba => ?_) hsorted (pairwise_sort hbefore l)
    (hperm.trans (perm_sort hbefore l).symm)
  rw [mem_sort] at hb
  exact hl a (hperm.mem_iff.1 ha) b hb (le_antisymm hab hba)

theorem filter_sort {l : List α} (hl : ∀ a ∈ l, ∀ b ∈ l, f a = f b → a = b) (q : α → Bool) :
    (sort before l).filter q = sort before (l.filter q) := by
  refine eq_sort_of_perm hbefore (fun a ha b hb => ?_) ((pairwise_sort hbefore l).filter q)
    ((perm_sort hbefore l).filter q)
  exact hl a (List.mem_of_mem_filter ha) b (List.mem_of_mem_filter hb)

theorem sort_congr {l l' : List α} (hl : ∀ a ∈ l, ∀ b ∈ l, f a = f b → a = b)
    (hperm : l'.Perm l) : sort before l' = sort before l :=
  eq_sort_of_perm hbefore hl (pairwise_sort hbefore l') ((perm_sort hbefore l').trans hperm)

end

end Text

theorem BindingKey.before_eq (a b : BindingKey) :
    a.before b = decide (toLex (a.exchange, toLex (a.queue, a.routingKey)) <
      toLex (b.exchange, toLex (b.queue, b.routingKey))) := by
  rw [Bool.eq_iff_iff]
  simp [BindingKey.before, Text.before_eq, Prod.Lex.toLex_lt_toLex]

def NaturalKey.without {α κ : Type} [NaturalKey α κ] [DecidableEq κ] (x : α) (l : List α) : List α :=
  l.filter fun y => decide (key y ≠ (key x : κ))

open NaturalKey (without)

namespace Dict

section

variable {κ α ω : Type} [DecidableEq κ] [NaturalKey α κ] [LinearOrder ω] {d : Dict κ α} {k : κ} {x : α}
variable {before : α → α → Bool} {f : α → ω}

omit [NaturalKey α κ] in
theorem erase_insert (d : Dict κ α) (k : κ) (x : α) : (d.insert k x).erase k = d.erase k := by
  obtain ⟨l⟩ := d
  simp only [erase, filterKeys, insert, mk.injEq]
  induction l with
  | nil => simp [put]
  | cons e l ih =>
      by_cases he : e.1 = k
      · simp [put, he]
      · rw [put, if_neg he, List.filter_cons, List.filter_cons, ih]

namespace Keyed

theorem values_filterKeys (hd : d.Keyed) (p : κ → Bool) :
    (d.filterKeys p).values = d.values.filter fun x => p (NaturalKey.key x) := by
  rw [values, values, Dict.filterKeys, List.filter_map]
  refine congrArg (List.map Prod.snd) (List.filter_congr fun e he => ?_)
  rw [Function.comp_apply, hd.own _ _ (get?_of_mem hd.nodup he)]

theorem eq_of_key (hd : d.Keyed) {x y : α} (hx : x ∈ d.values) (hy : y ∈ d.values)
    (h : (NaturalKey.key x : κ) = NaturalKey.key y) : x = y := by
  rw [hd.mem_values] at hx hy
  exact Option.some.inj (hx.symm.trans (h ▸ hy))

theorem map_values (hd : d.Keyed) : d.values.map NaturalKey.key = d.keys := by
  rw [values, keys, List.map_map]
  exact List.map_congr_left fun e he => hd.own _ _ (get?_of_mem hd.nodup he)

theorem mem_insert (hd : d.Keyed) (x : α) : x ∈ (d.insert (NaturalKey.key x) x).values :=
  (hd.insert x).mem_values.2 (by rw [get?_insert, if_pos rfl])

variable (hd : d.Keyed) (hbefore : ∀ a b, before a b = decide (f a < f b))
variable (hkey : ∀ a b, f a = f b → (NaturalKey.key a : κ) = NaturalKey.key b)

include hd hbefore

theorem nodup_sort : ((Text.sort before d.values).map (NaturalKey.key (κ := κ))).Nodup := by
  rw [((Text.perm_sort hbefore d.values).map _).nodup_iff, hd.map_values]
  exact hd.nodup

include hkey

theorem filter_sort (q : α → Bool) :
    (Text.sort before d.values).filter q = Text.sort before (d.values.filter q) :=
  Text.filter_sort hbefore (fun a ha b hb h => hd.eq_of_key ha hb (hkey a b h)) q

theorem sort_erase (x : α) :
    Text.sort before (d.erase (NaturalKey.key x)).values = without x (Text.sort before d.values) := by
  rw [without, hd.filter_sort hbefore hkey, Dict.erase, hd.values_filterKeys]

theorem sort_insert (x : α) :
    without x (Text.sort before (d.insert (NaturalKey.key x) x).values) =
      without x (Text.sort before d.values) := by
  rw [← hd.sort_erase hbefore hkey, ← (hd.insert x).sort_erase hbefore hkey, erase_insert]

end Keyed

end

end Dict

namespace LiveView

variable {v : LiveView}

theorem exchange_before (a b : Exchange) : Text.before a.name b.name = decide (a.name < b.name) :=
  Text.before_eq _ _

theorem queue_before (a b : Queue) : Text.before a.name b.name = decide (a.name < b.name) :=
  Text.before_eq _ _

theorem nodup_exchangeList (hv : v.Keyed) : (v.exchangeList.map NaturalKey.key).Nodup :=
  hv.exchanges.nodup_sort exchange_before

theorem nodup_queueList (hv : v.Keyed) : (v.queueList.map NaturalKey.key).Nodup :=
  hv.queues.nodup_sort queue_before

theorem exchangeList_deleted (hv : v.Keyed) (x : Exchange) :
    (v.apply (.exchange .deleted x)).exchangeList = without x v.exchangeList :=
  hv.exchanges.sort_erase exchange_before (fun _ _ => id) x

theorem exchangeList_added (hv : v.Keyed) (x : Exchange) :
    without x (v.apply (.exchange .added x)).exchangeList = without x v.exchangeList :=
  hv.exchanges.sort_insert exchange_before (fun _ _ => id) x

theorem mem_exchangeList_added (hv : v.Keyed) (x : Exchange) :
    x ∈ (v.apply (.exchange .added x)).exchangeList :=
  (lists_exchangeList _ x).2 ⟨hv.exchanges.mem_insert x, trivial⟩

theorem queueList_deleted (hv : v.Keyed) (q : Queue) :
    (v.apply (.queue .deleted q)).queueList = without q v.queueList :=
  hv.queues.sort_erase queue_before (fun _ _ => id) q

theorem queueList_added (hv : v.Keyed) (q : Queue) :
    without q (v.apply (.queue .added q)).queueList = without q v.queueList :=
  hv.queues.sort_insert queue_before (fun _ _ => id) q

theorem mem_queueList_added (hv : v.Keyed) (q : Queue) :
    q ∈ (v.apply (.queue .added q)).queueList :=
  (lists_queueList _ q).2 ⟨hv.queues.mem_insert q, trivial⟩

def bindingRank (b : Binding) : String ×ₗ String ×ₗ String :=
  toLex (b.exchange, toLex (b.queue, b.routingKey))

theorem binding_before (a b : Binding) :
    a.key.before b.key = decide (bindingRank a < bindingRank b) :=
  BindingKey.before_eq _ _

theorem key_of_bindingRank (a b : Binding) (h : bindingRank a = bindingRank b) : a.key = b.key := by
  simp only [bindingRank, toLex_inj, Prod.mk.injEq] at h
  simp [Binding.key, h]

def bindingList (v : LiveView) : List Binding :=
  Text.sort (fun a b => a.key.before b.key) v.bindings.values

theorem bindingsOf_eq (hv : v.Keyed) (exchange : String) :
    v.bindingsOf exchange = v.bindingList.filter fun b => decide (b.exchange = exchange) :=
  (hv.bindings.filter_sort binding_before key_of_bindingRank _).symm

theorem nodup_bindingsOf (hv : v.Keyed) (exchange : String) :
    ((v.bindingsOf exchange).map NaturalKey.key).Nodup := by
  rw [bindingsOf_eq hv]
  exact (hv.bindings.nodup_sort binding_before).sublist (List.filter_sublist.map _)

theorem bindingsOf_deleted (hv : v.Keyed) (exchange : String) (b : Binding) :
    (v.apply (.binding .deleted b)).bindingsOf exchange = without b (v.bindingsOf exchange) := by
  have hlist : (v.apply (.binding .deleted b)).bindingList = without b v.bindingList :=
    hv.bindings.sort_erase binding_before key_of_bindingRank b
  rw [bindingsOf_eq (hv.apply _), bindingsOf_eq hv, hlist, without, without, List.filter_comm]

theorem bindingsOf_added (hv : v.Keyed) (exchange : String) (b : Binding) :
    without b ((v.apply (.binding .added b)).bindingsOf exchange) =
      without b (v.bindingsOf exchange) := by
  have hlist : without b (v.apply (.binding .added b)).bindingList = without b v.bindingList :=
    hv.bindings.sort_insert binding_before key_of_bindingRank b
  rw [without] at hlist
  rw [bindingsOf_eq (hv.apply _), bindingsOf_eq hv, without, List.filter_comm, hlist, without,
    without, List.filter_comm]

theorem mem_bindingsOf_added (hv : v.Keyed) (b : Binding) :
    b ∈ (v.apply (.binding .added b)).bindingsOf b.exchange :=
  (lists_bindingsOf _ _ b).2 ⟨hv.bindings.mem_insert b, rfl⟩

theorem exchange_of_mem {exchange : String} {b : Binding} (hb : b ∈ v.bindingsOf exchange) :
    b.exchange = exchange :=
  ((lists_bindingsOf v exchange b).1 hb).2

theorem bindingsOf_other (hv : v.Keyed) {exchange : String} (change : Change) {b : Binding}
    (hb : b.exchange ≠ exchange) :
    (v.apply (.binding change b)).bindingsOf exchange = v.bindingsOf exchange := by
  have hkept : ∀ w : LiveView, without b (w.bindingsOf exchange) = w.bindingsOf exchange := by
    intro w
    rw [without, List.filter_eq_self]
    intro y hy
    refine decide_eq_true fun hkey => hb ?_
    exact (congrArg BindingKey.exchange hkey).symm.trans (exchange_of_mem hy)
  cases change with
  | added => rw [← hkept, bindingsOf_added hv, hkept]
  | deleted => rw [bindingsOf_deleted hv, hkept]

end LiveView

end Courier
