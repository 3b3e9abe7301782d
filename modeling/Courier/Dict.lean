namespace Courier

structure Dict (κ α : Type) where
  entries : List (κ × α)
  deriving DecidableEq

namespace Dict

variable {κ α : Type} [DecidableEq κ]

def find (k : κ) : List (κ × α) → Option α
  | [] => none
  | (j, a) :: l => if j = k then some a else find k l

def put (k : κ) (a : α) : List (κ × α) → List (κ × α)
  | [] => [(k, a)]
  | (j, b) :: l => if j = k then (k, a) :: l else (j, b) :: put k a l

def empty : Dict κ α := ⟨[]⟩

instance : Inhabited (Dict κ α) := ⟨empty⟩

def get? (d : Dict κ α) (k : κ) : Option α := find k d.entries

def contains (d : Dict κ α) (k : κ) : Bool := (d.get? k).isSome

def insert (d : Dict κ α) (k : κ) (a : α) : Dict κ α := ⟨put k a d.entries⟩

def filterKeys (d : Dict κ α) (p : κ → Bool) : Dict κ α := ⟨d.entries.filter fun e => p e.1⟩

def erase (d : Dict κ α) (k : κ) : Dict κ α := d.filterKeys fun j => decide (j ≠ k)

def keys (d : Dict κ α) : List κ := d.entries.map Prod.fst

def values (d : Dict κ α) : List α := d.entries.map Prod.snd

def size (d : Dict κ α) : Nat := d.entries.length

theorem find_put (k j : κ) (a : α) (l : List (κ × α)) :
    find j (put k a l) = if j = k then some a else find j l := by
  induction l with
  | nil =>
      by_cases h : j = k
      · simp [put, find, h]
      · simp [put, find, h, Ne.symm h]
  | cons e l ih =>
      by_cases he : e.1 = k <;> by_cases hj : j = k <;> by_cases hf : e.1 = j <;>
        simp_all [put, find]

theorem find_filter (k : κ) (p : κ → Bool) (l : List (κ × α)) :
    find k (l.filter fun e => p e.1) = if p k then find k l else none := by
  induction l with
  | nil => simp [find]
  | cons e l ih =>
      by_cases hp : p e.1 <;> by_cases hk : e.1 = k <;> simp_all [find]

theorem get?_insert (d : Dict κ α) (k j : κ) (a : α) :
    (d.insert k a).get? j = if j = k then some a else d.get? j :=
  find_put k j a d.entries

theorem get?_filterKeys (d : Dict κ α) (p : κ → Bool) (k : κ) :
    (d.filterKeys p).get? k = if p k then d.get? k else none :=
  find_filter k p d.entries

theorem get?_erase (d : Dict κ α) (k j : κ) :
    (d.erase k).get? j = if j = k then none else d.get? j := by
  by_cases h : j = k <;> simp [erase, get?_filterKeys, h]

theorem keys_insert (d : Dict κ α) (k : κ) (a : α) :
    (d.insert k a).keys = if k ∈ d.keys then d.keys else d.keys ++ [k] := by
  obtain ⟨l⟩ := d
  change (put k a l).map Prod.fst = _
  simp only [keys]
  induction l with
  | nil => simp [put]
  | cons e l ih =>
      by_cases he : e.1 = k
      · simp [put, he]
      · have hk : k ≠ e.1 := fun h => he h.symm
        by_cases hl : k ∈ l.map Prod.fst <;> simp [put, he, hk, hl, ih]

theorem keys_erase_sublist (d : Dict κ α) (k : κ) : (d.erase k).keys.Sublist d.keys :=
  List.filter_sublist.map _

theorem get?_of_mem {d : Dict κ α} {k : κ} {a : α} (hd : d.keys.Nodup)
    (hm : (k, a) ∈ d.entries) : d.get? k = some a := by
  obtain ⟨l⟩ := d
  simp only [keys] at hd hm
  change find k l = some a
  induction l with
  | nil => exact absurd hm List.not_mem_nil
  | cons e l ih =>
      obtain ⟨hfirst, hrest⟩ := List.nodup_cons.1 hd
      obtain rfl | hm := List.mem_cons.1 hm
      · exact if_pos rfl
      · have hne : e.1 ≠ k := fun he => hfirst (he ▸ List.mem_map_of_mem (f := Prod.fst) hm)
        rw [find, if_neg hne, ih hrest hm]

theorem mem_of_get? {d : Dict κ α} {k : κ} {a : α}
    (h : d.get? k = some a) : (k, a) ∈ d.entries := by
  obtain ⟨l⟩ := d
  change find k l = some a at h
  induction l with
  | nil => exact nomatch h
  | cons e l ih =>
      rw [find] at h
      split at h
      · next he =>
          obtain rfl : e.2 = a := Option.some.inj h
          exact List.mem_cons.2 (.inl (by rw [← he]))
      · exact List.mem_cons_of_mem _ (ih h)

end Dict

end Courier
