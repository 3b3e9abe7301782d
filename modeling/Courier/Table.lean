namespace Courier

/-- Objects that are shared by reference: a new object gets the next index, which stays its identity
for good. An index that was never used holds the default object. -/
structure Table (α : Type) where
  items : List α
  deriving DecidableEq

namespace Table

variable {α : Type} [Inhabited α]

def lookup : List α → Nat → α
  | [], _ => default
  | a :: _, 0 => a
  | _ :: l, n + 1 => lookup l n

def update (f : α → α) : Nat → List α → List α
  | 0, [] => [f default]
  | 0, a :: l => f a :: l
  | n + 1, [] => default :: update f n []
  | n + 1, a :: l => a :: update f n l

def empty : Table α := ⟨[]⟩

instance : Inhabited (Table α) := ⟨empty⟩

def size (t : Table α) : Nat := t.items.length

def get (t : Table α) (n : Nat) : α := lookup t.items n

def modify (t : Table α) (n : Nat) (f : α → α) : Table α := ⟨update f n t.items⟩

def push (t : Table α) (a : α) : Table α := ⟨t.items ++ [a]⟩

theorem lookup_update (f : α → α) (n m : Nat) (l : List α) :
    lookup (update f n l) m = if m = n then f (lookup l n) else lookup l m := by
  induction n generalizing m l with
  | zero => cases l <;> cases m <;> simp [update, lookup]
  | succ n ih =>
      cases l with
      | nil => cases m <;> simp [update, lookup, ih]
      | cons a l => cases m <;> simp [update, lookup, ih]

theorem lookup_of_length_le (l : List α) (n : Nat) (h : l.length ≤ n) : lookup l n = default := by
  induction n generalizing l with
  | zero => cases l <;> simp_all [lookup]
  | succ n ih => cases l <;> simp_all [lookup]

theorem lookup_append_singleton (l : List α) (a : α) (n : Nat) :
    lookup (l ++ [a]) n = if n = l.length then a else lookup l n := by
  induction l generalizing n with
  | nil => cases n <;> simp [lookup]
  | cons b l ih => cases n <;> simp [lookup, ih]

theorem get_modify (t : Table α) (n m : Nat) (f : α → α) :
    (t.modify n f).get m = if m = n then f (t.get n) else t.get m :=
  lookup_update f n m t.items

@[simp] theorem get_modify_self (t : Table α) (n : Nat) (f : α → α) :
    (t.modify n f).get n = f (t.get n) := by simp [get_modify]

theorem get_modify_ne (t : Table α) {n m : Nat} (f : α → α) (h : m ≠ n) :
    (t.modify n f).get m = t.get m := by simp [get_modify, h]

theorem get_push (t : Table α) (a : α) (n : Nat) :
    (t.push a).get n = if n = t.size then a else t.get n :=
  lookup_append_singleton t.items a n

theorem get_of_size_le (t : Table α) {n : Nat} (h : t.size ≤ n) : t.get n = default :=
  lookup_of_length_le t.items n h

omit [Inhabited α] in
@[simp] theorem size_push (t : Table α) (a : α) : (t.push a).size = t.size + 1 := by
  simp [size, push]

end Table

end Courier
