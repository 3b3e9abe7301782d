namespace Courier.Text

/-- The order of the code points, which is also the order of the UTF-8 bytes. -/
def charsBefore : List Char → List Char → Bool
  | _, [] => false
  | [], _ :: _ => true
  | a :: l, b :: r => a.toNat < b.toNat || (a.toNat == b.toNat && charsBefore l r)

def before (s t : String) : Bool := charsBefore s.toList t.toList

def insertSorted {α : Type} (before : α → α → Bool) (a : α) : List α → List α
  | [] => [a]
  | b :: l => if before b a then b :: insertSorted before a l else a :: b :: l

def sort {α : Type} (before : α → α → Bool) : List α → List α
  | [] => []
  | a :: l => insertSorted before a (sort before l)

theorem mem_insertSorted {α : Type} (before : α → α → Bool) (a x : α) (l : List α) :
    x ∈ insertSorted before a l ↔ x = a ∨ x ∈ l := by
  induction l with
  | nil => simp [insertSorted]
  | cons b l ih =>
      unfold insertSorted
      split <;> simp_all [or_left_comm]

theorem mem_sort {α : Type} (before : α → α → Bool) (x : α) (l : List α) :
    x ∈ sort before l ↔ x ∈ l := by
  induction l with
  | nil => simp [sort]
  | cons a l ih => simp [sort, mem_insertSorted, ih]

end Courier.Text
