namespace Courier

variable {α β : Type}

theorem count_eraseP_of_neg [BEq α] [LawfulBEq α] {p : α → Bool} {a : α} (ha : ¬ p a = true)
    (l : List α) : (l.eraseP p).count a = l.count a := by
  induction l with
  | nil => rfl
  | cons c l ih =>
      by_cases hc : p c = true
      · have hne : ¬ (c == a) = true := fun he => ha (by rwa [← eq_of_beq he])
        rw [List.eraseP_cons_of_pos hc, List.count_cons, if_neg hne, Nat.add_zero]
      · rw [List.eraseP_cons_of_neg hc, List.count_cons, List.count_cons, ih]

theorem eraseP_eq_erase [BEq α] [LawfulBEq α] {p : α → Bool} {a : α} {l : List α}
    (h : ∀ c ∈ l, p c = true ↔ c = a) : l.eraseP p = l.erase a := by
  induction l with
  | nil => rfl
  | cons c l ih =>
      have hc := h c List.mem_cons_self
      by_cases he : c = a
      · rw [List.eraseP_cons_of_pos (hc.2 he), he, List.erase_cons_head]
      · rw [List.eraseP_cons_of_neg fun hp => he (hc.1 hp), List.erase_cons_tail (by simpa using he),
          ih fun d hd => h d (List.mem_cons_of_mem _ hd)]

theorem countP_le_add {p q s : α → Bool} (h : ∀ a, p a = true → q a = true ∨ s a = true)
    (l : List α) : l.countP p ≤ l.countP q + l.countP s := by
  induction l with
  | nil => exact Nat.le_refl 0
  | cons a l ih =>
      have ha := h a
      rw [List.countP_cons, List.countP_cons, List.countP_cons]
      cases hp : p a <;> cases hq : q a <;> cases hs : s a <;> simp_all <;> omega

theorem dropWhile_of_head {p : α → Bool} {l : List α} (h : ∀ a ∈ l.head?, p a = false) :
    l.dropWhile p = l := by
  cases l with
  | nil => rfl
  | cons a l => rw [List.dropWhile_cons_of_neg (by simp [h a rfl])]

theorem findSome?_cons_eq_or (g : α → Option β) (a : α) (l : List α) :
    (a :: l).findSome? g = (g a).or (l.findSome? g) := by
  rw [List.findSome?_cons]
  cases g a <;> rfl

theorem exists_init_of_concat_eq {l before after : List α} {x y : α}
    (h : l ++ [y] = before ++ x :: after) :
    ∃ init, x :: after = init ++ [y] ∧ l = before ++ init := by
  obtain ⟨init, z, hz⟩ := (List.eq_nil_or_concat (x :: after)).resolve_left (List.cons_ne_nil _ _)
  rw [List.concat_eq_append] at hz
  rw [hz, ← List.append_assoc] at h
  obtain ⟨hl, hy⟩ := List.append_inj' h rfl
  exact ⟨init, hz.trans (by rw [hy]), hl⟩

theorem max?_append_singleton [Max α] (l : List α) (a : α) :
    (l ++ [a]).max? = some ((l.max?.map (max · a)).getD a) := by
  cases l with
  | nil => rfl
  | cons x l =>
      rw [List.cons_append, List.max?_cons', List.max?_cons', List.foldl_append]
      rfl

instance instLawfulOrderMaxUInt64 : Std.LawfulOrderMax UInt64 where
  max_le_iff a b c := by
    change (if a ≤ b then b else a) ≤ c ↔ _
    simp only [UInt64.le_iff_toNat_le]
    split <;> omega
  max_eq_or a b := by
    change (if a ≤ b then b else a) = a ∨ (if a ≤ b then b else a) = b
    split <;> simp

end Courier
