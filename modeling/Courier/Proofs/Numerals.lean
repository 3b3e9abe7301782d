import Courier.Lists
import Courier.Text.Blank
import Courier.Text.Number
import Mathlib.Data.List.TakeWhile

namespace Courier.Text

variable {l inner digits rest : List Char} {v : Nat} {e : NumberError}

structure Padded (l inner : List Char) : Prop where
  around : ∃ left right, l = left ++ inner ++ right ∧
    (∀ c ∈ left, isBlank c = true) ∧ ∀ c ∈ right, isBlank c = true
  head : ∀ c ∈ inner.head?, isBlank c = false
  last : ∀ c ∈ inner.getLast?, isBlank c = false

theorem Padded.trim_eq (h : Padded l inner) : trim l = inner := by
  obtain ⟨left, right, rfl, hleft, hright⟩ := h.around
  have hright' : ∀ c ∈ right.reverse, isBlank c = true := fun c hc =>
    hright c (List.mem_reverse.1 hc)
  rw [trim, List.append_assoc, List.dropWhile_append_of_pos hleft]
  cases inner with
  | nil =>
      rw [List.nil_append, List.dropWhile_eq_nil_iff.2 hright]
      rfl
  | cons c inner =>
      have hstart : ∀ d ∈ ((c :: inner) ++ right).head?, isBlank d = false := h.head
      have hend : ∀ d ∈ (c :: inner).reverse.head?, isBlank d = false := by
        rw [List.head?_reverse]
        exact h.last
      rw [dropWhile_of_head hstart, List.reverse_append, List.dropWhile_append_of_pos hright',
        dropWhile_of_head hend, List.reverse_reverse]

theorem padded_trim (l : List Char) : Padded l (trim l) := by
  let m := l.dropWhile isBlank
  let right := (m.reverse.takeWhile isBlank).reverse
  have hm : m = trim l ++ right := by
    rw [trim, ← List.reverse_append, List.takeWhile_append_dropWhile, List.reverse_reverse]
  refine ⟨⟨l.takeWhile isBlank, right, ?_, fun c => List.mem_takeWhile_imp, fun c hc => ?_⟩,
    fun c hc => ?_, fun c hc => ?_⟩
  · rw [List.append_assoc, ← hm, List.takeWhile_append_dropWhile]
  · exact List.mem_takeWhile_imp (List.mem_reverse.1 hc)
  · have hhead : m.head? = some c := by
      rw [hm, List.head?_append, hc]
      rfl
    have hnot := List.head?_dropWhile_not isBlank l
    rwa [show l.dropWhile isBlank = m from rfl, hhead] at hnot
  · rw [trim, List.getLast?_reverse] at hc
    have hnot := List.head?_dropWhile_not isBlank m.reverse
    rwa [hc] at hnot

theorem padded_iff : Padded l inner ↔ trim l = inner :=
  ⟨Padded.trim_eq, fun h => h ▸ padded_trim l⟩

theorem lowerAscii_eq_toLower (c : Char) : lowerAscii c = c.toLower := by
  unfold lowerAscii Char.toLower
  by_cases h : c.val ≥ 'A'.val ∧ c.val ≤ 'Z'.val
  · rw [dif_pos h, if_pos (show 'A' ≤ c ∧ c ≤ 'Z' from h)]
    have hle : c.toNat ≤ 'Z'.toNat := h.2
    have hz : 'Z'.toNat = 90 := rfl
    refine Char.toNat_inj.1 ?_
    rw [Char.ofNat, dif_pos (.inl (by omega))]
    change c.toNat + 32 = (c.val + 32).toNat
    rw [UInt32.toNat_add]
    exact (Nat.mod_eq_of_lt (show c.toNat + 32 < 2 ^ 32 by omega)).symm
  · rw [dif_neg h, if_neg (show ¬ ('A' ≤ c ∧ c ≤ 'Z') from h)]

theorem map_lowerAscii (l : List Char) : l.map lowerAscii = l.map Char.toLower :=
  List.map_congr_left fun c _ => lowerAscii_eq_toLower c

theorem digit?_ten (c : Char) :
    digit? 10 c = if c.isDigit then some (c.toNat - '0'.toNat) else none := by
  have hdigit : c.isDigit = true ↔ '0' ≤ c ∧ c ≤ '9' := by
    simp [Char.isDigit, Char.le_def]
  unfold digit?
  by_cases h : '0' ≤ c ∧ c ≤ '9'
  · have hlt : c.toNat - '0'.toNat < 10 := by
      have hle : c.toNat ≤ '9'.toNat := h.2
      have hnine : '9'.toNat = 57 := rfl
      have hzero : '0'.toNat = 48 := rfl
      omega
    rw [if_pos h, if_pos (hdigit.2 h)]
    exact if_pos hlt
  · rw [if_neg h, if_neg fun hc => h (hdigit.1 hc)]
    refine if_neg ?_
    split
    · omega
    · split <;> omega

theorem le_ofDigitChars (l : List Char) (v : Nat) : v ≤ Nat.ofDigitChars 10 l v := by
  induction l generalizing v with
  | nil => exact Nat.le_refl v
  | cons c l ih =>
      rw [Nat.ofDigitChars_cons]
      have hv := ih (10 * v + (c.toNat - '0'.toNat))
      omega

theorem readDigits_cons (c : Char) (hc : c.isDigit = true) (l : List Char) (v : Nat) :
    readDigits v (c :: l) =
      if Nat.ofDigitChars 10 [c] v < UInt64.size then readDigits (Nat.ofDigitChars 10 [c] v) l
      else .error .tooLarge := by
  rw [readDigits, digit?_ten, if_pos hc, Nat.mul_comm v 10]
  rfl

/-- The first fault of a text of digits: something that is no digit, or a digit with which the
number no longer fits. -/
inductive Faulty : List Char → NumberError → Prop
  | invalidDigit {digits rest : List Char} {c : Char} (read : ∀ d ∈ digits, d.isDigit = true)
      (fits : Nat.ofDigitChars 10 digits 0 < UInt64.size) (fault : c.isDigit = false) :
      Faulty (digits ++ c :: rest) .invalidDigit
  | tooLarge {digits rest : List Char} (read : ∀ d ∈ digits, d.isDigit = true)
      (large : UInt64.size ≤ Nat.ofDigitChars 10 digits 0) : Faulty (digits ++ rest) .tooLarge

theorem readDigits_append (rest : List Char) (hd : ∀ d ∈ digits, d.isDigit = true)
    (hv : Nat.ofDigitChars 10 digits v < UInt64.size) :
    readDigits v (digits ++ rest) = readDigits (Nat.ofDigitChars 10 digits v) rest := by
  induction digits generalizing v with
  | nil => rfl
  | cons c digits ih =>
      obtain ⟨hc, hd⟩ := List.forall_mem_cons.1 hd
      have hfirst : Nat.ofDigitChars 10 [c] v < UInt64.size :=
        Nat.lt_of_le_of_lt (le_ofDigitChars digits _) hv
      rw [List.cons_append, readDigits_cons c hc, if_pos hfirst]
      exact ih hd hv

theorem readDigits_tooLarge (hd : ∀ d ∈ digits, d.isDigit = true) (hv : v < UInt64.size)
    (hlarge : UInt64.size ≤ Nat.ofDigitChars 10 digits v) :
    readDigits v (digits ++ rest) = .error .tooLarge := by
  induction digits generalizing v with
  | nil => exact absurd hlarge (Nat.not_le_of_lt hv)
  | cons c digits ih =>
      obtain ⟨hc, hd⟩ := List.forall_mem_cons.1 hd
      rw [List.cons_append, readDigits_cons c hc]
      split
      · next hfirst => exact ih hd hfirst hlarge
      · rfl

theorem readDigits_cases (digits rest : List Char) (hd : ∀ d ∈ digits, d.isDigit = true)
    (hv : Nat.ofDigitChars 10 digits 0 < UInt64.size) :
    ((∀ d ∈ digits ++ rest, d.isDigit = true) ∧
        Nat.ofDigitChars 10 (digits ++ rest) 0 < UInt64.size) ∨
      ∃ e, Faulty (digits ++ rest) e := by
  induction rest generalizing digits with
  | nil => exact .inl (by simpa using ⟨hd, hv⟩)
  | cons c rest ih =>
      by_cases hc : c.isDigit = true
      · have hd' : ∀ d ∈ digits ++ [c], d.isDigit = true := by
          simpa [or_imp, forall_and] using ⟨hd, hc⟩
        rw [List.append_cons]
        by_cases hfits : Nat.ofDigitChars 10 (digits ++ [c]) 0 < UInt64.size
        · exact ih _ hd' hfits
        · exact .inr ⟨_, .tooLarge hd' (Nat.le_of_not_lt hfits)⟩
      · exact .inr ⟨_, .invalidDigit hd hv (Bool.eq_false_iff.2 hc)⟩

theorem Faulty.readDigits_eq (h : Faulty l e) : readDigits 0 l = .error e := by
  cases h with
  | invalidDigit read fits fault =>
      rw [readDigits_append _ read fits, readDigits, digit?_ten, fault]
      rfl
  | tooLarge read large => exact readDigits_tooLarge read (by decide) large

theorem readDigits_eq_ok_iff {n : Nat} :
    readDigits 0 l = .ok n ↔ (∀ d ∈ l, d.isDigit = true) ∧ Nat.ofDigitChars 10 l 0 = n ∧
      n < UInt64.size := by
  constructor
  · intro h
    obtain ⟨hd, hv⟩ | ⟨e, he⟩ := readDigits_cases [] l nofun (by decide)
    · have hread := readDigits_append [] hd hv
      rw [List.append_nil, List.nil_append, h] at hread
      obtain rfl := Except.ok.inj hread
      exact ⟨hd, rfl, hv⟩
    · exact nomatch h.symm.trans he.readDigits_eq
  · rintro ⟨hd, rfl, hv⟩
    have hread := readDigits_append [] hd hv
    rwa [List.append_nil] at hread

theorem readDigits_eq_error_iff : readDigits 0 l = .error e ↔ Faulty l e := by
  refine ⟨fun h => ?_, Faulty.readDigits_eq⟩
  obtain ⟨hd, hv⟩ | ⟨e', he⟩ := readDigits_cases [] l nofun (by decide)
  · exact nomatch h.symm.trans (readDigits_eq_ok_iff.2 ⟨hd, rfl, hv⟩)
  · obtain rfl := Except.error.inj (h.symm.trans he.readDigits_eq)
    exact he

def unsigned : List Char → List Char
  | '+' :: l => l
  | l => l

structure Numeral (l : List Char) (n : UInt64) : Prop where
  digits : ∀ d ∈ unsigned l, d.isDigit = true
  ne_nil : unsigned l ≠ []
  value : Nat.ofDigitChars 10 (unsigned l) 0 = n.toNat

inductive Misspelt : List Char → NumberError → Prop
  | empty : Misspelt [] .empty
  | bare : Misspelt ['+'] .invalidDigit
  | faulty {l : List Char} {e : NumberError} (fault : Faulty (unsigned l) e) : Misspelt l e

theorem unsigned_eq_nil : unsigned l = [] ↔ l = [] ∨ l = ['+'] := by
  unfold unsigned
  split <;> simp_all

theorem unsigned_of_ne (h : ∀ rest, l ≠ '+' :: rest) : unsigned l = l := by
  unfold unsigned
  split
  · exact absurd rfl (h _)
  · rfl

theorem readWord_eq (h : unsigned l ≠ []) : readWord l = .ofNat <$> readDigits 0 (unsigned l) := by
  unfold readWord
  split
  · exact absurd rfl h
  · exact absurd rfl h
  · rfl
  · next hplus => rw [unsigned_of_ne hplus]

theorem not_faulty_nil : ¬ Faulty [] e := by
  intro h
  exact nomatch h.readDigits_eq

theorem readWord_eq_ok_iff {n : UInt64} : readWord l = .ok n ↔ Numeral l n := by
  by_cases hnil : unsigned l = []
  · refine ⟨fun h => ?_, fun h => absurd hnil h.ne_nil⟩
    obtain rfl | rfl := unsigned_eq_nil.1 hnil <;> cases h
  · rw [readWord_eq hnil]
    cases hread : readDigits 0 (unsigned l) with
    | error e =>
        refine ⟨nofun, fun h => ?_⟩
        have hok := readDigits_eq_ok_iff.2 ⟨h.digits, h.value, n.toNat_lt⟩
        exact nomatch hread.symm.trans hok
    | ok v =>
        obtain ⟨hd, rfl, hv⟩ := readDigits_eq_ok_iff.1 hread
        constructor
        · intro h
          obtain rfl := Except.ok.inj h
          exact ⟨hd, hnil, (UInt64.toNat_ofNat_of_lt hv).symm⟩
        · intro h
          refine congrArg Except.ok ?_
          rw [h.value, UInt64.ofNat_toNat]

theorem readWord_eq_error_iff : readWord l = .error e ↔ Misspelt l e := by
  by_cases hnil : unsigned l = []
  · constructor
    · intro h
      obtain rfl | rfl := unsigned_eq_nil.1 hnil
      · obtain rfl := Except.error.inj h
        exact .empty
      · obtain rfl := Except.error.inj h
        exact .bare
    · intro h
      cases h with
      | empty | bare => rfl
      | faulty fault => exact absurd (hnil ▸ fault) not_faulty_nil
  · rw [readWord_eq hnil]
    constructor
    · intro h
      cases hread : readDigits 0 (unsigned l) with
      | error e' =>
          rw [hread] at h
          obtain rfl := Except.error.inj h
          exact .faulty (readDigits_eq_error_iff.1 hread)
      | ok v =>
          rw [hread] at h
          cases h
    · intro h
      cases h with
      | empty | bare => exact absurd rfl hnil
      | faulty fault =>
          rw [fault.readDigits_eq]
          rfl

end Courier.Text
