import Courier.Registry
import Mathlib.Data.List.Basic
import Mathlib.Data.List.Induction
import Mathlib.Data.List.Perm.Basic
import Mathlib.Data.Nat.Find
import Mathlib.Tactic.ByContra

namespace Courier

namespace Registry

inductive Event where
  | registered (x : Registration)
  | removed (id : SubscriberId)
  deriving DecidableEq

def apply (g : Registry) : Event → Registry
  | .registered x => g.add x
  | .removed id => g.remove id

def after (l : List Event) : Registry := l.foldl apply empty

def registrations (g : Registry) (key : DestinationKey) : List Registration :=
  g.entries.filter fun e => e.key = key

variable {l : List Event} {key : DestinationKey} {id : SubscriberId} {x : Registration} {n : Nat}
  {g : Registry} {r : List Registration}

def Enters (l : List Event) (key : DestinationKey) (id : SubscriberId) (n : Nat) : Prop :=
  ∃ x, l[n]? = some (.registered x) ∧ x.key = key ∧ x.id = id

def Leaves (l : List Event) (id : SubscriberId) (n : Nat) : Prop := l[n]? = some (.removed id)

/-- Here the id comes to a destination: it is registered for the first time since it was last
removed, and it is not removed any more. -/
structure Comes (l : List Event) (key : DestinationKey) (id : SubscriberId) (n : Nat) : Prop where
  enters : Enters l key id n
  stays : ∀ k, Leaves l id k → k < n
  first : ∀ m < n, Enters l key id m → ∃ k, Leaves l id k ∧ m < k

def Latest (l : List Event) (x : Registration) : Prop :=
  ∃ n, l[n]? = some (.registered x) ∧ ∀ m, Enters l x.key x.id m → m ≤ n

structure Lists (l : List Event) (key : DestinationKey) (r : List Registration) : Prop where
  key_eq : ∀ x ∈ r, x.key = key
  latest : ∀ x ∈ r, Latest l x
  mem_iff : ∀ id, id ∈ r.map Registration.id ↔ ∃ n, Comes l key id n
  ordered : (r.map Registration.id).Pairwise fun i j =>
    ∀ n m, Comes l key i n → Comes l key j m → n < m

theorem Lists.nodup (h : Lists l key r) : (r.map Registration.id).Nodup := by
  refine List.Pairwise.imp_of_mem (fun {i j} hi _ hij he => ?_) h.ordered
  obtain ⟨n, hn⟩ := (h.mem_iff i).1 hi
  exact Nat.lt_irrefl n (hij n n hn (he ▸ hn))

theorem after_concat (l : List Event) (e : Event) : after (l ++ [e]) = (after l).apply e := by
  rw [after, List.foldl_concat, after]

theorem getElem?_concat {e a : Event} :
    (l ++ [e])[n]? = some a ↔ l[n]? = some a ∨ n = l.length ∧ e = a := by
  rcases Nat.lt_trichotomy n l.length with h | rfl | h
  · simp [List.getElem?_append_left h, Nat.ne_of_lt h]
  · simp
  · have hle : (l ++ [e]).length ≤ n := by simpa [Nat.succ_le_iff] using h
    rw [List.getElem?_eq_none hle, List.getElem?_eq_none (Nat.le_of_lt h)]
    simp [Nat.ne_of_gt h]

theorem enters_concat {e : Event} :
    Enters (l ++ [e]) key id n ↔
      Enters l key id n ∨ n = l.length ∧ ∃ x, e = .registered x ∧ x.key = key ∧ x.id = id := by
  simp only [Enters, getElem?_concat, or_and_right, exists_or, and_assoc, exists_and_left]

theorem leaves_concat {e : Event} :
    Leaves (l ++ [e]) id n ↔ Leaves l id n ∨ n = l.length ∧ e = .removed id :=
  getElem?_concat

theorem Enters.lt_length (h : Enters l key id n) : n < l.length := by
  obtain ⟨x, hx, -⟩ := h
  exact (List.getElem?_eq_some_iff.1 hx).1

theorem Leaves.lt_length (h : Leaves l id n) : n < l.length := (List.getElem?_eq_some_iff.1 h).1

theorem Enters.not_leaves {id' : SubscriberId} (h : Enters l key id n) : ¬ Leaves l id' n := by
  obtain ⟨x, hx, -⟩ := h
  intro hl
  exact nomatch hx.symm.trans hl

theorem Enters.exists_comes (h : Enters l key id n) (hstays : ∀ k, Leaves l id k → k < n) :
    ∃ m, Comes l key id m := by
  classical
  have hstay : ∃ m, Enters l key id m ∧ ∀ k, Leaves l id k → k < m := ⟨n, h, hstays⟩
  obtain ⟨henters, hlast⟩ := Nat.find_spec hstay
  refine ⟨Nat.find hstay, henters, hlast, fun m hm hmenters => ?_⟩
  by_contra hnone
  refine Nat.find_min hstay hm ⟨hmenters, fun k hk => ?_⟩
  have hkm : k ≤ m := Nat.le_of_not_lt fun hmk => hnone ⟨k, hk, hmk⟩
  exact Nat.lt_of_le_of_ne hkm fun he => hmenters.not_leaves (he ▸ hk)

theorem comes_removed_iff {id' : SubscriberId} :
    Comes (l ++ [.removed id']) key id n ↔ id ≠ id' ∧ Comes l key id n := by
  have henters : ∀ m, Enters (l ++ [.removed id']) key id m ↔ Enters l key id m := by
    simp [enters_concat]
  constructor
  · intro h
    have hn := (henters n).1 h.enters
    have hne : id ≠ id' := by
      rintro rfl
      exact Nat.lt_asymm (h.stays _ (leaves_concat.2 (.inr ⟨rfl, rfl⟩))) hn.lt_length
    refine ⟨hne, hn, fun k hk => h.stays k (leaves_concat.2 (.inl hk)), fun m hm hmenters => ?_⟩
    obtain ⟨k, hk, hmk⟩ := h.first m hm ((henters m).2 hmenters)
    obtain hk | ⟨-, hk⟩ := leaves_concat.1 hk
    · exact ⟨k, hk, hmk⟩
    · exact absurd (Event.removed.inj hk).symm hne
  · rintro ⟨hne, h⟩
    have hleaves : ∀ k, Leaves (l ++ [.removed id']) id k ↔ Leaves l id k := by
      simp [leaves_concat, Ne.symm hne]
    refine ⟨(henters n).2 h.enters, fun k hk => h.stays k ((hleaves k).1 hk), ?_⟩
    intro m hm hmenters
    obtain ⟨k, hk, hmk⟩ := h.first m hm ((henters m).1 hmenters)
    exact ⟨k, (hleaves k).2 hk, hmk⟩

theorem leaves_registered {k : Nat} : Leaves (l ++ [.registered x]) id k ↔ Leaves l id k := by
  simp [leaves_concat]

theorem comes_registered_of_ne (hne : ¬ (x.key = key ∧ x.id = id)) :
    Comes (l ++ [.registered x]) key id n ↔ Comes l key id n := by
  have henters : ∀ m, Enters (l ++ [.registered x]) key id m ↔ Enters l key id m := by
    simp [enters_concat, hne]
  constructor
  · exact fun h => ⟨(henters n).1 h.enters, fun k hk => h.stays k (leaves_registered.2 hk),
      fun m hm hmenters => by simpa [leaves_registered] using h.first m hm ((henters m).2 hmenters)⟩
  · exact fun h => ⟨(henters n).2 h.enters, fun k hk => h.stays k (leaves_registered.1 hk),
      fun m hm hmenters => by simpa [leaves_registered] using h.first m hm ((henters m).1 hmenters)⟩

theorem comes_registered_again (h : ∃ m, Comes l x.key x.id m) :
    Comes (l ++ [.registered x]) x.key x.id n ↔ Comes l x.key x.id n := by
  obtain ⟨m, hm⟩ := h
  constructor
  · intro hn
    obtain henters | ⟨rfl, -⟩ := enters_concat.1 hn.enters
    · refine ⟨henters, fun k hk => hn.stays k (leaves_registered.2 hk), fun m hm hmenters => ?_⟩
      simpa [leaves_registered] using hn.first m hm (enters_concat.2 (.inl hmenters))
    · obtain ⟨k, hk, hmk⟩ := hn.first m hm.enters.lt_length (enters_concat.2 (.inl hm.enters))
      exact absurd hmk (Nat.lt_asymm (hm.stays k (leaves_registered.1 hk)))
  · intro hn
    refine ⟨enters_concat.2 (.inl hn.enters), fun k hk => hn.stays k (leaves_registered.1 hk),
      fun k hk hkenters => ?_⟩
    obtain hkenters | ⟨rfl, -⟩ := enters_concat.1 hkenters
    · simpa [leaves_registered] using hn.first k hk hkenters
    · exact absurd hk (Nat.lt_asymm hn.enters.lt_length)

theorem comes_registered_first (h : ¬ ∃ m, Comes l x.key x.id m) :
    Comes (l ++ [.registered x]) x.key x.id n ↔ n = l.length := by
  have hgone : ∀ m, Enters l x.key x.id m → ∃ k, Leaves l x.id k ∧ m < k := by
    intro m hm
    by_contra hnone
    refine h (hm.exists_comes fun k hk => ?_)
    exact Nat.lt_of_le_of_ne (Nat.le_of_not_lt fun hmk => hnone ⟨k, hk, hmk⟩)
      fun he => hm.not_leaves (he ▸ hk)
  constructor
  · intro hn
    obtain henters | ⟨rfl, -⟩ := enters_concat.1 hn.enters
    · obtain ⟨k, hk, hnk⟩ := hgone n henters
      exact absurd hnk (Nat.lt_asymm (hn.stays k (leaves_registered.2 hk)))
    · rfl
  · rintro rfl
    refine ⟨enters_concat.2 (.inr ⟨rfl, x, rfl, rfl, rfl⟩),
      fun k hk => (leaves_registered.1 hk).lt_length, fun m hm hmenters => ?_⟩
    obtain hmenters | ⟨rfl, -⟩ := enters_concat.1 hmenters
    · simpa [leaves_registered] using hgone m hmenters
    · exact absurd hm (Nat.lt_irrefl _)

def enter (x : Registration) (r : List Registration) : List Registration :=
  match r.findIdx? fun e => e.id = x.id with
  | some n => r.set n x
  | none => r ++ [x]

def strike (id : SubscriberId) (r : List Registration) : Option Registration × List Registration :=
  match r.findIdx? fun e => e.id = id with
  | some n => (r[n]?, r.eraseIdx n)
  | none => (none, r)

theorem enter_cons (x e : Registration) (r : List Registration) :
    enter x (e :: r) = if e.id = x.id then x :: r else e :: enter x r := by
  unfold enter
  rw [List.findIdx?_cons]
  by_cases h : e.id = x.id
  · simp [h]
  · cases r.findIdx? fun e => e.id = x.id <;> simp [h]

theorem strike_cons (id : SubscriberId) (e : Registration) (r : List Registration) :
    strike id (e :: r) =
      if e.id = id then (some e, r) else ((strike id r).1, e :: (strike id r).2) := by
  unfold strike
  rw [List.findIdx?_cons]
  by_cases h : e.id = id
  · simp [h]
  · cases r.findIdx? fun e => e.id = id <;> simp [h]

theorem map_enter (x : Registration) (r : List Registration) :
    (enter x r).map Registration.id =
      if x.id ∈ r.map Registration.id then r.map Registration.id
      else r.map Registration.id ++ [x.id] := by
  induction r with
  | nil => rfl
  | cons e r ih =>
      rw [enter_cons]
      by_cases h : e.id = x.id
      · simp [h]
      · by_cases hr : x.id ∈ r.map Registration.id <;> simp [h, Ne.symm h, ih, hr]

theorem mem_enter {x e : Registration} {r : List Registration}
    (hr : (r.map Registration.id).Nodup) (he : e ∈ enter x r) : e = x ∨ e ∈ r ∧ e.id ≠ x.id := by
  induction r with
  | nil => exact .inl (List.mem_singleton.1 he)
  | cons d r ih =>
      rw [List.map_cons, List.nodup_cons] at hr
      rw [enter_cons] at he
      split at he
      · next h =>
          refine (List.mem_cons.1 he).imp_right fun he => ⟨.tail _ he, fun hid => hr.1 ?_⟩
          exact h.trans hid.symm ▸ List.mem_map_of_mem he
      · next h =>
          obtain rfl | he := List.mem_cons.1 he
          · exact .inr ⟨List.mem_cons_self, h⟩
          · exact (ih hr.2 he).imp_right fun he => ⟨.tail _ he.1, he.2⟩

theorem strike_snd (id : SubscriberId) (hr : (r.map Registration.id).Nodup) :
    (strike id r).2 = r.filter fun e => e.id ≠ id := by
  induction r with
  | nil => rfl
  | cons e r ih =>
      rw [List.map_cons, List.nodup_cons] at hr
      rw [strike_cons]
      split
      · next h =>
          have hr' : ∀ d ∈ r, d.id ≠ id := fun d hd hid =>
            hr.1 (h.trans hid.symm ▸ List.mem_map_of_mem hd)
          rw [List.filter_cons_of_neg (by simp [h]), List.filter_eq_self.2 (by simpa using hr')]
      · next h => rw [List.filter_cons_of_pos (by simpa using h), ih hr.2]

theorem strike_fst_eq_some (h : (strike id r).1 = some x) : x ∈ r ∧ x.id = id := by
  induction r with
  | nil => exact nomatch h
  | cons e r ih =>
      rw [strike_cons] at h
      split at h
      · next he =>
          obtain rfl := Option.some.inj h
          exact ⟨List.mem_cons_self, he⟩
      · exact (ih h).imp_left (.tail _)

theorem isSome_strike (id : SubscriberId) (r : List Registration) :
    (strike id r).1.isSome = decide (id ∈ r.map Registration.id) := by
  induction r with
  | nil => rfl
  | cons e r ih =>
      rw [strike_cons]
      by_cases h : e.id = id
      · simp [h]
      · simp [h, Ne.symm h, ih]

theorem filter_place (x : Registration) (key : DestinationKey) (r : List Registration) :
    (place x r).filter (fun e => e.key = key) =
      if x.key = key then enter x (r.filter fun e => e.key = key)
      else r.filter fun e => e.key = key := by
  induction r with
  | nil => by_cases h : x.key = key <;> simp [place, enter, h]
  | cons e r ih =>
      rw [place]
      by_cases hx : x.key = key
      · subst hx
        simp only [if_true] at ih ⊢
        by_cases he : e.key = x.key
        · rw [List.filter_cons_of_pos (by simpa using he), enter_cons]
          by_cases hid : e.id = x.id
          · simp [he, hid]
          · simp [he, hid, ih]
        · simp [he, ih]
      · by_cases he : e.key = x.key ∧ e.id = x.id
        · simp [he, hx]
        · simp only [he, hx, if_false] at ih ⊢
          rw [List.filter_cons, List.filter_cons, ih]

theorem registrations_add (g : Registry) (x : Registration) (key : DestinationKey) :
    (g.add x).registrations key =
      if x.key = key then enter x (g.registrations key) else g.registrations key :=
  filter_place x key g.entries

theorem registrations_remove (g : Registry) (id : SubscriberId) (key : DestinationKey) :
    (g.remove id).registrations key = (g.registrations key).filter fun e => e.id ≠ id :=
  List.filter_comm ..

theorem Latest.concat (hx : Latest l x) {e : Event}
    (he : ∀ y, e = .registered y → ¬ (y.key = x.key ∧ y.id = x.id)) : Latest (l ++ [e]) x := by
  obtain ⟨n, hn, hlast⟩ := hx
  refine ⟨n, getElem?_concat.2 (.inl hn), fun m hm => ?_⟩
  obtain hm | ⟨-, y, hy, hkey⟩ := enters_concat.1 hm
  · exact hlast m hm
  · exact absurd hkey (he y hy)

theorem latest_registered (l : List Event) (x : Registration) :
    Latest (l ++ [.registered x]) x := by
  refine ⟨l.length, getElem?_concat.2 (.inr ⟨rfl, rfl⟩), fun m hm => ?_⟩
  have hlt := hm.lt_length
  rw [List.length_append, List.length_singleton] at hlt
  exact Nat.le_of_lt_succ hlt

theorem Lists.registered_other (h : Lists l key r) (hx : x.key ≠ key) :
    Lists (l ++ [.registered x]) key r := by
  have hcomes : ∀ i n, Comes (l ++ [.registered x]) key i n ↔ Comes l key i n := fun i n =>
    comes_registered_of_ne fun he => hx he.1
  refine ⟨h.key_eq, fun y hy => (h.latest y hy).concat ?_, fun i => ?_, ?_⟩
  · rintro _ ⟨⟩ ⟨hkey, -⟩
    exact hx (hkey.trans (h.key_eq y hy))
  · simpa only [hcomes] using h.mem_iff i
  · simpa only [hcomes] using h.ordered

theorem Lists.enter_latest (h : Lists l x.key r) {y : Registration} (hy : y ∈ enter x r) :
    y.key = x.key ∧ Latest (l ++ [.registered x]) y := by
  obtain rfl | ⟨hy, hne⟩ := mem_enter h.nodup hy
  · exact ⟨rfl, latest_registered l y⟩
  · refine ⟨h.key_eq y hy, (h.latest y hy).concat ?_⟩
    rintro _ ⟨⟩ ⟨-, hid⟩
    exact hne hid.symm

theorem Lists.registered_again (h : Lists l x.key r) (hx : x.id ∈ r.map Registration.id) :
    Lists (l ++ [.registered x]) x.key (enter x r) := by
  have hcomes : ∀ i n, Comes (l ++ [.registered x]) x.key i n ↔ Comes l x.key i n := by
    intro i n
    by_cases hi : i = x.id
    · exact hi ▸ comes_registered_again ((h.mem_iff x.id).1 hx)
    · exact comes_registered_of_ne fun he => hi he.2.symm
  refine ⟨fun y hy => (h.enter_latest hy).1, fun y hy => (h.enter_latest hy).2, fun i => ?_, ?_⟩
  · rw [map_enter, if_pos hx]
    simpa only [hcomes] using h.mem_iff i
  · rw [map_enter, if_pos hx]
    simpa only [hcomes] using h.ordered

theorem Lists.registered_first (h : Lists l x.key r) (hx : x.id ∉ r.map Registration.id) :
    Lists (l ++ [.registered x]) x.key (enter x r) := by
  have hcomes : ∀ n, Comes (l ++ [.registered x]) x.key x.id n ↔ n = l.length := fun n =>
    comes_registered_first fun hcame => hx ((h.mem_iff x.id).2 hcame)
  have hother : ∀ i n, i ≠ x.id → (Comes (l ++ [.registered x]) x.key i n ↔ Comes l x.key i n) :=
    fun i n hi => comes_registered_of_ne fun he => hi he.2.symm
  have hne : ∀ i ∈ r.map Registration.id, i ≠ x.id := fun i hi he => hx (he ▸ hi)
  refine ⟨fun y hy => (h.enter_latest hy).1, fun y hy => (h.enter_latest hy).2, fun i => ?_, ?_⟩
  · rw [map_enter, if_neg hx, List.mem_append, List.mem_singleton, h.mem_iff]
    by_cases hi : i = x.id
    · simp [hi, hcomes]
    · simp [hi, hother]
  · rw [map_enter, if_neg hx]
    refine List.pairwise_append.2 ⟨?_, List.pairwise_singleton .., ?_⟩
    · refine h.ordered.imp_of_mem fun hi hj hij n m hn hm => ?_
      exact hij n m ((hother _ n (hne _ hi)).1 hn) ((hother _ m (hne _ hj)).1 hm)
    · intro i hi j hj n m hn hm
      obtain rfl := List.mem_singleton.1 hj
      rw [(hcomes m).1 hm]
      exact ((hother i n (hne i hi)).1 hn).enters.lt_length

theorem Lists.registered (h : Lists l x.key r) :
    Lists (l ++ [.registered x]) x.key (enter x r) := by
  by_cases hx : x.id ∈ r.map Registration.id
  · exact h.registered_again hx
  · exact h.registered_first hx

theorem Lists.removed (h : Lists l key r) (id : SubscriberId) :
    Lists (l ++ [.removed id]) key (r.filter fun e => e.id ≠ id) := by
  have hids : (r.filter fun e => e.id ≠ id).map Registration.id =
      (r.map Registration.id).filter fun i => i ≠ id := by
    rw [List.filter_map]
    rfl
  refine ⟨fun y hy => h.key_eq y (List.mem_of_mem_filter hy),
    fun y hy => (h.latest y (List.mem_of_mem_filter hy)).concat nofun, fun i => ?_, ?_⟩
  · rw [hids]
    simp [comes_removed_iff, h.mem_iff, and_comm]
  · rw [hids]
    refine (h.ordered.filter _).imp fun hij n m hn hm => ?_
    exact hij n m (comes_removed_iff.1 hn).2 (comes_removed_iff.1 hm).2

theorem lists_after (l : List Event) (key : DestinationKey) :
    Lists l key ((after l).registrations key) := by
  induction l using List.reverseRecOn with
  | nil =>
      refine ⟨nofun, nofun, fun i => ⟨nofun, fun ⟨n, hn⟩ => ?_⟩, .nil⟩
      exact absurd hn.enters.lt_length (Nat.not_lt_zero n)
  | append_singleton l e ih =>
      rw [after_concat]
      cases e with
      | registered x =>
          rw [apply, registrations_add]
          split
          · next h => exact h ▸ Lists.registered (h ▸ ih)
          · next h => exact ih.registered_other h
      | removed id => exact registrations_remove .. ▸ ih.removed id

theorem perm_filter_keys (r : List Registration) {keys : List DestinationKey} (hkeys : keys.Nodup) :
    (keys.flatMap fun key => r.filter fun e => e.key = key).Perm
      (r.filter fun e => e.key ∈ keys) := by
  induction keys with
  | nil => simp
  | cons key keys ih =>
      obtain ⟨hkey, hkeys⟩ := List.nodup_cons.1 hkeys
      have hperm := List.filter_append_perm (fun e => decide (e.key = key))
        (r.filter fun e => decide (e.key ∈ key :: keys))
      rw [List.filter_filter, List.filter_filter] at hperm
      refine List.Perm.trans ((List.Perm.of_eq ?_).append ((ih hkeys).trans (.of_eq ?_))) hperm
      · exact List.filter_congr fun e _ => by by_cases h : e.key = key <;> simp [h]
      · refine List.filter_congr fun e _ => ?_
        by_cases h : e.key = key
        · simp [h, hkey]
        · simp [h]

theorem perm_registrations (g : Registry) {keys : List DestinationKey} (hkeys : keys.Nodup)
    (hall : ∀ key, g.registrations key ≠ [] → key ∈ keys) :
    (keys.flatMap g.registrations).Perm g.entries := by
  refine (perm_filter_keys g.entries hkeys).trans (.of_eq (List.filter_eq_self.2 fun e he => ?_))
  refine decide_eq_true (hall e.key (List.ne_nil_of_mem (a := e) ?_))
  exact List.mem_filter.2 ⟨he, decide_eq_true rfl⟩

end Registry

end Courier
