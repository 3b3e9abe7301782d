import Courier.Proofs.Histories
import Courier.Proofs.Sound
import Mathlib.Algebra.GroupWithZero.Nat

namespace Courier

structure Roster where
  lists : Dict DestinationKey (List Registration)

namespace Roster

open Registry (Event)

def empty : Roster := ⟨.empty⟩

def under (d : Roster) (key : DestinationKey) : List Registration := (d.lists.get? key).getD []

def add (d : Roster) (x : Registration) : Roster :=
  ⟨d.lists.insert x.key (Registry.enter x (d.under x.key))⟩

def strikeAll (id : SubscriberId) :
    Option Registration → List (DestinationKey × List Registration) →
      Option Registration × List (DestinationKey × List Registration)
  | found, [] => (found, [])
  | found, (key, r) :: rest =>
      let (here, r) := Registry.strike id r
      let (found, rest) := strikeAll id (here.or found) rest
      (found, if r.isEmpty then rest else (key, r) :: rest)

def remove (d : Roster) (id : SubscriberId) : Option Registration × Roster :=
  let (found, entries) := strikeAll id none d.lists.entries
  (found, ⟨⟨entries⟩⟩)

def active (d : Roster) (key : DestinationKey) : List SubscriberRef :=
  (d.under key).map Registration.handle

def all (d : Roster) : List SubscriberRef := d.lists.values.flatten.map Registration.handle

def size (d : Roster) : Nat := (d.lists.values.map List.length).sum

inductive Reflects : List Event → Roster → Prop
  | empty : Reflects [] empty
  | registered {l : List Event} {d : Roster} (prior : Reflects l d) (x : Registration) :
      Reflects (l ++ [.registered x]) (d.add x)
  | removed {l : List Event} {d : Roster} (prior : Reflects l d) (id : SubscriberId) :
      Reflects (l ++ [.removed id]) (d.remove id).2
  | rearranged {l : List Event} {d d' : Roster} (prior : Reflects l d)
      (same : d.lists.entries.Perm d'.lists.entries) : Reflects l d'

structure Agrees (d : Roster) (g : Registry) : Prop where
  keys : d.lists.keys.Nodup
  nonempty : ∀ key, d.lists.get? key ≠ some []
  under : ∀ key, d.under key = g.registrations key

variable {l : List Event} {d d' : Roster} {g : Registry} {id : SubscriberId} {key : DestinationKey}
  {x : Registration}

theorem under_of_mem (hd : d.lists.keys.Nodup) {e : DestinationKey × List Registration}
    (he : e ∈ d.lists.entries) : d.under e.1 = e.2 := by
  rw [under, Dict.get?_of_mem hd he, Option.getD_some]

theorem mem_of_under {r : List Registration} (h : d.under key = r) (hr : r ≠ []) :
    (key, r) ∈ d.lists.entries := by
  rw [under] at h
  cases hget : d.lists.get? key with
  | none => exact absurd (h.symm.trans (by rw [hget]; rfl)) hr
  | some r' =>
      rw [hget, Option.getD_some] at h
      exact h ▸ Dict.mem_of_get? hget

theorem under_eq_nil (h : key ∉ d.lists.keys) : d.under key = [] := by
  by_contra hne
  exact h (List.mem_map_of_mem (f := Prod.fst) (mem_of_under rfl hne))

theorem under_perm (hd : d.lists.keys.Nodup) (hd' : d'.lists.keys.Nodup)
    (h : d.lists.entries.Perm d'.lists.entries) (key : DestinationKey) :
    d.under key = d'.under key := by
  by_cases hr : d.under key = []
  · by_contra hne
    have hr' : d'.under key ≠ [] := fun he => hne (hr.trans he.symm)
    exact hr' ((under_of_mem hd (h.mem_iff.2 (mem_of_under rfl hr'))).symm.trans hr)
  · exact (under_of_mem hd' (h.mem_iff.1 (mem_of_under rfl hr))).symm

theorem strikeAll_snd (found : Option Registration)
    (l : List (DestinationKey × List Registration)) :
    (strikeAll id found l).2 =
      (l.map fun e => (e.1, (Registry.strike id e.2).2)).filter fun e => e.2 ≠ [] := by
  induction l generalizing found with
  | nil => rfl
  | cons e l ih =>
      rw [strikeAll]
      by_cases h : (Registry.strike id e.2).2 = [] <;> simp [h, ih]

theorem isSome_strikeAll (found : Option Registration)
    (l : List (DestinationKey × List Registration)) :
    (strikeAll id found l).1.isSome ↔
      found.isSome ∨ ∃ e ∈ l, id ∈ e.2.map Registration.id := by
  induction l generalizing found with
  | nil => simp [strikeAll]
  | cons e l ih =>
      rw [strikeAll, ih, Option.isSome_or, Registry.isSome_strike, Bool.or_eq_true,
        decide_eq_true_eq, List.exists_mem_cons_iff]
      tauto

theorem strikeAll_eq_some {found : Option Registration}
    {l : List (DestinationKey × List Registration)} (h : (strikeAll id found l).1 = some x) :
    found = some x ∨ ∃ e ∈ l, x ∈ e.2 ∧ x.id = id := by
  induction l generalizing found with
  | nil => exact .inl h
  | cons e l ih =>
      obtain hfound | ⟨d, hd, hx⟩ := ih h
      · obtain hhere | ⟨-, hfound⟩ := Option.or_eq_some_iff.1 hfound
        · exact .inr ⟨e, List.mem_cons_self, Registry.strike_fst_eq_some hhere⟩
        · exact .inl hfound
      · exact .inr ⟨d, .tail _ hd, hx⟩

namespace Agrees

theorem empty : Agrees .empty .empty := ⟨.nil, nofun, fun _ => rfl⟩

theorem add (h : d.Agrees g) (x : Registration) : (d.add x).Agrees (g.add x) where
  keys := by
    rw [Roster.add, Dict.keys_insert]
    split
    · exact h.keys
    · next hx =>
        refine List.nodup_append.2 ⟨h.keys, List.nodup_singleton _, fun a ha b hb he => hx ?_⟩
        rwa [← List.mem_singleton.1 hb, ← he]
  nonempty key := by
    rw [Roster.add, Dict.get?_insert]
    split
    · have hmem : x.id ∈ (Registry.enter x (d.under x.key)).map Registration.id := by
        rw [Registry.map_enter]
        split <;> simp_all
      exact fun he => absurd hmem (by simp [Option.some.inj he])
    · exact h.nonempty key
  under key := by
    rw [Registry.registrations_add, ← h.under, Roster.under, Roster.add, Dict.get?_insert]
    by_cases hx : x.key = key
    · rw [if_pos hx.symm, if_pos hx, hx, Option.getD_some]
    · rw [if_neg (Ne.symm hx), if_neg hx, Roster.under]

theorem remove (h : d.Agrees g) (hids : ∀ key, ((g.registrations key).map Registration.id).Nodup)
    (id : SubscriberId) : (d.remove id).2.Agrees (g.remove id) := by
  have hentries : (d.remove id).2.lists.entries = _ := strikeAll_snd none d.lists.entries
  have hkeys : (d.remove id).2.lists.keys.Nodup := by
    rw [Dict.keys, hentries]
    refine (List.filter_sublist.map Prod.fst).nodup ?_
    rw [List.map_map]
    exact h.keys
  refine ⟨hkeys, fun key hnil => ?_, fun key => ?_⟩
  · have hmem := Dict.mem_of_get? hnil
    rw [hentries] at hmem
    simpa using List.of_mem_filter hmem
  · rw [Registry.registrations_remove, ← h.under, ← Registry.strike_snd id (h.under key ▸ hids key)]
    by_cases hrest : (Registry.strike id (d.under key)).2 = []
    · rw [hrest]
      by_contra hne
      have hmem := mem_of_under rfl hne
      rw [hentries] at hmem
      obtain ⟨e, he, heq⟩ := List.mem_map.1 (List.mem_of_mem_filter hmem)
      obtain ⟨hkey, hr⟩ := Prod.mk.inj heq
      rw [← under_of_mem h.keys he, hkey, hrest] at hr
      exact hne hr.symm
    · have hr : d.under key ≠ [] := fun he => hrest (by rw [he]; rfl)
      refine under_of_mem hkeys (e := (key, _)) ?_
      rw [hentries]
      refine List.mem_filter.2 ⟨List.mem_map.2 ⟨_, mem_of_under rfl hr, rfl⟩, ?_⟩
      simpa using hrest

theorem rearranged (h : d.Agrees g) (same : d.lists.entries.Perm d'.lists.entries) :
    d'.Agrees g := by
  have hkeys : d'.lists.keys.Nodup := (same.map Prod.fst).nodup_iff.1 h.keys
  refine ⟨hkeys, fun key hnil => ?_, fun key => ?_⟩
  · have hmem := same.mem_iff.2 (Dict.mem_of_get? hnil)
    exact h.nonempty key (Dict.get?_of_mem h.keys hmem)
  · rw [← h.under, under_perm h.keys hkeys same]

end Agrees

theorem Reflects.agrees (h : Reflects l d) : d.Agrees (Registry.after l) := by
  induction h with
  | empty => exact .empty
  | @registered l d prior x ih =>
      rw [Registry.after_concat]
      exact ih.add x
  | @removed l d prior id ih =>
      rw [Registry.after_concat]
      exact ih.remove (fun key => (Registry.lists_after l key).nodup) id
  | rearranged prior same ih => exact ih.rearranged same

theorem values_flatten (hd : d.lists.keys.Nodup) :
    d.lists.values.flatten = d.lists.keys.flatMap d.under := by
  rw [Dict.values, Dict.keys, List.flatMap_def, List.map_map]
  exact congrArg _ (List.map_congr_left fun e he => (under_of_mem hd he).symm)

theorem Agrees.perm (h : d.Agrees g) : d.lists.values.flatten.Perm g.entries := by
  rw [values_flatten h.keys, funext h.under]
  refine g.perm_registrations h.keys fun key hne => ?_
  by_contra hkey
  exact hne (h.under key ▸ under_eq_nil hkey)

theorem size_eq_length (d : Roster) : d.size = d.lists.values.flatten.length :=
  List.length_flatten.symm

theorem Agrees.totals (h : d.Agrees g) {keys : List DestinationKey} (hkeys : keys.Nodup)
    (hall : ∀ key, d.active key ≠ [] → key ∈ keys) :
    d.size = (keys.map fun key => (d.active key).length).sum ∧
      d.all.Perm (keys.flatMap d.active) := by
  have hperm : (keys.flatMap d.under).Perm d.lists.values.flatten := by
    rw [funext h.under]
    refine (g.perm_registrations hkeys fun key hne => hall key ?_).trans h.perm.symm
    rwa [Roster.active, h.under, Ne, List.map_eq_nil_iff]
  constructor
  · rw [size_eq_length, ← hperm.length_eq, List.length_flatMap]
    exact congrArg _ (List.map_congr_left fun key _ => (List.length_map _).symm)
  · refine (hperm.symm.map Registration.handle).trans (.of_eq ?_)
    exact List.map_flatMap

theorem Agrees.entries_nonempty (h : d.Agrees g) {e : DestinationKey × List Registration}
    (he : e ∈ d.lists.entries) : e.2 ≠ [] := fun hnil =>
  h.nonempty e.1 (hnil ▸ Dict.get?_of_mem h.keys he)

theorem Agrees.isSome_remove (h : d.Agrees g) (id : SubscriberId) :
    (d.remove id).1.isSome ↔ ∃ key, id ∈ (d.under key).map Registration.id := by
  refine (isSome_strikeAll none d.lists.entries).trans ⟨?_, ?_⟩
  · rintro (hnone | ⟨e, he, hid⟩)
    · exact absurd hnone Bool.false_ne_true
    · exact ⟨e.1, (under_of_mem h.keys he).symm ▸ hid⟩
  · rintro ⟨key, hid⟩
    have hne : d.under key ≠ [] := fun he => by simp [he] at hid
    exact .inr ⟨_, mem_of_under rfl hne, hid⟩

theorem Agrees.remove_eq_some (h : d.Agrees g) (hx : (d.remove id).1 = some x) :
    ∃ key, x ∈ d.under key ∧ x.id = id := by
  obtain hnone | ⟨e, he, hmem, hid⟩ := strikeAll_eq_some hx
  · cases hnone
  · exact ⟨e.1, (under_of_mem h.keys he).symm ▸ hmem, hid⟩

/-- Under each destination the roster holds the ids that came and were not removed since, each once
and in the order in which they came, with the handle given last. To count and to show all goes over
all destinations. To remove an id takes it off every list and changes nothing else, leaves no list
empty, and gives a registration back exactly if there was one. The registry shows the same, however
the destinations are arranged, and the registry of a broker lists the subscribers of a destination
under that destination. -/
theorem registered_in_order (l : List Event) (d : Roster) (reflects : d.Reflects l) :
    (∀ key, Registry.Lists l key (d.under key) ∧ ((d.under key).map Registration.id).Nodup ∧
        d.active key = (Registry.after l).active key) ∧
      (d.size = (Registry.after l).size ∧ d.all.Perm (Registry.after l).all ∧
        ∀ keys : List DestinationKey, keys.Nodup → (∀ key, d.active key ≠ [] → key ∈ keys) →
          d.size = (keys.map fun key => (d.active key).length).sum ∧
            d.all.Perm (keys.flatMap d.active)) ∧
      (∀ id, (∀ key, (d.remove id).2.under key = (d.under key).filter fun x => x.id ≠ id) ∧
        (∀ e ∈ (d.remove id).2.lists.entries, e.2 ≠ []) ∧
        ((d.remove id).1.isSome ↔ ∃ key, id ∈ (d.under key).map Registration.id) ∧
        ∀ x, (d.remove id).1 = some x → x ∈ d.under x.key ∧ x.id = id ∧
          x.handle ∈ (Registry.after l).handlesOf id) ∧
      ∀ (r : Rules) (terms : Broker → Journal → Operation → Prop) (b : Broker) (h : Journal),
        Reaches r terms b h → b.registry = Registry.after l → ∀ key, ∀ x ∈ d.under key,
          (b.subscriber x.handle).key = key ∧ (b.subscriber x.handle).id = x.id := by
  have hagrees := reflects.agrees
  have hlists : ∀ key, Registry.Lists l key (d.under key) := fun key =>
    hagrees.under key ▸ Registry.lists_after l key
  have hactive : ∀ key, d.active key = (Registry.after l).active key := fun key =>
    congrArg _ (hagrees.under key)
  refine ⟨fun key => ⟨hlists key, (hlists key).nodup, hactive key⟩, ⟨?_, ?_, ?_⟩, fun id => ?_, ?_⟩
  · rw [size_eq_length, hagrees.perm.length_eq, Registry.size]
  · exact hagrees.perm.map _
  · exact fun keys => hagrees.totals
  · have hremoved := (reflects.removed id).agrees
    refine ⟨fun key => ?_, fun e => hremoved.entries_nonempty, hagrees.isSome_remove id, ?_⟩
    · rw [hremoved.under, Registry.after_concat, Registry.apply, Registry.registrations_remove,
        hagrees.under]
    · intro x hx
      obtain ⟨key, hmem, hid⟩ := hagrees.remove_eq_some hx
      have hkey := (hlists key).key_eq x hmem
      refine ⟨hkey ▸ hmem, hid, List.mem_map_of_mem ?_⟩
      rw [hagrees.under] at hmem
      exact List.mem_filter.2 ⟨List.mem_of_mem_filter hmem, decide_eq_true hid⟩
  · intro r terms b h hr hb key x hx
    have hentry : x ∈ b.registry.entries := by
      rw [hagrees.under] at hx
      exact hb ▸ List.mem_of_mem_filter hx
    obtain ⟨-, hkey, hid⟩ := hr.sound.registered x hentry
    exact ⟨hkey.trans ((hlists key).key_eq x hx), hid⟩

def workerHistory : List Event :=
  [.registered ⟨⟨"orders", .amqp, .queue⟩, "worker", ⟨0⟩⟩,
    .registered ⟨⟨"orders", .amqp, .queue⟩, "reader", ⟨1⟩⟩, .removed "worker",
    .registered ⟨⟨"orders", .amqp, .queue⟩, "worker", ⟨2⟩⟩,
    .registered ⟨⟨"orders", .amqp, .queue⟩, "reader", ⟨3⟩⟩,
    .registered ⟨⟨"news", .amqp, .topic⟩, "worker", ⟨4⟩⟩]

def workerRoster : Roster :=
  ⟨⟨[(⟨"news", .amqp, .topic⟩, [⟨⟨"news", .amqp, .topic⟩, "worker", ⟨4⟩⟩]),
    (⟨"orders", .amqp, .queue⟩, [⟨⟨"orders", .amqp, .queue⟩, "reader", ⟨3⟩⟩,
      ⟨⟨"orders", .amqp, .queue⟩, "worker", ⟨2⟩⟩])]⟩⟩

theorem registered_in_order_workerHistory :
    workerRoster.Reflects workerHistory ∧
      (Registry.after workerHistory).active ⟨"orders", .amqp, .queue⟩ = [⟨3⟩, ⟨2⟩] ∧
      (Registry.after workerHistory).size = 3 ∧
      (workerRoster.remove "worker").1.isSome ∧
      (workerRoster.remove "worker").2.active ⟨"orders", .amqp, .queue⟩ = [⟨3⟩] ∧
      ∀ e ∈ (workerRoster.remove "worker").2.lists.entries, e.2 ≠ [] := by
  have hreflects : workerRoster.Reflects workerHistory := by
    refine .rearranged ((((((Reflects.empty.registered _).registered _).removed _).registered
      _).registered _).registered _) ?_
    decide
  obtain ⟨hlists, ⟨hsize, -⟩, hremove, -⟩ :=
    registered_in_order workerHistory workerRoster hreflects
  obtain ⟨hunder, hnone, hback, -⟩ := hremove "worker"
  refine ⟨hreflects, ?_, ?_, hback.2 ⟨⟨"news", .amqp, .topic⟩, by decide⟩, ?_, hnone⟩
  · rw [← (hlists _).2.2]
    decide
  · rw [← hsize]
    decide
  · rw [active, hunder]
    decide

end Roster

theorem Reaches.exists_history {r : Rules} {terms : Broker → Journal → Operation → Prop}
    {b : Broker} {h : Journal} (hr : Reaches r terms b h) :
    ∃ l, b.registry = Registry.after l := by
  induction hr with
  | start => exact ⟨[], rfl⟩
  | @step b h op prior uses keeps ih =>
      obtain ⟨l, hl⟩ := ih
      have hsame : (op.apply r b).registry = b.registry → ∃ l, (op.apply r b).registry = .after l :=
        fun he => ⟨l, he.trans hl⟩
      by_cases hw : op.isWork = true
      · exact hsame (prior.sound.preserves hw uses r).registry
      · cases op with
        | createMessage =>
            exact hsame (Operation.createMessage_induction (P := fun c => c.registry = b.registry)
              rfl fun _ => rfl)
        | createSubscriber => exact hsame rfl
        | register s =>
            refine ⟨l ++ [.registered ⟨(b.subscriber s).key, (b.subscriber s).id, s⟩], ?_⟩
            rw [Registry.after_concat, ← hl]
            rfl
        | unregister id =>
            refine ⟨l ++ [.removed id], ?_⟩
            rw [Registry.after_concat, ← hl]
            rfl
        | track key =>
            refine hsame ?_
            rw [Operation.apply, Broker.track_eq]
            split <;> rfl
        | _ => exact absurd rfl hw

end Courier
