import Courier.Proofs.Sound
import Mathlib.Algebra.GroupWithZero.Nat

namespace Courier

theorem sum_map_add {α : Type} {f g : α → Nat} {l : List α} (hn : l.Nodup) {a : α} (ha : a ∈ l)
    (h : ∀ x ∈ l, x ≠ a → f x = g x) : (l.map f).sum + g a = (l.map g).sum + f a := by
  induction l with
  | nil => exact absurd ha List.not_mem_nil
  | cons x l ih =>
      obtain ⟨hx, hl⟩ := List.nodup_cons.1 hn
      simp only [List.map_cons, List.sum_cons]
      obtain rfl | hmem := List.mem_cons.1 ha
      · have hrest : l.map f = l.map g := List.map_congr_left fun y hy =>
          h y (List.mem_cons_of_mem _ hy) fun he => hx (he ▸ hy)
        rw [hrest]
        omega
      · have hfg := h x List.mem_cons_self fun he => hx (he ▸ hmem)
        have hih := ih hl hmem fun y hy => h y (List.mem_cons_of_mem _ hy)
        omega

theorem countP_eq_sum {α : Type} (p : α → Bool) (l : List α) :
    l.countP p = (l.map fun a => (p a).toNat).sum := by
  induction l with
  | nil => rfl
  | cons a l ih =>
      rw [List.countP_cons, List.map_cons, List.sum_cons, ← ih]
      cases p a <;> simp [Nat.add_comm]

def Message.isHeldBy (x : Message) (s : SubscriberId) : Bool :=
  (x.status? s).any RecipientStatus.isOutstanding

theorem Message.isHeldBy_iff {x : Message} {s : SubscriberId} :
    x.isHeldBy s = true ↔ x.status? s = some .scheduled ∨ x.status? s = some .delivered := by
  unfold isHeldBy
  cases h : x.status? s with
  | none => simp
  | some status => cases status <;> simp [RecipientStatus.isOutstanding]

theorem Message.outstanding_eq_nil {x : Message} (hx : x.Tidy)
    (h : ∀ s, x.isHeldBy s = false) : x.outstanding = [] :=
  List.eq_nil_iff_forall_not_mem.2 fun s hs =>
    Bool.eq_false_iff.1 (h s) ((mem_outstanding hx s).1 hs)

theorem Message.not_isHeldBy_of_awaits {x : Message} {s : SubscriberId} (h : x.awaits s = true) :
    x.isHeldBy s = false := by
  rw [awaits_iff] at h
  unfold isHeldBy
  obtain h | h := h <;> simp [h, RecipientStatus.isOutstanding]

theorem Message.length_outstanding_add {x y : Message} (hx : x.Tidy) (hy : y.Tidy)
    {s : SubscriberId} (h : ∀ u, u ≠ s → y.isHeldBy u = x.isHeldBy u) :
    y.outstanding.length + (x.isHeldBy s).toNat = x.outstanding.length + (y.isHeldBy s).toNat := by
  have hlen : ∀ z : Message, z.Tidy →
      z.outstanding.length = (z.outstanding.erase s).length + (z.isHeldBy s).toNat := by
    intro z hz
    have hmem := mem_outstanding hz s
    by_cases hs : s ∈ z.outstanding
    · have hpos := List.length_pos_of_mem hs
      have hheld : z.isHeldBy s = true := hmem.1 hs
      rw [List.length_erase_of_mem hs, hheld, Bool.toNat_true]
      omega
    · have hheld : z.isHeldBy s = false := Bool.eq_false_iff.2 fun hh => hs (hmem.2 hh)
      rw [List.erase_of_not_mem hs, hheld, Bool.toNat_false]
      omega
  have hperm : (y.outstanding.erase s).length = (x.outstanding.erase s).length := by
    refine List.Perm.length_eq ((List.perm_ext_iff_of_nodup ((outstanding_nodup hy).erase s)
      ((outstanding_nodup hx).erase s)).2 fun u => ?_)
    rw [(outstanding_nodup hy).mem_erase_iff, (outstanding_nodup hx).mem_erase_iff,
      mem_outstanding hx, mem_outstanding hy]
    refine and_congr_right fun hu => ?_
    change y.isHeldBy u = true ↔ x.isHeldBy u = true
    rw [h u hu]
  have h₁ := hlen x hx
  have h₂ := hlen y hy
  omega

namespace Broker

def heldBy (b : Broker) (s : SubscriberId) : Nat :=
  b.references.countP fun m => (b.message m).isHeldBy s

variable (home : MessageRef → DestinationType)

def place (b : Broker) (m : MessageRef) : TrackedKey := ⟨home m, (b.message m).destination⟩

def pairsOf (b : Broker) (key : TrackedKey) : List (MessageRef × SubscriberId) :=
  (b.references.filter fun m => b.place home m = key).flatMap fun m =>
    (b.message m).outstanding.map fun s => (m, s)

variable {home} {b b' : Broker} {m : MessageRef}

theorem mem_pairsOf (hb : ∀ m, (b.message m).Tidy) {key : TrackedKey} {s : SubscriberId} :
    (m, s) ∈ b.pairsOf home key ↔
      b.hasMessage m ∧ b.place home m = key ∧ (b.message m).isHeldBy s = true := by
  simp only [pairsOf, List.mem_flatMap, List.mem_filter, List.mem_map, decide_eq_true_eq,
    mem_references, Message.mem_outstanding (hb _), Prod.mk.injEq]
  constructor
  · rintro ⟨n, ⟨hn, hplace⟩, u, hu, rfl, rfl⟩
    exact ⟨hn, hplace, hu⟩
  · rintro ⟨hm, hplace, hs⟩
    exact ⟨m, ⟨hm, hplace⟩, s, hs, rfl, rfl⟩

theorem pairsOf_nodup (b : Broker) (hb : ∀ m, (b.message m).Tidy) (key : TrackedKey) :
    (b.pairsOf home key).Nodup := by
  refine List.nodup_flatMap.2 ⟨fun m _ => ?_, ?_⟩
  · exact (Message.outstanding_nodup (hb m)).map fun s u h => (Prod.mk.inj h).2
  · refine ((b.references_nodup.filter _).imp fun hne => ?_)
    intro pair hm hn
    obtain ⟨s, -, rfl⟩ := List.mem_map.1 hm
    obtain ⟨u, -, he⟩ := List.mem_map.1 hn
    exact hne (Prod.mk.inj he).1.symm

theorem length_pairsOf (b : Broker) (key : TrackedKey) :
    (b.pairsOf home key).length = (b.references.map fun m =>
      if b.place home m = key then (b.message m).outstanding.length else 0).sum := by
  unfold pairsOf
  induction b.references with
  | nil => rfl
  | cons m l ih =>
      rw [List.map_cons, List.sum_cons, ← ih, List.filter_cons]
      by_cases hm : b.place home m = key <;> simp [hm]

theorem Preserves.place (h : Preserves b b') (m : MessageRef) :
    b'.place home m = b.place home m := by
  rw [Broker.place, Broker.place, h.destination]

theorem Touches.references_eq (ht : Touches m b b') (hm : b.hasMessage m) :
    b'.references = b.references := by
  rw [references, references, ht.size hm]

theorem Touches.heldBy_add (ht : Touches m b b') (hm : b.hasMessage m) (s : SubscriberId) :
    b'.heldBy s + ((b.message m).isHeldBy s).toNat =
      b.heldBy s + ((b'.message m).isHeldBy s).toNat := by
  rw [heldBy, heldBy, ht.references_eq hm, countP_eq_sum, countP_eq_sum]
  exact sum_map_add (f := fun n => ((b'.message n).isHeldBy s).toNat) b.references_nodup
    (mem_references.2 hm) fun n _ hn => by rw [ht.others n hn]

theorem Touches.length_pairsOf_add (home : MessageRef → DestinationType) (ht : Touches m b b')
    (hm : b.hasMessage m) (key : TrackedKey) :
    (b'.pairsOf home key).length +
        (if b.place home m = key then (b.message m).outstanding.length else 0) =
      (b.pairsOf home key).length +
        if b.place home m = key then (b'.message m).outstanding.length else 0 := by
  rw [length_pairsOf, length_pairsOf, ht.references_eq hm]
  have h := sum_map_add
    (f := fun n => if b'.place home n = key then (b'.message n).outstanding.length else 0)
    (g := fun n => if b.place home n = key then (b.message n).outstanding.length else 0)
    b.references_nodup (mem_references.2 hm) fun n _ hn => by
      rw [ht.toPreserves.place, ht.others n hn]
  simpa only [ht.toPreserves.place] using h

/-- The tracker is in use and its destination is not a topic: its copies count for the ceiling. -/
def countsFor (b : Broker) (t : TrackerRef) : Prop :=
  b.isTracked t = true ∧ (b.tracker t).isTopic = false

instance (b : Broker) (t : TrackerRef) : Decidable (b.countsFor t) :=
  inferInstanceAs (Decidable (_ ∧ _))

theorem isTracked_iff (b : Broker) (t : TrackerRef) :
    b.isTracked t = true ↔ b.find? (b.tracker t).key.tracked = some t :=
  decide_eq_true_iff

structure Counted (home : MessageRef → DestinationType) (limit : UInt64) (b : Broker) : Prop where
  placed : ∀ m s, (b.message m).isHeldBy s = true →
    ∃ t, b.find? (b.place home m) = some t ∧ s ∈ b.idsOf (b.active t)
  single : (b.registry.entries.map Registration.id).Nodup
  buffered : ∀ t, ∀ m ∈ (b.tracker t).buffer, b.place home m = (b.tracker t).key.tracked
  unacked : ∀ s ∈ b.registry.all, (b.subscriber s).unacked.toNat = b.heldBy (b.subscriber s).id
  unregistered : ∀ s, s ∉ b.registry.all → (b.subscriber s).unacked.toNat = 0
  inFlight : ∀ t, b.countsFor t →
    (b.tracker t).inFlight.toNat = (b.pairsOf home (b.tracker t).key.tracked).length
  idle : ∀ t, ¬ b.countsFor t → (b.tracker t).inFlight.toNat = 0
  window : ∀ s, (b.subscriber s).unacked.toNat ≤ (b.subscriber s).window.toNat
  ceiling : ∀ t, (b.tracker t).inFlight.toNat ≤ limit.toNat

variable {limit : UInt64} {t : TrackerRef}

theorem Preserves.countsFor_iff (hp : Preserves b b') (ht : b'.tracked = b.tracked)
    (t : TrackerRef) : b'.countsFor t ↔ b.countsFor t := by
  rw [countsFor, countsFor, isTracked_iff, isTracked_iff, Tracker.isTopic, Tracker.isTopic, hp.key,
    find?, find?, ht]

theorem Preserves.idsOf_active (hp : Preserves b b') (t : TrackerRef) :
    b'.idsOf (b'.active t) = b.idsOf (b.active t) := by
  rw [hp.active_eq, idsOf, idsOf]
  exact List.map_congr_left fun s _ => hp.subscriber_id s

theorem Preserves.window (hp : Preserves b b') (s : SubscriberRef) :
    (b'.subscriber s).window = (b.subscriber s).window :=
  (congrArg Subscription.window (hp.subscriber s) :)

theorem sum_references_congr {f g : MessageRef → Nat}
    (hsize : b.messages.size ≤ b'.messages.size) (hold : ∀ n, b.hasMessage n → f n = g n)
    (hnew : ∀ n, ¬ b.hasMessage n → f n = 0) :
    (b'.references.map f).sum = (b.references.map g).sum := by
  obtain ⟨k, hk⟩ := Nat.exists_eq_add_of_le hsize
  have hb : b'.references =
      b.references ++ ((List.range k).map (b.messages.size + ·)).map MessageRef.mk := by
    rw [references, references, hk, List.range_add, List.map_append]
  have hsame : b.references.map f = b.references.map g :=
    List.map_congr_left fun n hn => hold n (mem_references.1 hn)
  have hfresh : ((((List.range k).map (b.messages.size + ·)).map MessageRef.mk).map f).sum = 0 := by
    refine List.sum_eq_zero_iff_forall_eq_nat.2 fun c hc => ?_
    simp only [List.mem_map, exists_exists_and_eq_and] at hc
    obtain ⟨i, -, rfl⟩ := hc
    exact hnew _ (Nat.not_lt_of_le (Nat.le_add_right _ _))
  rw [hb, List.map_append, List.sum_append, hfresh, hsame, Nat.add_zero]

theorem heldBy_congr (hsize : b.messages.size ≤ b'.messages.size)
    (h : ∀ n, (b'.message n).recipients = (b.message n).recipients) (s : SubscriberId) :
    b'.heldBy s = b.heldBy s := by
  have hheld : ∀ n, (b'.message n).isHeldBy s = (b.message n).isHeldBy s := fun n => by
    rw [Message.isHeldBy, Message.isHeldBy, Message.status?, Message.status?, h]
  rw [heldBy, heldBy, countP_eq_sum, countP_eq_sum]
  refine sum_references_congr hsize (fun n _ => by rw [hheld]) fun n hn => ?_
  rw [hheld, message_eq_default hn]
  rfl

theorem length_pairsOf_congr (hsize : b.messages.size ≤ b'.messages.size)
    (h : ∀ n, (b'.message n).recipients = (b.message n).recipients)
    (place : ∀ n, b.hasMessage n → b'.place home n = b.place home n) (key : TrackedKey) :
    (b'.pairsOf home key).length = (b.pairsOf home key).length := by
  have hout : ∀ n, (b'.message n).outstanding = (b.message n).outstanding := fun n => by
    rw [Message.outstanding, Message.outstanding, h]
  rw [length_pairsOf, length_pairsOf]
  refine sum_references_congr hsize (fun n hn => by rw [place n hn, hout]) fun n hn => ?_
  rw [hout, message_eq_default hn]
  exact ite_self _

structure Quiet (home : MessageRef → DestinationType) (b b' : Broker) : Prop
    extends Preserves b b' where
  recipients : ∀ n, (b'.message n).recipients = (b.message n).recipients
  gains : ∀ t, ∀ n ∈ (b'.tracker t).buffer,
    n ∈ (b.tracker t).buffer ∨ b.place home n = (b.tracker t).key.tracked
  unacked : ∀ s, (b'.subscriber s).unacked = (b.subscriber s).unacked
  inFlight : ∀ t, (b'.tracker t).inFlight = (b.tracker t).inFlight
  tracked : b'.tracked = b.tracked
  jobs : b'.dispatcher.jobs = b.dispatcher.jobs

namespace Quiet

variable {c : Broker}

theorem refl (b : Broker) : Quiet home b b :=
  { Preserves.refl b with
    recipients := fun _ => rfl
    gains := fun _ _ h => .inl h
    unacked := fun _ => rfl
    inFlight := fun _ => rfl
    tracked := rfl
    jobs := rfl }

theorem trans (h : Quiet home b b') (h' : Quiet home b' c) : Quiet home b c :=
  { h.toPreserves.trans h'.toPreserves with
    recipients := fun n => (h'.recipients n).trans (h.recipients n)
    gains := fun t n hn => (h'.gains t n hn).elim (h.gains t n) fun he =>
      .inr (by rwa [h.toPreserves.place, h.key] at he)
    unacked := fun s => (h'.unacked s).trans (h.unacked s)
    inFlight := fun t => (h'.inFlight t).trans (h.inFlight t)
    tracked := h'.tracked.trans h.tracked
    jobs := h'.jobs.trans h.jobs }

theorem foldl {f : Broker → MessageRef → Broker} (hf : ∀ b m, Quiet home b (f b m))
    (l : List MessageRef) (b : Broker) : Quiet home b (l.foldl f b) := by
  induction l generalizing b with
  | nil => exact refl b
  | cons m l ih => exact (hf b m).trans (ih _)

end Quiet

def share (b : Broker) (s : SubscriberRef) (x : Message) : Nat :=
  if s ∈ b.registry.all then (x.isHeldBy (b.subscriber s).id).toNat else 0

def load (home : MessageRef → DestinationType) (b : Broker) (t : TrackerRef) (m : MessageRef)
    (x : Message) : Nat :=
  if b.countsFor t ∧ b.place home m = (b.tracker t).key.tracked then x.outstanding.length else 0

namespace Counted

theorem quiet (hc : Counted home limit b) (hq : Quiet home b b') : Counted home limit b' := by
  have hp := hq.toPreserves
  have hfind : ∀ k, b'.find? k = b.find? k := fun k => by rw [find?, find?, hq.tracked]
  refine ⟨fun n s hn => ?_, by rw [hp.registry]; exact hc.single, fun t n hn => ?_, fun s hs => ?_,
    fun s hs => ?_, fun t hct => ?_, fun t hct => ?_, fun s => ?_, fun t => ?_⟩
  · rw [hp.place]
    simp only [hfind, hp.idsOf_active]
    rw [Message.isHeldBy, Message.status?, hq.recipients] at hn
    exact hc.placed n s hn
  · rw [hp.place, hp.key]
    exact (hq.gains t n hn).elim (hc.buffered t n) id
  · rw [hp.registry] at hs
    rw [hq.unacked, hp.subscriber_id, heldBy_congr hp.messages_size hq.recipients, hc.unacked s hs]
  · rw [hp.registry] at hs
    rw [hq.unacked, hc.unregistered s hs]
  · rw [hp.countsFor_iff hq.tracked] at hct
    rw [hq.inFlight, hp.key, hc.inFlight t hct,
      length_pairsOf_congr hp.messages_size hq.recipients fun n _ => hp.place n]
  · rw [hp.countsFor_iff hq.tracked] at hct
    rw [hq.inFlight, hc.idle t hct]
  · rw [hq.unacked, hp.window]
    exact hc.window s
  · rw [hq.inFlight]
    exact hc.ceiling t

theorem touches (hc : Counted home limit b) (ht : Touches m b b') (hm : b.hasMessage m)
    (placed : ∀ s, (b'.message m).isHeldBy s = true → (b.message m).isHeldBy s = true ∨
      ∃ t, b.find? (b.place home m) = some t ∧ s ∈ b.idsOf (b.active t))
    (buffered : ∀ t, m ∈ (b'.tracker t).buffer → m ∈ (b.tracker t).buffer ∨
      b.place home m = (b.tracker t).key.tracked)
    (unacked : ∀ s, (b'.subscriber s).unacked.toNat + b.share s (b.message m) =
      (b.subscriber s).unacked.toNat + b.share s (b'.message m))
    (inFlight : ∀ t, (b'.tracker t).inFlight.toNat + b.load home t m (b.message m) =
      (b.tracker t).inFlight.toNat + b.load home t m (b'.message m))
    (window : ∀ s, (b'.subscriber s).unacked.toNat ≤ (b.subscriber s).window.toNat)
    (ceiling : ∀ t, (b'.tracker t).inFlight.toNat ≤ limit.toNat) : Counted home limit b' := by
  have hp := ht.toPreserves
  have hfind : ∀ k, b'.find? k = b.find? k := fun k => by rw [find?, find?, ht.tracked]
  refine ⟨fun n s hn => ?_, by rw [hp.registry]; exact hc.single, fun t n hn => ?_, fun s hs => ?_,
    fun s hs => ?_, fun t hct => ?_, fun t hct => ?_, fun s => ?_, ceiling⟩
  · rw [hp.place]
    simp only [hfind, hp.idsOf_active]
    by_cases hnm : n = m
    · subst hnm
      exact (placed s hn).elim (hc.placed n s) id
    · rw [ht.others n hnm] at hn
      exact hc.placed n s hn
  · rw [hp.place, hp.key]
    by_cases hnm : n = m
    · subst hnm
      exact (buffered t hn).elim (hc.buffered t n) id
    · exact (ht.gains t n hn).elim (hc.buffered t n) fun he => absurd he hnm
  · rw [hp.registry] at hs
    have h₁ := unacked s
    have h₂ := ht.heldBy_add hm (b.subscriber s).id
    have h₃ := hc.unacked s hs
    simp only [share, hs, if_true] at h₁
    rw [hp.subscriber_id]
    omega
  · rw [hp.registry] at hs
    have h₁ := unacked s
    have h₂ := hc.unregistered s hs
    simp only [share, hs, if_false] at h₁
    omega
  · rw [hp.countsFor_iff ht.tracked] at hct
    have h₁ := inFlight t
    have h₂ := ht.length_pairsOf_add home hm (b.tracker t).key.tracked
    have h₃ := hc.inFlight t hct
    simp only [load, hct, true_and] at h₁
    rw [hp.key]
    omega
  · rw [hp.countsFor_iff ht.tracked] at hct
    have h₁ := inFlight t
    have h₂ := hc.idle t hct
    simp only [load, hct, false_and, if_false] at h₁
    omega
  · rw [hp.window]
    exact window s

theorem eq_of_id (hc : Counted home limit b) (hs : b.Sound) {s u : SubscriberRef}
    (hsr : s ∈ b.registry.all) (hur : u ∈ b.registry.all)
    (h : (b.subscriber s).id = (b.subscriber u).id) : s = u := by
  obtain ⟨e, he, rfl⟩ := List.mem_map.1 hsr
  obtain ⟨d, hd, rfl⟩ := List.mem_map.1 hur
  rw [(hs.registered e he).2.2, (hs.registered d hd).2.2] at h
  rw [List.inj_on_of_nodup_map hc.single he hd h]

theorem countsFor_place (hs : b.Sound) (hfind : b.find? (b.place home m) = some t)
    (v : TrackerRef) :
    (b.countsFor v ∧ b.place home m = (b.tracker v).key.tracked) ↔
      v = t ∧ (b.tracker t).isTopic = false := by
  have hkey := (hs.tracked _ _ hfind).2
  constructor
  · rintro ⟨⟨htracked, topic⟩, hplace⟩
    rw [isTracked_iff, ← hplace, hfind] at htracked
    obtain rfl := Option.some.inj htracked
    exact ⟨rfl, topic⟩
  · rintro ⟨rfl, topic⟩
    exact ⟨⟨by rw [isTracked_iff, hkey, hfind], topic⟩, hkey.symm⟩

/-- Work on one copy of an active subscriber keeps the counts if the two counters of that copy
move with it. -/
theorem copy (hc : Counted home limit b) (hs : b.Sound) (ht : Touches m b b') (hm : b.hasMessage m)
    {s : SubscriberRef} (hactive : s ∈ b.active t) (hfind : b.find? (b.place home m) = some t)
    (others : ∀ id, id ≠ (b.subscriber s).id →
      (b'.message m).isHeldBy id = (b.message m).isHeldBy id)
    (buffered : ∀ v, m ∈ (b'.tracker v).buffer → m ∈ (b.tracker v).buffer ∨ v = t)
    (unacked : ∀ u, (b'.subscriber u).unacked.toNat +
        (if u = s then ((b.message m).isHeldBy (b.subscriber s).id).toNat else 0) =
      (b.subscriber u).unacked.toNat +
        if u = s then ((b'.message m).isHeldBy (b.subscriber s).id).toNat else 0)
    (inFlight : ∀ v, (b'.tracker v).inFlight.toNat +
        (if v = t ∧ (b.tracker t).isTopic = false then
          ((b.message m).isHeldBy (b.subscriber s).id).toNat else 0) =
      (b.tracker v).inFlight.toNat +
        if v = t ∧ (b.tracker t).isTopic = false then
          ((b'.message m).isHeldBy (b.subscriber s).id).toNat else 0)
    (window : ∀ u, (b'.subscriber u).unacked.toNat ≤ (b.subscriber u).window.toNat)
    (ceiling : ∀ v, (b'.tracker v).inFlight.toNat ≤ limit.toNat) : Counted home limit b' := by
  have hsr : s ∈ b.registry.all := (List.filter_sublist.map _).subset hactive
  refine hc.touches ht hm (fun id hid => ?_) (fun v hv => ?_) (fun u => ?_) (fun v => ?_) window
    ceiling
  · by_cases he : id = (b.subscriber s).id
    · exact .inr ⟨t, hfind, he ▸ List.mem_map_of_mem hactive⟩
    · exact .inl (by rwa [others id he] at hid)
  · exact (buffered v hv).imp_right fun he => by rw [he, (hs.tracked _ _ hfind).2]
  · have h := unacked u
    unfold share
    by_cases hu : u = s
    · subst hu
      simpa only [hsr, if_true] using h
    · rw [if_neg hu, if_neg hu] at h
      split
      · next hur => rw [others _ fun he => hu (hc.eq_of_id hs hur hsr he)]; omega
      · exact h
  · have h := inFlight v
    have hlen := Message.length_outstanding_add (hs.tidy m) (ht.tidy m (hs.tidy m)) others
    simp only [load, countsFor_place hs hfind]
    by_cases hv : v = t ∧ (b.tracker t).isTopic = false
    · rw [if_pos hv, if_pos hv] at h ⊢
      omega
    · rw [if_neg hv, if_neg hv] at h ⊢
      exact h

theorem giveUp (hc : Counted home limit b) (hs : b.Sound) (ht : Touches m b b')
    (hm : b.hasMessage m) {s : SubscriberRef} (hactive : s ∈ b.active t)
    (hfind : b.find? (b.place home m) = some t)
    (others : ∀ id, id ≠ (b.subscriber s).id →
      (b'.message m).isHeldBy id = (b.message m).isHeldBy id)
    (before : (b.message m).isHeldBy (b.subscriber s).id = true)
    (after : (b'.message m).isHeldBy (b.subscriber s).id = false)
    (buffered : ∀ v, m ∈ (b'.tracker v).buffer → m ∈ (b.tracker v).buffer ∨ v = t)
    (unacked : ∀ u, (b'.subscriber u).unacked =
      if u = s then (b.subscriber u).unacked.lower else (b.subscriber u).unacked)
    (inFlight : ∀ v, (b'.tracker v).inFlight =
      if v = t ∧ (b.tracker t).isTopic = false then (b.tracker v).inFlight.lower
      else (b.tracker v).inFlight) : Counted home limit b' := by
  have hsr : s ∈ b.registry.all := (List.filter_sublist.map _).subset hactive
  refine hc.copy hs ht hm hactive hfind others buffered (fun u => ?_) (fun v => ?_) (fun u => ?_)
    fun v => ?_
  · rw [unacked, before, after, Bool.toNat_true, Bool.toNat_false]
    split
    · next hu =>
        have h₁ := hc.unacked s hsr
        have h₂ := ht.heldBy_add hm (b.subscriber s).id
        rw [before, after, Bool.toNat_true, Bool.toNat_false] at h₂
        rw [hu, Tally.toNat_lower]
        omega
    · rfl
  · rw [inFlight, before, after, Bool.toNat_true, Bool.toNat_false]
    split
    · next hv =>
        obtain ⟨hcounts, hplace⟩ := (countsFor_place hs hfind v).2 hv
        have h₁ := hc.inFlight v hcounts
        have h₂ := ht.length_pairsOf_add home hm (b.tracker v).key.tracked
        have h₃ := Message.length_outstanding_add (hs.tidy m) (ht.tidy m (hs.tidy m)) others
        rw [if_pos hplace, if_pos hplace] at h₂
        rw [before, after, Bool.toNat_true, Bool.toNat_false] at h₃
        rw [Tally.toNat_lower]
        omega
    · rfl
  · have h := hc.window u
    rw [unacked]
    split
    · rw [Tally.toNat_lower]; omega
    · exact h
  · have h := hc.ceiling v
    rw [inFlight]
    split
    · rw [Tally.toNat_lower]; omega
    · exact h

theorem relabel (hc : Counted home limit b) (hs : b.Sound) (ht : Touches m b b')
    (hm : b.hasMessage m)
    (held : ∀ id, (b'.message m).isHeldBy id = (b.message m).isHeldBy id)
    (buffered : ∀ t, m ∈ (b'.tracker t).buffer → m ∈ (b.tracker t).buffer)
    (unacked : ∀ s, (b'.subscriber s).unacked = (b.subscriber s).unacked)
    (inFlight : ∀ t, (b'.tracker t).inFlight = (b.tracker t).inFlight) :
    Counted home limit b' := by
  have hlen := Message.length_outstanding_add (s := "") (hs.tidy m) (ht.tidy m (hs.tidy m))
    fun id _ => held id
  rw [held] at hlen
  have hload : ∀ t, b.load home t m (b'.message m) = b.load home t m (b.message m) := fun t => by
    rw [load, load, Nat.add_right_cancel hlen]
  refine hc.touches ht hm (fun id hid => .inl (by rwa [held] at hid)) (fun t hn => .inl (buffered t hn))
    (fun s => ?_) (fun t => ?_) (fun s => ?_) fun t => ?_
  · rw [unacked, share, share, held]
  · rw [inFlight, hload]
  · rw [unacked]; exact hc.window s
  · rw [inFlight]; exact hc.ceiling t

end Counted

end Broker

end Courier
