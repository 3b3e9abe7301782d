import Mathlib.Data.List.Dedup
import Courier.Proofs.Permanence
import Courier.Proofs.SlotLedger

namespace Courier

namespace Broker

def unsettledAmong (b : Broker) (l : List MessageRef) (p : SlotRef) : Nat :=
  l.dedup.countP fun m => isUnsettledIn p (b.message m)

theorem dedup_cons_perm (m : MessageRef) (l : List MessageRef) :
    (m :: l).dedup.Perm (m :: l.dedup.erase m) := by
  by_cases hm : m ∈ l
  · rw [List.dedup_cons_of_mem hm]
    exact List.perm_cons_erase (List.mem_dedup.2 hm)
  · rw [List.dedup_cons_of_notMem hm, List.erase_of_not_mem fun h => hm (List.mem_dedup.1 h)]

theorem unsettledAmong_cons {b c : Broker} {m : MessageRef} {p : SlotRef}
    (hc : ∀ n, isUnsettledIn p (c.message n) = (isUnsettledIn p (b.message n) && n != m))
    (l : List MessageRef) :
    b.unsettledAmong (m :: l) p = (isUnsettledIn p (b.message m)).toNat + c.unsettledAmong l p := by
  have hrest : c.unsettledAmong l p =
      (l.dedup.erase m).countP fun n => isUnsettledIn p (b.message n) := by
    rw [unsettledAmong, (List.nodup_dedup l).erase_eq_filter, List.countP_filter]
    simp only [hc]
  rw [unsettledAmong, (dedup_cons_perm m l).countP_eq, hrest, Table.countP_cons_toNat, Nat.add_comm]

theorem pending_foldl {f : Broker → MessageRef → Broker} {p : SlotRef}
    (hslot : ∀ b m, ((f b m).slot p).pending.toNat =
      (b.slot p).pending.toNat - (isUnsettledIn p (b.message m)).toNat)
    (hmessage : ∀ b m n, isUnsettledIn p ((f b m).message n) =
      (isUnsettledIn p (b.message n) && n != m)) (l : List MessageRef) (b : Broker) :
    ((l.foldl f b).slot p).pending.toNat = (b.slot p).pending.toNat - b.unsettledAmong l p := by
  induction l generalizing b with
  | nil => rfl
  | cons m l ih =>
      rw [List.foldl_cons, ih, hslot, unsettledAmong_cons (hmessage b m), Nat.sub_sub]

theorem pending_settle (b : Broker) (m : MessageRef) (p : SlotRef) :
    ((b.settle m).slot p).pending.toNat =
      (b.slot p).pending.toNat - (isUnsettledIn p (b.message m)).toNat := by
  unfold settle
  split
  · next h => simp [isUnsettledIn, h]
  · next h =>
      cases hslot : (b.message m).slot with
      | none => simp [releaseSlot, isUnsettledIn, hslot]
      | some q =>
          by_cases hp : p = q
          · subst hp
            simp [releaseSlot, lowerSlot, slot_modifySlot, isUnsettledIn, hslot, h,
              Tally.toNat_lower]
          · simp [releaseSlot, lowerSlot, slot_modifySlot, isUnsettledIn, hslot, hp, Ne.symm hp]

theorem isUnsettledIn_settle (b : Broker) (m n : MessageRef) (p : SlotRef) :
    isUnsettledIn p ((b.settle m).message n) = (isUnsettledIn p (b.message n) && n != m) := by
  rw [message_settle]
  by_cases hn : n = m <;> simp [isUnsettledIn, hn]

theorem isUnsettledIn_markPurged (b : Broker) (m n : MessageRef) (p : SlotRef) :
    isUnsettledIn p ((b.markPurged m).message n) = isUnsettledIn p (b.message n) := by
  rw [markPurged, message_modifyMessage]
  split <;> rfl

theorem pending_settleAll (b : Broker) (l : List MessageRef) (p : SlotRef) :
    ((b.settleAll l).slot p).pending.toNat = (b.slot p).pending.toNat - b.unsettledAmong l p :=
  pending_foldl (fun b m => pending_settle b m p) (fun b m n => isUnsettledIn_settle b m n p) l b

theorem pending_consumePurged (b : Broker) (l : List MessageRef) (p : SlotRef) :
    ((l.foldl consumePurged b).slot p).pending.toNat =
      (b.slot p).pending.toNat - b.unsettledAmong l p := by
  refine pending_foldl (fun b m => ?_) (fun b m n => ?_) l b
  · rw [consumePurged, pending_settle, isUnsettledIn_markPurged]
    rfl
  · rw [consumePurged, isUnsettledIn_settle, isUnsettledIn_markPurged]

structure Consumes (t : TrackerRef) (consumed : Message → Message) (b c : Broker) : Prop where
  tracker : ∀ v, c.tracker v = if v = t then { b.tracker v with buffer := [] } else b.tracker v
  message : ∀ m, c.message m =
    if m ∈ (b.tracker t).buffer then consumed (b.message m) else b.message m
  pending : ∀ p, (c.slot p).pending.toNat =
    (b.slot p).pending.toNat - b.unsettledAmong (b.tracker t).buffer p
  subscriber : ∀ s, c.subscriber s = b.subscriber s
  registry : c.registry = b.registry
  expired : c.expired = b.expired
  dispatcher : c.dispatcher = b.dispatcher

theorem Consumes.buffer {t : TrackerRef} {consumed : Message → Message} {b c : Broker}
    (h : Consumes t consumed b c) : (c.tracker t).buffer = [] := by
  rw [h.tracker, if_pos rfl]

theorem unsettledAmong_congr {b c : Broker} {p : SlotRef} {l : List MessageRef}
    (h : ∀ m ∈ l, isUnsettledIn p (c.message m) = isUnsettledIn p (b.message m)) :
    c.unsettledAmong l p = b.unsettledAmong l p := by
  unfold unsettledAmong
  refine List.countP_congr fun m hm => ?_
  rw [h m (List.mem_dedup.1 hm)]

theorem isUnsettledIn_drain (b : Broker) (t : TrackerRef) (p : SlotRef) (n : MessageRef) :
    isUnsettledIn p ((b.drain t).message n) = isUnsettledIn p (b.message n) := by
  rw [message_drain]
  split <;> rfl

end Broker

def Message.isCovered (x : Message) (now : UInt64) (storageQueue : String) : Bool :=
  decide (x.storageQueue = storageQueue) && decide (x.arrival ≤ now)

def Message.consumePurged (x : Message) : Message :=
  { x with buffered := false, purged := true, settled := true }

namespace Broker

/-- Of the tracker's buffer the messages that a purge covers are consumed and counted. All others
stay where and as they are. -/
structure TakesCovered (now : UInt64) (storageQueue : String) (t : TrackerRef) (b : Broker)
    (taken : Nat) (c : Broker) : Prop where
  taken : taken =
    ((b.tracker t).buffer.filter fun m => (b.message m).isCovered now storageQueue).length
  buffer : (c.tracker t).buffer =
    (b.tracker t).buffer.filter fun m => !(b.message m).isCovered now storageQueue
  consumed : ∀ m ∈ (b.tracker t).buffer, (b.message m).isCovered now storageQueue = true →
    (c.message m).purged = true ∧ (c.message m).settled = true
  kept : ∀ m ∈ (b.tracker t).buffer, (b.message m).isCovered now storageQueue = false →
    c.message m = b.message m
  pending : ∀ p, (c.slot p).pending.toNat = (b.slot p).pending.toNat -
    b.unsettledAmong
      ((b.tracker t).buffer.filter fun m => (b.message m).isCovered now storageQueue) p

variable {b c : Broker} {now : UInt64} {key : TrackedKey} {storageQueue : String} {t : TrackerRef}

@[simp] theorem recordPurge_frame (b : Broker) (storageQueue : String) (now : UInt64) :
    (∀ p, (b.recordPurge storageQueue now).slot p = b.slot p) ∧
      (∀ m, (b.recordPurge storageQueue now).message m = b.message m) ∧
      (∀ s, (b.recordPurge storageQueue now).subscriber s = b.subscriber s) ∧
      (∀ v, (b.recordPurge storageQueue now).tracker v = b.tracker v) ∧
      (b.recordPurge storageQueue now).registry = b.registry ∧
      (b.recordPurge storageQueue now).tracked = b.tracked ∧
      (b.recordPurge storageQueue now).expired = b.expired ∧
      (b.recordPurge storageQueue now).dispatcher = b.dispatcher :=
  ⟨fun _ => rfl, fun _ => rfl, fun _ => rfl, fun _ => rfl, rfl, rfl, rfl, rfl⟩

theorem consumes_purge (hfind : b.find? key = some t) (now : UInt64) (storageQueue : String) :
    (b.purge now key storageQueue).1 = (b.tracker t).buffer.length ∧
      Consumes t Message.consumePurged b (b.purge now key storageQueue).2 ∧
      (b.purge now key storageQueue).2.tracked = b.tracked := by
  have heq : b.purge now key storageQueue = ((b.tracker t).buffer.length,
      (b.tracker t).buffer.foldl Broker.consumePurged
        ((b.recordPurge storageQueue now).drain t)) := by
    rw [purge]
    dsimp only
    rw [show (b.recordPurge storageQueue now).find? key = some t from hfind]
    rfl
  rw [heq]
  refine ⟨rfl, ⟨fun v => ?_, fun m => ?_, fun p => ?_, by simp, by simp, by simp, by simp⟩,
    by simp⟩
  · simp [tracker_drain]
  · rw [message_foldl_consumePurged, message_drain, (recordPurge_frame ..).2.1,
      (recordPurge_frame ..).2.2.2.1]
    split <;> rfl
  · rw [pending_consumePurged, unsettledAmong_congr fun m _ => isUnsettledIn_drain _ t p m]
    simp [unsettledAmong]

theorem takesCovered_iff {taken : Nat} (h : Consumes t Message.consumePurged b c)
    (htaken : taken = (b.tracker t).buffer.length) :
    TakesCovered now storageQueue t b taken c ↔
      ∀ m ∈ (b.tracker t).buffer, (b.message m).isCovered now storageQueue = true := by
  refine ⟨fun ht m hm => ?_, fun hall => ?_⟩
  · -- whatever is not covered would have to be in a buffer that is empty
    have hnone := ht.buffer.symm.trans h.buffer
    simpa using List.filter_eq_nil_iff.1 hnone m hm
  · have hcovered : (b.tracker t).buffer.filter
        (fun m => (b.message m).isCovered now storageQueue) = (b.tracker t).buffer :=
      List.filter_eq_self.2 hall
    refine ⟨by rw [hcovered, htaken], ?_, fun m hm _ => ?_, fun m hm hout => ?_, fun p => ?_⟩
    · rw [h.buffer, eq_comm, List.filter_eq_nil_iff]
      exact fun m hm => by simp [hall m hm]
    · rw [h.message, if_pos hm]
      exact ⟨rfl, rfl⟩
    · exact absurd (hall m hm) (by simp [hout])
    · rw [hcovered, h.pending]

theorem isPurged_recordPurge (b : Broker) (now : UInt64) (storageQueue : String) (m : MessageRef) :
    (b.recordPurge storageQueue now).isPurged m = true ↔
      b.isPurged m = true ∨ (b.message m).isCovered now storageQueue = true := by
  simp only [isPurged, (recordPurge_frame ..).2.1, lastPurge_recordPurge, Message.isCovered]
  by_cases hqueue : (b.message m).storageQueue = storageQueue
  · cases hlast : b.lastPurge storageQueue with
    | none => simp [hqueue, hlast]
    | some earlier => simp [hqueue, hlast, or_assoc, Std.le_max]
  · simp [hqueue]

theorem purge_of_untracked (hfind : b.find? key = none) :
    b.purge now key storageQueue = (0, b.recordPurge storageQueue now) := by
  rw [purge]
  dsimp only
  rw [show (b.recordPurge storageQueue now).find? key = none from hfind]

/-- The latest purge counts for every message, wherever it is; the mark is for what was consumed. -/
theorem isPurged_purge (b : Broker) (now : UInt64) (key : TrackedKey) (storageQueue : String)
    (m : MessageRef) :
    (b.purge now key storageQueue).2.isPurged m = true ↔
      b.isPurged m = true ∨ (b.message m).isCovered now storageQueue = true ∨
        ∃ t, b.find? key = some t ∧ m ∈ (b.tracker t).buffer := by
  rw [← or_assoc, ← isPurged_recordPurge]
  cases hfind : b.find? key with
  | none => simp [purge_of_untracked hfind]
  | some t =>
      obtain ⟨-, h, -⟩ := consumes_purge hfind now storageQueue
      have hlast : ∀ queue, (b.purge now key storageQueue).2.lastPurge queue =
          (b.recordPurge storageQueue now).lastPurge queue := fun queue => by
        rw [lastPurge, purges_purge, lastPurge]
      simp only [isPurged, hlast, h.message, (recordPurge_frame ..).2.1]
      by_cases hm : m ∈ (b.tracker t).buffer
      · simp [hm, Message.consumePurged]
      · simp [hm]

/-- A purge of a destination that is in use consumes its whole buffer without delivery and counts
it: each message is marked purged, settled and struck off its slot once. So it consumes what was
purged and spares the rest exactly if there is no rest: if all that is buffered came to the storage
queue by then. From then on a message counts as purged if it did before, if it came to the storage
queue by then, wherever it is, or if it was buffered for the destination. -/
theorem purge_takes_all (b : Broker) (now : UInt64) (key : TrackedKey) (storageQueue : String) :
    (∀ t, b.find? key = some t →
      (b.purge now key storageQueue).1 = (b.tracker t).buffer.length ∧
        Consumes t Message.consumePurged b (b.purge now key storageQueue).2 ∧
        (b.purge now key storageQueue).2.tracked = b.tracked ∧
        (TakesCovered now storageQueue t b (b.purge now key storageQueue).1
            (b.purge now key storageQueue).2 ↔
          ∀ m ∈ (b.tracker t).buffer, (b.message m).isCovered now storageQueue = true)) ∧
      (b.find? key = none →
        b.purge now key storageQueue = (0, b.recordPurge storageQueue now)) ∧
      (b.purge now key storageQueue).2.purges = (b.recordPurge storageQueue now).purges ∧
      ∀ m, (b.purge now key storageQueue).2.isPurged m = true ↔
        b.isPurged m = true ∨ (b.message m).isCovered now storageQueue = true ∨
          ∃ t, b.find? key = some t ∧ m ∈ (b.tracker t).buffer := by
  refine ⟨fun t hfind => ?_, purge_of_untracked, purges_purge b now key storageQueue,
    isPurged_purge b now key storageQueue⟩
  obtain ⟨htaken, h, htracked⟩ := consumes_purge hfind now storageQueue
  exact ⟨htaken, h, htracked, takesCovered_iff h htaken⟩

def mixedBuffer : List Operation :=
  [.createSlot "stored", .createMessage 1 "orders" "stored" "book" 4 0,
    .createMessage 2 "orders" "archive" "pen" 4 0, .createMessage 3 "orders" "stored" "ink" 9 0,
    .track ⟨"orders", .amqp, .queue⟩, .buffer [⟨0⟩, ⟨1⟩, ⟨2⟩] ⟨0⟩ ⟨0⟩]

theorem purge_takes_all_mixedBuffer :
    let b := (replay workerRules mixedBuffer default default).1
    b.find? ⟨.queue, "orders"⟩ = some ⟨0⟩ ∧ (b.purge 5 ⟨.queue, "orders"⟩ "stored").1 = 3 ∧
      ((b.purge 5 ⟨.queue, "orders"⟩ "stored").2.slot ⟨0⟩).pending.toNat = 0 ∧
      b.isPurged ⟨1⟩ = false ∧
      (b.purge 5 ⟨.queue, "orders"⟩ "stored").2.isPurged ⟨1⟩ = true ∧
      (b.purge 5 ⟨.topic, "news"⟩ "stored").1 = 0 ∧
      ((b.purge 5 ⟨.topic, "news"⟩ "stored").2.tracker ⟨0⟩).buffer = [⟨0⟩, ⟨1⟩, ⟨2⟩] := by
  intro b
  have hfind : b.find? ⟨.queue, "orders"⟩ = some ⟨0⟩ := by decide
  obtain ⟨hall, -, -, hpurged⟩ := purge_takes_all b 5 ⟨.queue, "orders"⟩ "stored"
  obtain ⟨htaken, h, -⟩ := hall ⟨0⟩ hfind
  have hnone : b.find? ⟨.topic, "news"⟩ = none := by decide
  have hidle := (purge_takes_all b 5 ⟨.topic, "news"⟩ "stored").2.1 hnone
  refine ⟨hfind, htaken.trans (by decide), (h.pending ⟨0⟩).trans (by decide), by decide,
    (hpurged ⟨1⟩).2 (.inr (.inr ⟨⟨0⟩, hfind, by decide⟩)), ?_, ?_⟩
  · rw [hidle]
  · rw [hidle]
    decide

/-- A purge of one storage queue consumes an order of another one, and one that came after it. -/
theorem overreaching_mixedBuffer :
    ¬ ∀ (r : Rules) (b : Broker) (h : Journal), Reaches r (fun _ _ _ => True) b h →
      ∀ (now : UInt64) (key : TrackedKey) (storageQueue : String) (t : TrackerRef),
        b.find? key = some t → TakesCovered now storageQueue t b (b.purge now key storageQueue).1
          (b.purge now key storageQueue).2 := by
  intro hall
  have hr : Reaches workerRules (fun _ _ _ => True)
      (replay workerRules mixedBuffer default default).1 (replay workerRules mixedBuffer default
        default).2 := Reaches.start.replay mixedBuffer (by decide)
  have hfind : (replay workerRules mixedBuffer default default).1.find? ⟨.queue, "orders"⟩ =
      some ⟨0⟩ := by decide
  have htaken := (hall _ _ _ hr 5 ⟨.queue, "orders"⟩ "stored" ⟨0⟩ hfind).taken
  exact absurd htaken (by decide)

end Broker

end Courier
