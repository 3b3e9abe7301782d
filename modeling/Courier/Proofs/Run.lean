import Courier.Proofs.Passes

namespace Courier

open Broker

structure Journal where
  /-- The messages that a batch brought into a buffer. -/
  accepted : List MessageRef
  /-- The messages that a cleared buffer held. -/
  dropped : List MessageRef
  /-- The copies that were written to their subscriber. -/
  sent : List (MessageRef × SubscriberId)
  deriving DecidableEq

instance : Inhabited Journal := ⟨⟨[], [], []⟩⟩

/-- What a host can ask of the broker, in any order, and what the world around it does meanwhile. Jobs
stay queued until they are run, and any queued job may be the next. -/
inductive Operation where
  | createSlot (storageQueue : String)
  | createMessage (id : UInt64) (destination storageQueue payload : String) (arrival ttl : UInt64)
  | createSubscriber (id : SubscriberId) (key : DestinationKey) (node : String) (window : UInt64)
      (outbound : Outbound)
  /-- The far side of a subscriber changes: how its next writes end is up to it. -/
  | connect (s : SubscriberRef) (outbound : Outbound)
  | register (s : SubscriberRef)
  | unregister (id : SubscriberId)
  | track (key : DestinationKey)
  | buffer (batch : List MessageRef) (p : SlotRef) (t : TrackerRef)
  | rebuffer (key : TrackedKey) (l : List MessageRef)
  | requeue (m : MessageRef) (type : DestinationType)
  | flush (vetoes : List Veto) (now : UInt64) (t : TrackerRef)
  | send (vetoes : List Veto) (now : UInt64) (t : TrackerRef)
  | findNext (t : TrackerRef) (active : List SubscriberRef)
  | clear (key : TrackedKey)
  | purge (now : UInt64) (key : TrackedKey) (storageQueue : String)
  | acknowledge (s : SubscriberRef) (m : MessageRef) (type : DestinationType)
  | runJob (place : Nat)
  | close
  | shutdown
  | deleteExpired (condition : StoreCondition)

namespace Broker

def runJob (b : Broker) (place : Nat) : Broker :=
  match b.dispatcher.jobs[place]? with
  | some j => (b.withJobs (b.dispatcher.jobs.eraseIdx place)).execute j
  | none => b

def close (b : Broker) : Broker :=
  { b with dispatcher := { b.dispatcher with accepting := false } }

theorem runNext_eq (b : Broker) :
    b.runNext = if b.dispatcher.jobs = [] then none else some (b.runJob 0) := by
  unfold runNext runJob
  cases h : b.dispatcher.jobs <;> simp [withJobs]

def hasSlot (b : Broker) (p : SlotRef) : Prop := p.index < b.slots.size

def hasMessage (b : Broker) (m : MessageRef) : Prop := m.index < b.messages.size

def hasSubscriber (b : Broker) (s : SubscriberRef) : Prop := s.index < b.subscribers.size

def hasTracker (b : Broker) (t : TrackerRef) : Prop := t.index < b.trackers.size

instance (b : Broker) (p : SlotRef) : Decidable (b.hasSlot p) := inferInstanceAs (Decidable (_ < _))

instance (b : Broker) (m : MessageRef) : Decidable (b.hasMessage m) :=
  inferInstanceAs (Decidable (_ < _))

instance (b : Broker) (s : SubscriberRef) : Decidable (b.hasSubscriber s) :=
  inferInstanceAs (Decidable (_ < _))

instance (b : Broker) (t : TrackerRef) : Decidable (b.hasTracker t) :=
  inferInstanceAs (Decidable (_ < _))

theorem message_eq_default {b : Broker} {m : MessageRef} (hm : ¬ b.hasMessage m) :
    b.message m = default :=
  b.messages.get_of_size_le (Nat.le_of_not_lt hm)

def references (b : Broker) : List MessageRef := (List.range b.messages.size).map MessageRef.mk

theorem references_nodup (b : Broker) : b.references.Nodup :=
  List.nodup_range.map fun i j hij => by simpa using hij

theorem mem_references {b : Broker} {m : MessageRef} : m ∈ b.references ↔ b.hasMessage m := by
  simp only [references, List.mem_map, List.mem_range, hasMessage]
  exact ⟨fun ⟨i, hi, he⟩ => he ▸ hi, fun hm => ⟨m.index, hm, rfl⟩⟩

def matching (b : Broker) (t : TrackerRef) (batch : List MessageRef) : List MessageRef :=
  batch.filter fun m => (b.message m).destination = (b.tracker t).key.destination

end Broker

namespace Journal

def execute (h : Journal) (b : Broker) (j : Job) : Journal :=
  if (b.send j.subscriber j.message).1 = .sent then
    { h with sent := h.sent ++ [(j.message, (b.subscriber j.subscriber).id)] }
  else h

def runJob (h : Journal) (b : Broker) (place : Nat) : Journal :=
  match b.dispatcher.jobs[place]? with
  | some j => h.execute b j
  | none => h

def run : Nat → Broker → Journal → Journal
  | 0, _, h => h
  | n + 1, b, h => run n (b.runJob 0) (h.runJob b 0)

theorem runJob_frame (h : Journal) (b : Broker) (place : Nat) :
    (h.runJob b place).accepted = h.accepted ∧ (h.runJob b place).dropped = h.dropped := by
  unfold runJob execute
  split
  · split <;> exact ⟨rfl, rfl⟩
  · exact ⟨rfl, rfl⟩

theorem run_frame (n : Nat) (b : Broker) (h : Journal) :
    (run n b h).accepted = h.accepted ∧ (run n b h).dropped = h.dropped := by
  induction n generalizing b h with
  | zero => exact ⟨rfl, rfl⟩
  | succ n ih =>
      obtain ⟨h₁, h₂⟩ := runJob_frame h b 0
      exact ⟨(ih _ _).1.trans h₁, (ih _ _).2.trans h₂⟩

end Journal

namespace Operation

def apply (r : Rules) (b : Broker) : Operation → Broker
  | createSlot storageQueue => (b.addSlot ⟨storageQueue, .zero⟩).2
  | createMessage id destination storageQueue payload arrival ttl =>
      match (Message.new id destination storageQueue payload arrival).withTtl ttl with
      | some x => (b.addMessage x).2
      | none => b
  | createSubscriber id key node window outbound =>
      (b.addSubscriber (((Subscription.new id key outbound).withNode node).withWindow window)).2
  | connect s outbound => b.modifySubscriber s fun x => { x with outbound }
  | register s => b.register s
  | unregister id => b.unregister id
  | track key => (b.track key).2
  | buffer batch p t => b.bufferBatch batch p t
  | rebuffer key l => match b.rebufferTracked key l with
    | .ok c => c
    | .error _ => b
  | requeue m type => match b.requeue m type with
    | .ok c => c
    | .error _ => b
  | flush vetoes now t => (b.flush { r with vetoes } now t).2
  | send vetoes now t => (b.sendBuffered { r with vetoes } now t).2
  | findNext t active => (b.findNext t active).2
  | clear key => (b.clear key).2
  | purge now key storageQueue => (b.purge now key storageQueue).2
  | acknowledge s m type => b.acknowledge s m type
  | runJob place => b.runJob place
  | close => b.close
  | shutdown => b.shutdown
  | deleteExpired condition => ({ b with store := { b.store with condition } }.deleteExpired).2

def record (b : Broker) (h : Journal) : Operation → Journal
  | buffer batch _ t => { h with accepted := h.accepted ++ b.matching t batch }
  | clear key => match b.find? key with
    | some t => { h with dropped := h.dropped ++ (b.tracker t).buffer }
    | none => h
  | runJob place => h.runJob b place
  | shutdown => .run b.pendingJobs b h
  | _ => h

def uses (b : Broker) : Operation → Prop
  | connect s _ | register s => b.hasSubscriber s
  | buffer batch p t => (∀ m ∈ batch, b.hasMessage m) ∧ b.hasSlot p ∧ b.hasTracker t
  | rebuffer _ l => ∀ m ∈ l, b.hasMessage m
  | requeue m _ => b.hasMessage m
  | flush _ _ t | send _ _ t => b.hasTracker t
  | findNext t active => b.hasTracker t ∧ ∀ s ∈ active, b.hasSubscriber s
  | acknowledge s m _ => b.hasSubscriber s ∧ b.hasMessage m
  | _ => True

instance (b : Broker) : (op : Operation) → Decidable (op.uses b)
  | connect s _ | register s => inferInstanceAs (Decidable (b.hasSubscriber s))
  | buffer batch p t =>
      inferInstanceAs (Decidable ((∀ m ∈ batch, b.hasMessage m) ∧ b.hasSlot p ∧ b.hasTracker t))
  | rebuffer _ l => inferInstanceAs (Decidable (∀ m ∈ l, b.hasMessage m))
  | requeue m _ => inferInstanceAs (Decidable (b.hasMessage m))
  | flush _ _ t | send _ _ t => inferInstanceAs (Decidable (b.hasTracker t))
  | findNext t active =>
      inferInstanceAs (Decidable (b.hasTracker t ∧ ∀ s ∈ active, b.hasSubscriber s))
  | acknowledge s m _ => inferInstanceAs (Decidable (b.hasSubscriber s ∧ b.hasMessage m))
  | createSlot _ | createMessage .. | createSubscriber .. | unregister _ | track _ | clear _
  | purge .. | runJob _ | close | shutdown | deleteExpired _ => .isTrue trivial

def isWork : Operation → Bool
  | createMessage .. | createSubscriber .. | register _ | unregister _ | track _ => false
  | _ => true

def Heard (b : Broker) : Operation → Prop
  | flush _ _ t | send _ _ t => b.active t ≠ []
  | findNext _ active => active ≠ []
  | _ => True

theorem createMessage_induction {P : Broker → Prop} {r : Rules} {b : Broker} {id : UInt64}
    {destination storageQueue payload : String} {arrival ttl : UInt64} (refused : P b)
    (made : ∀ expiresAt, P (b.addMessage
      { Message.new id destination storageQueue payload arrival with expiresAt }).2) :
    P ((createMessage id destination storageQueue payload arrival ttl).apply r b) := by
  rw [apply, Message.withTtl]
  by_cases hzero : ttl = 0
  · rw [if_pos hzero]
    exact made none
  · rw [if_neg hzero]
    split
    · next h =>
        split at h
        · obtain rfl := Option.some.inj h
          exact made _
        · cases h
    · exact refused

theorem apply_rebuffer (r : Rules) (b : Broker) (key : TrackedKey) (l : List MessageRef) :
    (rebuffer key l).apply r b = match b.find? key with
      | some t => l.foldl (returnToBuffer t) b
      | none => b := by
  cases hf : b.find? key <;> simp [apply, rebufferTracked, hf]

end Operation

theorem Broker.run_succ (n : Nat) (b : Broker) :
    (b.run (n + 1)).2 = ((b.runJob 0).run n).2 := by
  rw [run, runNext_eq]
  by_cases hj : b.dispatcher.jobs = []
  · have hb : b.runJob 0 = b := by simp [runJob, hj]
    have hn : (b.run n).2 = b := by cases n <;> simp [run, runNext_eq, hj]
    simp [hj, hb, hn]
  · simp [hj]

/-- A shutdown runs as many jobs as there are, always the oldest, and then closes the dispatcher. -/
theorem shutdown_steps {P : Broker → Journal → Prop} {b : Broker} {h : Journal} (start : P b h)
    (run : ∀ n < b.pendingJobs, ∀ h, P (b.run n).2 h →
      P ((b.run n).2.runJob 0) (h.runJob (b.run n).2 0))
    (close : ∀ b h, P b h → P b.close h) : P b.shutdown (.run b.pendingJobs b h) := by
  have hrun : ∀ n b h, P b h → (∀ k < n, ∀ h, P (b.run k).2 h →
      P ((b.run k).2.runJob 0) (h.runJob (b.run k).2 0)) → P (b.run n).2 (.run n b h) := by
    intro n
    induction n with
    | zero => exact fun b h hb _ => hb
    | succ n ih =>
        intro b h hb hstep
        rw [run_succ]
        refine ih _ _ (hstep 0 (Nat.succ_pos n) h hb) fun k hk h hP => ?_
        rw [← run_succ] at hP ⊢
        exact hstep (k + 1) (Nat.succ_lt_succ hk) h hP
  exact close _ _ (hrun _ b h start run)

theorem shutdown_induction {P : Broker → Journal → Prop} {b : Broker} {h : Journal}
    (start : P b h) (run : ∀ b h, P b h → P (b.runJob 0) (h.runJob b 0))
    (close : ∀ b h, P b h → P b.close h) : P b.shutdown (.run b.pendingJobs b h) :=
  shutdown_steps start (fun _ _ _ hP => run _ _ hP) close

/-- The states that a run from the start can reach when every operation keeps to the terms. -/
inductive Reaches (r : Rules) (terms : Broker → Journal → Operation → Prop) :
    Broker → Journal → Prop
  | start : Reaches r terms default default
  | step {b : Broker} {h : Journal} (op : Operation) (prior : Reaches r terms b h)
      (uses : op.uses b) (keeps : terms b h op) : Reaches r terms (op.apply r b) (op.record b h)

def replay (r : Rules) : List Operation → Broker → Journal → Broker × Journal
  | [], b, h => (b, h)
  | op :: rest, b, h => replay r rest (op.apply r b) (op.record b h)

def Follows (r : Rules) (terms : Broker → Journal → Operation → Prop) :
    List Operation → Broker → Journal → Prop
  | [], _, _ => True
  | op :: rest, b, h =>
      (op.uses b ∧ terms b h op) ∧ Follows r terms rest (op.apply r b) (op.record b h)

instance instDecidableFollows (r : Rules) (terms : Broker → Journal → Operation → Prop)
    [∀ b h op, Decidable (terms b h op)] :
    (l : List Operation) → (b : Broker) → (h : Journal) → Decidable (Follows r terms l b h)
  | [], _, _ => .isTrue trivial
  | op :: rest, b, h =>
      have := instDecidableFollows r terms rest (op.apply r b) (op.record b h)
      inferInstanceAs (Decidable ((op.uses b ∧ terms b h op) ∧
        Follows r terms rest (op.apply r b) (op.record b h)))

theorem replay_append (r : Rules) (l l' : List Operation) (b : Broker) (h : Journal) :
    replay r (l ++ l') b h = replay r l' (replay r l b h).1 (replay r l b h).2 := by
  induction l generalizing b h with
  | nil => rfl
  | cons op l ih => exact ih _ _

theorem follows_append {r : Rules} {terms : Broker → Journal → Operation → Prop}
    {l l' : List Operation} {b : Broker} {h : Journal} :
    Follows r terms (l ++ l') b h ↔ Follows r terms l b h ∧
      Follows r terms l' (replay r l b h).1 (replay r l b h).2 := by
  induction l generalizing b h with
  | nil => exact ⟨fun hl => ⟨trivial, hl⟩, fun hl => hl.2⟩
  | cons op l ih =>
      rw [List.cons_append, Follows, Follows, ih]
      exact and_assoc.symm

theorem follows_mono {r : Rules} {terms terms' : Broker → Journal → Operation → Prop}
    (hterms : ∀ b h op, terms b h op → terms' b h op) {l : List Operation} {b : Broker} {h : Journal}
    (hl : Follows r terms l b h) : Follows r terms' l b h := by
  induction l generalizing b h with
  | nil => trivial
  | cons op l ih => exact ⟨⟨hl.1.1, hterms _ _ _ hl.1.2⟩, ih hl.2⟩

theorem Reaches.replay {r : Rules} {terms : Broker → Journal → Operation → Prop}
    {b : Broker} {h : Journal} (hr : Reaches r terms b h) (l : List Operation)
    (hl : Follows r terms l b h) : Reaches r terms (replay r l b h).1 (replay r l b h).2 := by
  induction l generalizing b h with
  | nil => exact hr
  | cons op rest ih => exact ih (hr.step op hl.1.1 hl.1.2) hl.2

def workerRun : List Operation :=
  [.createSlot "stored", .createMessage 1 "orders" "stored" "book" 0 0,
    .createMessage 2 "invoices" "stored" "bill" 0 0,
    .createSubscriber "worker" ⟨"orders", .amqp, .queue⟩ "local" 1 default, .register ⟨0⟩,
    .track ⟨"orders", .amqp, .queue⟩, .buffer [⟨0⟩, ⟨1⟩] ⟨0⟩ ⟨0⟩, .flush [] 0 ⟨0⟩, .runJob 0]

def workerRules : Rules := ⟨1, .discardNone, []⟩

end Courier
