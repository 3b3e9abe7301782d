import Courier.Proofs.Placement

namespace Courier

namespace Message

theorem withdrawOutstanding_status? (x : Message) (s : SubscriberId) :
    (x.withdrawOutstanding.status? s).any RecipientStatus.isOutstanding = false := by
  rw [withdrawOutstanding, status?_foldl_forget]
  split
  · rfl
  · next hs =>
      cases hstatus : x.status? s with
      | none => rfl
      | some status =>
          refine Bool.eq_false_iff.2 fun ho => hs ?_
          exact List.mem_map.2 ⟨(s, status), List.mem_filter.2 ⟨Dict.mem_of_get? hstatus, ho⟩, rfl⟩

end Message

namespace Broker

variable {r : Rules} {t : TrackerRef} {key : TrackedKey} {l : List MessageRef} {b c : Broker}
  {m : MessageRef}

def AtRest (b : Broker) (m : MessageRef) : Prop :=
  ∀ id, ((b.message m).status? id).any RecipientStatus.isOutstanding = false

structure PutBack (t : TrackerRef) (l : List MessageRef) (b c : Broker) : Prop where
  flagged : ∀ m ∈ l, (c.message m).buffered = true
  count : ∀ v m, (c.tracker v).buffer.count m =
    (b.tracker v).buffer.count m +
      if v = t ∧ m ∈ l ∧ (b.message m).buffered = false then 1 else 0
  withdrawn : (b.tracker t).isTopic = false → ∀ m ∈ l, c.AtRest m

theorem message_returnToBuffer_self (t : TrackerRef) (b : Broker) (m : MessageRef) :
    (b.returnToBuffer t m).message m =
      { (if (b.tracker t).isTopic then b.message m else (b.message m).withdrawOutstanding) with
        buffered := true } := by
  unfold returnToBuffer
  split <;> simp [message_rebuffer, message_withdraw]

theorem atRest_returnToBuffer (queue : (b.tracker t).isTopic = false) (m : MessageRef) :
    (b.returnToBuffer t m).AtRest m := fun id => by
  rw [message_returnToBuffer_self, queue]
  exact (b.message m).withdrawOutstanding_status? id

theorem AtRest.returnToBuffer (h : b.AtRest m) (queue : (b.tracker t).isTopic = false)
    (n : MessageRef) : (b.returnToBuffer t n).AtRest m := by
  by_cases hn : m = n
  · rw [hn]
    exact atRest_returnToBuffer queue n
  · intro id
    rw [(Touches.returnToBuffer t b n).others m hn]
    exact h id

theorem atRest_returned (queue : (b.tracker t).isTopic = false) (h : m ∈ l ∨ b.AtRest m) :
    (l.foldl (Broker.returnToBuffer t) b).AtRest m := by
  induction l generalizing b with
  | nil => exact h.resolve_left List.not_mem_nil
  | cons n l ih =>
      have hqueue : ((b.returnToBuffer t n).tracker t).isTopic = false := by
        rw [Tracker.isTopic, (Touches.returnToBuffer t b n).key]
        exact queue
      refine ih hqueue ?_
      obtain hm | hrest := h
      · obtain rfl | hm := List.mem_cons.1 hm
        · exact .inr (atRest_returnToBuffer queue m)
        · exact .inl hm
      · exact .inr (hrest.returnToBuffer queue n)

/-- A message is appended the first time, unless its flag says that it is buffered. -/
theorem count_returned (t v : TrackerRef) (l : List MessageRef) (b : Broker) (m : MessageRef) :
    ((l.foldl (returnToBuffer t) b).tracker v).buffer.count m =
      (b.tracker v).buffer.count m +
        if v = t ∧ m ∈ l ∧ (b.message m).buffered = false then 1 else 0 := by
  induction l generalizing b with
  | nil => simp
  | cons n l ih =>
      have hflag : ((b.returnToBuffer t n).message m).buffered =
          (decide (m = n) || (b.message m).buffered) := by
        simpa using buffered_returned t [n] b m
      rw [List.foldl_cons, ih, hflag, buffer_returnToBuffer]
      by_cases hv : v = t
      · by_cases hn : m = n
        · subst hn
          cases hb : (b.message m).buffered <;> simp [hv]
        · have hcount : List.count m [n] = 0 := by simp [Ne.symm hn]
          split <;> simp [hv, hn, hcount]
      · simp [hv]

theorem putBack_returned (t : TrackerRef) (l : List MessageRef) (b : Broker) :
    PutBack t l b (l.foldl (returnToBuffer t) b) where
  flagged m hm := by simp [buffered_returned, hm]
  count v m := count_returned t v l b m
  withdrawn queue _ hm := atRest_returned queue (.inl hm)

theorem tracked_returned (t : TrackerRef) (l : List MessageRef) (b : Broker) :
    (l.foldl (returnToBuffer t) b).tracked = b.tracked := by
  induction l generalizing b with
  | nil => rfl
  | cons n l ih => rw [List.foldl_cons, ih]; simp

def OnceIn (b : Broker) (m : MessageRef) (t : TrackerRef) : Prop :=
  ∀ u, (b.tracker u).buffer.count m = if u = t then 1 else 0

/-- Where flags and places agree, a message that is put back is in the tracker's buffer afterwards,
unless it was in the buffer of another. -/
theorem PutBack.exists_onceIn (h : PutBack t l b c) (hx : b.Placed) (hm : m ∈ l) :
    ∃ v, c.OnceIn m v ∧ (v = t ↔ ∀ u, u ≠ t → m ∉ (b.tracker u).buffer) := by
  cases hb : (b.message m).buffered with
  | false =>
      have hout := not_mem_of_unflagged (hx m) hb
      refine ⟨t, fun u => ?_, ⟨fun _ u _ => hout u, fun _ => rfl⟩⟩
      rw [h.count, List.count_eq_zero.2 (hout u), hb]
      simp [hm]
  | true =>
      obtain ⟨v, hv⟩ := (hx m).once hb
      have hsame : ∀ u, (c.tracker u).buffer.count m = (b.tracker u).buffer.count m := fun u => by
        rw [h.count, hb]
        simp
      refine ⟨v, fun u => (hsame u).trans (hv u), ⟨?_, fun hout => ?_⟩⟩
      · rintro rfl u hu hmem
        have hpos : 0 < (b.tracker u).buffer.count m := List.count_pos_iff.2 hmem
        rw [show (b.tracker u).buffer.count m = 0 from (hv u).trans (if_neg hu)] at hpos
        exact Nat.lt_irrefl 0 hpos
      · by_contra hne
        refine hout v hne (List.count_pos_iff.1 ?_)
        rw [show (b.tracker v).buffer.count m = 1 from (hv v).trans (if_pos rfl)]
        exact Nat.one_pos

/-- Putting messages back at a destination keeps its promise to a message that no other tracker's
buffer holds: it is then in the buffer of the destination's tracker, once, and except on a topic no
attempt at it is under way. A call that is refused changes nothing. -/
theorem put_back_kept (b : Broker) (key : TrackedKey) (l : List MessageRef) :
    (∀ c, b.rebufferTracked key l = .ok c → ∃ t, b.find? key = some t ∧ c.find? key = some t ∧
        PutBack t l b c ∧
        (Deed.Leads b → (b.tracker t).key.tracked = key ∧ ∀ m ∈ l, ∃ v, c.OnceIn m v ∧
          (v = t ↔ ∀ u, u ≠ t → m ∉ (b.tracker u).buffer))) ∧
      (∀ e, b.rebufferTracked key l = .error e →
        e = .untracked key.destination ∧ b.find? key = none ∧
          ∀ r, (Operation.rebuffer key l).apply r b = b) ∧
      ∀ m type, (b.requeue m type = b.rebufferTracked ⟨type, (b.message m).destination⟩ [m]) ∧
        ∀ e, b.requeue m type = .error e → ∀ r, (Operation.requeue m type).apply r b = b := by
  refine ⟨fun c hc => ?_, fun e he => ?_, fun m type => ⟨rfl, fun e he r => ?_⟩⟩
  · unfold rebufferTracked at hc
    split at hc
    · next t ht =>
        obtain rfl := Except.ok.inj hc
        have hput := putBack_returned t l b
        refine ⟨t, ht, ?_, hput, fun hr => ?_⟩
        · rw [find?, tracked_returned]
          exact ht
        · obtain ⟨hs, -, hx⟩ := hr.placed
          exact ⟨(hs.tracked key t ht).2, fun m hm => hput.exists_onceIn hx hm⟩
    · cases hc
  · unfold rebufferTracked at he
    split at he
    · cases he
    · next hnone =>
        refine ⟨(Except.error.inj he).symm, hnone, fun r => ?_⟩
        rw [Operation.apply_rebuffer, hnone]
  · simp only [Operation.apply, he]

def abandonedRun : List Deed :=
  (workerRun ++ [Operation.unregister "worker"]).map (Deed.operation workerRules)

theorem put_back_kept_abandonedRun :
    Deed.AllPermitted abandonedRun default ∧
      ∃ c, (Deed.all abandonedRun default).rebufferTracked ⟨.queue, "orders"⟩ [⟨0⟩, ⟨0⟩] = .ok c ∧
        (∀ u, (c.tracker u).buffer.count ⟨0⟩ = if u = ⟨0⟩ then 1 else 0) ∧ c.AtRest ⟨0⟩ ∧
        (Operation.rebuffer ⟨.topic, "orders"⟩ [⟨0⟩]).apply workerRules c = c := by
  have hp : Deed.AllPermitted abandonedRun default := by decide
  obtain ⟨c, hc⟩ : ∃ c, (Deed.all abandonedRun default).rebufferTracked ⟨.queue, "orders"⟩
      [⟨0⟩, ⟨0⟩] = .ok c := ⟨_, rfl⟩
  obtain ⟨t, ht, -, hput, hplace⟩ :=
    (put_back_kept (Deed.all abandonedRun default) ⟨.queue, "orders"⟩ [⟨0⟩, ⟨0⟩]).1 c hc
  obtain rfl : t = ⟨0⟩ := by
    have hfind : (Deed.all abandonedRun default).find? ⟨.queue, "orders"⟩ = some ⟨0⟩ := by decide
    exact Option.some.inj (ht.symm.trans hfind)
  obtain ⟨v, honce, hv⟩ := (hplace (Deed.Leads.start.all abandonedRun hp)).2 ⟨0⟩ (by simp)
  obtain rfl : v = ⟨0⟩ := hv.2 fun u _ => by
    have hout : ((Deed.all abandonedRun default).message ⟨0⟩).buffered = false := by decide
    exact not_mem_of_unflagged ((Deed.Leads.start.all abandonedRun hp).placed.2.2 ⟨0⟩) hout u
  have hrefused : c.rebufferTracked ⟨.topic, "orders"⟩ [⟨0⟩] = .error (.untracked "orders") := by
    obtain rfl := Except.ok.inj hc
    rfl
  obtain ⟨-, -, hsame⟩ := (put_back_kept c ⟨.topic, "orders"⟩ [⟨0⟩]).2.1 _ hrefused
  exact ⟨hp, c, hc, honce, hput.withdrawn (by decide) ⟨0⟩ (by simp), hsame workerRules⟩

/-- An order is buffered while nobody takes orders, and its tracker is let go with it. The next
tracker is asked to put the order back. -/
def letGoRun : List Deed :=
  [.operation workerRules (.createSlot "stored"),
    .operation workerRules (.createMessage 1 "orders" "stored" "book" 0 0),
    .operation workerRules (.track ⟨"orders", .amqp, .queue⟩),
    .operation workerRules (.buffer [⟨0⟩] ⟨0⟩ ⟨0⟩),
    .operation workerRules (.flush [] 0 ⟨0⟩),
    .operation workerRules (.track ⟨"orders", .amqp, .queue⟩)]

/-- The call succeeds and the order is still in the buffer of the tracker that nobody uses. -/
theorem left_behind_letGoRun :
    ¬ ∀ b : Broker, Deed.Leads b → ∀ (m : MessageRef) (type : DestinationType) (c : Broker)
      (t : TrackerRef), b.requeue m type = .ok c →
        c.find? ⟨type, (b.message m).destination⟩ = some t → (c.tracker t).buffer.count m = 1 := by
  intro hall
  have hp : Deed.AllPermitted letGoRun default := by decide
  have hone := hall _ (Deed.Leads.start.all letGoRun hp) ⟨0⟩ .queue _ ⟨1⟩ rfl (by decide)
  exact absurd hone (by decide)

end Broker

end Courier
