import Mathlib.Data.List.Pairwise
import Courier.Proofs.Deletions

namespace Courier

open Broker
open Relation (ReflTransGen)

namespace Broker

/-- After the call for the batch everything waits in the queue as often as it was there or in the
batch, no message has changed, and the next run that the store accepts is about all of it. -/
structure KeepsBatch (batch : List MessageRef) (b c : Broker) : Prop where
  queued : ∀ m, c.expired.count m = b.expired.count m + batch.count m
  message : ∀ m, c.message m = b.message m
  retried : ∀ (r : Rules) (m : MessageRef), m ∈ b.expired ∨ m ∈ batch →
    (((Operation.deleteExpired .working).apply r c).message m).settled = true ∧
      ((Operation.deleteExpired .working).apply r c).expired = [] ∧
      ∃ ids, (b.message m).id ∈ ids ∧
        ((Operation.deleteExpired .working).apply r c).store.deletions = c.store.deletions ++ [ids]

theorem deleteExpired_working {c : Broker} (hqueued : c.expired ≠ []) (r : Rules) :
    (Operation.deleteExpired .working).apply r c =
      (c.withExpired [] ⟨.working, c.store.deletions ++
        [c.expired.map fun m => (c.message m).id]⟩).settleAll c.expired := by
  simp only [Operation.apply, deleteExpired, takeExpired, List.isEmpty_iff, hqueued, if_false]
  rfl

theorem KeepsBatch.of_queued {batch : List MessageRef} {b c : Broker}
    (queued : ∀ m, c.expired.count m = b.expired.count m + batch.count m)
    (message : ∀ m, c.message m = b.message m) : KeepsBatch batch b c := by
  refine ⟨queued, message, fun r m hm => ?_⟩
  have hmem : m ∈ c.expired := by
    rw [← List.count_pos_iff, queued]
    exact hm.elim (fun h => Nat.add_pos_left (List.count_pos_iff.2 h) _)
      fun h => Nat.add_pos_right _ (List.count_pos_iff.2 h)
  rw [deleteExpired_working (List.ne_nil_of_mem hmem)]
  have hid : (b.message m).id ∈ c.expired.map fun m => (c.message m).id := by
    rw [← message m]
    exact List.mem_map_of_mem hmem
  exact ⟨by simp [message_settleAll, hmem], by simp, _, hid, by simp [withExpired]⟩

theorem keepsBatch_failing (b : Broker) (batch : List MessageRef) (cause : StoreError) :
    KeepsBatch batch b (b.answer batch (.failing cause)) := by
  refine .of_queued (fun m => ?_) fun m => rfl
  rw [answer_failing]
  exact List.count_append

theorem answer_panicking (b : Broker) (batch : List MessageRef) :
    b.answer batch .panicking = b.withExpired b.expired ⟨.panicking, b.store.deletions⟩ :=
  rfl

theorem keepsBatch_panicking_iff (b : Broker) (batch : List MessageRef) :
    KeepsBatch batch b (b.answer batch .panicking) ↔ batch = [] := by
  refine ⟨fun h => List.eq_nil_iff_forall_not_mem.2 fun m hm => ?_, ?_⟩
  · have hpos : 0 < batch.count m := List.count_pos_iff.2 hm
    have hqueued : b.expired.count m = b.expired.count m + batch.count m := h.queued m
    omega
  · rintro rfl
    exact .of_queued (fun m => by simp [answer_panicking]) fun m => rfl

end Broker

def StoreCall.unanswered (c : StoreCall) : StoreCall :=
  if c.answer = some .panicking then { c with answer := none } else c

namespace StoreCall

variable {c : StoreCall}

theorem unanswered_of_ne (hc : c.answer ≠ some .panicking) : c.unanswered = c := if_neg hc

theorem unanswered_of_panicking (hc : c.answer = some .panicking) :
    c.unanswered = { c with answer := none } :=
  if_pos hc

theorem batch_unanswered (c : StoreCall) : c.unanswered.batch = c.batch := by
  unfold unanswered
  split <;> rfl

theorem refused_unanswered : c.unanswered.Refused ↔ c.Refused := by
  by_cases hc : c.answer = some .panicking
  · simp [Refused, unanswered_of_panicking hc, hc]
  · rw [unanswered_of_ne hc]

end StoreCall

namespace ExpiryLedger

/-- Steps of the ledger, and calls on which the store panics. -/
inductive Turn : ExpiryLedger → ExpiryLedger → Prop
  | step {l l' : ExpiryLedger} (h : Step l l') : Turn l l'
  | unwound (b : Broker) (found : List MessageRef) (before after : List StoreCall) (c : StoreCall)
      (running : c.answer = none) :
      Turn ⟨b, found, before ++ c :: after⟩
        ⟨b.answer c.batch .panicking, found,
          before ++ { c with answer := some .panicking } :: after⟩

def unanswered (l : ExpiryLedger) : ExpiryLedger :=
  { l with calls := l.calls.map StoreCall.unanswered }

variable {l l' : ExpiryLedger}

theorem Step.unanswered (hs : Step l l') : Step l.unanswered l'.unanswered := by
  cases hs with
  | passed r now s m t policy hm =>
      have he : (l.passed r now s m t policy).unanswered =
          l.unanswered.passed r now s m t policy := by
        unfold ExpiryLedger.passed
        rfl
      rw [he]
      exact .passed r now s m t policy hm
  | meanwhile h => exact .meanwhile h
  | called h =>
      have he : l.called.unanswered = l.unanswered.called := by
        simp [ExpiryLedger.called, ExpiryLedger.unanswered, StoreCall.unanswered, takeExpired]
      rw [he]
      exact .called h
  | answered b found before after c running h =>
      rename_i condition
      have hrunning : c.unanswered = c := StoreCall.unanswered_of_ne (by simp [running])
      have hanswered : StoreCall.unanswered { c with answer := some condition } =
          { c with answer := some condition } :=
        StoreCall.unanswered_of_ne fun he => h (Option.some.inj he)
      simp only [ExpiryLedger.unanswered, List.map_append, List.map_cons, hrunning, hanswered]
      exact .answered b found _ _ c running h

/-- A panic looks as if nothing had happened but that the store is in another condition. -/
theorem Turn.unanswered (ht : Turn l l') : Step l.unanswered l'.unanswered := by
  cases ht with
  | step h => exact h.unanswered
  | unwound b found before after c running =>
      have hsame : Timeless b (b.answer c.batch .panicking) := .of_messages rfl rfl rfl
      have hcalls : StoreCall.unanswered { c with answer := some .panicking } = c.unanswered := by
        rw [StoreCall.unanswered_of_panicking rfl, StoreCall.unanswered_of_ne (by simp [running]),
          ← running]
      simp only [ExpiryLedger.unanswered, List.map_append, List.map_cons, hcalls]
      exact .meanwhile hsame

theorem exists_called (l : ExpiryLedger) (hqueued : l.broker.expired ≠ [])
    (condition : StoreCondition) (r : Rules) :
    ∃ l', ReflTransGen Turn l l' ∧
      l'.broker = (Operation.deleteExpired condition).apply r l.broker ∧
      ∃ c ∈ l'.calls, c.answer = some condition ∧ c.batch = l.broker.expired := by
  let c : StoreCall :=
    ⟨l.broker.expired, l.broker.expired.map fun m => (l.broker.message m).id, none⟩
  have hcalled : Turn l l.called := .step (.called hqueued)
  have hended : Turn l.called ⟨l.called.broker.answer c.batch condition, l.found,
      l.calls ++ [{ c with answer := some condition }]⟩ := by
    by_cases hpanics : condition = .panicking
    · subst hpanics
      exact .unwound l.called.broker l.found l.calls [] c rfl
    · exact .step (.answered l.called.broker l.found l.calls [] c rfl hpanics)
  refine ⟨_, (ReflTransGen.single hcalled).tail hended, ?_, _,
    List.mem_append_right _ List.mem_cons_self, rfl, rfl⟩
  simp only [Operation.apply, Broker.deleteExpired, takeExpired, List.isEmpty_iff, hqueued, if_false]
  rfl

theorem balanced_unanswered (run : ReflTransGen Turn .start l) : l.unanswered.Balanced := by
  induction run with
  | refl => exact .start
  | tail _ next ih => exact ih.step next.unanswered

variable {c d : StoreCall} {m : MessageRef}

theorem Balanced.nodup_running (hl : l.unanswered.Balanced) (hc : c ∈ l.calls)
    (running : c.answer = none) : (l.broker.expired ++ c.batch).Nodup := by
  have hmem : c ∈ l.unanswered.calls :=
    List.mem_map.2 ⟨c, hc, StoreCall.unanswered_of_ne (by simp [running])⟩
  have hkept : ¬ c.Refused := by simp [StoreCall.Refused, running]
  obtain ⟨hqueue, hcalls, -⟩ := List.nodup_append.1 hl.once
  have hbatch := (List.nodup_flatMap.1 hcalls).1 c hmem
  rw [StoreCall.held_of_not_refused hkept] at hbatch
  refine List.nodup_append.2 ⟨hqueue, hbatch, ?_⟩
  rintro m hqueued n hn rfl
  exact hkept (hl.refused_of_mem_expired hmem hn hqueued)

theorem Balanced.eq_of_held (hl : l.Balanced) (hc : c ∈ l.calls) (hd : d ∈ l.calls)
    (hmc : m ∈ c.held) (hmd : m ∈ d.held) : c = d := by
  by_contra hne
  have hapart := (List.nodup_flatMap.1 (List.nodup_append.1 hl.once).2.1).2
  have : Std.Symm (Function.onFun List.Disjoint StoreCall.held) := ⟨fun _ _ h _ hd hc => h hc hd⟩
  exact hapart.forall hc hd hne hmc hmd

/-- A message of a call that panicked has left the queue for good, and no call that is accepted is
about it. -/
theorem Balanced.lost (hl : l.unanswered.Balanced) (hc : c ∈ l.calls)
    (panicked : c.answer = some .panicking) (hm : m ∈ c.batch) :
    (l.broker.message m).expired = true ∧ m ∉ l.broker.expired ∧
      ∀ d ∈ l.calls, m ∈ d.batch → d.answer ≠ some .working := by
  have hmem : c.unanswered ∈ l.unanswered.calls := List.mem_map_of_mem hc
  have hbatch : m ∈ c.unanswered.batch := by rwa [StoreCall.batch_unanswered]
  have hkept : ¬ c.unanswered.Refused := by
    rw [StoreCall.refused_unanswered]
    rintro ⟨cause, h⟩
    cases panicked.symm.trans h
  -- of the two calls that hold the message one is not answered and the other is
  refine ⟨(hl.marked m).1 (hl.batches _ hmem m hbatch),
    fun hqueued => hkept (hl.refused_of_mem_expired hmem hbatch hqueued),
    fun d hd hmd working => ?_⟩
  have hdmem : d ∈ l.unanswered.calls :=
    List.mem_map.2 ⟨d, hd, StoreCall.unanswered_of_ne (by simp [working])⟩
  have hsame : c.unanswered = d := by
    refine hl.eq_of_held (m := m) hmem hdmem ?_ ?_
    · rwa [StoreCall.held_of_not_refused hkept]
    · rwa [StoreCall.held_of_not_refused (StoreCall.not_refused_of_working working)]
  rw [StoreCall.unanswered_of_panicking panicked] at hsame
  rw [← hsame] at working
  cases working

end ExpiryLedger

/-- After a call that the store does not accept everything is queued that was in the batch or queued
meanwhile, nothing is settled, and the next run that the store accepts deletes it all, exactly if
the store did not panic or the batch was empty; and a run of the task is a call with the whole
queue. However runs and passes interleave, no message waits twice or while it is in a running call.
But a message of a batch on which the store panicked, marked as expired though it is, is never
queued again, and no call that is accepted is about it. -/
theorem failed_batch_fate (b : Broker) (batch : List MessageRef) {condition : StoreCondition}
    (failed : condition ≠ .working) :
    (KeepsBatch batch b (b.answer batch condition) ↔ condition ≠ .panicking ∨ batch = []) ∧
      (b.expired ≠ [] → ∀ found calls r, ∃ l', ReflTransGen ExpiryLedger.Turn ⟨b, found, calls⟩ l' ∧
        l'.broker = (Operation.deleteExpired condition).apply r b ∧
        ∃ c ∈ l'.calls, c.answer = some condition ∧ c.batch = b.expired) ∧
      ∀ l, ReflTransGen ExpiryLedger.Turn .start l → l.broker = b →
        (∀ c ∈ l.calls, c.answer = none → (b.expired ++ c.batch).Nodup) ∧
        ∀ c ∈ l.calls, c.answer = some .panicking → ∀ m ∈ c.batch,
          (b.message m).expired = true ∧ m ∉ b.expired ∧
            ∀ d ∈ l.calls, m ∈ d.batch → d.answer ≠ some .working := by
  refine ⟨?_, fun hqueued found calls r => ExpiryLedger.exists_called ⟨b, found, calls⟩ hqueued
    condition r, ?_⟩
  · cases condition with
    | working => exact absurd rfl failed
    | failing cause => exact iff_of_true (keepsBatch_failing b batch cause) (.inl nofun)
    | panicking => rw [keepsBatch_panicking_iff, or_iff_right (not_not_intro rfl)]
  · rintro l run rfl
    have hl := ExpiryLedger.balanced_unanswered run
    exact ⟨fun c hc running => hl.nodup_running hc running,
      fun c hc panicked m hm => hl.lost hc panicked hm⟩

/-- The store is called with the book, and the pen is found late meanwhile. -/
def calledBook : ExpiryLedger :=
  ((ExpiryLedger.mk lateOrders [] []).passed workerRules 5 ⟨0⟩ ⟨0⟩ ⟨0⟩ .rebuffer).called.passed
    workerRules 6 ⟨0⟩ ⟨1⟩ ⟨0⟩ .rebuffer

def lostBook : ExpiryLedger :=
  ⟨calledBook.broker.answer [⟨0⟩] .panicking, calledBook.found,
    [⟨[⟨0⟩], [1], some .panicking⟩]⟩

theorem calledBook_reached : ReflTransGen ExpiryLedger.Turn .start calledBook := by
  have hmade : Timeless ExpiryLedger.start.broker lateOrders :=
    ((Timeless.addMessage _ rfl).trans (.addMessage _ rfl)).trans (.addMessage _ rfl)
  have hmade := ReflTransGen.single (ExpiryLedger.Turn.step (.meanwhile hmade))
  have hfound := hmade.tail (.step (.passed workerRules 5 ⟨0⟩ ⟨0⟩ ⟨0⟩ .rebuffer (by decide)))
  have hcalled := hfound.tail (.step (.called (by decide)))
  exact hcalled.tail (.step (.passed workerRules 6 ⟨0⟩ ⟨1⟩ ⟨0⟩ .rebuffer (by decide)))

theorem lostBook_reached : ReflTransGen ExpiryLedger.Turn .start lostBook :=
  calledBook_reached.tail (.unwound _ _ [] [] ⟨[⟨0⟩], [1], none⟩ rfl)

theorem failed_batch_fate_lostBook :
    let refused := calledBook.broker.answer [⟨0⟩] (.failing (.unavailable "offline"))
    refused.expired = [⟨1⟩, ⟨0⟩] ∧ (refused.message ⟨0⟩).settled = false ∧
      (((Operation.deleteExpired .working).apply workerRules refused).message ⟨0⟩).settled = true ∧
      lostBook.broker.expired = [⟨1⟩] ∧ (lostBook.broker.message ⟨0⟩).expired = true ∧
      ⟨0⟩ ∉ lostBook.broker.expired := by
  intro refused
  have hfails : StoreCondition.failing (.unavailable "offline") ≠ .working := nofun
  have hkeeps := (failed_batch_fate calledBook.broker [⟨0⟩] hfails).1.2 (.inl nofun)
  have hpanics : StoreCondition.panicking ≠ .working := nofun
  obtain ⟨hmarked, hgone, -⟩ := ((failed_batch_fate lostBook.broker [⟨0⟩] hpanics).2.2 lostBook
    lostBook_reached rfl).2 _ List.mem_cons_self rfl ⟨0⟩ (by decide)
  exact ⟨by decide, (congrArg Message.settled (hkeeps.message ⟨0⟩)).trans (by decide),
    (hkeeps.retried workerRules ⟨0⟩ (.inr (by decide))).1, by decide, hmarked, hgone⟩

/-- The run that made the call unwinds with the batch, and the book does not come back. -/
theorem missing_lostBook :
    ¬ ∀ l, ReflTransGen ExpiryLedger.Turn .start l → ∀ c ∈ l.calls, c.answer = none →
      ∀ condition ≠ StoreCondition.working, ∀ m ∈ l.broker.expired ++ c.batch,
        (l.broker.answer c.batch condition).expired.count m = 1 := by
  intro hall
  have hone := hall _ calledBook_reached ⟨[⟨0⟩], [1], none⟩ (by decide) rfl .panicking nofun ⟨0⟩
    (by decide)
  exact absurd hone (by decide)

end Courier
