import Courier.Proofs.Distinct
import Courier.Proofs.Timeless

namespace Courier

open Broker
open Relation (ReflTransGen)

structure StoreCall where
  batch : List MessageRef
  ids : List UInt64
  answer : Option StoreCondition
  deriving DecidableEq

def StoreCall.held (c : StoreCall) : List MessageRef :=
  match c.answer with
  | some (.failing _) => []
  | _ => c.batch

def StoreCall.Refused (c : StoreCall) : Prop := ∃ cause, c.answer = some (.failing cause)

/-- The broker with what became of its expired messages: those that a pass found expired, and the
calls of the store in the order in which they were made. The expiry task takes the queued messages
out in one batch, and passes and other runs of the task go on while the store is called with it. -/
structure ExpiryLedger where
  broker : Broker
  found : List MessageRef
  calls : List StoreCall
  deriving DecidableEq

def Broker.answer (b : Broker) (batch : List MessageRef) (condition : StoreCondition) : Broker :=
  ({ b with store := { b.store with condition } }.deleteBatch batch).2

namespace ExpiryLedger

def start : ExpiryLedger := ⟨default, [], []⟩

def passed (l : ExpiryLedger) (r : Rules) (now : UInt64) (s : SubscriberRef) (m : MessageRef)
    (t : TrackerRef) (policy : FailurePolicy) : ExpiryLedger :=
  let (outcome, b) := l.broker.handle r now s m t policy
  { l with broker := b, found := if outcome = .expired then l.found ++ [m] else l.found }

def called (l : ExpiryLedger) : ExpiryLedger :=
  let (batch, b) := l.broker.takeExpired
  { l with broker := b
           calls := l.calls ++ [⟨batch, batch.map fun m => (b.message m).id, none⟩] }

inductive Step : ExpiryLedger → ExpiryLedger → Prop
  | passed {l : ExpiryLedger} (r : Rules) (now : UInt64) (s : SubscriberRef) (m : MessageRef)
      (t : TrackerRef) (policy : FailurePolicy) (hm : l.broker.hasMessage m) :
      Step l (l.passed r now s m t policy)
  | meanwhile {l : ExpiryLedger} {b : Broker} (h : Timeless l.broker b) :
      Step l { l with broker := b }
  | called {l : ExpiryLedger} (h : l.broker.expired ≠ []) : Step l l.called
  | answered (b : Broker) (found : List MessageRef) (before after : List StoreCall) (c : StoreCall)
      (running : c.answer = none) {condition : StoreCondition} (h : condition ≠ .panicking) :
      Step ⟨b, found, before ++ c :: after⟩
        ⟨b.answer c.batch condition, found, before ++ { c with answer := some condition } :: after⟩

def accounted (l : ExpiryLedger) : List MessageRef :=
  l.broker.expired ++ l.calls.flatMap StoreCall.held

def deletions (l : ExpiryLedger) : List (List UInt64) :=
  (l.calls.filter fun c => c.answer = some .working).map StoreCall.ids

structure Balanced (l : ExpiryLedger) : Prop where
  once : l.accounted.Nodup
  found : ∀ m, m ∈ l.found ↔ m ∈ l.accounted
  marked : ∀ m, m ∈ l.found ↔ (l.broker.message m).expired = true
  known : ∀ m ∈ l.found, l.broker.hasMessage m
  batches : ∀ c ∈ l.calls, ∀ m ∈ c.batch, m ∈ l.found
  ids : ∀ c ∈ l.calls, c.ids = c.batch.map fun m => (l.broker.message m).id
  /-- Only a refused message comes into a later call. -/
  order : l.calls.Pairwise fun c d => ∀ m ∈ c.batch, m ∈ d.batch → c.Refused
  settled : ∀ c ∈ l.calls, c.answer = some .working →
    ∀ m ∈ c.batch, (l.broker.message m).settled = true
  answers : ∀ c ∈ l.calls, c.answer ≠ some .panicking
  deletions : l.broker.store.deletions.Perm l.deletions

end ExpiryLedger

namespace StoreCall

variable {c : StoreCall}

theorem held_of_not_refused (hc : ¬ c.Refused) : c.held = c.batch := by
  rw [held]
  split
  · next cause h => exact absurd ⟨cause, h⟩ hc
  · rfl

theorem not_refused_of_working (hc : c.answer = some .working) : ¬ c.Refused := by
  rintro ⟨cause, h⟩
  cases hc.symm.trans h

end StoreCall

namespace Broker

theorem answer_working (b : Broker) (batch : List MessageRef) :
    b.answer batch .working = (b.withExpired b.expired
      ⟨.working, b.store.deletions ++ [batch.map fun m => (b.message m).id]⟩).settleAll batch :=
  rfl

theorem answer_failing (b : Broker) (batch : List MessageRef) (cause : StoreError) :
    b.answer batch (.failing cause) =
      b.withExpired (b.expired ++ batch) ⟨.failing cause, b.store.deletions⟩ :=
  rfl

theorem deletions_answer (b : Broker) (batch : List MessageRef) (condition : StoreCondition) :
    (b.answer batch condition).store.deletions = b.store.deletions ++
      if condition = .working then [batch.map fun m => (b.message m).id] else [] := by
  cases condition with
  | working => simp [answer_working, withExpired]
  | failing | panicking => exact (List.append_nil _).symm

theorem message_answer (b : Broker) (batch : List MessageRef) (condition : StoreCondition)
    (m : MessageRef) :
    (b.answer batch condition).message m =
      if condition = .working ∧ m ∈ batch then { b.message m with settled := true }
      else b.message m := by
  cases condition with
  | working => simp [answer_working, message_settleAll]
  | failing | panicking => rfl

theorem Preserves.answer (b : Broker) (batch : List MessageRef) (condition : StoreCondition) :
    Preserves b (b.answer batch condition) := by
  cases condition with
  | working => exact (Preserves.withExpired b _ _).trans (.settleAll _ batch)
  | failing | panicking => exact .withExpired b _ _

theorem message_markExpired (b : Broker) (m n : MessageRef) :
    (b.markExpired m).message n =
      if n = m then { b.message n with expired := true } else b.message n :=
  message_modifyMessage b m n _

end Broker

namespace ExpiryLedger

variable {l l' : ExpiryLedger} {b : Broker} {m : MessageRef}

theorem accounted_called (l : ExpiryLedger) : l.called.accounted.Perm l.accounted := by
  simp only [accounted, called, takeExpired, List.flatMap_append, List.flatMap_singleton,
    List.nil_append]
  exact List.perm_append_comm

theorem accounted_answered (b : Broker) (found : List MessageRef) (before after : List StoreCall)
    {c : StoreCall} (running : c.answer = none) {condition : StoreCondition} (h : condition ≠ .panicking) :
    (accounted ⟨b.answer c.batch condition, found,
        before ++ { c with answer := some condition } :: after⟩).Perm
      (accounted ⟨b, found, before ++ c :: after⟩) := by
  cases condition with
  | panicking => exact absurd rfl h
  | working => simp [accounted, answer_working, StoreCall.held, running]
  | failing cause =>
      simp only [accounted, answer_failing, withExpired_frame, List.flatMap_append, List.flatMap_cons,
        StoreCall.held, running, List.nil_append, List.append_assoc]
      exact (List.perm_append_comm_assoc _ _ _).append_left _

theorem deletions_answered (b b' : Broker) (found : List MessageRef)
    (before after : List StoreCall) {c : StoreCall} (running : c.answer = none)
    (condition : StoreCondition) :
    (deletions ⟨b', found, before ++ { c with answer := some condition } :: after⟩).Perm
      (deletions ⟨b, found, before ++ c :: after⟩ ++ if condition = .working then [c.ids] else []) := by
  have hbefore : deletions ⟨b, found, before ++ c :: after⟩ =
      deletions ⟨b, found, before⟩ ++ deletions ⟨b, found, after⟩ := by
    simp [deletions, running]
  rw [hbefore]
  by_cases h : condition = .working
  · have hafter : deletions ⟨b', found, before ++ { c with answer := some condition } :: after⟩ =
        deletions ⟨b, found, before⟩ ++ c.ids :: deletions ⟨b, found, after⟩ := by
      simp [deletions, h]
    rw [hafter, if_pos h]
    exact List.perm_middle.trans (List.perm_append_singleton _ _).symm
  · simp [deletions, h]

namespace Balanced

theorem start : ExpiryLedger.start.Balanced where
  once := .nil
  found _ := .rfl
  marked _ := ⟨nofun, nofun⟩
  known _ := nofun
  batches _ := nofun
  ids _ := nofun
  order := .nil
  settled _ := nofun
  answers _ := nofun
  deletions := .nil

theorem meanwhile (hl : l.Balanced) (h : Timeless l.broker b) : Balanced { l with broker := b } := by
  have hsame : accounted { l with broker := b } = l.accounted := by
    rw [accounted, accounted, h.expired]
  refine ⟨by rw [hsame]; exact hl.once, fun m => by rw [hsame]; exact hl.found m,
    fun m => by rw [h.marked]; exact hl.marked m, fun m hm => h.hasMessage (hl.known m hm),
    hl.batches, fun c hc => ?_, hl.order,
    fun c hc hanswer m hm => h.settled m (hl.settled c hc hanswer m hm), hl.answers,
    by rw [h.deletions]; exact hl.deletions⟩
  rw [hl.ids c hc]
  exact List.map_congr_left fun m hm => (h.id m (hl.known m (hl.batches c hc m hm))).symm

theorem found_again (hl : l.Balanced) (hmarked : (l.broker.message m).expired = true) :
    Balanced { l with found := l.found ++ [m] } := by
  have hfound : ∀ n, n ∈ l.found ++ [m] ↔ n ∈ l.found := fun n => by
    rw [List.mem_append, List.mem_singleton]
    refine ⟨fun h => h.elim id ?_, .inl⟩
    rintro rfl
    exact (hl.marked n).2 hmarked
  exact { hl with
    found := fun n => (hfound n).trans (hl.found n)
    marked := fun n => (hfound n).trans (hl.marked n)
    known := fun n hn => hl.known n ((hfound n).1 hn)
    batches := fun c hc n hn => (hfound n).2 (hl.batches c hc n hn) }

theorem found_first (hl : l.Balanced) (hm : l.broker.hasMessage m)
    (unmarked : (l.broker.message m).expired = false) :
    Balanced { l with broker := (l.broker.markExpired m).addExpired m, found := l.found ++ [m] } := by
  have htouch := (Touches.markExpired l.broker m).trans (.addExpired _ m)
  have hnew : m ∉ l.found := fun h => by
    rw [hl.marked, unmarked] at h
    cases h
  have haccounted : (accounted { l with
      broker := (l.broker.markExpired m).addExpired m, found := l.found ++ [m] }).Perm
      (m :: l.accounted) := by
    simp only [accounted, addExpired_frame, List.append_assoc]
    exact List.perm_middle
  refine ⟨haccounted.nodup_iff.2 (List.nodup_cons.2 ⟨fun h => hnew ((hl.found m).2 h), hl.once⟩),
    fun n => ?_, fun n => ?_, fun n hn => ?_, fun c hc n hn => ?_, fun c hc => ?_, hl.order,
    fun c hc hanswer n hn => ?_, hl.answers, hl.deletions⟩
  · rw [haccounted.mem_iff, List.mem_append, List.mem_singleton, List.mem_cons, hl.found, or_comm]
  · rw [List.mem_append, List.mem_singleton, hl.marked, (addExpired_frame _ m).2.1,
      message_markExpired]
    split
    · next h => simp [h]
    · next h => simp [h]
  · obtain hn | hn := List.mem_append.1 hn
    · exact htouch.toPreserves.hasMessage (hl.known n hn)
    · rw [List.mem_singleton.1 hn]
      exact htouch.toPreserves.hasMessage hm
  · exact List.mem_append_left _ (hl.batches c hc n hn)
  · rw [hl.ids c hc]
    exact List.map_congr_left fun n _ => (htouch.id n).symm
  · have hsettled := hl.settled c hc hanswer n hn
    rw [(addExpired_frame _ m).2.1, message_markExpired]
    split
    · exact hsettled
    · exact hsettled

theorem passed (hl : l.Balanced) (r : Rules) (now : UInt64) (s : SubscriberRef) (t : TrackerRef)
    (policy : FailurePolicy) (hm : l.broker.hasMessage m) :
    (l.passed r now s m t policy).Balanced := by
  obtain ⟨outcome, c, hc, hh⟩ := exists_handled l.broker r now s m t policy
  rw [ExpiryLedger.passed, hc]
  by_cases houtcome : outcome = .expired
  · subst houtcome
    cases hh with
    | marked _ hmarked => exact hl.found_again hmarked
    | expired _ unmarked => exact hl.found_first hm unmarked
  · simpa [houtcome] using hl.meanwhile (hh.timeless houtcome)

theorem refused_of_mem_expired (hl : l.Balanced) {c : StoreCall} (hc : c ∈ l.calls)
    (hm : m ∈ c.batch) (hqueued : m ∈ l.broker.expired) : c.Refused := by
  by_contra hrefused
  have hheld : m ∈ l.calls.flatMap StoreCall.held :=
    List.mem_flatMap.2 ⟨c, hc, by rwa [StoreCall.held_of_not_refused hrefused]⟩
  exact List.disjoint_of_nodup_append hl.once hqueued hheld

theorem called (hl : l.Balanced) : l.called.Balanced := by
  have hperm := l.accounted_called
  have hcalls : ∀ {P : StoreCall → Prop}, (∀ c ∈ l.calls, P c) →
      P ⟨l.broker.expired, l.broker.expired.map fun m => (l.broker.message m).id, none⟩ →
      ∀ c ∈ l.called.calls, P c := fun hold hnew c hc => by
    obtain hc | hc := List.mem_append.1 hc
    · exact hold c hc
    · rw [List.mem_singleton.1 hc]
      exact hnew
  refine ⟨hperm.nodup_iff.2 hl.once, fun m => (hl.found m).trans hperm.mem_iff.symm, hl.marked,
    hl.known, hcalls hl.batches fun m hm => ?_, hcalls hl.ids rfl, ?_, hcalls hl.settled nofun,
    hcalls hl.answers nofun, ?_⟩
  · exact (hl.found m).2 (List.mem_append_left _ hm)
  · refine List.pairwise_append.2 ⟨hl.order, List.pairwise_singleton _ _, fun c hc d hd m hm hm' => ?_⟩
    rw [List.mem_singleton.1 hd] at hm'
    exact hl.refused_of_mem_expired hc hm hm'
  · have hsame : l.called.deletions = l.deletions := by
      simp [ExpiryLedger.deletions, ExpiryLedger.called, takeExpired]
    exact hsame ▸ hl.deletions

theorem answered {found : List MessageRef} {before after : List StoreCall} {c : StoreCall}
    (hl : Balanced ⟨b, found, before ++ c :: after⟩) (running : c.answer = none)
    {condition : StoreCondition} (h : condition ≠ .panicking) :
    Balanced ⟨b.answer c.batch condition, found,
      before ++ { c with answer := some condition } :: after⟩ := by
  have hperm := accounted_answered b found before after running h
  have hpres := Preserves.answer b c.batch condition
  have hmarked : ∀ m, ((b.answer c.batch condition).message m).expired = (b.message m).expired :=
    fun m => by rw [message_answer]; split <;> rfl
  have hcalls : ∀ {P : StoreCall → Prop}, (∀ d ∈ before ++ c :: after, P d) →
      (P c → P { c with answer := some condition }) →
      ∀ d ∈ before ++ { c with answer := some condition } :: after, P d := fun hold hnew d hd => by
    rcases List.mem_append.1 hd with hd | hd
    · exact hold d (List.mem_append_left _ hd)
    · rcases List.mem_cons.1 hd with rfl | hd
      · exact hnew (hold c (List.mem_append_right _ List.mem_cons_self))
      · exact hold d (List.mem_append_right _ (List.mem_cons_of_mem _ hd))
  refine ⟨hperm.nodup_iff.2 hl.once, fun m => (hl.found m).trans hperm.mem_iff.symm,
    fun m => by rw [hmarked]; exact hl.marked m, fun m hm => hpres.hasMessage (hl.known m hm),
    hcalls hl.batches id, hcalls (fun d hd => ?_) id, ?_, ?_, hcalls hl.answers fun _ => ?_, ?_⟩
  · rw [hl.ids d hd]
    exact List.map_congr_left fun m _ => (hpres.id m).symm
  · have horder := hl.order
    rw [List.pairwise_append, List.pairwise_cons] at horder ⊢
    obtain ⟨hbefore, ⟨hnext, hafter⟩, hacross⟩ := horder
    -- a running call is not refused, so it shares no message with a later one
    refine ⟨hbefore, ⟨fun d hd m hm hm' => ?_, hafter⟩, fun d hd e he => ?_⟩
    · obtain ⟨cause, hcause⟩ := hnext d hd m hm hm'
      cases running.symm.trans hcause
    · rcases List.mem_cons.1 he with rfl | he
      · exact hacross d hd c List.mem_cons_self
      · exact hacross d hd e (List.mem_cons_of_mem _ he)
  · have hold : ∀ d ∈ before ++ c :: after, d.answer = some .working → ∀ m ∈ d.batch,
        ((b.answer c.batch condition).message m).settled = true := fun d hd hanswer m hm => by
      have hsettled := hl.settled d hd hanswer m hm
      rw [message_answer]
      split
      · rfl
      · exact hsettled
    refine hcalls hold fun _ hanswer m hm => ?_
    rw [message_answer, if_pos ⟨Option.some.inj hanswer, hm⟩]
  · exact fun hanswer => h (Option.some.inj hanswer)
  · have hids := hl.ids c (List.mem_append_right _ List.mem_cons_self)
    rw [deletions_answer, ← hids]
    exact (hl.deletions.append_right _).trans (deletions_answered b _ found before after running _).symm

theorem step (hl : l.Balanced) (hs : Step l l') : l'.Balanced := by
  cases hs with
  | passed r now s m t policy hm => exact hl.passed r now s t policy hm
  | meanwhile h => exact hl.meanwhile h
  | called => exact hl.called
  | answered b found before after c running h => exact hl.answered running h

theorem run (hl : l.Balanced) (hr : ReflTransGen Step l l') : l'.Balanced := by
  induction hr with
  | refl => exact hl
  | tail _ next ih => exact ih.step next

theorem mem_ids (hl : l.Balanced) (distinct : l.broker.Distinct) {c : StoreCall} (hc : c ∈ l.calls)
    (hm : m ∈ l.found) : (l.broker.message m).id ∈ c.ids ↔ m ∈ c.batch := by
  rw [hl.ids c hc, List.mem_map]
  refine ⟨?_, fun h => ⟨m, h, rfl⟩⟩
  rintro ⟨n, hn, hid⟩
  have hknown := hl.known n (hl.batches c hc n hn)
  rwa [← distinct n m hknown (hl.known m hm) hid]

theorem nodup_ids (hl : l.Balanced) (distinct : l.broker.Distinct) {c : StoreCall}
    (hc : c ∈ l.calls) (hrefused : ¬ c.Refused) : c.ids.Nodup := by
  have hbatch : c.batch.Nodup := by
    have hcalls := (List.nodup_append.1 hl.once).2.1
    rw [← StoreCall.held_of_not_refused hrefused]
    exact (List.nodup_flatMap.1 hcalls).1 c hc
  have hknown : ∀ m ∈ c.batch, l.broker.hasMessage m := fun m hm =>
    hl.known m (hl.batches c hc m hm)
  rw [hl.ids c hc]
  exact hbatch.map_on fun m hm n hn => distinct m n (hknown m hm) (hknown n hn)

end Balanced

def DeletedOnce (l : ExpiryLedger) (m : MessageRef) : Prop :=
  ∃ before c after, l.calls = before ++ c :: after ∧ c.answer = some .working ∧
    c.ids.count (l.broker.message m).id = 1 ∧
    (∀ d ∈ before, d.answer = some .working → (l.broker.message m).id ∉ d.ids) ∧
    ∀ d ∈ after, (l.broker.message m).id ∉ d.ids

theorem Balanced.deletedOnce {l : ExpiryLedger} (hl : l.Balanced) (distinct : l.broker.Distinct)
    (idle : ∀ c ∈ l.calls, c.answer ≠ none) {m : MessageRef}
    (hm : m ∈ l.calls.flatMap StoreCall.held) :
    l.DeletedOnce m ∧ (l.broker.message m).settled = true := by
  have hfound : m ∈ l.found := (hl.found m).2 (List.mem_append_right _ hm)
  obtain ⟨c, hc, hheld⟩ := List.mem_flatMap.1 hm
  have hworking : c.answer = some .working := by
    cases hanswer : c.answer with
    | none => exact absurd hanswer (idle c hc)
    | some condition =>
        cases condition with
        | working => rfl
        | failing cause => simp [StoreCall.held, hanswer] at hheld
        | panicking => exact absurd hanswer (hl.answers c hc)
  have hkept := StoreCall.not_refused_of_working hworking
  rw [StoreCall.held_of_not_refused hkept] at hheld
  refine ⟨?_, hl.settled c hc hworking m hheld⟩
  obtain ⟨before, after, hcalls⟩ := List.append_of_mem hc
  have horder := hl.order
  rw [hcalls, List.pairwise_append, List.pairwise_cons] at horder
  obtain ⟨-, ⟨hnext, -⟩, hacross⟩ := horder
  refine ⟨before, c, after, hcalls, hworking, ?_, fun d hd hanswer hid => ?_, fun d hd hid => ?_⟩
  · exact List.count_eq_one_of_mem (hl.nodup_ids distinct hc hkept)
      ((hl.mem_ids distinct hc hfound).2 hheld)
  · have hdc : d ∈ l.calls := by rw [hcalls]; exact List.mem_append_left _ hd
    have hmd := (hl.mem_ids distinct hdc hfound).1 hid
    exact StoreCall.not_refused_of_working hanswer (hacross d hd c List.mem_cons_self m hmd hheld)
  · have hdc : d ∈ l.calls := by
      rw [hcalls]
      exact List.mem_append_right _ (List.mem_cons_of_mem _ hd)
    exact hkept (hnext d hd m hheld ((hl.mem_ids distinct hdc hfound).1 hid))

def Leads (l : ExpiryLedger) (b : Broker) : Prop := ∃ l', ReflTransGen Step l l' ∧ l'.broker = b

namespace Leads

variable {l : ExpiryLedger} {b c : Broker} {r : Rules} {now : UInt64} {t : TrackerRef}
  {active : List SubscriberRef} {batch : List MessageRef} {m : MessageRef}

theorem refl (l : ExpiryLedger) : l.Leads l.broker := ⟨l, .refl, rfl⟩

theorem meanwhile (h : l.Leads b) (ht : Timeless b c) : l.Leads c := by
  obtain ⟨l', hsteps, rfl⟩ := h
  exact ⟨_, hsteps.tail (.meanwhile ht), rfl⟩

theorem passed (h : l.Leads b) (r : Rules) (now : UInt64) (s : SubscriberRef) (t : TrackerRef)
    (policy : FailurePolicy) (hm : b.hasMessage m) : l.Leads (b.handle r now s m t policy).2 := by
  obtain ⟨l', hsteps, rfl⟩ := h
  exact ⟨_, hsteps.tail (.passed r now s m t policy hm), rfl⟩

theorem passStep (h : l.Leads b) (hs : b.Sound) (hbatch : ∀ m ∈ batch, b.hasMessage m)
    (hstep : PassStep r now t active batch b c) : l.Leads c := by
  obtain hquiet | ⟨s, m, policy, d, -, hbefore, hm, hafter⟩ := hstep.around hs hbatch
  · exact h.meanwhile hquiet
  · exact ((h.meanwhile hbefore).passed r now s t policy hm).meanwhile hafter

theorem delivers (h : l.Leads b) (hs : b.Sound) (ht : b.hasTracker t)
    (hd : Delivers r now t b c) : l.Leads c :=
  hs.delivery_induction ht hd (P := l.Leads) h (fun _ => h.meanwhile (.evict b t))
    fun _ _ _ _ hc hp _ hleads hstep =>
      hleads.passStep hc (fun m hm => hp.hasMessage (hs.buffered t m hm)) hstep

/-- One run of the expiry task is a call with its answer, if anything is queued. -/
theorem deleteExpired (l : ExpiryLedger) {condition : StoreCondition} (h : condition ≠ .panicking) :
    l.Leads ({ l.broker with store := { l.broker.store with condition } }.deleteExpired).2 := by
  by_cases hempty : l.broker.expired = []
  · refine (refl l).meanwhile ?_
    simp only [Broker.deleteExpired, takeExpired, hempty, List.isEmpty_nil, if_true]
    exact .of_messages rfl hempty.symm rfl
  · have hcalled : Step l l.called := .called hempty
    have hanswered := Step.answered l.called.broker l.found l.calls []
      ⟨l.broker.expired, l.broker.expired.map fun m => (l.broker.message m).id, none⟩ rfl h
    refine ⟨_, (ReflTransGen.single hcalled).tail hanswered, ?_⟩
    simp only [Broker.deleteExpired, takeExpired, List.isEmpty_iff, hempty, if_false]
    rfl

end Leads

theorem leads_apply {l : ExpiryLedger} (hs : l.broker.Sound) {op : Operation}
    (hu : op.uses l.broker) (hop : op ≠ .deleteExpired .panicking) (r : Rules) :
    l.Leads (op.apply r l.broker) := by
  have hleads := Leads.refl l
  cases op with
  | flush vetoes now t => exact hleads.delivers hs hu (flush_delivers _ (hs.active_nodup t))
  | send vetoes now t => exact hleads.delivers hs hu (sendBuffered_delivers _ (hs.active_nodup t))
  | deleteExpired condition => exact .deleteExpired l fun h => hop (h ▸ rfl)
  | _ => exact hleads.meanwhile (Operation.timeless rfl (by nofun) r l.broker)

end ExpiryLedger

/-- Every message that a pass found expired is accounted for, however passes and calls of the store
interleave and whether the store accepts or refuses: while no call is in progress it waits in the
queue once and no accepted call was given it, or exactly one accepted call was given it, once, and
then it is settled, has left the queue and is given to no later call. The store is given no other
message, and what it has deleted is what the accepted calls gave it. -/
theorem expired_deleted_once {l : ExpiryLedger} (run : ReflTransGen ExpiryLedger.Step .start l)
    (distinct : l.broker.Distinct) :
    ((∀ c ∈ l.calls, c.answer ≠ none) → ∀ m ∈ l.found,
      (l.broker.expired.count m = 1 ∧
          ∀ c ∈ l.calls, c.answer = some .working → (l.broker.message m).id ∉ c.ids) ∨
        (m ∉ l.broker.expired ∧ l.DeletedOnce m ∧ (l.broker.message m).settled = true)) ∧
    (∀ c ∈ l.calls, ∀ id ∈ c.ids, ∃ m ∈ l.found, (l.broker.message m).id = id) ∧
    l.broker.store.deletions.Perm l.deletions := by
  have hl := ExpiryLedger.Balanced.start.run run
  refine ⟨fun idle m hm => ?_, fun c hc id hid => ?_, hl.deletions⟩
  · obtain hqueued | hheld := List.mem_append.1 ((hl.found m).1 hm)
    · have honce := List.count_eq_one_of_mem (List.nodup_append.1 hl.once).1 hqueued
      refine .inl ⟨honce, fun c hc hworking hid => ?_⟩
      have hbatch := (hl.mem_ids distinct hc hm).1 hid
      exact StoreCall.not_refused_of_working hworking (hl.refused_of_mem_expired hc hbatch hqueued)
    · have hgone : m ∉ l.broker.expired := fun hqueued =>
        List.disjoint_of_nodup_append hl.once hqueued hheld
      exact .inr ⟨hgone, hl.deletedOnce distinct idle hheld⟩
  · rw [hl.ids c hc, List.mem_map] at hid
    obtain ⟨m, hm, rfl⟩ := hid
    exact ⟨m, hl.batches c hc m hm, rfl⟩

def lateOrders : Broker :=
  (replay workerRules [.createMessage 1 "orders" "stored" "book" 0 5,
    .createMessage 2 "orders" "stored" "pen" 0 5, .createMessage 3 "orders" "stored" "ink" 0 5]
    default default).1

def refusedBook : ExpiryLedger :=
  let found := ((ExpiryLedger.mk lateOrders [] []).passed workerRules 5 ⟨0⟩ ⟨0⟩ ⟨0⟩ .rebuffer).called
  let l := found.passed workerRules 6 ⟨0⟩ ⟨1⟩ ⟨0⟩ .rebuffer
  ⟨l.broker.answer [⟨0⟩] (.failing (.unavailable "offline")), l.found,
    [⟨[⟨0⟩], [1], some (.failing (.unavailable "offline"))⟩]⟩

def deletedOrders : ExpiryLedger :=
  let l := (refusedBook.passed workerRules 7 ⟨0⟩ ⟨0⟩ ⟨0⟩ .rebuffer).called
  let l := l.passed workerRules 7 ⟨0⟩ ⟨2⟩ ⟨0⟩ .rebuffer
  ⟨l.broker.answer [⟨1⟩, ⟨0⟩] .working, l.found,
    refusedBook.calls ++ [⟨[⟨1⟩, ⟨0⟩], [2, 1], some .working⟩]⟩

theorem refusedBook_reached : ReflTransGen ExpiryLedger.Step .start refusedBook := by
  have hmade : Timeless ExpiryLedger.start.broker lateOrders :=
    ((Timeless.addMessage _ rfl).trans (.addMessage _ rfl)).trans (.addMessage _ rfl)
  have hfound := ReflTransGen.single (ExpiryLedger.Step.meanwhile hmade)
  have hcalled := (hfound.tail (.passed workerRules 5 ⟨0⟩ ⟨0⟩ ⟨0⟩ .rebuffer (by decide))).tail
    (.called (by decide))
  have hmeanwhile := hcalled.tail (.passed workerRules 6 ⟨0⟩ ⟨1⟩ ⟨0⟩ .rebuffer (by decide))
  exact hmeanwhile.tail (.answered _ _ [] [] ⟨[⟨0⟩], [1], none⟩ rfl nofun)

theorem deletedOrders_reached : ReflTransGen ExpiryLedger.Step .start deletedOrders := by
  have hcalled := (refusedBook_reached.tail
    (.passed workerRules 7 ⟨0⟩ ⟨0⟩ ⟨0⟩ .rebuffer (by decide))).tail (.called (by decide))
  have hmeanwhile := hcalled.tail (.passed workerRules 7 ⟨0⟩ ⟨2⟩ ⟨0⟩ .rebuffer (by decide))
  exact hmeanwhile.tail (.answered _ _ refusedBook.calls []
    ⟨[⟨1⟩, ⟨0⟩], [2, 1], none⟩ rfl nofun)

theorem expired_deleted_once_deletedOrders :
    deletedOrders.broker.expired.count ⟨2⟩ = 1 ∧
      deletedOrders.DeletedOnce ⟨0⟩ ∧ (deletedOrders.broker.message ⟨0⟩).settled = true := by
  have hids : ∀ m ∈ deletedOrders.broker.references, ∀ n ∈ deletedOrders.broker.references,
      (deletedOrders.broker.message m).id = (deletedOrders.broker.message n).id → m = n := by decide
  have hdistinct : deletedOrders.broker.Distinct := fun m n hm hn =>
    hids m (mem_references.2 hm) n (mem_references.2 hn)
  obtain ⟨hfate, -⟩ := expired_deleted_once deletedOrders_reached hdistinct
  have hidle : ∀ c ∈ deletedOrders.calls, c.answer ≠ none := by decide
  have hink := hfate hidle ⟨2⟩ (by decide)
  have hbook := hfate hidle ⟨0⟩ (by decide)
  refine ⟨hink.elim And.left fun h => absurd h.1 (by decide), hbook.elim (fun h => ?_) And.right⟩
  exact absurd h.1 (by decide)

end Courier
