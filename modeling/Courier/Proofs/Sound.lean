import Courier.Proofs.Returning
import Courier.Proofs.Run

namespace Courier

theorem Registry.mem_place {x e : Registration} {l : List Registration} (h : e ∈ place x l) :
    e ∈ l ∨ e = x := by
  induction l with
  | nil => simpa [place] using h
  | cons d l ih =>
      unfold place at h
      split at h
      · obtain rfl | h := List.mem_cons.1 h
        · exact .inr rfl
        · exact .inl (.tail _ h)
      · simp only [List.mem_cons] at h ⊢
        obtain h | h := h
        · exact .inl (.inl h)
        · exact (ih h).imp .inr id

theorem Registry.apart_place {x : Registration} {l : List Registration}
    (h : (l.map fun e => (e.key, e.id)).Nodup) :
    ((place x l).map fun e => (e.key, e.id)).Nodup := by
  induction l with
  | nil => simp [place]
  | cons d l ih =>
      rw [List.map_cons, List.nodup_cons] at h
      unfold place
      split
      · next hd => simpa [← hd.1, ← hd.2] using h
      · next hd =>
          refine List.nodup_cons.2 ⟨fun hmem => ?_, ih h.2⟩
          obtain ⟨e, he, hk⟩ := List.mem_map.1 hmem
          obtain he | rfl := mem_place he
          · exact h.1 (List.mem_map.2 ⟨e, he, hk⟩)
          · exact hd (by simpa [eq_comm] using hk)

theorem Registry.place_eq_append {x : Registration} {l : List Registration}
    (h : ∀ e ∈ l, ¬ (e.key = x.key ∧ e.id = x.id)) : place x l = l ++ [x] := by
  induction l with
  | nil => rfl
  | cons d l ih =>
      rw [place, if_neg (h d List.mem_cons_self), ih fun e he => h e (List.mem_cons_of_mem _ he)]
      rfl

namespace Broker

open Relation (ReflTransGen)

def hasJob (b : Broker) (j : Job) : Prop :=
  b.hasSubscriber j.subscriber ∧ b.hasMessage j.message ∧ b.hasTracker j.tracker

structure Sound (b : Broker) : Prop where
  tidy : ∀ m, (b.message m).Tidy
  buffered : ∀ t, ∀ m ∈ (b.tracker t).buffer, b.hasMessage m
  expired : ∀ m ∈ b.expired, b.hasMessage m
  jobs : ∀ j ∈ b.dispatcher.jobs, b.hasJob j
  registered : ∀ e ∈ b.registry.entries, b.hasSubscriber e.handle ∧
    (b.subscriber e.handle).key = e.key ∧ (b.subscriber e.handle).id = e.id
  apart : (b.registry.entries.map fun e => (e.key, e.id)).Nodup
  tracked : ∀ k t, b.find? k = some t → b.hasTracker t ∧ (b.tracker t).key.tracked = k

variable {r : Rules} {now : UInt64} {t : TrackerRef} {active : List SubscriberRef}
  {batch : List MessageRef} {m : MessageRef} {b b' : Broker}

namespace Preserves

theorem subscriber_key (h : Preserves b b') (s : SubscriberRef) :
    (b'.subscriber s).key = (b.subscriber s).key :=
  (congrArg Subscription.key (h.subscriber s) :)

theorem hasMessage (h : Preserves b b') (hm : b.hasMessage m) : b'.hasMessage m :=
  Nat.lt_of_lt_of_le hm h.messages_size

theorem hasSubscriber (h : Preserves b b') {s : SubscriberRef} (hs : b.hasSubscriber s) :
    b'.hasSubscriber s :=
  Nat.lt_of_lt_of_le hs h.subscribers_size

theorem hasTracker (h : Preserves b b') (ht : b.hasTracker t) : b'.hasTracker t :=
  Nat.lt_of_lt_of_le ht h.trackers_size

theorem hasJob (h : Preserves b b') {j : Job} (hj : b.hasJob j) : b'.hasJob j :=
  ⟨h.hasSubscriber hj.1, h.hasMessage hj.2.1, h.hasTracker hj.2.2⟩

theorem matching (h : Preserves b b') (t : TrackerRef) (l : List MessageRef) :
    b'.matching t l = b.matching t l := by
  simp [Broker.matching, h.destination, h.key]

theorem active_eq (h : Preserves b b') (t : TrackerRef) : b'.active t = b.active t := by
  simp [Broker.active, h.registry, h.key]

end Preserves

theorem matching_cons (b : Broker) (t : TrackerRef) (m : MessageRef) (l : List MessageRef) :
    b.matching t (m :: l) =
      if (b.message m).destination = (b.tracker t).key.destination then m :: b.matching t l
      else b.matching t l := by
  simp only [matching, List.filter_cons, decide_eq_true_eq]

theorem buffer_foldl_accept (p : SlotRef) (t v : TrackerRef) (l : List MessageRef) (b : Broker) :
    ((l.foldl (accept p t) b).tracker v).buffer =
      if v = t then (b.tracker v).buffer ++ b.matching t l else (b.tracker v).buffer := by
  induction l generalizing b with
  | nil => simp [matching]
  | cons m l ih =>
      rw [List.foldl_cons, ih, (Touches.accept p t b m).toPreserves.matching, tracker_accept,
        matching_cons]
      by_cases hv : v = t <;>
        by_cases hd : (b.message m).destination = (b.tracker t).key.destination <;> simp [hv, hd]

namespace Sound

theorem mem_active (h : Sound b) {s : SubscriberRef} (hs : s ∈ b.active t) :
    b.hasSubscriber s ∧ (b.subscriber s).key = (b.tracker t).key := by
  obtain ⟨e, he, rfl⟩ := List.mem_map.1 hs
  obtain ⟨he, hk⟩ := List.mem_filter.1 he
  obtain ⟨h₁, h₂, -⟩ := h.registered e he
  exact ⟨h₁, h₂.trans (by simpa using hk)⟩

theorem idsOf_active (h : Sound b) (key : DestinationKey) :
    b.idsOf (b.registry.active key) =
      (b.registry.entries.filter fun e => e.key = key).map Registration.id := by
  simp only [idsOf, Registry.active, List.map_map]
  exact List.map_congr_left fun e he => (h.registered e (List.mem_filter.1 he).1).2.2

theorem active_nodup (h : Sound b) (t : TrackerRef) : (b.idsOf (b.active t)).Nodup := by
  rw [Broker.active, h.idsOf_active]
  have hn : ((b.registry.entries.filter fun e => e.key = (b.tracker t).key).map
      fun e => (e.key, e.id)).Nodup := h.apart.sublist (List.filter_sublist.map _)
  refine List.Nodup.of_map (fun id => ((b.tracker t).key, id)) ?_
  rw [List.map_map]
  refine (List.map_congr_left fun e he => ?_).subst hn
  simpa using (List.mem_filter.1 he).2

theorem isTopic_of_find? (h : Sound b) {key : TrackedKey} (ht : b.find? key = some t) :
    (b.tracker t).isTopic = decide (key.type = .topic) := by
  rw [← (h.tracked key t ht).2]
  rfl

theorem of_preserves (h : Sound b) (hp : Preserves b b')
    (tracked : ∀ k t, b'.find? k = some t → b.find? k = some t)
    (buffered : ∀ t, ∀ m ∈ (b'.tracker t).buffer, b.hasMessage m)
    (expired : ∀ m ∈ b'.expired, b.hasMessage m)
    (jobs : ∀ j ∈ b'.dispatcher.jobs, b.hasJob j) : Sound b' where
  tidy m := hp.tidy m (h.tidy m)
  buffered t m hm := hp.hasMessage (buffered t m hm)
  expired m hm := hp.hasMessage (expired m hm)
  jobs j hj := hp.hasJob (jobs j hj)
  registered e he := by
    rw [hp.registry] at he
    obtain ⟨h₁, h₂, h₃⟩ := h.registered e he
    exact ⟨hp.hasSubscriber h₁, (hp.subscriber_key _).trans h₂, (hp.subscriber_id _).trans h₃⟩
  apart := by rw [hp.registry]; exact h.apart
  tracked k t ht := by
    obtain ⟨h₁, h₂⟩ := h.tracked k t (tracked k t ht)
    exact ⟨hp.hasTracker h₁, by rw [hp.key, h₂]⟩

theorem touches (h : Sound b) (ht : Touches m b b') (hm : b.hasMessage m)
    (jobs : ∀ j ∈ b'.dispatcher.jobs, b.hasJob j) : Sound b' := by
  refine h.of_preserves ht.toPreserves ?_ ?_ ?_ jobs
  · intro k t hk
    rwa [find?, ht.tracked] at hk
  · exact fun t n hn => (ht.gains t n hn).elim (h.buffered t n) fun he => he ▸ hm
  · exact fun n hn => (ht.expired n hn).elim (h.expired n) fun he => he ▸ hm

theorem passStep (h : Sound b) (hs : PassStep r now t active batch b b') (ht : b.hasTracker t)
    (hactive : ∀ s ∈ active, b.hasSubscriber s) (hbatch : ∀ m ∈ batch, b.hasMessage m) :
    Sound b' ∧ Preserves b b' := by
  have hjobs : ∀ j ∈ b'.dispatcher.jobs, b.hasJob j := by
    intro j hj
    obtain he | ⟨s, hs, m, hm, he⟩ := hs.jobs_eq
    · exact h.jobs j (he ▸ hj)
    · rw [he, List.mem_append, List.mem_singleton] at hj
      obtain hj | rfl := hj
      · exact h.jobs j hj
      · exact ⟨hactive s hs, hm.elim (hbatch m) (h.buffered t m), ht⟩
  obtain rfl | ⟨m, hm, htouch⟩ := hs.touches
  · have hp := (Touches.nextSubscriber ⟨0⟩ b t active).toPreserves
    refine ⟨h.of_preserves hp (fun _ _ hk => by simpa [find?] using hk) ?_ ?_ hjobs, hp⟩
    · intro v n hn
      rw [(tracker_nextSubscriber b t v active).2.1] at hn
      exact h.buffered v n hn
    · exact fun n hn => h.expired n (by simpa using hn)
  · exact ⟨h.touches htouch (hm.elim (hbatch m) (h.buffered t m)) hjobs, htouch.toPreserves⟩

theorem passSteps (h : Sound b) (hs : ReflTransGen (PassStep r now t active batch) b b')
    (ht : b.hasTracker t) (hactive : ∀ s ∈ active, b.hasSubscriber s)
    (hbatch : ∀ m ∈ batch, b.hasMessage m) : Sound b' ∧ Preserves b b' := by
  induction hs with
  | refl => exact ⟨h, .refl b⟩
  | tail _ hstep ih =>
      obtain ⟨hc, hp⟩ := ih
      obtain ⟨hd, hp'⟩ := hc.passStep hstep (hp.hasTracker ht)
        (fun s hs => hp.hasSubscriber (hactive s hs)) fun m hm => hp.hasMessage (hbatch m hm)
      exact ⟨hd, hp.trans hp'⟩

theorem foldl {f : Broker → MessageRef → Broker} (hf : ∀ b m, Touches m b (f b m))
    (hj : ∀ b m, (f b m).dispatcher = b.dispatcher) (l : List MessageRef) (h : Sound b)
    (hl : ∀ m ∈ l, b.hasMessage m) : Sound (l.foldl f b) := by
  induction l generalizing b with
  | nil => exact h
  | cons m l ih =>
      have hp := hf b m
      refine ih (h.touches hp (hl m (by simp)) fun j hj' => h.jobs j (by rwa [hj] at hj')) ?_
      exact fun n hn => hp.toPreserves.hasMessage (hl n (by simp [hn]))

theorem drain (h : Sound b) (t : TrackerRef) : Sound (b.drain t) := by
  refine h.of_preserves (.drain b t) (fun _ _ hk => by simpa [find?] using hk) ?_
    (fun n hn => h.expired n (by simpa using hn)) fun j hj => h.jobs j (by simpa using hj)
  intro v n hn
  rw [tracker_drain] at hn
  split at hn
  · simp at hn
  · exact h.buffered v n hn

theorem letGo (h : Sound b) (t : TrackerRef) : Sound (b.letGo t) := by
  refine h.of_preserves (.letGo b t) ?_ h.buffered h.expired h.jobs
  intro k v hk
  simp only [find?, Broker.letGo, Dict.get?_erase] at hk
  split at hk
  · simp at hk
  · exact hk

theorem settleAll (h : Sound b) (l : List MessageRef) (hl : ∀ m ∈ l, b.hasMessage m) :
    Sound (b.settleAll l) :=
  foldl Touches.settle (fun b m => (settle_frame b m).2.2.2.2.2.2.2) l h hl

theorem evict (h : Sound b) (t : TrackerRef) : Sound (b.evict t) := by
  rw [evict_eq]
  split
  · split
    · have hp := (Preserves.letGo b t).trans (.drain _ t)
      exact ((h.letGo t).drain t).settleAll _ fun m hm => hp.hasMessage (h.buffered t m hm)
    · exact h.letGo t
  · exact h

theorem withJobs (h : Sound b) {l : List Job} (hl : ∀ j ∈ l, j ∈ b.dispatcher.jobs) :
    Sound (b.withJobs l) :=
  h.of_preserves { Preserves.refl b with } (fun _ _ hk => hk) h.buffered h.expired
    fun i hi => h.jobs i (hl i hi)

theorem execute (h : Sound b) {j : Job} (hj : b.hasJob j) {l : List Job}
    (hl : ∀ j ∈ l, j ∈ b.dispatcher.jobs) : Sound ((b.withJobs l).execute j) := by
  refine (h.withJobs hl).touches (Touches.execute _ j) hj.2.1 fun i hi => ?_
  exact h.jobs i (hl i (by simpa using hi))

theorem runJob (h : Sound b) (place : Nat) : Sound (b.runJob place) := by
  unfold Broker.runJob
  split
  · next j hj =>
      exact h.execute (h.jobs j (List.mem_of_getElem? hj)) fun i hi => List.mem_of_mem_eraseIdx hi
  · exact h

theorem returned (h : Sound b) (l : List MessageRef) (hl : ∀ m ∈ l, b.hasMessage m)
    (t : TrackerRef) : Sound (l.foldl (returnToBuffer t) b) :=
  foldl (Touches.returnToBuffer t) (fun b m => (returnToBuffer_frame t b m).2.2.2.2.2.2) l h hl

theorem register (h : Sound b) {s : SubscriberRef} (hs : b.hasSubscriber s) :
    Sound (b.register s) where
  tidy := h.tidy
  buffered := h.buffered
  expired := h.expired
  jobs := h.jobs
  registered e he := by
    obtain he | rfl := Registry.mem_place he
    · exact h.registered e he
    · exact ⟨hs, rfl, rfl⟩
  apart := Registry.apart_place h.apart
  tracked := h.tracked

theorem unregister (h : Sound b) (id : SubscriberId) : Sound (b.unregister id) where
  tidy := h.tidy
  buffered := h.buffered
  expired := h.expired
  jobs := h.jobs
  registered e he := h.registered e (List.mem_filter.1 he).1
  apart := h.apart.sublist (List.filter_sublist.map _)
  tracked := h.tracked

theorem trackNew (h : Sound b) (key : DestinationKey) : Sound (b.trackNew key) := by
  have hnew : (b.newTracker key).buffer = [] ∧ (b.newTracker key).key = key := ⟨rfl, rfl⟩
  have hsize : (b.trackNew key).trackers.size = b.trackers.size + 1 := Table.size_push _ _
  refine ⟨h.tidy, ?_, h.expired, ?_, h.registered, h.apart, ?_⟩
  · intro t m hm
    rw [tracker_trackNew] at hm
    split at hm
    · simp [hnew] at hm
    · exact h.buffered t m hm
  · intro j hj
    obtain ⟨h₁, h₂, h₃⟩ := h.jobs j hj
    exact ⟨h₁, h₂, by rw [hasTracker, hsize]; exact Nat.lt_succ_of_lt h₃⟩
  · intro k t hk
    rw [find?, find?_trackNew] at hk
    rw [hasTracker, hsize, tracker_trackNew]
    split at hk
    · next he =>
        obtain rfl : ⟨b.trackers.size⟩ = t := by simpa using hk
        simp [hnew, he]
    · obtain ⟨h₁, h₂⟩ := h.tracked k t hk
      rw [hasTracker] at h₁
      exact ⟨by omega, by rw [if_neg (by omega), h₂]⟩

theorem track (h : Sound b) (key : DestinationKey) : Sound (b.track key).2 := by
  rw [track_eq]
  split
  · exact h
  · exact h.trackNew key

theorem addMessage (h : Sound b) {x : Message} (hx : x.Tidy) : Sound (b.addMessage x).2 := by
  have hsize : (b.addMessage x).2.messages.size = b.messages.size + 1 := Table.size_push _ _
  have hm : ∀ m, b.hasMessage m → (b.addMessage x).2.hasMessage m := fun m hm => by
    rw [hasMessage, hsize]; exact Nat.lt_succ_of_lt hm
  refine ⟨fun m => ?_, fun t m hb => hm m (h.buffered t m hb), fun m he => hm m (h.expired m he),
    fun j hj => ?_, h.registered, h.apart, h.tracked⟩
  · rw [message_addMessage]
    split
    · exact hx
    · exact h.tidy m
  · obtain ⟨h₁, h₂, h₃⟩ := h.jobs j hj
    exact ⟨h₁, hm _ h₂, h₃⟩

theorem addSubscriber (h : Sound b) (x : Subscription) : Sound (b.addSubscriber x).2 := by
  have hsize : (b.addSubscriber x).2.subscribers.size = b.subscribers.size + 1 :=
    Table.size_push _ _
  have hs : ∀ s, b.hasSubscriber s → (b.addSubscriber x).2.hasSubscriber s := fun s hs => by
    rw [hasSubscriber, hsize]; exact Nat.lt_succ_of_lt hs
  refine ⟨h.tidy, h.buffered, h.expired, fun j hj => ?_, fun e he => ?_, h.apart, h.tracked⟩
  · obtain ⟨h₁, h₂, h₃⟩ := h.jobs j hj
    exact ⟨hs _ h₁, h₂, h₃⟩
  · obtain ⟨h₁, h₂⟩ := h.registered e he
    rw [subscriber_addSubscriber, if_neg (Nat.ne_of_lt h₁)]
    exact ⟨hs _ h₁, h₂⟩

theorem modifySubscriber (h : Sound b) (s : SubscriberRef) (f : Subscription → Subscription)
    (hf : ∀ x, (f x).made = x.made) : Sound (b.modifySubscriber s f) :=
  h.of_preserves (Touches.modifySubscriber ⟨0⟩ b s f hf).toPreserves (fun _ _ hk => hk) h.buffered
    h.expired h.jobs

theorem raiseSlot (h : Sound b) (p : SlotRef) (n : UInt64) : Sound (b.raiseSlot p n) :=
  h.of_preserves (Touches.modifySlot ⟨0⟩ b p _).toPreserves (fun _ _ hk => hk) h.buffered h.expired
    h.jobs

theorem recordPurge (h : Sound b) (storageQueue : String) (now : UInt64) :
    Sound (b.recordPurge storageQueue now) :=
  h.of_preserves { Preserves.refl b with } (fun _ _ hk => hk) h.buffered h.expired h.jobs

theorem close (h : Sound b) : Sound b.close :=
  h.of_preserves { Preserves.refl b with } (fun _ _ hk => hk) h.buffered h.expired h.jobs

theorem bufferBatch (h : Sound b) (p : SlotRef) (t : TrackerRef) (l : List MessageRef)
    (hl : ∀ m ∈ l, b.hasMessage m) : Sound (b.bufferBatch l p t) :=
  foldl (Touches.accept p t) (fun b m => (accept_frame p t b m).2.2.2.2.2.2) l
    (h.raiseSlot p (.ofNat l.length)) hl

theorem putBack (h : Sound b) (r : Rules) (key : TrackedKey) (l : List MessageRef)
    (hl : ∀ m ∈ l, b.hasMessage m) : Sound ((Operation.rebuffer key l).apply r b) := by
  rw [Operation.apply_rebuffer]
  split
  · exact h.returned l hl _
  · exact h

theorem delivers (h : Sound b) (ht : b.hasTracker t) (hd : Delivers r now t b b') : Sound b' := by
  cases hd with
  | letGo => exact h.evict t
  | pass _ _ steps =>
      exact (h.passSteps steps ht (fun s hs => (h.mem_active hs).1) (h.buffered t)).1
  | nothing => exact h

/-- What an eviction and every step of a pass keeps, a delivery keeps. -/
theorem delivery_induction {P : Broker → Prop} (h : Sound b) (ht : b.hasTracker t)
    (hd : Delivers r now t b b') (start : P b) (evict : b.active t = [] → P (b.evict t))
    (step : b.active t ≠ [] → (b.tracker t).buffer ≠ [] → ∀ c d, Sound c → Preserves b c →
      c.tracked = b.tracked → P c →
      PassStep r now t (b.active t) (b.tracker t).buffer c d → P d) : P b' := by
  cases hd with
  | letGo unheard => exact evict unheard
  | nothing => exact start
  | pass heard full steps =>
      suffices h : P b' ∧ b'.tracked = b.tracked from h.1
      induction steps with
      | refl => exact ⟨start, rfl⟩
      | tail prior next ih =>
          obtain ⟨hc, hp⟩ :=
            h.passSteps prior ht (fun s hs => (h.mem_active hs).1) (h.buffered t)
          exact ⟨step heard full _ _ hc hp ih.2 ih.1 next, next.tracked.trans ih.2⟩

theorem buffer_delivers_of_ne (h : Sound b) (ht : b.hasTracker t) (hd : Delivers r now t b b')
    {v : TrackerRef} (hv : v ≠ t) : (b'.tracker v).buffer = (b.tracker v).buffer :=
  h.delivery_induction ht hd (P := fun c => (c.tracker v).buffer = (b.tracker v).buffer) rfl
    (fun _ => by rw [buffer_evict, if_neg fun he => hv he.1])
    fun _ _ _ _ _ _ _ hc hstep => (hstep.buffer_of_ne hv).trans hc

theorem findNext (h : Sound b) (ht : b.hasTracker t) (hactive : ∀ s ∈ active, b.hasSubscriber s) :
    Sound (b.findNext t active).2 := by
  unfold Broker.findNext
  split
  · exact h.evict t
  · have hstep : PassStep ⟨0, .discardNone, []⟩ 0 t active [] b (b.nextSubscriber t active).2 :=
      .turn b
    exact (h.passStep hstep ht hactive (by simp)).1

theorem purge (h : Sound b) (now : UInt64) (key : TrackedKey) (storageQueue : String) :
    Sound (b.purge now key storageQueue).2 := by
  have hp := h.recordPurge storageQueue now
  unfold Broker.purge
  dsimp only
  split
  · next t _ =>
      refine foldl Touches.consumePurged (fun b m => ?_) _ (hp.drain t) fun m hm => ?_
      · simp [consumePurged, markPurged]
      · exact (Preserves.drain _ t).hasMessage (hp.buffered t m hm)
  · exact hp

theorem clear (h : Sound b) (key : TrackedKey) : Sound (b.clear key).2 := by
  unfold Broker.clear
  split
  · exact h.drain _
  · exact h

theorem withExpired (h : Sound b) (l : List MessageRef) (hl : ∀ m ∈ l, b.hasMessage m)
    (store : MessageStore) : Sound (b.withExpired l store) :=
  h.of_preserves (.withExpired b l store) (fun _ _ hk => hk) h.buffered hl h.jobs

theorem deletes (h : Sound b) {condition : StoreCondition} (hd : Deletes b condition b') :
    Sound b' := by
  cases hd with
  | deleted store => exact (h.withExpired [] (by simp) store).settleAll _ h.expired
  | refused cause store => exact h.withExpired _ h.expired store
  | lost store => exact h.withExpired [] (by simp) store

theorem shutdown (h : Sound b) : Sound b.shutdown :=
  shutdown_induction (P := fun b _ => Sound b) (h := default) h (fun _ _ h => h.runJob 0)
    fun _ _ h => h.close

theorem apply (h : Sound b) (r : Rules) (op : Operation) (hu : op.uses b) :
    Sound (op.apply r b) := by
  cases op with
  | createSlot => exact ⟨h.tidy, h.buffered, h.expired, h.jobs, h.registered, h.apart, h.tracked⟩
  | createMessage =>
      exact Operation.createMessage_induction (P := Sound) h fun _ => h.addMessage
        (by simp [Message.Tidy, Message.new, Dict.keys, Dict.empty])
  | createSubscriber => exact h.addSubscriber _
  | connect s outbound => exact h.modifySubscriber s _ fun _ => rfl
  | register s => exact h.register hu
  | unregister id => exact h.unregister id
  | track key => exact h.track key
  | buffer batch p t => exact h.bufferBatch p t batch hu.1
  | rebuffer key l => exact h.putBack r key l hu
  | requeue m type =>
      exact h.putBack r _ [m] fun n hn => by rw [List.mem_singleton.1 hn]; exact hu
  | flush vetoes now t => exact h.delivers hu (flush_delivers b (h.active_nodup t))
  | send vetoes now t => exact h.delivers hu (sendBuffered_delivers b (h.active_nodup t))
  | findNext t active => exact h.findNext hu.1 hu.2
  | clear key => exact h.clear key
  | purge now key storageQueue => exact h.purge now key storageQueue
  | acknowledge s m type =>
      exact h.touches (.acknowledge b s m type) hu.2 fun j hj =>
        h.jobs j (by simpa [Operation.apply] using hj)
  | runJob place => exact h.runJob place
  | close => exact h.close
  | shutdown => exact h.shutdown
  | deleteExpired condition => exact h.deletes (b.deleteExpired_deletes condition)

theorem preserves_evict (b : Broker) (t : TrackerRef) : Preserves b (b.evict t) := by
  rw [evict_eq]
  split
  · split
    · exact ((Preserves.letGo b t).trans (.drain _ t)).trans (.settleAll _ _)
    · exact .letGo b t
  · exact .refl b

theorem preserves_delivers (h : Sound b) (ht : b.hasTracker t) (hd : Delivers r now t b b') :
    Preserves b b' := by
  cases hd with
  | letGo => exact preserves_evict b t
  | nothing => exact .refl b
  | pass _ _ steps =>
      exact (h.passSteps steps ht (fun s hm => (h.mem_active hm).1) (h.buffered t)).2

theorem preserves_putBack (b : Broker) (r : Rules) (key : TrackedKey) (l : List MessageRef) :
    Preserves b ((Operation.rebuffer key l).apply r b) := by
  rw [Operation.apply_rebuffer]
  split
  · exact .foldl (fun b m => (Touches.returnToBuffer _ b m).toPreserves) l b
  · exact .refl b

theorem preserves_runJob (b : Broker) (place : Nat) : Preserves b (b.runJob place) := by
  unfold Broker.runJob
  split
  · next j _ =>
      have hp : Preserves b (b.withJobs (b.dispatcher.jobs.eraseIdx place)) :=
        { Preserves.refl b with }
      exact hp.trans (Touches.execute _ j).toPreserves
  · exact .refl b

theorem preserves_deletes {condition : StoreCondition} (hd : Deletes b condition b') :
    Preserves b b' := by
  cases hd with
  | deleted store => exact (Preserves.withExpired b [] store).trans (.settleAll _ _)
  | refused | lost => exact .withExpired b _ _

theorem preserves (h : Sound b) {op : Operation} (hw : op.isWork = true) (hu : op.uses b)
    (r : Rules) : Preserves b (op.apply r b) := by
  cases op with
  | createMessage | createSubscriber | register | unregister | track => exact absurd hw nofun
  | createSlot | close => exact { Preserves.refl b with }
  | connect s outbound =>
      exact (Touches.modifySubscriber ⟨0⟩ b s (fun x => { x with outbound }) fun _ => rfl).toPreserves
  | buffer batch p t =>
      exact (Touches.modifySlot ⟨0⟩ b p _).toPreserves.trans
        (.foldl (fun b m => (Touches.accept p t b m).toPreserves) batch _)
  | rebuffer key l => exact preserves_putBack b r key l
  | requeue m type => exact preserves_putBack b r ⟨type, (b.message m).destination⟩ [m]
  | flush vetoes now t => exact h.preserves_delivers hu (flush_delivers b (h.active_nodup t))
  | send vetoes now t => exact h.preserves_delivers hu (sendBuffered_delivers b (h.active_nodup t))
  | findNext t active =>
      unfold Operation.apply Broker.findNext
      dsimp only
      split
      · exact preserves_evict b t
      · exact (Touches.nextSubscriber ⟨0⟩ b t active).toPreserves
  | clear key =>
      unfold Operation.apply Broker.clear
      dsimp only
      split
      · exact .drain b _
      · exact .refl b
  | purge now key storageQueue =>
      have hp : Preserves b (b.recordPurge storageQueue now) := { Preserves.refl b with }
      unfold Operation.apply Broker.purge
      dsimp only
      split
      · exact (hp.trans (.drain _ _)).trans
          (.foldl (fun b m => (Touches.consumePurged b m).toPreserves) _ _)
      · exact hp
  | acknowledge s m type => exact (Touches.acknowledge b s m type).toPreserves
  | runJob place => exact preserves_runJob b place
  | shutdown =>
      exact shutdown_induction (P := fun c _ => Preserves b c) (h := default) (.refl b)
        (fun c _ hp => hp.trans (preserves_runJob c 0)) fun c _ hp => hp.trans { Preserves.refl c with }
  | deleteExpired condition => exact preserves_deletes (b.deleteExpired_deletes condition)

theorem tracked_passSteps (steps : ReflTransGen (PassStep r now t active batch) b b') :
    b'.tracked = b.tracked := by
  induction steps with
  | refl => rfl
  | tail _ next ih => exact next.tracked.trans ih

theorem tracked_delivers (heard : b.active t ≠ []) (hd : Delivers r now t b b') :
    b'.tracked = b.tracked := by
  cases hd with
  | letGo unheard => exact absurd unheard heard
  | pass _ _ steps => exact tracked_passSteps steps
  | nothing => rfl

theorem tracked_foldl {f : Broker → MessageRef → Broker} (hf : ∀ b m, Touches m b (f b m))
    (l : List MessageRef) (b : Broker) : (l.foldl f b).tracked = b.tracked := by
  induction l generalizing b with
  | nil => rfl
  | cons m l ih => exact (ih (f b m)).trans (hf b m).tracked

theorem tracked_putBack (b : Broker) (r : Rules) (key : TrackedKey) (l : List MessageRef) :
    ((Operation.rebuffer key l).apply r b).tracked = b.tracked := by
  rw [Operation.apply_rebuffer]
  split
  · exact tracked_foldl (Touches.returnToBuffer _) l b
  · rfl

theorem tracked_runJob (b : Broker) (place : Nat) : (b.runJob place).tracked = b.tracked := by
  unfold Broker.runJob
  split
  · next j _ => exact (Touches.execute (b.withJobs (b.dispatcher.jobs.eraseIdx place)) j).tracked
  · rfl

theorem tracked_deletes {condition : StoreCondition} (hd : Deletes b condition b') :
    b'.tracked = b.tracked := by
  cases hd with
  | deleted store => simp
  | refused | lost => rfl

theorem tracked_apply (h : Sound b) {op : Operation} (hw : op.isWork = true) (heard : op.Heard b)
    (r : Rules) : (op.apply r b).tracked = b.tracked := by
  cases op with
  | createMessage | createSubscriber | register | unregister | track => exact absurd hw nofun
  | createSlot | connect | close => rfl
  | buffer batch p t =>
      exact tracked_foldl (Touches.accept p t) batch (b.raiseSlot p (.ofNat batch.length))
  | rebuffer key l => exact tracked_putBack b r key l
  | requeue m type => exact tracked_putBack b r ⟨type, (b.message m).destination⟩ [m]
  | flush vetoes now t => exact tracked_delivers heard (flush_delivers b (h.active_nodup t))
  | send vetoes now t => exact tracked_delivers heard (sendBuffered_delivers b (h.active_nodup t))
  | findNext t active =>
      have hactive : active.isEmpty = false := by rwa [List.isEmpty_eq_false_iff]
      simp [Operation.apply, Broker.findNext, hactive]
  | clear key =>
      unfold Operation.apply Broker.clear
      dsimp only
      split
      · simp
      · rfl
  | purge now key storageQueue =>
      unfold Operation.apply Broker.purge
      dsimp only
      split
      · simp [Broker.recordPurge]
      · rfl
  | acknowledge s m type => exact (Touches.acknowledge b s m type).tracked
  | runJob place => exact tracked_runJob b place
  | shutdown =>
      exact shutdown_induction (P := fun c _ => c.tracked = b.tracked) (h := default) rfl
        (fun c _ hc => (tracked_runJob c 0).trans hc) fun c _ hc => hc
  | deleteExpired condition => exact tracked_deletes (b.deleteExpired_deletes condition)

theorem key_apply (h : Sound b) {op : Operation} (hu : op.uses b) (r : Rules) (t : TrackerRef) :
    ((op.apply r b).tracker t).key = (b.tracker t).key ∨
      ∃ key, op = .track key ∧ b.find? key.tracked = none ∧ t.index = b.trackers.size ∧
        ((op.apply r b).tracker t).key = key := by
  by_cases hw : op.isWork = true
  · exact .inl ((h.preserves hw hu r).key t)
  · cases op with
    | createMessage =>
        exact .inl (Operation.createMessage_induction (P := fun c => (c.tracker t).key = _) rfl
          fun _ => rfl)
    | createSubscriber | register | unregister => exact .inl rfl
    | track key =>
        rw [Operation.apply, track_eq]
        split
        · exact .inl rfl
        · next hnone =>
            rw [tracker_trackNew]
            split
            · next ht => exact .inr ⟨key, rfl, hnone, ht, rfl⟩
            · exact .inl rfl
    | _ => exact absurd rfl hw

theorem registry_apply (h : Sound b) {op : Operation} (hu : op.uses b) (r : Rules)
    (hregister : ∀ s, op ≠ .register s) (hunregister : ∀ id, op ≠ .unregister id) :
    (op.apply r b).registry = b.registry := by
  by_cases hw : op.isWork = true
  · exact (h.preserves hw hu r).registry
  · cases op with
    | createMessage =>
        exact Operation.createMessage_induction (P := fun c => c.registry = b.registry) rfl
          fun _ => rfl
    | createSubscriber => rfl
    | register s => exact absurd rfl (hregister s)
    | unregister id => exact absurd rfl (hunregister id)
    | track key =>
        rw [Operation.apply, track_eq]
        split <;> rfl
    | _ => exact absurd rfl hw

theorem accepting_foldl {f : Broker → MessageRef → Broker} (hf : ∀ b m, Touches m b (f b m))
    (l : List MessageRef) (b : Broker) :
    (l.foldl f b).dispatcher.accepting = b.dispatcher.accepting := by
  induction l generalizing b with
  | nil => rfl
  | cons m l ih => exact (ih (f b m)).trans (hf b m).accepting

theorem accepting_evict (b : Broker) (t : TrackerRef) :
    (b.evict t).dispatcher.accepting = b.dispatcher.accepting := by
  rw [(evict_frame b t).1]

theorem accepting_delivers (h : Sound b) (ht : b.hasTracker t) (hd : Delivers r now t b b') :
    b'.dispatcher.accepting = b.dispatcher.accepting := by
  refine h.delivery_induction ht hd
    (P := fun c => c.dispatcher.accepting = b.dispatcher.accepting) rfl
    (fun _ => accepting_evict b t) fun _ _ c d _ _ _ hc hstep => ?_
  obtain rfl | ⟨m, -, htouch⟩ := hstep.touches
  · rwa [(Touches.nextSubscriber ⟨0⟩ c t (b.active t)).accepting]
  · rw [htouch.accepting, hc]

theorem accepting_runJob (b : Broker) (place : Nat) :
    (b.runJob place).dispatcher.accepting = b.dispatcher.accepting := by
  unfold Broker.runJob
  split
  · next j _ => exact (Touches.execute (b.withJobs (b.dispatcher.jobs.eraseIdx place)) j).accepting
  · rfl

theorem accepting_deletes {condition : StoreCondition} (hd : Deletes b condition b') :
    b'.dispatcher.accepting = b.dispatcher.accepting := by
  cases hd with
  | deleted store => simp
  | refused | lost => rfl

theorem accepting_apply (h : Sound b) {op : Operation} (hu : op.uses b) (hclose : op ≠ .close)
    (hshutdown : op ≠ .shutdown) (r : Rules) :
    (op.apply r b).dispatcher.accepting = b.dispatcher.accepting := by
  have hback : ∀ key l, ((Operation.rebuffer key l).apply r b).dispatcher.accepting =
      b.dispatcher.accepting := fun key l => by
    rw [Operation.apply_rebuffer]
    split
    · exact accepting_foldl (Touches.returnToBuffer _) l b
    · rfl
  cases op with
  | close => exact absurd rfl hclose
  | shutdown => exact absurd rfl hshutdown
  | createMessage =>
      exact Operation.createMessage_induction
        (P := fun c => c.dispatcher.accepting = b.dispatcher.accepting) rfl fun _ => rfl
  | createSlot | createSubscriber | connect | register | unregister => rfl
  | track key =>
      rw [Operation.apply, track_eq]
      split <;> rfl
  | buffer batch p t =>
      exact accepting_foldl (Touches.accept p t) batch (b.raiseSlot p (.ofNat batch.length))
  | rebuffer key l => exact hback key l
  | requeue m type => exact hback ⟨type, (b.message m).destination⟩ [m]
  | flush vetoes now t => exact h.accepting_delivers hu (flush_delivers b (h.active_nodup t))
  | send vetoes now t => exact h.accepting_delivers hu (sendBuffered_delivers b (h.active_nodup t))
  | findNext t active =>
      unfold Operation.apply Broker.findNext
      dsimp only
      split
      · exact accepting_evict b t
      · rfl
  | clear key =>
      unfold Operation.apply Broker.clear
      dsimp only
      split
      · simp
      · rfl
  | purge now key storageQueue =>
      unfold Operation.apply Broker.purge
      dsimp only
      split
      · simp [Broker.recordPurge]
      · rfl
  | acknowledge s m type => exact (Touches.acknowledge b s m type).accepting
  | runJob place => exact accepting_runJob b place
  | deleteExpired condition => exact accepting_deletes (b.deleteExpired_deletes condition)

end Sound

end Broker

theorem Broker.sound_default : Sound default where
  tidy _ := List.nodup_nil
  buffered _ _ hm := nomatch hm
  expired _ hm := nomatch hm
  jobs _ hj := nomatch hj
  registered _ he := nomatch he
  apart := List.nodup_nil
  tracked _ _ hk := nomatch hk

theorem Reaches.sound {r : Rules} {terms : Broker → Journal → Operation → Prop} {b : Broker}
    {h : Journal} (hr : Reaches r terms b h) : b.Sound := by
  induction hr with
  | start => exact Broker.sound_default
  | step op _ hu _ ih => exact ih.apply r op hu

end Courier
