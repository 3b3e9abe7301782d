import Courier.Proofs.Still

namespace Courier

open Broker

def Deed.putsBack (key : TrackedKey) : Deed → List MessageRef
  | operation _ (.rebuffer k l) => if k = key then l else []
  | _ => []

def Operation.feeds : Operation → Bool
  | .buffer .. | .rebuffer .. | .requeue .. | .flush .. | .send .. | .runJob _ | .shutdown => true
  | _ => false

namespace Broker

def AtHome (b : Broker) (t : TrackerRef) (m : MessageRef) : Prop :=
  (b.message m).destination = (b.tracker t).key.destination

instance (b : Broker) (t : TrackerRef) (m : MessageRef) : Decidable (b.AtHome t m) :=
  inferInstanceAs (Decidable (_ = _))

def Fits (b : Broker) (strays : TrackedKey → MessageRef → Prop) (t : TrackerRef)
    (m : MessageRef) : Prop :=
  b.AtHome t m ∨ strays (b.tracker t).key.tracked m

structure Isolated (strays : TrackedKey → MessageRef → Prop) (b : Broker) : Prop where
  buffered : ∀ t, ∀ m ∈ (b.tracker t).buffer, b.Fits strays t m
  queued : ∀ j ∈ b.dispatcher.jobs, b.Fits strays j.tracker j.message
  served : ∀ j ∈ b.dispatcher.jobs, (b.subscriber j.subscriber).key = (b.tracker j.tracker).key

structure Keeps (b b' : Broker) : Prop where
  message : ∀ m, b.hasMessage m → (b'.message m).destination = (b.message m).destination
  subscriber : ∀ s, b.hasSubscriber s → (b'.subscriber s).key = (b.subscriber s).key
  tracker : ∀ t, b.hasTracker t → (b'.tracker t).key = (b.tracker t).key

variable {strays : TrackedKey → MessageRef → Prop} {r : Rules} {now : UInt64} {b b' : Broker}
  {t : TrackerRef} {m : MessageRef} {op : Operation}

theorem Preserves.keeps (hp : Preserves b b') : Keeps b b' where
  message m _ := hp.destination m
  subscriber s _ := hp.subscriber_key s
  tracker t _ := hp.key t

theorem Sound.keeps (hs : b.Sound) (hu : op.uses b) (r : Rules) : Keeps b (op.apply r b) := by
  by_cases hw : op.isWork = true
  · exact (hs.preserves hw hu r).keeps
  · cases op with
    | createMessage =>
        refine Operation.createMessage_induction (P := Keeps b)
          ⟨fun _ _ => rfl, fun _ _ => rfl, fun _ _ => rfl⟩
          fun _ => ⟨fun m hm => ?_, fun _ _ => rfl, fun _ _ => rfl⟩
        rw [message_addMessage, if_neg (Nat.ne_of_lt hm)]
    | createSubscriber =>
        refine ⟨fun _ _ => rfl, fun s hs => ?_, fun _ _ => rfl⟩
        rw [Operation.apply, subscriber_addSubscriber, if_neg (Nat.ne_of_lt hs)]
    | register | unregister => exact ⟨fun _ _ => rfl, fun _ _ => rfl, fun _ _ => rfl⟩
    | track key =>
        rw [Operation.apply, track_eq]
        split
        · exact ⟨fun _ _ => rfl, fun _ _ => rfl, fun _ _ => rfl⟩
        · refine ⟨fun _ _ => rfl, fun _ _ => rfl, fun t ht => ?_⟩
          rw [tracker_trackNew, if_neg (Nat.ne_of_lt ht)]
    | _ => exact absurd rfl hw

theorem keeps_standAlone (b : Broker) (key : DestinationKey) (seed : List SubscriberId) :
    Keeps b (b.standAlone key seed) := by
  refine ⟨fun _ _ => rfl, fun _ _ => rfl, fun t ht => ?_⟩
  rw [standAlone, tracker_addTracker, if_neg (Nat.ne_of_lt ht)]

theorem hasTracker_of_mem (hm : m ∈ (b.tracker t).buffer) : b.hasTracker t := by
  by_contra ht
  rw [tracker, b.trackers.get_of_size_le (Nat.le_of_not_lt ht)] at hm
  cases hm

theorem buffer_deletes {condition : StoreCondition} (hd : Deletes b condition b')
    (t : TrackerRef) : (b'.tracker t).buffer = (b.tracker t).buffer := by
  cases hd with
  | deleted store => simp
  | refused | lost => rfl

theorem mem_buffer_apply (hfeeds : op.feeds = false) (r : Rules)
    (hm : m ∈ ((op.apply r b).tracker t).buffer) : m ∈ (b.tracker t).buffer := by
  cases op with
  | buffer | rebuffer | requeue | flush | send | runJob | shutdown => exact absurd hfeeds nofun
  | createMessage =>
      exact Operation.createMessage_induction
        (P := fun c => m ∈ (c.tracker t).buffer → m ∈ (b.tracker t).buffer) id (fun _ => id) hm
  | createSlot | createSubscriber | connect | register | unregister | close => exact hm
  | track key =>
      rw [Operation.apply, track_eq] at hm
      split at hm
      · exact hm
      · simpa using hm
  | findNext u active =>
      rw [Operation.apply, Broker.findNext] at hm
      split at hm
      · rw [buffer_evict] at hm
        split at hm
        · exact absurd hm List.not_mem_nil
        · exact hm
      · rwa [(tracker_nextSubscriber b u t active).2.1] at hm
  | clear key =>
      rw [Operation.apply, Broker.clear] at hm
      split at hm
      · exact mem_buffer_drain hm
      · exact hm
  | purge now key storageQueue =>
      simp only [Operation.apply, Broker.purge] at hm
      split at hm
      · exact mem_buffer_drain (b := b.recordPurge storageQueue now) (by simpa using hm)
      · exact hm
  | acknowledge s n type => rwa [Operation.apply, (acknowledge_frame b s n type).1] at hm
  | deleteExpired condition =>
      rwa [Operation.apply, buffer_deletes (b.deleteExpired_deletes condition)] at hm

theorem Keeps.fits (hk : Keeps b b') (ht : b.hasTracker t) (hm : b.hasMessage m)
    (hf : b.Fits strays t m) : b'.Fits strays t m := by
  unfold Fits AtHome at hf ⊢
  rwa [hk.message m hm, hk.tracker t ht]

theorem Preserves.fits (hp : Preserves b b') (hf : b.Fits strays t m) : b'.Fits strays t m := by
  unfold Fits AtHome at hf ⊢
  rwa [hp.destination, hp.key]

namespace Isolated

theorem step (hx : b.Isolated strays) (hs : b.Sound) (hk : Keeps b b')
    (buffered : ∀ t, ∀ m ∈ (b'.tracker t).buffer, m ∈ (b.tracker t).buffer ∨ b'.Fits strays t m)
    (jobs : ∀ j ∈ b'.dispatcher.jobs, j ∈ b.dispatcher.jobs ∨
      b'.Fits strays j.tracker j.message ∧
        (b'.subscriber j.subscriber).key = (b'.tracker j.tracker).key) : b'.Isolated strays where
  buffered t m hm := (buffered t m hm).elim
    (fun h => hk.fits (hasTracker_of_mem h) (hs.buffered t m h) (hx.buffered t m h)) id
  queued j hj := (jobs j hj).elim
    (fun h => hk.fits (hs.jobs j h).2.2 (hs.jobs j h).2.1 (hx.queued j h)) And.left
  served j hj := (jobs j hj).elim
    (fun h => by
      rw [hk.subscriber _ (hs.jobs j h).1, hk.tracker _ (hs.jobs j h).2.2]
      exact hx.served j h)
    And.right

theorem quiet (hx : b.Isolated strays) (hs : b.Sound) (hk : Keeps b b')
    (buffered : ∀ t, ∀ m ∈ (b'.tracker t).buffer, m ∈ (b.tracker t).buffer)
    (jobs : ∀ j ∈ b'.dispatcher.jobs, j ∈ b.dispatcher.jobs) : b'.Isolated strays :=
  hx.step hs hk (fun t m hm => .inl (buffered t m hm)) fun j hj => .inl (jobs j hj)

theorem evict (hx : b.Isolated strays) (hs : b.Sound) (t : TrackerRef) :
    (b.evict t).Isolated strays := by
  refine hx.quiet hs (Sound.preserves_evict b t).keeps (fun v m hm => ?_) fun j hj => ?_
  · rw [buffer_evict] at hm
    split at hm
    · exact nomatch hm
    · exact hm
  · rwa [(evict_frame b t).1] at hj

theorem passStep {active : List SubscriberRef} {batch : List MessageRef} (hx : b.Isolated strays)
    (hs : b.Sound) (hp : Preserves b b') (hstep : PassStep r now t active batch b b')
    (hactive : ∀ s ∈ active, (b.subscriber s).key = (b.tracker t).key)
    (hbatch : ∀ m ∈ batch, b.Fits strays t m) : b'.Isolated strays := by
  have hall : ∀ m, m ∈ batch ∨ m ∈ (b.tracker t).buffer → b'.Fits strays t m := fun m hm =>
    hp.fits (hm.elim (hbatch m) (hx.buffered t m))
  refine hx.step hs hp.keeps (fun v m hm => ?_) fun j hj => ?_
  · by_cases hv : v = t
    · subst hv
      obtain rfl | ⟨n, hn, htouch⟩ := hstep.touches
      · exact .inl (by rwa [(tracker_nextSubscriber b v v active).2.1] at hm)
      · obtain hm | rfl := htouch.gains v m hm
        · exact .inl hm
        · exact .inr (hall m hn)
    · exact .inl (by rwa [hstep.buffer_of_ne hv] at hm)
  · obtain he | ⟨s, hs, m, hm, he⟩ := hstep.jobs_eq
    · exact .inl (he ▸ hj)
    · rw [he, List.mem_append, List.mem_singleton] at hj
      refine hj.imp_right fun hj => ?_
      subst hj
      exact ⟨hall m hm, by rw [hp.subscriber_key, hp.key, hactive s hs]⟩

theorem delivers (hx : b.Isolated strays) (hs : b.Sound) (ht : b.hasTracker t)
    (hd : Delivers r now t b b') : b'.Isolated strays := by
  refine hs.delivery_induction ht hd hx (fun _ => hx.evict hs t) fun _ _ c d hc hp _ ih hstep => ?_
  have hd := (hc.passStep hstep (hp.hasTracker ht)
    (fun s h => hp.hasSubscriber (hs.mem_active h).1) fun m h => hp.hasMessage (hs.buffered t m h)).2
  refine ih.passStep hc hd hstep (fun s h => ?_) fun m h => hp.fits (hx.buffered t m h)
  rw [hp.subscriber_key, hp.key, (hs.mem_active h).2]

theorem runJob (hx : b.Isolated strays) (hs : b.Sound) (place : Nat) :
    (b.runJob place).Isolated strays := by
  have hp := Sound.preserves_runJob b place
  refine hx.step hs hp.keeps (fun t m hm => ?_) fun j hj => ?_
  · obtain he | ⟨j, hj, rfl, -, -, he⟩ := b.buffer_runJob place t
    · exact .inl (he ▸ hm)
    · rw [he, List.mem_append, List.mem_singleton] at hm
      refine hm.imp_right fun hm => ?_
      subst hm
      exact hp.fits (hx.queued j (List.mem_of_getElem? hj))
  · rw [jobs_runJob] at hj
    exact .inl (List.mem_of_mem_eraseIdx hj)

theorem shutdown (hx : b.Isolated strays) (hs : b.Sound) : b.shutdown.Isolated strays := by
  have hall : b.shutdown.Sound ∧ b.shutdown.Isolated strays :=
    shutdown_induction (h := default) (P := fun c _ => c.Sound ∧ c.Isolated strays) ⟨hs, hx⟩
      (fun c _ hc => ⟨hc.1.runJob 0, hc.2.runJob hc.1 0⟩)
      fun c _ hc => ⟨hc.1.close, ⟨hc.2.buffered, hc.2.queued, hc.2.served⟩⟩
  exact hall.2

theorem bufferBatch (hx : b.Isolated strays) (hs : b.Sound) (hk : Keeps b (b.bufferBatch batch p t)) :
    (b.bufferBatch batch p t).Isolated strays := by
  have hp : Preserves b (b.bufferBatch batch p t) :=
    (Touches.modifySlot ⟨0⟩ b p _).toPreserves.trans
      (.foldl (fun b m => (Touches.accept p t b m).toPreserves) batch _)
  refine hx.step hs hk (fun v m hm => ?_) fun j hj => .inl ?_
  · rw [Broker.bufferBatch, buffer_foldl_accept] at hm
    split at hm
    · next hv =>
        obtain hm | hm := List.mem_append.1 hm
        · exact .inl hm
        · subst hv
          have hhome : decide (b.AtHome v m) = true := (List.mem_filter.1 hm).2
          exact .inr (hp.fits (.inl (of_decide_eq_true hhome)))
    · exact .inl hm
  · exact ((Operation.buffer batch p t).jobs_sublist rfl workerRules b).subset hj

theorem returned (hx : b.Isolated strays) (hs : b.Sound) {l : List MessageRef}
    (hl : ∀ m ∈ l, b.Fits strays t m) : (l.foldl (returnToBuffer t) b).Isolated strays := by
  have hp : Preserves b (l.foldl (returnToBuffer t) b) :=
    .foldl (fun b m => (Touches.returnToBuffer t b m).toPreserves) l b
  refine hx.step hs hp.keeps (fun v m hm => ?_) fun j hj => .inl ?_
  · refine (mem_buffer_returned hm).imp_right ?_
    rintro ⟨rfl, hmem⟩
    exact hp.fits (hl m hmem)
  · rwa [dispatcher_returned] at hj

theorem putBack (hx : b.Isolated strays) (hs : b.Sound) {key : TrackedKey} {l : List MessageRef}
    (hl : ∀ m ∈ l, (b.message m).destination = key.destination ∨ strays key m) (r : Rules) :
    ((Operation.rebuffer key l).apply r b).Isolated strays := by
  rw [Operation.apply_rebuffer]
  split
  · next t ht =>
      refine hx.returned hs fun m hm => ?_
      obtain ⟨-, hkey⟩ := hs.tracked key t ht
      subst hkey
      exact hl m hm
  · exact hx

theorem apply (hx : b.Isolated strays) (hs : b.Sound) (hu : op.uses b) (r : Rules)
    (hop : ∀ key, ∀ m ∈ (Deed.operation r op).putsBack key, strays key m) :
    (op.apply r b).Isolated strays := by
  have hk := hs.keeps hu r
  by_cases hfeeds : op.feeds = false
  · have hidle : op.delivery? = none := by cases op <;> first | rfl | exact absurd hfeeds nofun
    exact hx.quiet hs hk (fun t m hm => mem_buffer_apply hfeeds r hm) fun j hj =>
      (op.jobs_sublist hidle r b).subset hj
  · cases op with
    | buffer batch p t => exact hx.bufferBatch hs hk
    | rebuffer key l =>
        exact hx.putBack hs (fun m hm => .inr (hop key m (by simpa [Deed.putsBack] using hm))) r
    | requeue m type =>
        have hhome : ∀ n ∈ [m], (b.message n).destination = (b.message m).destination :=
          fun n hn => by rw [List.mem_singleton.1 hn]
        exact hx.putBack hs (fun n hn => .inl (hhome n hn)) r
    | flush vetoes now t => exact hx.delivers hs hu (flush_delivers b (hs.active_nodup t))
    | send vetoes now t => exact hx.delivers hs hu (sendBuffered_delivers b (hs.active_nodup t))
    | runJob place => exact hx.runJob hs place
    | shutdown => exact hx.shutdown hs
    | _ => exact absurd rfl hfeeds

theorem deed (hx : b.Isolated strays) (hs : b.Sound) (d : Deed) (hd : d.Refers b)
    (plain : d.isSubmit = false) (hback : ∀ key, ∀ m ∈ d.putsBack key, strays key m) :
    (d.apply b).Isolated strays := by
  cases d with
  | operation r op => exact hx.apply hs hd r hback
  | standAlone key seed =>
      exact hx.quiet hs (keeps_standAlone b key seed)
        (fun t m hm => by rwa [Deed.apply, buffer_standAlone] at hm) fun _ hj => hj
  | submit j => exact absurd plain nofun

theorem deeds {l : List Deed} (hx : b.Isolated strays) (hs : b.Sound) (hl : Deed.AllRefer l b)
    (plain : ∀ d ∈ l, d.isSubmit = false)
    (hback : ∀ d ∈ l, ∀ key, ∀ m ∈ d.putsBack key, strays key m) :
    (Deed.all l b).Isolated strays := by
  induction l generalizing b with
  | nil => exact hx
  | cons d l ih =>
      rw [List.forall_mem_cons] at plain hback
      exact ih (hx.deed hs d hl.1 plain.1 hback.1) (hs.deed d hl.1) hl.2 plain.2 hback.2

end Isolated

end Broker

/-- Whatever the host does, a tracker holds messages that are addressed to its destination and such
as the host put back there, and its jobs are for subscribers of that destination. So nobody is sent
a message that is addressed elsewhere unless the host brought it there itself. -/
theorem destinations_kept_apart {l : List Deed} (hl : Deed.AllRefer l default)
    (plain : ∀ d ∈ l, d.isSubmit = false) :
    (∀ t, ∀ m ∈ ((Deed.all l default).tracker t).buffer, (Deed.all l default).AtHome t m ∨
      ∃ d ∈ l, m ∈ d.putsBack ((Deed.all l default).tracker t).key.tracked) ∧
    ∀ j ∈ (Deed.all l default).dispatcher.jobs,
      ((Deed.all l default).subscriber j.subscriber).key =
        ((Deed.all l default).tracker j.tracker).key ∧
      (((Deed.all l default).message j.message).destination =
          ((Deed.all l default).subscriber j.subscriber).key.destination ∨
        ∃ d ∈ l, j.message ∈
          d.putsBack ((Deed.all l default).subscriber j.subscriber).key.tracked) := by
  have hx : (Deed.all l default).Isolated fun key m => ∃ d ∈ l, m ∈ d.putsBack key :=
    Isolated.deeds ⟨nofun, nofun, nofun⟩ sound_default hl plain fun d hd key m hm => ⟨d, hd, hm⟩
  refine ⟨hx.buffered, fun j hj => ⟨hx.served j hj, ?_⟩⟩
  rw [hx.served j hj]
  exact hx.queued j hj

def mixedRun : List Deed :=
  List.map (Deed.operation workerRules) (workerRun ++
    [.createMessage 3 "orders" "stored" "lamp" 0 0, .requeue ⟨0⟩ .queue,
      .buffer [⟨1⟩, ⟨2⟩] ⟨0⟩ ⟨0⟩, .flush [] 0 ⟨0⟩])

theorem destinations_kept_apart_mixedRun :
    Deed.AllRefer mixedRun default ∧
      ((Deed.all mixedRun default).tracker ⟨0⟩).buffer = [⟨2⟩] ∧
      (Deed.all mixedRun default).AtHome ⟨0⟩ ⟨2⟩ ∧
      (Deed.all mixedRun default).dispatcher.jobs = [⟨⟨0⟩, ⟨0⟩, ⟨0⟩, .rebuffer⟩] ∧
      ((Deed.all mixedRun default).message ⟨0⟩).destination =
        ((Deed.all mixedRun default).subscriber ⟨0⟩).key.destination := by
  have hl : Deed.AllRefer mixedRun default := by decide
  have hbuffer : ((Deed.all mixedRun default).tracker ⟨0⟩).buffer = [⟨2⟩] := by decide
  have hjobs : (Deed.all mixedRun default).dispatcher.jobs = [⟨⟨0⟩, ⟨0⟩, ⟨0⟩, .rebuffer⟩] := by
    decide
  have hnone : ∀ d ∈ mixedRun, ∀ key, d.putsBack key = [] := by
    simp [mixedRun, workerRun, Deed.putsBack]
  obtain ⟨hheld, hserved⟩ := destinations_kept_apart hl (by decide)
  have hhome : (Deed.all mixedRun default).AtHome ⟨0⟩ ⟨2⟩ := by
    rcases hheld ⟨0⟩ ⟨2⟩ (hbuffer ▸ List.mem_singleton_self _) with hhome | ⟨d, hd, hm⟩
    · exact hhome
    · exact absurd (hnone d hd _ ▸ hm) List.not_mem_nil
  have haddressed : ((Deed.all mixedRun default).message ⟨0⟩).destination =
      ((Deed.all mixedRun default).subscriber ⟨0⟩).key.destination := by
    rcases (hserved ⟨⟨0⟩, ⟨0⟩, ⟨0⟩, .rebuffer⟩ (hjobs ▸ List.mem_singleton_self _)).2 with
      haddressed | ⟨d, hd, hm⟩
    · exact haddressed
    · exact absurd (hnone d hd _ ▸ hm) List.not_mem_nil
  exact ⟨hl, hbuffer, hhome, hjobs, haddressed⟩

/-- A bill is put back among the orders, and nothing holds it there. -/
def strayRun : List Deed :=
  List.map (Deed.operation workerRules) (workerRun ++
    [.acknowledge ⟨0⟩ ⟨0⟩ .queue, .rebuffer ⟨.queue, "orders"⟩ [⟨1⟩], .flush [] 0 ⟨0⟩])

/-- The worker, who listens for orders, is sent the bill. -/
theorem misdelivered_strayRun :
    Deed.AllRefer strayRun default ∧ (∀ d ∈ strayRun, d.isSubmit = false) ∧
      ∃ j ∈ (Deed.all strayRun default).dispatcher.jobs,
        ((Deed.all strayRun default).message j.message).destination = "invoices" ∧
        ((Deed.all strayRun default).tracker j.tracker).key.destination = "orders" ∧
        ((Deed.all strayRun default).subscriber j.subscriber).key.destination = "orders" := by
  decide

end Courier
