import Courier.Proofs.Bursting
import Courier.Proofs.Scanning

namespace Courier.Broker

variable {r : Rules} {now : UInt64} {t : TrackerRef} {active l : List SubscriberRef}
  {b c d : Broker} {m : MessageRef} {s : SubscriberRef} {policy : FailurePolicy}
  {new new' : List Job}

theorem offer_jobs (b : Broker) (r : Rules) (now : UInt64) (t : TrackerRef) (s : SubscriberRef)
    (m : MessageRef) (accepting : b.dispatcher.accepting = true) :
    (b.offer r now t s m).2.dispatcher.jobs = b.dispatcher.jobs ++
      if (b.offer r now t s m).1 = .dispatched then [⟨s, m, t, .rebuffer⟩] else [] := by
  obtain ⟨outcome, c, hc, hh⟩ := exists_handled b r now s m t .rebuffer
  unfold offer
  rw [hc]
  cases hh with
  | purged => simp [markPurged]
  | expired => simp [markExpired]
  | marked | vetoed | alreadyInFlight => simp
  | dispatched => simp
  | failed _ _ closed => cases accepting.symm.trans closed

theorem queuePass_jobs (r : Rules) (now : UInt64) (t : TrackerRef) (active : List SubscriberRef)
    (ceiling : UInt64) (l : List MessageRef) (b : Broker)
    (accepting : b.dispatcher.accepting = true) :
    ∃ new, (queuePass r now t active ceiling l b).2.dispatcher.jobs = b.dispatcher.jobs ++ new ∧
      (queuePass r now t active ceiling l b).1 = new.length := by
  induction l generalizing b with
  | nil => exact ⟨[], (List.append_nil _).symm, rfl⟩
  | cons m rest ih =>
      unfold queuePass
      split
      · exact ⟨[], (List.append_nil _).symm, rfl⟩
      · have hscan := (nextWithRoom_frame t active active.length b).2.2.2
        split
        · next c hc =>
            rw [hc] at hscan
            exact ⟨[], by rw [hscan, List.append_nil], rfl⟩
        · next s c hc =>
            rw [hc] at hscan
            have hopen : (c.unbuffer t m).dispatcher = b.dispatcher := by simpa using hscan
            have hjobs := offer_jobs (c.unbuffer t m) r now t s m (by rw [hopen, accepting])
            have haccepting := (Touches.offer (c.unbuffer t m) r now t s m).accepting
            rw [hopen] at hjobs haccepting
            split
            · next d hd =>
                rw [hd] at hjobs haccepting
                obtain ⟨new, hnew, hcount⟩ := ih d (haccepting.trans accepting)
                refine ⟨⟨s, m, t, .rebuffer⟩ :: new, ?_, congrArg (· + 1) hcount⟩
                rw [hnew, hjobs, if_pos rfl, List.append_assoc]
                rfl
            · next outcome d hne hd =>
                rw [hd] at hjobs haccepting
                rw [if_neg (by simpa using hne), List.append_nil] at hjobs
                split
                · exact ⟨[], by rw [hjobs, List.append_nil], rfl⟩
                · obtain ⟨new, hnew, hcount⟩ := ih d (haccepting.trans accepting)
                  exact ⟨new, by rw [hnew, hjobs], hcount⟩

def Spent (b : Broker) (m : MessageRef) : Prop :=
  (b.message m).purged = true ∨ (b.message m).expired = true

/-- These jobs were queued, and every copy is as it was, was dropped, or is to be sent by one of
them. -/
structure Yields (b c : Broker) (new : List Job) : Prop extends Preserves b c where
  jobs : c.dispatcher.jobs = b.dispatcher.jobs ++ new
  accepting : c.dispatcher.accepting = b.dispatcher.accepting
  copies : ∀ n id, (c.message n).status? id = (b.message n).status? id ∨
    (c.message n).status? id = some .discarded ∨
    (c.message n).status? id = some .scheduled ∧
      ∃ j ∈ new, j.message = n ∧ (b.subscriber j.subscriber).id = id
  spent : ∀ n, b.Spent n → c.Spent n

namespace Yields

theorem refl (b : Broker) : Yields b b [] where
  toPreserves := .refl b
  jobs := (List.append_nil _).symm
  accepting := rfl
  copies _ _ := .inl rfl
  spent _ h := h

theorem trans (h : Yields b c new) (h' : Yields c d new') : Yields b d (new ++ new') where
  toPreserves := h.toPreserves.trans h'.toPreserves
  jobs := by rw [h'.jobs, h.jobs, List.append_assoc]
  accepting := h'.accepting.trans h.accepting
  copies n id := by
    obtain hsame | hdropped | ⟨hsent, j, hj, hm, hid⟩ := h'.copies n id
    · rw [hsame]
      obtain hsame | hdropped | ⟨hsent, j, hj, hm⟩ := h.copies n id
      · exact .inl hsame
      · exact .inr (.inl hdropped)
      · exact .inr (.inr ⟨hsent, j, List.mem_append_left _ hj, hm⟩)
    · exact .inr (.inl hdropped)
    · exact .inr (.inr ⟨hsent, j, List.mem_append_right _ hj, hm, by rw [← h.subscriber_id, hid]⟩)
  spent n hn := h'.spent n (h.spent n hn)

theorem of_recipients (h : Preserves b c) (dispatcher : c.dispatcher = b.dispatcher)
    (recipients : ∀ n, (c.message n).recipients = (b.message n).recipients)
    (spent : ∀ n, b.Spent n → c.Spent n) : Yields b c [] where
  toPreserves := h
  jobs := by rw [dispatcher, List.append_nil]
  accepting := by rw [dispatcher]
  copies n id := .inl (by rw [Message.status?, recipients, Message.status?])
  spent := spent

theorem not_awaits (h : Yields b c new) {n : MessageRef} {id : SubscriberId}
    (done : (b.message n).awaits id = false) : (c.message n).awaits id = false := by
  obtain hsame | hdropped | ⟨hsent, -⟩ := h.copies n id
  · rw [awaits_congr hsame, done]
  · rw [Message.awaits, hdropped]
  · rw [Message.awaits, hsent]

theorem idsOf (h : Yields b c new) (l : List SubscriberRef) : c.idsOf l = b.idsOf l := by
  simp [Broker.idsOf, h.subscriber_id]

theorem mark (b : Broker) (m : MessageRef) (f : Message → Message)
    (made : ∀ x, (f x).made = x.made) (recipients : ∀ x, (f x).recipients = x.recipients)
    (spent : ∀ x, (f x).purged = true ∨ (f x).expired = true) :
    Yields b (b.modifyMessage m f) [] := by
  refine .of_recipients (Touches.modifyMessage b m f made fun x hx => ?_).toPreserves rfl
    (fun n => ?_) fun n hn => ?_
  · rwa [Message.Tidy, recipients]
  · rw [message_modifyMessage]
    split
    · exact recipients _
    · rfl
  · rw [Spent, message_modifyMessage]
    split
    · exact spent _
    · exact hn

theorem settle (b : Broker) (m : MessageRef) : Yields b (b.settle m) [] := by
  refine .of_recipients (Touches.settle b m).toPreserves (by simp) (by simp) fun n hn => ?_
  rw [Spent, message_settle]
  split <;> exact hn

theorem settleIfComplete (b : Broker) (m : MessageRef) : Yields b (b.settleIfComplete m) [] := by
  obtain h | h := b.settleIfComplete_eq m
  · rw [h]; exact refl b
  · rw [h]; exact settle b m

theorem unbuffer (b : Broker) (t : TrackerRef) (m : MessageRef) : Yields b (b.unbuffer t m) [] := by
  refine .of_recipients (Touches.unbuffer b t m).toPreserves (by simp) (by simp) fun n hn => ?_
  rw [Spent, message_unbuffer]
  split <;> exact hn

theorem retire (b : Broker) (t : TrackerRef) (m : MessageRef) :
    Yields b ((b.unbuffer t m).settleIfComplete m) [] :=
  (unbuffer b t m).trans (settleIfComplete _ m)

theorem settleAll (b : Broker) (l : List MessageRef) : Yields b (b.settleAll l) [] := by
  induction l generalizing b with
  | nil => exact refl b
  | cons m l ih => exact (settle b m).trans (ih (b.settle m))

theorem evict (b : Broker) (t : TrackerRef) : Yields b (b.evict t) [] := by
  have hletGo : Yields b (b.letGo t) [] :=
    .of_recipients (.letGo b t) rfl (fun _ => rfl) fun _ h => h
  have hdrain : Yields (b.letGo t) ((b.letGo t).drain t) [] := by
    refine .of_recipients (.drain _ t) (by simp) (fun n => ?_) fun n hn => ?_
    · rw [message_drain]
      split <;> rfl
    · rw [Spent, message_drain]
      split <;> exact hn
  rw [evict_eq]
  split
  · split
    · exact (hletGo.trans hdrain).trans (settleAll _ _)
    · exact hletGo
  · exact refl b

theorem discard (b : Broker) (m : MessageRef) (id : SubscriberId) :
    Yields b (b.setStatus m id .discarded) [] where
  toPreserves := (Touches.setStatus b m id .discarded).toPreserves
  jobs := (List.append_nil _).symm
  accepting := rfl
  copies n u := by
    rw [setStatus, message_modifyMessage]
    split
    · rw [Message.status?_setStatus]
      split
      · exact .inr (.inl rfl)
      · exact .inl rfl
    · exact .inl rfl
  spent n hn := by
    rw [Spent, setStatus, message_modifyMessage]
    split <;> exact hn

theorem discardFor (m : MessageRef) (l : List SubscriberRef) (b : Broker) :
    Yields b (Broker.discardFor m l b) [] := by
  induction l generalizing b with
  | nil => exact refl b
  | cons s l ih => exact (discard b m (b.subscriber s).id).trans (ih _)

theorem dispatch (b : Broker) (s : SubscriberRef) (m : MessageRef) (t : TrackerRef)
    (policy : FailurePolicy) :
    Yields b ((b.claim s m t policy).withJobs (b.dispatcher.jobs ++ [⟨s, m, t, policy⟩]))
      [⟨s, m, t, policy⟩] where
  toPreserves := (Touches.claim b s m t policy).toPreserves.trans
    { Preserves.refl (b.claim s m t policy) with }
  jobs := by simp
  accepting := by simp
  copies n id := by
    by_cases h : n = m ∧ id = (b.subscriber s).id
    · obtain ⟨rfl, rfl⟩ := h
      refine .inr (.inr ⟨?_, _, List.mem_singleton_self _, rfl, rfl⟩)
      simp [message_claim]
    · exact .inl (status?_claim_of_ne b s m n t policy h)
  spent n hn := by
    rw [Spent, (withJobs_frame _ _).2.1, message_claim]
    split <;> exact hn

end Yields

structure Offered (t : TrackerRef) (m : MessageRef) (l : List SubscriberRef) (b c : Broker)
    (new : List Job) : Prop extends Yields b c new where
  own : ∀ j ∈ new, j.message = m
  place : (c.tracker t).buffer = (b.tracker t).buffer
  served : ∀ s ∈ l, (c.message m).awaits (b.subscriber s).id = false
  holders : ∀ u, u ∉ l → c.subscriber u = b.subscriber u

structure Dropped (t : TrackerRef) (m : MessageRef) (rest : List MessageRef) (b c : Broker) : Prop
    extends Yields b c [] where
  gone : c.Spent m
  buffer : (c.tracker t).buffer = rest

theorem Offered.refl (t : TrackerRef) (m : MessageRef) (b : Broker) : Offered t m [] b b [] :=
  ⟨.refl b, nofun, rfl, nofun, fun _ _ => rfl⟩

theorem Offered.trans (h : Offered t m l b c new) {l' : List SubscriberRef}
    (h' : Offered t m l' c d new') : Offered t m (l ++ l') b d (new ++ new') where
  toYields := h.toYields.trans h'.toYields
  own j hj := (List.mem_append.1 hj).elim (h.own j) (h'.own j)
  place := h'.place.trans h.place
  served s hs := by
    obtain hs | hs := List.mem_append.1 hs
    · exact h'.toYields.not_awaits (h.served s hs)
    · rw [← h.subscriber_id]
      exact h'.served s hs
  holders u hu := by
    rw [List.mem_append, not_or] at hu
    rw [h'.holders u hu.2, h.holders u hu.1]

theorem spread_offered (fit : b.Fit now m) (accepting : b.dispatcher.accepting = true) :
    ∃ new, Offered t m [s] b (spread r now t m policy s b).2 new ∧
      (spread r now t m policy s b).2.Fit now m := by
  have hgoes := (spread_kept b r now t m policy s).2 fit
  have htouch := Touches.spread b r now t m policy s
  obtain ⟨outcome, c, hc, hh⟩ := exists_handled b r now s m t policy
  unfold spread at hgoes htouch ⊢
  rw [hc] at hgoes htouch ⊢
  cases hh with
  | purged | marked | expired => exact nomatch hgoes
  | failed _ _ closed => exact absurd (accepting.symm.trans closed) nofun
  | alreadyInFlight _ held =>
      exact ⟨[], ⟨.refl b, nofun, rfl, by simpa using held, fun _ _ => rfl⟩, fit⟩
  | vetoed =>
      refine ⟨[], ⟨.discard b m _, nofun, rfl, fun u hu => ?_, fun _ _ => rfl⟩, ?_⟩
      · rw [List.mem_singleton.1 hu]
        simp [Message.awaits, setStatus, message_modifyMessage]
      · refine fit.congr rfl (htouch.made m) ?_ ?_ <;>
          simp [setStatus, message_modifyMessage, Message.setStatus]
  | dispatched =>
      refine ⟨_, ⟨.dispatch b s m t policy, by simp, by simp, fun u hu => ?_, fun u hu => ?_⟩, ?_⟩
      · rw [List.mem_singleton.1 hu]
        simp [Message.awaits, message_claim]
      · simp [subscriber_claim, List.ne_of_not_mem_cons hu]
      · refine fit.congr htouch.purges (htouch.made m) ?_ ?_ <;>
          simp [message_claim, Message.setStatus]

theorem spread_dropped_unfit {rest : List MessageRef} (unfit : ¬ b.Fit now m)
    (front : (b.tracker t).buffer = m :: rest) :
    Dropped t m rest b (spread r now t m policy s b).2 := by
  have hstops := mt (spread_kept b r now t m policy s).1 unfit
  obtain ⟨outcome, c, hc, hh⟩ := exists_handled b r now s m t policy
  unfold spread at hstops ⊢
  rw [hc] at hstops ⊢
  cases hh with
  | vetoed | alreadyInFlight | dispatched | failed => exact absurd rfl hstops
  | marked kept marked =>
      exact ⟨.unbuffer b t m, (Yields.unbuffer b t m).spent m (.inr marked),
        buffer_unbuffer_front b t m rest front⟩
  | purged =>
      have hmark : Yields b ((b.markPurged m).settle m) [] :=
        (Yields.mark b m (fun x => { x with purged := true }) (fun _ => rfl) (fun _ => rfl)
          fun _ => .inl rfl).trans (.settle _ m)
      have hspent : ((b.markPurged m).settle m).Spent m :=
        .inl (by simp [markPurged, message_settle, message_modifyMessage])
      exact ⟨hmark.trans (.unbuffer _ t m), (Yields.unbuffer _ t m).spent m hspent,
        buffer_unbuffer_front _ t m rest (by simpa [markPurged] using front)⟩
  | expired =>
      have hmark : Yields b ((b.markExpired m).addExpired m) [] :=
        (Yields.mark b m (fun x => { x with expired := true }) (fun _ => rfl) (fun _ => rfl)
          fun _ => .inr rfl).trans (.of_recipients (Touches.addExpired _ m).toPreserves rfl
            (fun _ => rfl) fun _ h => h)
      have hspent : ((b.markExpired m).addExpired m).Spent m :=
        .inr (by simp [markExpired, message_modifyMessage])
      exact ⟨hmark.trans (.unbuffer _ t m), (Yields.unbuffer _ t m).spent m hspent,
        buffer_unbuffer_front _ t m rest (by simpa [markExpired] using front)⟩

theorem broadcast_offered (l : List SubscriberRef) (b : Broker) (fit : b.Fit now m)
    (accepting : b.dispatcher.accepting = true) :
    (broadcast r now t m policy l b).1 = true ∧
      ∃ new, Offered t m l b (broadcast r now t m policy l b).2 new := by
  induction l generalizing b with
  | nil => exact ⟨rfl, [], .refl t m b⟩
  | cons s l ih =>
      rw [broadcast_cons, if_pos ((spread_kept b r now t m policy s).2 fit)]
      obtain ⟨new, hfirst, hfit⟩ := spread_offered fit accepting
      obtain ⟨hgoes, new', hrest⟩ := ih _ hfit (hfirst.accepting.trans accepting)
      exact ⟨hgoes, new ++ new', hfirst.trans hrest⟩

/-- A message is dropped before the first offer or not at all. -/
theorem broadcast_cases (r : Rules) (now : UInt64) (policy : FailurePolicy)
    (l : List SubscriberRef) {rest : List MessageRef}
    (front : (b.tracker t).buffer = m :: rest) (accepting : b.dispatcher.accepting = true) :
    ((broadcast r now t m policy l b).1 = true ∧
        ∃ new, Offered t m l b (broadcast r now t m policy l b).2 new) ∨
      ((broadcast r now t m policy l b).1 = false ∧
        Dropped t m rest b (broadcast r now t m policy l b).2) := by
  by_cases fit : b.Fit now m
  · exact .inl (broadcast_offered l b fit accepting)
  · cases l with
    | nil => exact .inl ⟨rfl, [], .refl t m b⟩
    | cons s l =>
        have hstops := mt (spread_kept b r now t m policy s).1 fit
        rw [broadcast_cons, if_neg hstops]
        exact .inr ⟨rfl, spread_dropped_unfit fit front⟩

theorem isHandedOffTo_iff {x : Message} : x.isHandedOffTo (b.idsOf active) = true ↔
    ∀ s ∈ active, x.awaits (b.subscriber s).id = false := by
  have hone : ∀ id, (x.status? id).any RecipientStatus.isHandedOff = true ↔ x.awaits id = false :=
    fun id => ⟨fun h => by
      unfold Message.awaits
      split <;> simp_all [RecipientStatus.isHandedOff], handedOff_of_not_awaits⟩
  simp only [Message.isHandedOffTo, List.all_eq_true, idsOf, List.forall_mem_map, hone]

theorem retire_front {rest : List MessageRef} (front : (b.tracker t).buffer = m :: rest)
    (ids : List SubscriberId) :
    b.retireIfHandedOff t ids m =
      if (b.message m).isHandedOffTo ids then (true, (b.unbuffer t m).settleIfComplete m)
      else (false, b) := by
  have hbuffered : b.isBufferedIn t m = true := (isBufferedIn_iff b t m).2 ⟨m, by simp [front], rfl⟩
  rw [retireIfHandedOff, hbuffered, Bool.and_true]

theorem retire_served {rest : List MessageRef} (h : Yields b c new)
    (front : (c.tracker t).buffer = m :: rest)
    (served : ∀ s ∈ active, (c.message m).awaits (b.subscriber s).id = false) :
    ∃ d, c.retireIfHandedOff t (b.idsOf active) m = (true, d) ∧ Yields b d new ∧
      (d.tracker t).buffer = rest ∧
      ∀ s ∈ active, (d.message m).awaits (b.subscriber s).id = false := by
  have hretires := Yields.retire c t m
  have hhanded : (c.message m).isHandedOffTo (b.idsOf active) = true := by
    rw [← h.idsOf]
    exact isHandedOffTo_iff.2 fun s hs => by rw [h.subscriber_id, served s hs]
  rw [retire_front front, if_pos hhanded]
  refine ⟨_, rfl, ?_, by simpa using buffer_unbuffer_front c t m rest front,
    fun s hs => hretires.not_awaits (served s hs)⟩
  simpa using h.trans hretires

theorem retire_unserved {rest : List MessageRef} (h : Yields b c new)
    (front : (c.tracker t).buffer = m :: rest) (hs : s ∈ active)
    (lacks : (c.message m).awaits (b.subscriber s).id = true) :
    c.retireIfHandedOff t (b.idsOf active) m = (false, c) := by
  rw [retire_front front, ← h.idsOf, if_neg]
  rw [isHandedOffTo_iff, not_forall₂]
  exact ⟨s, hs, by simp [h.subscriber_id, lacks]⟩

structure Held (r : Rules) (t : TrackerRef) (active : List SubscriberRef) (b : Broker)
    (m : MessageRef) : Prop where
  strategy : r.topics = .discardNone
  front : (b.tracker t).buffer.head? = some m
  full : ∃ s ∈ active, (b.message m).awaits (b.subscriber s).id = true ∧ b.hasRoom s = false

/-- What a pass over the waiting messages tells by counting those in `sent`: they left the buffer
with every active subscriber served. The others that left it were purged or had expired, and a job
for a message that stayed is for one that is held up. -/
structure Reports (r : Rules) (t : TrackerRef) (active : List SubscriberRef)
    (waiting : List MessageRef) (b c : Broker) (new : List Job) (sent : List MessageRef) : Prop
    extends Yields b c new where
  left : ∃ done, waiting = done ++ (c.tracker t).buffer ∧ sent.Sublist done ∧
    ∀ m ∈ done, m ∈ sent ∨ c.Spent m
  served : ∀ m ∈ sent, ∀ s ∈ active, (c.message m).awaits (b.subscriber s).id = false
  owed : ∀ j ∈ new, j.message ∈ sent ∨ Held r t active c j.message

namespace Reports

variable {waiting rest sent : List MessageRef} {own : List Job}

theorem stop (h : Yields b c new) (buffer : (c.tracker t).buffer = waiting)
    (held : ∀ j ∈ new, Held r t active c j.message) : Reports r t active waiting b c new [] where
  toYields := h
  left := ⟨[], by rw [buffer, List.nil_append], .refl _, nofun⟩
  served := nofun
  owed j hj := .inr (held j hj)

theorem letGo (h : Yields b c own) (hown : ∀ j ∈ own, j.message = m)
    (served : ∀ s ∈ active, (c.message m).awaits (b.subscriber s).id = false)
    (h' : Reports r t active rest c d new sent) :
    Reports r t active (m :: rest) b d (own ++ new) (m :: sent) where
  toYields := h.trans h'.toYields
  left := by
    obtain ⟨done, hdone, hsub, hspent⟩ := h'.left
    refine ⟨m :: done, by rw [hdone, List.cons_append], hsub.cons_cons m, fun n hn => ?_⟩
    obtain rfl | hn := List.mem_cons.1 hn
    · exact .inl List.mem_cons_self
    · exact (hspent n hn).imp (List.mem_cons_of_mem m) id
  served n hn s hs := by
    obtain rfl | hn := List.mem_cons.1 hn
    · exact h'.toYields.not_awaits (served s hs)
    · rw [← h.subscriber_id]
      exact h'.served n hn s hs
  owed j hj := by
    obtain hj | hj := List.mem_append.1 hj
    · exact .inl (by rw [hown j hj]; exact List.mem_cons_self)
    · exact (h'.owed j hj).imp (List.mem_cons_of_mem m) id

theorem drop (h : Yields b c []) (gone : c.Spent m) (h' : Reports r t active rest c d new sent) :
    Reports r t active (m :: rest) b d new sent where
  toYields := h.trans h'.toYields
  left := by
    obtain ⟨done, hdone, hsub, hspent⟩ := h'.left
    refine ⟨m :: done, by rw [hdone, List.cons_append], hsub.cons m, fun n hn => ?_⟩
    obtain rfl | hn := List.mem_cons.1 hn
    · exact .inr (h'.toYields.spent n gone)
    · exact hspent n hn
  served n hn s hs := by
    rw [← h.subscriber_id]
    exact h'.served n hn s hs
  owed := h'.owed

end Reports

theorem discards_yields (discard : DiscardPolicy) (b : Broker) (t : TrackerRef)
    (active : List SubscriberRef) (m : MessageRef) :
    ∃ c, c = (if discard = .discardAllowed then discardFor m (b.saturatedFor active m) b else b) ∧
      Yields b c [] ∧ (c.tracker t).buffer = (b.tracker t).buffer ∧
      (∀ u, c.subscriber u = b.subscriber u) ∧
      (discard = .discardAllowed →
        ∀ s ∈ b.saturatedFor active m, (c.message m).awaits (b.subscriber s).id = false) := by
  refine ⟨_, rfl, ?_⟩
  split
  · obtain ⟨hconfined, -, hsubscriber, hdiscarded⟩ :=
      discardFor_confined t m (b.saturatedFor active m) b
    refine ⟨.discardFor m _ b, hconfined.place, hsubscriber, fun _ s hs => ?_⟩
    rw [Message.awaits, hdiscarded _ (List.mem_map_of_mem hs)]
  · next hd => exact ⟨.refl b, rfl, fun _ => rfl, fun h => absurd h hd⟩

theorem Offered.saturated (h : Yields b c []) (hsubscriber : ∀ u, c.subscriber u = b.subscriber u)
    (h' : Offered t m (b.readyFor active m) c d new) (hs : s ∈ active)
    (lacks : (d.message m).awaits (b.subscriber s).id = true) : s ∈ b.saturatedFor active m := by
  have hearlier {e : Broker} (hdone : (e.message m).awaits (b.subscriber s).id = false →
      (d.message m).awaits (b.subscriber s).id = false) :
      (e.message m).awaits (b.subscriber s).id = true := by
    by_contra hnot
    exact absurd (lacks.symm.trans (hdone (by simpa using hnot))) nofun
  have hlacks := hearlier fun hdone => h'.not_awaits (h.not_awaits hdone)
  refine mem_saturatedFor.2 ⟨hs, hlacks, ?_⟩
  by_contra hroom
  have hserved := h'.served s (mem_readyFor.2 ⟨hs, hlacks, by simpa using hroom⟩)
  rw [hsubscriber] at hserved
  exact absurd (lacks.symm.trans hserved) nofun

/-- Offering the message to all with room makes no room for the others. -/
theorem Offered.held (h : Offered t m (b.readyFor active m) b c new)
    (strategy : r.topics = .discardNone) (front : (c.tracker t).buffer.head? = some m)
    (full : s ∈ b.saturatedFor active m) (lacks : (c.message m).awaits (b.subscriber s).id = true) :
    Held r t active c m := by
  obtain ⟨hs, -, hroom⟩ := mem_saturatedFor.1 full
  have hsame : c.subscriber s = b.subscriber s := h.holders s fun hready =>
    absurd ((mem_readyFor.1 hready).2.2.symm.trans hroom) nofun
  exact ⟨strategy, front, s, hs, by rw [hsame, lacks], by rw [hasRoom, hsame]; exact hroom⟩

theorem burstPass_reports (r : Rules) (now : UInt64) (discard : DiscardPolicy)
    (strategy : discard = .discardNone → r.topics = .discardNone) (l : List MessageRef) (b : Broker)
    (buffer : (b.tracker t).buffer = l) (accepting : b.dispatcher.accepting = true) :
    ∃ new sent, (burstPass r now t active discard (b.idsOf active) l b).1 = sent.length ∧
      Reports r t active l b (burstPass r now t active discard (b.idsOf active) l b).2 new sent := by
  induction l generalizing b with
  | nil => exact ⟨[], [], rfl, .stop (.refl b) buffer nofun⟩
  | cons m rest ih =>
      -- `c` is the broker once the copies without room are dealt with.
      obtain ⟨c, hc, hfirst, hplace, hsubscriber, hfull⟩ := discards_yields discard b t active m
      have hnext : ∀ {e new}, Yields b e new → (e.tracker t).buffer = rest →
          ∃ new sent, (burstPass r now t active discard (b.idsOf active) rest e).1 = sent.length ∧
            Reports r t active rest e
              (burstPass r now t active discard (b.idsOf active) rest e).2 new sent :=
        fun {e _} he hrest => by
          rw [← he.idsOf]
          exact ih e hrest (he.accepting.trans accepting)
      have hcases := broadcast_cases r now (failurePolicy discard) (b.readyFor active m)
        (hplace.trans buffer) (hfirst.accepting.trans accepting)
      simp only [burstPass, ← saturatedFor.eq_def, ← readyFor.eq_def, ← hc]
      generalize broadcast r now t m (failurePolicy discard) (b.readyFor active m) c = p at hcases ⊢
      obtain ⟨goes, d⟩ := p
      obtain ⟨rfl, own, hoffered⟩ | ⟨rfl, hdropped⟩ := hcases
      · have hyields : Yields b d own := hfirst.trans hoffered.toYields
        have hfront := hoffered.place.trans (hplace.trans buffer)
        dsimp only at hoffered hfront ⊢
        by_cases served : ∀ s ∈ active, (d.message m).awaits (b.subscriber s).id = false
        · obtain ⟨e, hretire, hleft, hrest, hserved⟩ := retire_served hyields hfront served
          obtain ⟨new, sent, hcount, hreports⟩ := hnext hleft hrest
          rw [hretire]
          exact ⟨own ++ new, m :: sent, congrArg (· + 1) hcount,
            .letGo hleft hoffered.own hserved hreports⟩
        · simp only [not_forall, Bool.not_eq_false] at served
          obtain ⟨s, hs, hlacks⟩ := served
          have hsaturated := Offered.saturated hfirst hsubscriber hoffered hs hlacks
          cases discard with
          | discardAllowed =>
              have hdone := hoffered.not_awaits (hfull rfl s hsaturated)
              cases hlacks.symm.trans hdone
          | discardNone =>
              obtain rfl : c = b := hc
              have hheld := hoffered.held (strategy rfl) (by rw [hfront, List.head?_cons])
                hsaturated hlacks
              have hstops : (!(c.saturatedFor active m).isEmpty) = true := by
                simpa using List.ne_nil_of_mem hsaturated
              rw [retire_unserved hyields hfront hs hlacks]
              simp only [hstops, decide_true, Bool.and_true, if_true]
              exact ⟨own, [], rfl, .stop hyields hfront fun j hj => hoffered.own j hj ▸ hheld⟩
      · have hyields := hfirst.trans hdropped.toYields
        obtain ⟨new, sent, hcount, hreports⟩ := hnext hyields hdropped.buffer
        exact ⟨new, sent, hcount, .drop hyields hdropped.gone hreports⟩

theorem pacedPass_reports (r : Rules) (now : UInt64) (l : List MessageRef) (b : Broker)
    (buffer : (b.tracker t).buffer = l) (accepting : b.dispatcher.accepting = true) :
    ∃ new sent, (pacedPass r now t active (b.idsOf active) l b).1 = sent.length ∧
      Reports r t active l b (pacedPass r now t active (b.idsOf active) l b).2 new sent := by
  induction l generalizing b with
  | nil => exact ⟨[], [], rfl, .stop (.refl b) buffer nofun⟩
  | cons m rest ih =>
      have hnext : ∀ {e new}, Yields b e new → (e.tracker t).buffer = rest →
          ∃ new sent, (pacedPass r now t active (b.idsOf active) rest e).1 = sent.length ∧
            Reports r t active rest e
              (pacedPass r now t active (b.idsOf active) rest e).2 new sent :=
        fun {e _} he hrest => by
          rw [← he.idsOf]
          exact ih e hrest (he.accepting.trans accepting)
      have hcases := broadcast_cases r now .retry (b.awaiting active m) buffer accepting
      unfold pacedPass
      dsimp only
      split
      · generalize broadcast r now t m .retry (b.awaiting active m) b = p at hcases ⊢
        obtain ⟨goes, d⟩ := p
        obtain ⟨rfl, own, hoffered⟩ | ⟨rfl, hdropped⟩ := hcases
        · dsimp only at hoffered ⊢
          have served : ∀ s ∈ active, (d.message m).awaits (b.subscriber s).id = false :=
            fun s hs => by
              cases hlacks : (b.message m).awaits (b.subscriber s).id with
              | false => exact hoffered.not_awaits hlacks
              | true => exact hoffered.served s (mem_awaiting.2 ⟨hs, hlacks⟩)
          obtain ⟨e, hretire, hleft, hrest, hserved⟩ :=
            retire_served hoffered.toYields (hoffered.place.trans buffer) served
          obtain ⟨new, sent, hcount, hreports⟩ := hnext hleft hrest
          rw [hretire]
          exact ⟨own ++ new, m :: sent, congrArg (· + 1) hcount,
            .letGo hleft hoffered.own hserved hreports⟩
        · obtain ⟨new, sent, hcount, hreports⟩ := hnext hdropped.toYields hdropped.buffer
          exact ⟨new, sent, hcount, .drop hdropped.toYields hdropped.gone hreports⟩
      · exact ⟨[], [], rfl, .stop (.refl b) buffer nofun⟩

theorem deliver_reports (r : Rules) (now : UInt64) (active : List SubscriberRef)
    (accepting : b.dispatcher.accepting = true) :
    ∃ new sent, (deliver r now t active (.forTopics r.topics) b).1 = sent.length ∧
      Reports r t active (b.tracker t).buffer b
        (deliver r now t active (.forTopics r.topics) b).2 new sent := by
  cases htopics : r.topics with
  | discardAllowed => exact burstPass_reports r now .discardAllowed nofun _ b rfl accepting
  | discardNone => exact burstPass_reports r now .discardNone (fun _ => htopics) _ b rfl accepting
  | slowestSubRate => exact pacedPass_reports r now _ b rfl accepting

namespace Reports

variable {waiting sent : List MessageRef}

theorem fate (h : Reports r t active waiting b c new sent) (hm : m ∈ sent) (hs : s ∈ active) :
    (b.message m).awaits (b.subscriber s).id = false ∨
      (c.message m).status? (b.subscriber s).id = some .discarded ∨
      ∃ j ∈ new, j.message = m ∧ (b.subscriber j.subscriber).id = (b.subscriber s).id := by
  obtain hsame | hdiscarded | ⟨-, hjob⟩ := h.copies m (b.subscriber s).id
  · exact .inl ((awaits_congr hsame).symm.trans (h.served m hm s hs))
  · exact .inr (.inl hdiscarded)
  · exact .inr (.inr hjob)

/-- Messages may count as sent without any job for them. -/
theorem jobless (h : Reports r t active waiting b c [] sent) (some_sent : sent ≠ []) :
    ∃ m ∈ waiting, ∀ s ∈ active, (b.message m).awaits (b.subscriber s).id = false ∨
      (c.message m).status? (b.subscriber s).id = some .discarded := by
  obtain ⟨m, hm⟩ := List.exists_mem_of_ne_nil sent some_sent
  obtain ⟨done, hdone, hsub, -⟩ := h.left
  refine ⟨m, by rw [hdone]; exact List.mem_append_left _ (hsub.subset hm), fun s hs => ?_⟩
  obtain hearlier | hdiscarded | ⟨j, hj, -⟩ := h.fate hm hs
  · exact .inl hearlier
  · exact .inr hdiscarded
  · exact absurd hj List.not_mem_nil

/-- Jobs without any message that counts as sent are all for one that is held up. -/
theorem unsent (h : Reports r t active waiting b c new []) (some_new : new ≠ []) :
    ∃ m, Held r t active c m ∧ ∀ j ∈ new, j.message = m := by
  have hheld : ∀ j ∈ new, Held r t active c j.message := fun j hj =>
    (h.owed j hj).resolve_left List.not_mem_nil
  obtain ⟨i, hi⟩ := List.exists_mem_of_ne_nil new some_new
  exact ⟨i.message, hheld i hi, fun j hj =>
    Option.some_inj.1 ((hheld j hj).front.symm.trans (hheld i hi).front)⟩

end Reports

/-- What a flush answers while jobs are accepted. On a queue it is true exactly if a job was queued.
On a topic it is true exactly if a message left the buffer with every active subscriber served. So
it may be true without a job, when all copies of what was let go of were dealt with before or are
discarded, and false with jobs, when these are all for a message that a subscriber without room
holds back under the strategy that discards nothing. -/
theorem flush_answers (r : Rules) (now : UInt64) (t : TrackerRef)
    (accepting : b.dispatcher.accepting = true) :
    let p := b.flush r now t
    ∃ new, p.2.dispatcher.jobs = b.dispatcher.jobs ++ new ∧
      (b.active t = [] → p.1 = false ∧ new = []) ∧
      ((b.tracker t).isTopic = false → (p.1 = true ↔ new ≠ [])) ∧
      ((b.tracker t).isTopic = true → b.active t ≠ [] →
        (∃ sent, (p.1 = true ↔ sent ≠ []) ∧
          Reports r t (b.active t) (b.tracker t).buffer b p.2 new sent) ∧
        (p.1 = true → new = [] → ∃ m ∈ (b.tracker t).buffer, ∀ s ∈ b.active t,
          (b.message m).awaits (b.subscriber s).id = false ∨
            (p.2.message m).status? (b.subscriber s).id = some .discarded) ∧
        (p.1 = false → new ≠ [] →
          ∃ m, Held r t (b.active t) p.2 m ∧ ∀ j ∈ new, j.message = m)) := by
  by_cases heard : b.active t = []
  · rw [flush_unheard r now heard]
    exact ⟨[], (Yields.evict b t).jobs, fun _ => ⟨rfl, rfl⟩, fun _ => by simp,
      fun _ h => absurd heard h⟩
  rw [flush_heard r now heard]
  cases htopic : (b.tracker t).isTopic with
  | false =>
      rw [strategyFor_of_queue r htopic]
      obtain ⟨new, hjobs, hcount⟩ := queuePass_jobs r now t (b.active t) r.ceiling
        (b.tracker t).buffer b accepting
      refine ⟨new, hjobs, fun h => absurd h heard, fun _ => ?_, fun h => absurd h Bool.false_ne_true⟩
      simp [deliver, hcount, List.length_pos_iff]
  | true =>
      have htype : (b.tracker t).key.type = .topic := of_decide_eq_true htopic
      rw [htype, strategyFor]
      obtain ⟨new, sent, hcount, hreports⟩ := deliver_reports r now (b.active t) accepting
      rw [hcount]
      refine ⟨new, hreports.jobs, fun h => absurd h heard,
        fun h => absurd h.symm Bool.false_ne_true, fun _ _ => ⟨⟨sent, ?_, hreports⟩, ?_, ?_⟩⟩
      · simp [List.length_pos_iff]
      · rintro htrue rfl
        exact hreports.jobless (List.length_pos_iff.1 (of_decide_eq_true htrue))
      · intro hfalse hsome
        obtain rfl : sent = [] := by simpa using hfalse
        exact hreports.unsent hsome

def halfFull : Broker :=
  (replay ⟨1, .discardNone, []⟩
    [.createSlot "stored", .createMessage 1 "news" "stored" "story" 0 0,
      .createMessage 2 "news" "stored" "report" 0 0,
      .createSubscriber "quick" ⟨"news", .amqp, .topic⟩ "local" 2 default,
      .createSubscriber "slow" ⟨"news", .amqp, .topic⟩ "local" 1 default, .register ⟨0⟩, .register ⟨1⟩,
      .track ⟨"news", .amqp, .topic⟩, .buffer [⟨0⟩] ⟨0⟩ ⟨0⟩, .flush [] 0 ⟨0⟩, .buffer [⟨1⟩] ⟨0⟩ ⟨0⟩]
    default default).1

theorem flush_answers_halfFull :
    let r : Rules := ⟨1, .discardNone, []⟩
    let p := halfFull.flush r 0 ⟨0⟩
    halfFull.dispatcher.accepting = true ∧ p.1 = false ∧
      p.2.dispatcher.jobs = halfFull.dispatcher.jobs ++ [⟨⟨0⟩, ⟨1⟩, ⟨0⟩, .retry⟩] ∧
      Held r ⟨0⟩ (halfFull.active ⟨0⟩) p.2 ⟨1⟩ := by
  have accepting : halfFull.dispatcher.accepting = true := by decide
  obtain ⟨new, hjobs, -, -, htopic⟩ := flush_answers ⟨1, .discardNone, []⟩ 0 ⟨0⟩ accepting
  obtain ⟨-, -, hunsent⟩ := htopic (by decide) (by decide)
  have hnew : halfFull.dispatcher.jobs ++ [⟨⟨0⟩, ⟨1⟩, ⟨0⟩, .retry⟩] = halfFull.dispatcher.jobs ++ new :=
    Eq.trans (by decide) hjobs
  obtain rfl := List.append_cancel_left hnew
  obtain ⟨m, hheld, hone⟩ := hunsent (by decide) (List.cons_ne_nil _ _)
  obtain rfl : ⟨1⟩ = m := hone _ (List.mem_singleton_self _)
  exact ⟨accepting, by decide, hjobs, hheld⟩

/-- The job that the report took goes unreported. -/
theorem unreported_halfFull :
    ¬ ∀ (r : Rules) (b : Broker) (now : UInt64) (t : TrackerRef),
      b.dispatcher.accepting = true →
        ((b.flush r now t).1 = true ↔
          b.dispatcher.jobs.length < (b.flush r now t).2.dispatcher.jobs.length) := by
  intro hall
  have hanswer := hall ⟨1, .discardNone, []⟩ halfFull 0 ⟨0⟩ (by decide)
  exact absurd hanswer (by decide)

/-- A report that nobody may have is reported. -/
example :
    let p := halfFull.flush ⟨1, .discardAllowed, [⟨"embargo", fun _ _ => true⟩]⟩ 0 ⟨0⟩
    p.1 = true ∧ p.2.dispatcher.jobs = halfFull.dispatcher.jobs := by
  decide

end Courier.Broker
