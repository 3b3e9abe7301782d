import Courier.Proofs.QueueVeto

namespace Courier

open Broker

/-- Of the messages in this order each subscriber was handed all that are done with, and nothing
else but perhaps the one at the front. Somebody still lacks that one. -/
structure Abreast (ids : List SubscriberId) (ahead : Prop) (order done waiting : List MessageRef)
    (handed : SubscriberId → List MessageRef) : Prop where
  split : order = done ++ waiting
  unrepeated : order.Nodup
  near : ∀ id ∈ ids, handed id = done ∨
    ahead ∧ ∃ m rest, waiting = m :: rest ∧ handed id = done ++ [m]
  behind : waiting ≠ [] → ∃ id ∈ ids, handed id = done
  outside : ∀ id ∉ ids, handed id = []

namespace Abreast

variable {ids taken : List SubscriberId} {ahead : Prop} {order done waiting rest : List MessageRef}
  {handed : SubscriberId → List MessageRef} {m : MessageRef} {id : SubscriberId}

theorem not_mem_iff (ha : Abreast ids ahead order done (m :: rest) handed) (hid : id ∈ ids) :
    m ∉ handed id ↔ handed id = done := by
  refine ⟨fun hm => ?_, fun he => ?_⟩
  · obtain he | ⟨-, k, rest', hw, he⟩ := ha.near id hid
    · exact he
    · obtain ⟨rfl, -⟩ := List.cons.inj hw
      exact absurd (by simp [he]) hm
  · have hn := ha.unrepeated
    rw [ha.split, List.nodup_append] at hn
    rw [he]
    exact fun hm => hn.2.2 m hm m List.mem_cons_self rfl

theorem handed_prefix (ha : Abreast ids ahead order done waiting handed) (hid : id ∈ ids) :
    handed id <+: order := by
  rw [ha.split]
  obtain he | ⟨-, m, rest, hw, he⟩ := ha.near id hid
  · rw [he]
    exact List.prefix_append done waiting
  · rw [he, hw]
    exact ⟨rest, by rw [List.append_assoc]; rfl⟩

theorem length_handed (ha : Abreast ids ahead order done waiting handed) (hid : id ∈ ids) :
    done.length ≤ (handed id).length ∧ (handed id).length ≤ done.length + 1 := by
  obtain he | ⟨-, m, rest, -, he⟩ := ha.near id hid <;> rw [he] <;> simp

theorem handed_eq (ha : Abreast ids ahead order done waiting handed) (hahead : ¬ ahead)
    (hid : id ∈ ids) : handed id = done := by
  refine (ha.near id hid).resolve_right ?_
  rintro ⟨h, -⟩
  exact hahead h

theorem exists_slowest (ha : Abreast ids ahead order done waiting handed) (hids : ids ≠ []) :
    ∃ id ∈ ids, handed id = done := by
  cases waiting with
  | cons m rest => exact ha.behind (List.cons_ne_nil m rest)
  | nil =>
      obtain ⟨id, hid⟩ := List.exists_mem_of_ne_nil ids hids
      refine ⟨id, hid, (ha.near id hid).resolve_right ?_⟩
      rintro ⟨-, m, rest, hw, -⟩
      cases hw

theorem advance (ha : Abreast ids ahead order done (m :: rest) handed)
    (htaken : ∀ id ∈ taken, id ∈ ids ∧ handed id = done)
    (hall : ∀ id ∈ ids, handed id = done → id ∈ taken) :
    Abreast ids ahead order (done ++ [m]) rest fun id =>
      handed id ++ if id ∈ taken then [m] else [] := by
  have heveryone : ∀ id ∈ ids, handed id ++ (if id ∈ taken then [m] else []) = done ++ [m] := by
    intro id hid
    obtain he | ⟨-, k, rest', hw, he⟩ := ha.near id hid
    · rw [if_pos (hall id hid he), he]
    · obtain ⟨rfl, -⟩ := List.cons.inj hw
      rw [if_neg fun ht => (ha.not_mem_iff hid).2 (htaken id ht).2 (by simp [he]), he, List.append_nil]
  refine ⟨by rw [ha.split, List.append_assoc]; rfl, ha.unrepeated, fun id hid => .inl (heveryone id hid),
    fun _ => ?_, fun id hid => ?_⟩
  · obtain ⟨id, hid, -⟩ := ha.behind (List.cons_ne_nil m rest)
    exact ⟨id, hid, heveryone id hid⟩
  · rw [if_neg fun ht => hid (htaken id ht).1, ha.outside id hid]
    rfl

theorem hold (ha : Abreast ids ahead order done (m :: rest) handed) (hahead : ahead)
    (htaken : ∀ id ∈ taken, id ∈ ids ∧ handed id = done)
    (hlacks : ∃ id ∈ ids, handed id = done ∧ id ∉ taken) :
    Abreast ids ahead order done (m :: rest) fun id =>
      handed id ++ if id ∈ taken then [m] else [] := by
  refine ⟨ha.split, ha.unrepeated, fun id hid => ?_, fun _ => ?_, fun id hid => ?_⟩
  · by_cases ht : id ∈ taken
    · exact .inr ⟨hahead, m, rest, rfl, by rw [if_pos ht, (htaken id ht).2]⟩
    · rw [if_neg ht, List.append_nil]
      exact ha.near id hid
  · obtain ⟨id, hid, he, ht⟩ := hlacks
    exact ⟨id, hid, by rw [if_neg ht, he, List.append_nil]⟩
  · rw [if_neg fun ht => hid (htaken id ht).1, ha.outside id hid]
    rfl

theorem extend (ha : Abreast ids ahead order done waiting handed) (hids : ids ≠ [])
    {batch : List MessageRef} (hn : (order ++ batch).Nodup) :
    Abreast ids ahead (order ++ batch) done (waiting ++ batch) handed := by
  refine ⟨by rw [ha.split, List.append_assoc], hn, fun id hid => ?_,
    fun _ => ha.exists_slowest hids, ha.outside⟩
  refine (ha.near id hid).imp_right fun ⟨hahead, m, rest, hw, he⟩ => ?_
  exact ⟨hahead, m, rest ++ batch, by rw [hw]; rfl, he⟩

theorem of_nil (ha : Abreast ids ahead [] done waiting handed) (ids' : List SubscriberId) :
    Abreast ids' ahead [] done waiting handed := by
  obtain ⟨rfl, rfl⟩ := List.append_eq_nil_iff.1 ha.split.symm
  have hnone : ∀ id, handed id = [] := fun id => by
    by_cases hid : id ∈ ids
    · exact (ha.near id hid).resolve_right fun ⟨_, _, _, hw, _⟩ => nomatch hw
    · exact ha.outside id hid
  exact ⟨rfl, List.nodup_nil, fun id _ => .inl (hnone id), fun h => absurd rfl h, fun id _ => hnone id⟩

end Abreast

namespace Broker

variable {r : Rules} {b c : Broker} {m n : MessageRef} {s : SubscriberRef} {t : TrackerRef}
  {policy : FailurePolicy} {vetoes : List Veto} {now : UInt64} {active l : List SubscriberRef}
  {ids : List SubscriberId} {ahead : Prop} {order done waiting rest : List MessageRef}
  {handed : SubscriberId → List MessageRef}

def handedBy (b : Broker) (jobs : List Job) (id : SubscriberId) : List MessageRef :=
  (jobs.filter fun j => (b.subscriber j.subscriber).id = id).map Job.message

theorem handedBy_append (b : Broker) (jobs jobs' : List Job) (id : SubscriberId) :
    b.handedBy (jobs ++ jobs') id = b.handedBy jobs id ++ b.handedBy jobs' id := by
  rw [handedBy, List.filter_append, List.map_append]
  rfl

theorem Preserves.handedBy (hp : Preserves b c) (jobs : List Job) (id : SubscriberId) :
    c.handedBy jobs id = b.handedBy jobs id := by
  simp only [Broker.handedBy, hp.subscriber_id]

theorem handedBy_map (hn : (b.idsOf l).Nodup) (id : SubscriberId) :
    b.handedBy (l.map fun s => ⟨s, m, t, policy⟩) id = if id ∈ b.idsOf l then [m] else [] := by
  induction l with
  | nil => rfl
  | cons s l ih =>
      obtain ⟨hs, hn⟩ : (b.subscriber s).id ∉ b.idsOf l ∧ (b.idsOf l).Nodup := List.nodup_cons.1 hn
      have hrest := ih hn
      rw [List.map_cons, ← List.singleton_append, handedBy_append, hrest]
      by_cases he : (b.subscriber s).id = id
      · subst he
        have hin : (b.subscriber s).id ∈ b.idsOf (s :: l) := List.mem_cons_self
        rw [if_neg hs, if_pos hin]
        simp [Broker.handedBy]
      · have hiff : id ∈ b.idsOf (s :: l) ↔ id ∈ b.idsOf l :=
          List.mem_cons.trans (or_iff_right (Ne.symm he))
        simp only [hiff]
        simp [Broker.handedBy, he]

structure Knows (b : Broker) (handed : SubscriberId → List MessageRef) : Prop where
  handedOff : ∀ m id, m ∈ handed id →
    ((b.message m).status? id).any RecipientStatus.isHandedOff = true
  unrecorded : ∀ m id, m ∉ handed id → (b.message m).status? id = none

namespace Knows

variable {id : SubscriberId}

theorem mono (hk : b.Knows handed)
    (hnone : ∀ m id, (b.message m).status? id = none → (c.message m).status? id = none)
    (hsome : ∀ m id, ((b.message m).status? id).any RecipientStatus.isHandedOff = true →
      ((c.message m).status? id).any RecipientStatus.isHandedOff = true) : c.Knows handed :=
  ⟨fun m id hm => hsome m id (hk.handedOff m id hm), fun m id hm => hnone m id (hk.unrecorded m id hm)⟩

theorem congr (hk : b.Knows handed) (hr : ∀ m, (c.message m).recipients = (b.message m).recipients) :
    c.Knows handed := by
  have hstatus : ∀ m id, (c.message m).status? id = (b.message m).status? id := fun m id => by
    rw [Message.status?, Message.status?, hr]
  exact hk.mono (fun m id h => (hstatus m id).trans h) fun m id h => by rwa [hstatus]

theorem isHandedOff_iff (hk : b.Knows handed) :
    ((b.message m).status? id).any RecipientStatus.isHandedOff = true ↔ m ∈ handed id := by
  refine ⟨fun h => ?_, hk.handedOff m id⟩
  by_contra hm
  rw [hk.unrecorded m id hm] at h
  exact Bool.false_ne_true h

theorem awaits_iff (hk : b.Knows handed) : (b.message m).awaits id = true ↔ m ∉ handed id := by
  refine ⟨fun h hm => ?_, fun hm => Message.awaits_iff.2 (.inl (hk.unrecorded m id hm))⟩
  have hid := hk.handedOff m id hm
  rw [Message.awaits_iff] at h
  obtain h | h := h <;> rw [h] at hid <;> exact Bool.false_ne_true hid

end Knows

structure Dispatched (b : Broker) (m : MessageRef) (t : TrackerRef) (policy : FailurePolicy)
    (l : List SubscriberRef) (c : Broker) : Prop extends Touches m b c where
  queued : c.dispatcher.jobs = b.dispatcher.jobs ++ l.map fun s => ⟨s, m, t, policy⟩
  buffer : ∀ v, (c.tracker v).buffer = (b.tracker v).buffer
  purged : (c.message m).purged = (b.message m).purged
  expiredFlag : (c.message m).expired = (b.message m).expired
  status : ∀ id, (c.message m).status? id =
    if id ∈ b.idsOf l then some .scheduled else (b.message m).status? id

theorem Dispatched.nil (b : Broker) (m : MessageRef) (t : TrackerRef) (policy : FailurePolicy) :
    Dispatched b m t policy [] b :=
  { Touches.refl m b with
    queued := (List.append_nil _).symm
    buffer := fun _ => rfl
    purged := rfl
    expiredFlag := rfl
    status := fun _ => rfl }

theorem Dispatched.cons
    (hd : Dispatched ((b.claim s m t policy).withJobs (b.dispatcher.jobs ++ [⟨s, m, t, policy⟩])) m t
      policy l c) : Dispatched b m t policy (s :: l) c := by
  have ht : Touches m b ((b.claim s m t policy).withJobs (b.dispatcher.jobs ++ [⟨s, m, t, policy⟩])) :=
    (Touches.claim b s m t policy).trans
      (by simpa using Touches.addJob (b.claim s m t policy) ⟨s, m, t, policy⟩)
  have hmessage : ((b.claim s m t policy).withJobs
      (b.dispatcher.jobs ++ [⟨s, m, t, policy⟩])).message m =
        (b.message m).setStatus (b.subscriber s).id .scheduled := by
    rw [(withJobs_frame _ _).2.1, message_claim, if_pos rfl]
  refine { ht.trans hd.toTouches with
    queued := ?_, buffer := fun v => ?_, purged := ?_, expiredFlag := ?_, status := fun id => ?_ }
  · rw [hd.queued, List.map_cons]
    simp
  · rw [hd.buffer]
    simp
  · rw [hd.purged, hmessage]
    rfl
  · rw [hd.expiredFlag, hmessage]
    rfl
  · rw [hd.status, hmessage, Message.status?_setStatus, ht.idsOf]
    have hiff : id ∈ b.idsOf (s :: l) ↔ id = (b.subscriber s).id ∨ id ∈ b.idsOf l := List.mem_cons
    simp only [hiff]
    split <;> split <;> simp_all

theorem broadcast_unopposed (r : Rules) (policy : FailurePolicy) (hn : (b.idsOf l).Nodup)
    (hu : b.Unopposed vetoes now t m) (accepting : b.dispatcher.accepting = true)
    (hl : ∀ s ∈ l, s ∈ b.active t ∧ (b.message m).awaits (b.subscriber s).id = true) :
    ∃ c, broadcast { r with vetoes } now t m policy l b = (true, c) ∧
      Dispatched b m t policy l c := by
  induction l generalizing b with
  | nil => exact ⟨b, rfl, .nil b m t policy⟩
  | cons s l ih =>
      obtain ⟨hs, hn⟩ : (b.subscriber s).id ∉ b.idsOf l ∧ (b.idsOf l).Nodup := List.nodup_cons.1 hn
      obtain ⟨hactive, hlacks⟩ := hl s List.mem_cons_self
      have hone := (Dispatched.nil _ m t policy).cons (b := b) (s := s)
      obtain ⟨c, hc, hd⟩ := ih (by rwa [hone.idsOf])
        (hu.congr hone.toPreserves hone.purges hone.purged hone.expiredFlag)
        (hone.accepting.trans accepting) fun u hmem => by
          obtain ⟨ha, hw⟩ := hl u (List.mem_cons_of_mem s hmem)
          refine ⟨by rwa [hone.active_eq], ?_⟩
          rw [hone.subscriber_id, awaits_congr ((hone.status _).trans (if_neg ?_))]
          · exact hw
          · rw [idsOf, List.map_singleton, List.mem_singleton]
            intro he
            rw [← he] at hs
            exact hs (List.mem_map_of_mem hmem)
      refine ⟨c, ?_, hd.cons⟩
      rw [broadcast, handle_of_deliverable (hu.deliverable hactive) hlacks accepting]
      exact hc

theorem Dispatched.knows (hd : Dispatched b m t policy l c) (hk : b.Knows handed) :
    c.Knows fun id => handed id ++ if id ∈ b.idsOf l then [m] else [] := by
  refine ⟨fun n id hn => ?_, fun n id hn => ?_⟩
  · by_cases he : n = m
    · subst he
      rw [hd.status]
      split
      · rfl
      · next hid => exact hk.handedOff n id (by simpa [hid] using hn)
    · rw [hd.others n he]
      refine hk.handedOff n id ((List.mem_append.1 hn).resolve_right fun h => he ?_)
      split at h
      · exact List.mem_singleton.1 h
      · exact absurd h List.not_mem_nil
  · obtain ⟨hold, hnew⟩ := not_or.1 (mt List.mem_append.2 hn)
    by_cases he : n = m
    · subst he
      rw [hd.status, if_neg fun hid => hnew (by rw [if_pos hid]; exact List.mem_singleton.2 rfl)]
      exact hk.unrecorded n id hold
    · rw [hd.others n he]
      exact hk.unrecorded n id hold

structure Passing (vetoes : List Veto) (now : UInt64) (t : TrackerRef) (active : List SubscriberRef)
    (ids : List SubscriberId) (ahead : Prop) (order done waiting : List MessageRef)
    (handed : SubscriberId → List MessageRef) (b : Broker) : Prop where
  accepting : b.dispatcher.accepting = true
  hears : b.active t = active
  named : b.idsOf active = ids
  distinct : ids.Nodup
  buffer : (b.tracker t).buffer = waiting
  unopposed : ∀ m ∈ waiting, b.Unopposed vetoes now t m
  knows : b.Knows handed
  abreast : Abreast ids ahead order done waiting handed

namespace Passing

theorem awaits_iff (hp : Passing vetoes now t active ids ahead order done (m :: rest) handed b)
    (hs : s ∈ active) :
    (b.message m).awaits (b.subscriber s).id = true ↔ handed (b.subscriber s).id = done := by
  have hid : (b.subscriber s).id ∈ ids := hp.named ▸ List.mem_map_of_mem hs
  exact hp.knows.awaits_iff.trans (hp.abreast.not_mem_iff hid)

theorem hand (hp : Passing vetoes now t active ids ahead order done (m :: rest) handed b)
    (hl : l.Sublist (b.awaiting active m)) (r : Rules) (policy : FailurePolicy) :
    ∃ c, broadcast { r with vetoes } now t m policy l b = (true, c) ∧ Dispatched b m t policy l c ∧
      c.Knows (fun id => handed id ++ if id ∈ b.idsOf l then [m] else []) ∧
      (∀ id, b.handedBy (l.map fun s => ⟨s, m, t, policy⟩) id =
        if id ∈ b.idsOf l then [m] else []) ∧
      ∀ id ∈ b.idsOf l, id ∈ ids ∧ handed id = done := by
  have hlacks : ∀ s ∈ l, s ∈ active ∧ (b.message m).awaits (b.subscriber s).id = true :=
    fun s hs => List.mem_filter.1 (hl.subset hs)
  have hn : (b.idsOf l).Nodup := by
    refine List.Nodup.sublist ((hl.trans List.filter_sublist).map _) ?_
    change (b.idsOf active).Nodup
    rw [hp.named]
    exact hp.distinct
  obtain ⟨c, hc, hd⟩ := broadcast_unopposed r policy hn (hp.unopposed m List.mem_cons_self) hp.accepting
    fun s hs => ⟨hp.hears.symm ▸ (hlacks s hs).1, (hlacks s hs).2⟩
  refine ⟨c, hc, hd, hd.knows hp.knows, handedBy_map hn, fun id hid => ?_⟩
  obtain ⟨s, hs, rfl⟩ := List.mem_map.1 hid
  obtain ⟨hactive, hawaits⟩ := hlacks s hs
  exact ⟨hp.named ▸ List.mem_map_of_mem hactive, (hp.awaits_iff hactive).1 hawaits⟩

theorem advance (hp : Passing vetoes now t active ids ahead order done (m :: rest) handed b)
    (hl : l.Sublist (b.awaiting active m)) (hall : ∀ s ∈ b.awaiting active m, s ∈ l) (r : Rules)
    (policy : FailurePolicy) :
    ∃ c d, broadcast { r with vetoes } now t m policy l b = (true, c) ∧
      c.retireIfHandedOff t ids m = (true, d) ∧ Preserves b d ∧
      d.dispatcher.jobs = b.dispatcher.jobs ++ (l.map fun s => ⟨s, m, t, policy⟩) ∧
      Passing vetoes now t active ids ahead order (done ++ [m]) rest
        (fun id => handed id ++ b.handedBy (l.map fun s => ⟨s, m, t, policy⟩) id) d := by
  obtain ⟨c, hc, hd, hknows, hby, htaken⟩ := hp.hand hl r policy
  have hall' : ∀ id ∈ ids, handed id = done → id ∈ b.idsOf l := fun id hid he => by
    rw [← hp.named] at hid
    obtain ⟨s, hs, rfl⟩ := List.mem_map.1 hid
    exact List.mem_map_of_mem (hall s (List.mem_filter.2 ⟨hs, (hp.awaits_iff hs).2 he⟩))
  have habreast := hp.abreast.advance htaken hall'
  have hfront : (c.tracker t).buffer = m :: rest := (hd.buffer t).trans hp.buffer
  have hhanded : (c.message m).isHandedOffTo ids = true := List.all_eq_true.2 fun id hid => by
    refine hknows.handedOff m id ?_
    obtain he | ⟨-, k, rest', -, he⟩ := habreast.near id hid <;> rw [he] <;> simp
  have hbuffered : c.isBufferedIn t m = true :=
    (isBufferedIn_iff c t m).2 ⟨m, by rw [hfront]; exact List.mem_cons_self, rfl⟩
  have ht : Touches m b ((c.unbuffer t m).settleIfComplete m) :=
    (hd.toTouches.trans (Touches.unbuffer c t m)).trans (Touches.settleIfComplete _ m)
  refine ⟨c, _, hc, by rw [retireIfHandedOff, hhanded, hbuffered]; rfl, ht.toPreserves, ?_, ?_⟩
  · simpa using hd.queued
  · simp only [hby]
    refine ⟨ht.accepting.trans hp.accepting, (ht.active_eq t).trans hp.hears,
      (ht.idsOf active).trans hp.named, hp.distinct, ?_, fun n hn => ?_, hknows.congr (by simp), habreast⟩
    · rw [(settleIfComplete_frame _ m).2.1, buffer_unbuffer_front c t m rest hfront]
    · have hne : n ≠ m := fun he => by
        have hnodup := hp.abreast.unrepeated
        rw [hp.abreast.split, List.nodup_append] at hnodup
        exact (List.nodup_cons.1 hnodup.2.1).1 (he ▸ hn)
      have hsame := ht.others n hne
      exact (hp.unopposed n (List.mem_cons_of_mem m hn)).congr ht.toPreserves ht.purges (by rw [hsame])
        (by rw [hsame])

theorem hold (hp : Passing vetoes now t active ids ahead order done (m :: rest) handed b)
    (hl : l.Sublist (b.awaiting active m)) (hahead : ahead) (hs : s ∈ b.awaiting active m)
    (hsl : s ∉ l) (r : Rules) (policy : FailurePolicy) :
    ∃ c, broadcast { r with vetoes } now t m policy l b = (true, c) ∧
      c.retireIfHandedOff t ids m = (false, c) ∧
      c.dispatcher.jobs = b.dispatcher.jobs ++ (l.map fun s => ⟨s, m, t, policy⟩) ∧
      Passing vetoes now t active ids ahead order done (m :: rest)
        (fun id => handed id ++ b.handedBy (l.map fun s => ⟨s, m, t, policy⟩) id) c := by
  obtain ⟨c, hc, hd, hknows, hby, htaken⟩ := hp.hand hl r policy
  obtain ⟨hactive, hawaits⟩ := List.mem_filter.1 hs
  have hid : (b.subscriber s).id ∈ ids := hp.named ▸ List.mem_map_of_mem hactive
  have hlacks : handed (b.subscriber s).id = done := (hp.awaits_iff hactive).1 hawaits
  have hout : (b.subscriber s).id ∉ b.idsOf l := fun h => by
    obtain ⟨u, hu, he⟩ := List.mem_map.1 h
    have hdistinct : (b.idsOf active).Nodup := by rw [hp.named]; exact hp.distinct
    have hsame := List.inj_on_of_nodup_map hdistinct (List.mem_filter.1 (hl.subset hu)).1 hactive he
    exact hsl (hsame ▸ hu)
  have hnot : (c.message m).isHandedOffTo ids = false := by
    refine Bool.eq_false_iff.2 fun h => ?_
    have hm := hknows.isHandedOff_iff.1 (List.all_eq_true.1 h _ hid)
    rw [if_neg hout, List.append_nil] at hm
    exact (hp.abreast.not_mem_iff hid).2 hlacks hm
  refine ⟨c, hc, by rw [retireIfHandedOff, hnot]; rfl, hd.queued, ?_⟩
  simp only [hby]
  refine ⟨hd.accepting.trans hp.accepting, (hd.active_eq t).trans hp.hears,
    (hd.idsOf active).trans hp.named, hp.distinct, (hd.buffer t).trans hp.buffer, fun n hn => ?_, hknows,
    hp.abreast.hold hahead htaken ⟨_, hid, hlacks, hout⟩⟩
  by_cases he : n = m
  · subst he
    exact (hp.unopposed n hn).congr hd.toPreserves hd.purges hd.purged hd.expiredFlag
  · have hsame := hd.others n he
    exact (hp.unopposed n hn).congr hd.toPreserves hd.purges (by rw [hsame]) (by rw [hsame])

theorem chain {jobs new : List Job} {d e : Broker} (hkeep : Preserves b d)
    (hjobs : d.dispatcher.jobs = b.dispatcher.jobs ++ jobs)
    (hrest : ∃ done' waiting', e.dispatcher.jobs = d.dispatcher.jobs ++ new ∧
      Passing vetoes now t active ids ahead order done' waiting'
        (fun id => (handed id ++ b.handedBy jobs id) ++ d.handedBy new id) e) :
    ∃ new done' waiting', e.dispatcher.jobs = b.dispatcher.jobs ++ new ∧
      Passing vetoes now t active ids ahead order done' waiting'
        (fun id => handed id ++ b.handedBy new id) e := by
  obtain ⟨done', waiting', hnew, hp⟩ := hrest
  refine ⟨jobs ++ new, done', waiting', by rw [hnew, hjobs, List.append_assoc], ?_⟩
  simpa only [hkeep.handedBy, handedBy_append, List.append_assoc] using hp

theorem idle (hp : Passing vetoes now t active ids ahead order done waiting handed b) :
    ∃ new done' waiting', b.dispatcher.jobs = b.dispatcher.jobs ++ new ∧
      Passing vetoes now t active ids ahead order done' waiting'
        (fun id => handed id ++ b.handedBy new id) b := by
  have hnone : (fun id => handed id ++ b.handedBy [] id) = handed := by
    funext id
    exact List.append_nil _
  exact ⟨[], done, waiting, (List.append_nil _).symm, by rw [hnone]; exact hp⟩

/-- A burst that discards nothing goes on until somebody has no room. -/
theorem burst (hp : Passing vetoes now t active ids ahead order done waiting handed b)
    (hahead : ahead) (r : Rules) :
    ∃ new done' waiting',
      (burstPass { r with vetoes } now t active .discardNone ids waiting b).2.dispatcher.jobs =
        b.dispatcher.jobs ++ new ∧
      Passing vetoes now t active ids ahead order done' waiting'
        (fun id => handed id ++ b.handedBy new id)
        (burstPass { r with vetoes } now t active .discardNone ids waiting b).2 := by
  induction waiting generalizing b done handed with
  | nil => exact hp.idle
  | cons m rest ih =>
      unfold burstPass
      dsimp only
      rw [if_neg (by decide)]
      by_cases hfull : ((b.awaiting active m).filter fun s => !b.hasRoom s) = []
      · have hroom : ∀ s ∈ b.awaiting active m, s ∈ (b.awaiting active m).filter b.hasRoom :=
          fun s hs => List.mem_filter.2 ⟨hs, by simpa using List.filter_eq_nil_iff.1 hfull s hs⟩
        obtain ⟨c, d, hc, hret, hkeep, hjobs, hnext⟩ :=
          hp.advance List.filter_sublist hroom r (failurePolicy .discardNone)
        obtain ⟨new, hrest⟩ := ih hnext
        rw [hc]
        dsimp only
        rw [hret]
        exact chain hkeep hjobs hrest
      · obtain ⟨s, hs⟩ := List.exists_mem_of_ne_nil _ hfull
        obtain ⟨hs, hroom⟩ := List.mem_filter.1 hs
        have hsl : s ∉ (b.awaiting active m).filter b.hasRoom := fun h => by
          rw [(List.mem_filter.1 h).2] at hroom
          exact Bool.false_ne_true hroom
        obtain ⟨c, hc, hret, hjobs, hhold⟩ :=
          hp.hold List.filter_sublist hahead hs hsl r (failurePolicy .discardNone)
        rw [hc]
        dsimp only
        rw [hret]
        dsimp only
        rw [if_pos (by simpa using hfull)]
        exact ⟨_, done, m :: rest, hjobs, hhold⟩

/-- A paced pass goes on as long as everybody has room. -/
theorem paced (hp : Passing vetoes now t active ids ahead order done waiting handed b) (r : Rules) :
    ∃ new done' waiting',
      (pacedPass { r with vetoes } now t active ids waiting b).2.dispatcher.jobs =
        b.dispatcher.jobs ++ new ∧
      Passing vetoes now t active ids ahead order done' waiting'
        (fun id => handed id ++ b.handedBy new id)
        (pacedPass { r with vetoes } now t active ids waiting b).2 := by
  induction waiting generalizing b done handed with
  | nil => exact hp.idle
  | cons m rest ih =>
      unfold pacedPass
      dsimp only
      split
      · obtain ⟨c, d, hc, hret, hkeep, hjobs, hnext⟩ :=
          hp.advance (List.Sublist.refl _) (fun _ hs => hs) r .retry
        obtain ⟨new, hrest⟩ := ih hnext
        rw [hc]
        dsimp only
        rw [hret]
        exact chain hkeep hjobs hrest
      · exact hp.idle

end Passing

end Broker

end Courier
