import Courier.Proofs.Abreast
import Courier.Proofs.LossFree
import Courier.Proofs.Still

namespace Courier

open Broker

/-- One topic is worked on, with subscribers that are registered before a message is buffered and
with an open dispatcher. Each message is buffered once, nothing takes messages away or puts them back,
none is expired when it is flushed, and all jobs succeed. -/
def undisturbedTerms (key : DestinationKey) (b : Broker) (h : Journal) : Operation → Prop
  | .register _ => h.accepted = []
  | .track k => k = key
  | .buffer batch _ t =>
      (b.tracker t).key = key ∧ b.active t ≠ [] ∧ (h.accepted ++ b.matching t batch).Nodup
  | .flush _ now t | .send _ now t =>
      (b.tracker t).key = key ∧ b.active t ≠ [] ∧ ∀ m ∈ (b.tracker t).buffer, b.Fit now m
  | .findNext _ active => active ≠ []
  | .runJob place => ∀ j ∈ b.dispatcher.jobs[place]?, (b.send j.subscriber j.message).1 = .sent
  | .createSlot _ | .createMessage .. | .createSubscriber .. | .connect .. | .acknowledge .. => True
  | _ => False

instance (b : Broker) (now : UInt64) (m : MessageRef) : Decidable (b.Fit now m) :=
  decidable_of_iff (b.isPurged m = false ∧ (b.message m).expired = false ∧
    (b.message m).hasExpired now = false)
    ⟨fun h => ⟨h.1, h.2.1, h.2.2⟩, fun h => ⟨h.kept, h.unmarked, h.timely⟩⟩

instance (key : DestinationKey) (b : Broker) (h : Journal) :
    (op : Operation) → Decidable (undisturbedTerms key b h op)
  | .register _ => inferInstanceAs (Decidable (h.accepted = []))
  | .track k => inferInstanceAs (Decidable (k = key))
  | .buffer batch _ t => inferInstanceAs (Decidable ((b.tracker t).key = key ∧ b.active t ≠ [] ∧
      (h.accepted ++ b.matching t batch).Nodup))
  | .flush _ now t | .send _ now t => inferInstanceAs (Decidable ((b.tracker t).key = key ∧
      b.active t ≠ [] ∧ ∀ m ∈ (b.tracker t).buffer, b.Fit now m))
  | .findNext _ active => inferInstanceAs (Decidable (active ≠ []))
  | .runJob place => inferInstanceAs (Decidable (∀ j ∈ b.dispatcher.jobs[place]?,
      (b.send j.subscriber j.message).1 = .sent))
  | .createSlot _ | .createMessage .. | .createSubscriber .. | .connect .. | .acknowledge .. =>
      .isTrue trivial
  | .unregister _ | .rebuffer .. | .requeue .. | .clear _ | .purge .. | .close | .shutdown
  | .deleteExpired _ => .isFalse id

namespace Operation

def Agreed (b : Broker) : Operation → Prop
  | flush vetoes _ t | send vetoes _ t => ∀ v ∈ vetoes, ∀ s ∈ b.active t,
      ∀ m ∈ (b.tracker t).buffer, ∀ x y, x.made = (b.subscriber s).made →
        y.made = (b.message m).made → v.rejects x y = false
  | _ => True

def Answers (b : Broker) : Operation → Prop
  | acknowledge s m _ => (b.message m).status? (b.subscriber s).id ≠ none
  | _ => True

instance (b : Broker) : (op : Operation) → Decidable (op.Answers b)
  | acknowledge s m _ =>
      inferInstanceAs (Decidable ((b.message m).status? (b.subscriber s).id ≠ none))
  | createSlot _ | createMessage .. | createSubscriber .. | connect .. | register _ | unregister _
  | track _ | buffer .. | rebuffer .. | requeue .. | flush .. | send .. | findNext .. | clear _
  | purge .. | runJob _ | close | shutdown | deleteExpired _ => .isTrue trivial

def asksNobody (op : Operation) : Bool := op.delivery?.all fun d => d.1.isEmpty

theorem agreed_of_asksNobody {op : Operation} (h : op.asksNobody = true) (b : Broker) :
    op.Agreed b := by
  cases op with
  | flush vetoes | send vetoes =>
      obtain rfl : vetoes = [] := List.isEmpty_iff.1 h
      exact fun v hv => absurd hv List.not_mem_nil
  | _ => trivial

def hands (r : Rules) (b : Broker) (op : Operation) (id : SubscriberId) : List MessageRef :=
  b.handedBy (op.submitted r b) id

theorem hands_eq_nil {r : Rules} {b : Broker} {op : Operation}
    (h : (op.apply r b).dispatcher.jobs.length ≤ b.dispatcher.jobs.length) (id : SubscriberId) :
    op.hands r b id = [] := by
  rw [hands, submitted_eq_nil h]
  rfl

end Operation

def abreastTerms (key : DestinationKey) (b : Broker) (h : Journal) (op : Operation) : Prop :=
  undisturbedTerms key b h op ∧ op.Agreed b ∧ op.Answers b

def handedOver (r : Rules) (id : SubscriberId) : List Operation → Broker → List MessageRef
  | [], _ => []
  | op :: rest, b => op.hands r b id ++ handedOver r id rest (op.apply r b)

namespace Broker

def waiting (b : Broker) (key : DestinationKey) : List MessageRef :=
  match b.find? key.tracked with
  | some t => (b.tracker t).buffer
  | none => []

structure InStep (b : Broker) (key : DestinationKey) (ahead : Prop) (h : Journal)
    (handed : SubscriberId → List MessageRef) : Prop where
  serves : b.Serves key
  accepting : b.dispatcher.accepting = true
  knows : b.Knows handed
  abreast : ∃ done, Abreast (b.audience key) ahead h.accepted done (b.waiting key) handed

variable {r : Rules} {b c : Broker} {h : Journal} {op : Operation} {key : DestinationKey}
  {t : TrackerRef} {ahead : Prop} {handed : SubscriberId → List MessageRef} {vetoes : List Veto}
  {now : UInt64}

theorem Serves.waiting_eq (hv : b.Serves key) (ht : (b.tracker t).key = key) :
    b.waiting key = (b.tracker t).buffer := by
  rw [waiting, hv.mapped t ht]

theorem Knows.runJob (hk : b.Knows handed) {place : Nat}
    (hsend : ∀ j ∈ b.dispatcher.jobs[place]?, (b.send j.subscriber j.message).1 = .sent) :
    (b.runJob place).Knows handed := by
  unfold Broker.runJob
  cases hj : b.dispatcher.jobs[place]? with
  | none => exact hk
  | some j =>
      have hsent : ((b.withJobs (b.dispatcher.jobs.eraseIdx place)).send j.subscriber j.message).1 =
          .sent := hsend j hj
      dsimp only
      rw [execute_eq, if_pos hsent]
      refine hk.mono (fun n u hnone => ?_) fun n u hsome => ?_
      · rw [message_markDelivered]
        split
        · next hm =>
            obtain ⟨rfl, hscheduled⟩ := hm
            rw [Message.status?_setStatus, if_neg fun hu => ?_]
            · simpa using hnone
            · rw [hu] at hnone
              have hrecord : (b.message j.message).status? (b.subscriber j.subscriber).id =
                  some .scheduled := by simpa using hscheduled
              exact nomatch hnone.symm.trans hrecord
        · simpa using hnone
      · rw [message_markDelivered]
        split
        · rw [Message.status?_setStatus]
          split
          · rfl
          · simpa using hsome
        · simpa using hsome

theorem Knows.acknowledge (hk : b.Knows handed) {s : SubscriberRef} {m : MessageRef}
    (hrecorded : (b.message m).status? (b.subscriber s).id ≠ none) (type : DestinationType) :
    (b.acknowledge s m type).Knows handed := by
  have hstatus : ∀ n u, ((b.acknowledge s m type).message n).status? u =
      if n = m ∧ u = (b.subscriber s).id then some .acknowledged else (b.message n).status? u := by
    intro n u
    rw [Message.status?, recipients_acknowledge]
    by_cases hn : n = m
    · subst hn
      rw [if_pos rfl, ← Message.status?, Message.status?_setStatus]
      simp
    · rw [if_neg hn, if_neg fun h => hn h.1]
      rfl
  refine hk.mono (fun n u hnone => ?_) fun n u hsome => ?_
  · rw [hstatus, if_neg]
    · exact hnone
    · rintro ⟨rfl, rfl⟩
      exact hrecorded hnone
  · rw [hstatus]
    split
    · rfl
    · exact hsome

namespace InStep

theorem pass (hx : b.InStep key (r.topics = .discardNone) h handed) (hs : b.Sound)
    (htopic : key.type = .topic) (htopics : r.topics ≠ .discardAllowed)
    (hkey : (b.tracker t).key = key) (hunopposed : ∀ m ∈ (b.tracker t).buffer, b.Unopposed vetoes now t m)
    (hc : (deliver { r with vetoes } now t (b.active t)
      (strategyFor { r with vetoes } (b.tracker t).key.type) b).2 = c) :
    ∃ new, c.dispatcher.jobs = b.dispatcher.jobs ++ new ∧
      c.Knows (fun id => handed id ++ b.handedBy new id) ∧
      ∃ done, Abreast (b.audience key) (r.topics = .discardNone) h.accepted done (c.tracker t).buffer
        fun id => handed id ++ b.handedBy new id := by
  obtain ⟨done, ha⟩ := hx.abreast
  have hnamed : b.idsOf (b.active t) = b.audience key := by rw [audience, active, hkey]
  rw [hx.serves.waiting_eq hkey] at ha
  have hp : Passing vetoes now t (b.active t) (b.audience key) _ h.accepted done (b.tracker t).buffer
      handed b :=
    ⟨hx.accepting, rfl, hnamed, hnamed ▸ hs.active_nodup t, rfl, hunopposed, hx.knows, ha⟩
  have hstrategy : strategyFor { r with vetoes } (b.tracker t).key.type = .forTopics r.topics := by
    rw [hkey, htopic]
    rfl
  have hpass : ∃ new done' waiting', c.dispatcher.jobs = b.dispatcher.jobs ++ new ∧
      Passing vetoes now t (b.active t) (b.audience key) (r.topics = .discardNone) h.accepted done'
        waiting' (fun id => handed id ++ b.handedBy new id) c := by
    have hburst := fun hahead => hp.burst hahead r
    have hpaced := hp.paced r
    rw [hstrategy] at hc
    unfold Broker.deliver at hc
    rw [← hc, hnamed]
    -- The rules are told apart last, as each pass is given all of them.
    cases hr : r.topics with
    | discardAllowed => exact absurd hr htopics
    | discardNone => rw [hr] at hburst; exact hburst rfl
    | slowestSubRate => rw [hr] at hpaced; exact hpaced
  obtain ⟨new, done', waiting', hjobs, hend⟩ := hpass
  exact ⟨new, hjobs, hend.knows, done', hend.buffer.symm ▸ hend.abreast⟩

end InStep

theorem waiting_congr (htracked : c.tracked = b.tracked)
    (hbuffer : ∀ t, (c.tracker t).buffer = (b.tracker t).buffer) (key : DestinationKey) :
    c.waiting key = b.waiting key := by
  rw [waiting, waiting, find?, find?, htracked]
  split
  · exact hbuffer _
  · rfl

theorem waiting_track (b : Broker) (key : DestinationKey) :
    (b.track key).2.waiting key = b.waiting key := by
  rw [track_eq]
  split
  · rfl
  · next hnone =>
      have hdefault : b.tracker ⟨b.trackers.size⟩ = default :=
        b.trackers.get_of_size_le (Nat.le_refl _)
      rw [waiting, waiting, hnone, find?, find?_trackNew, if_pos rfl]
      dsimp only
      rw [buffer_trackNew, hdefault]
      rfl

theorem waiting_bufferBatch (hv : b.Serves key) (ht : (b.tracker t).key = key)
    (batch : List MessageRef) (p : SlotRef) (htracked : (b.bufferBatch batch p t).tracked = b.tracked) :
    (b.bufferBatch batch p t).waiting key = b.waiting key ++ b.matching t batch := by
  rw [waiting, waiting, find?, htracked, ← find?, hv.mapped t ht]
  dsimp only
  rw [bufferBatch, buffer_foldl_accept, if_pos rfl]
  rfl

end Broker

variable {r : Rules} {b c : Broker} {h : Journal} {op : Operation} {key : DestinationKey}
  {t : TrackerRef} {handed : SubscriberId → List MessageRef}

theorem heard_of_undisturbedTerms (ht : undisturbedTerms key b h op) : op.Heard b := by
  cases op with
  | flush | send => exact ht.2.1
  | findNext => exact ht
  | _ => trivial

namespace Broker.InStep

variable {ahead : Prop} {vetoes : List Veto} {now : UInt64}

theorem serves_apply (hx : b.InStep key ahead h handed) (hs : b.Sound) (hu : op.uses b)
    (hterms : undisturbedTerms key b h op) (r : Rules) : (op.apply r b).Serves key :=
  hx.serves.apply hs hu (heard_of_undisturbedTerms hterms) (fun _ he => by subst he; exact hterms) r

theorem of_abreast (hx : b.InStep key ahead h handed) (hs : b.Sound) (hu : op.uses b)
    (hterms : undisturbedTerms key b h op) {handed' : SubscriberId → List MessageRef}
    (hknows : (op.apply r b).Knows handed')
    (habreast : ∃ done, Abreast (b.audience key) ahead (op.record b h).accepted done
      ((op.apply r b).waiting key) handed') :
    (op.apply r b).InStep key ahead (op.record b h) handed' := by
  have hclose : op ≠ .close := fun he => by subst he; exact hterms
  have hshutdown : op ≠ .shutdown := fun he => by subst he; exact hterms
  refine ⟨hx.serves_apply hs hu hterms r, (hs.accepting_apply hu hclose hshutdown r).trans hx.accepting,
    hknows, ?_⟩
  obtain ⟨done, ha⟩ := habreast
  obtain he | hnil : (op.apply r b).audience key = b.audience key ∨ (op.record b h).accepted = [] :=
    audience_apply hs hu (fun _ he => by subst he; exact hterms) (fun _ he => by subst he; exact hterms) r
  · exact ⟨done, he ▸ ha⟩
  · rw [hnil] at ha ⊢
    exact ⟨done, ha.of_nil _⟩

theorem idle (hx : b.InStep key ahead h handed) (hs : b.Sound) (hu : op.uses b)
    (hterms : undisturbedTerms key b h op)
    (hjobs : (op.apply r b).dispatcher.jobs.length ≤ b.dispatcher.jobs.length)
    (hknows : (op.apply r b).Knows handed) (haccepted : (op.record b h).accepted = h.accepted)
    (hwaiting : (op.apply r b).waiting key = b.waiting key) :
    (op.apply r b).InStep key ahead (op.record b h) fun id => handed id ++ op.hands r b id := by
  simp only [Operation.hands_eq_nil hjobs, List.append_nil]
  exact hx.of_abreast hs hu hterms hknows (by rw [haccepted, hwaiting]; exact hx.abreast)

theorem still (hx : b.InStep key ahead h handed) (hs : b.Sound) (hu : op.uses b)
    (hterms : undisturbedTerms key b h op) (hop : op.isStill = true)
    (haccepted : (op.record b h).accepted = h.accepted)
    (hwaiting : (op.apply r b).waiting key = b.waiting key) :
    (op.apply r b).InStep key ahead (op.record b h) fun id => handed id ++ op.hands r b id := by
  have hkept := op.still_apply hop r b
  exact hx.idle hs hu hterms (Nat.le_of_eq (congrArg List.length hkept.jobs))
    (hx.knows.congr hkept.recipients) haccepted hwaiting

theorem buffer (hx : b.InStep key ahead h handed) (hs : b.Sound) {batch : List MessageRef} {p : SlotRef}
    (hu : (Operation.buffer batch p t).uses b)
    (hterms : undisturbedTerms key b h (.buffer batch p t)) (r : Rules) :
    ((Operation.buffer batch p t).apply r b).InStep key ahead ((Operation.buffer batch p t).record b h)
      fun id => handed id ++ (Operation.buffer batch p t).hands r b id := by
  obtain ⟨hkey, heard, hn⟩ := hterms
  have hkept := (Operation.buffer batch p t).still_apply rfl r b
  have hheard : (Operation.buffer batch p t).Heard b := trivial
  have htracked := hs.tracked_apply rfl hheard r
  have hids : b.audience key ≠ [] := by
    rw [audience, ← hkey]
    exact fun he => heard (List.map_eq_nil_iff.1 he)
  obtain ⟨done, ha⟩ := hx.abreast
  have hend := ha.extend hids hn
  rw [← waiting_bufferBatch hx.serves hkey batch p htracked] at hend
  simp only [Operation.hands_eq_nil (Nat.le_of_eq (congrArg List.length hkept.jobs)), List.append_nil]
  exact hx.of_abreast hs hu ⟨hkey, heard, hn⟩ (hx.knows.congr hkept.recipients) ⟨done, hend⟩

theorem delivery (hx : b.InStep key (r.topics = .discardNone) h handed) (hs : b.Sound)
    (hu : op.uses b) (hterms : undisturbedTerms key b h op) (htopic : key.type = .topic)
    (htopics : r.topics ≠ .discardAllowed) (hkey : (b.tracker t).key = key)
    (hunopposed : ∀ m ∈ (b.tracker t).buffer, b.Unopposed vetoes now t m)
    (hc : (Broker.deliver { r with vetoes } now t (b.active t)
      (strategyFor { r with vetoes } (b.tracker t).key.type) b).2 = op.apply r b)
    (haccepted : (op.record b h).accepted = h.accepted)
    (hsame : ((op.apply r b).tracker t).key = (b.tracker t).key) :
    (op.apply r b).InStep key (r.topics = .discardNone) (op.record b h) fun id =>
      handed id ++ op.hands r b id := by
  obtain ⟨new, hjobs, hknows, habreast⟩ := hx.pass hs htopic htopics hkey hunopposed hc
  have hnew : op.submitted r b = new := by rw [Operation.submitted, hjobs, List.drop_left]
  simp only [Operation.hands, hnew]
  refine hx.of_abreast hs hu hterms hknows ?_
  rw [haccepted, (hx.serves_apply hs hu hterms r).waiting_eq (hsame.trans hkey)]
  exact habreast

theorem apply (hx : b.InStep key (r.topics = .discardNone) h handed) (hs : b.Sound)
    (hu : op.uses b) (ht : abreastTerms key b h op) (htopic : key.type = .topic)
    (htopics : r.topics ≠ .discardAllowed) :
    (op.apply r b).InStep key (r.topics = .discardNone) (op.record b h) fun id =>
      handed id ++ op.hands r b id := by
  obtain ⟨hterms, hagreed, hanswers⟩ := ht
  have hheard := heard_of_undisturbedTerms hterms
  cases op with
  | createMessage =>
      exact hx.still hs hu hterms rfl rfl (Operation.createMessage_induction
        (P := fun c => c.waiting key = b.waiting key) rfl fun _ => rfl)
  | createSlot | createSubscriber | connect | register =>
      exact hx.still hs hu hterms rfl rfl rfl
  | track k =>
      obtain rfl : k = key := hterms
      exact hx.still hs hu rfl rfl rfl (b.waiting_track k)
  | findNext t active =>
      have heard : active ≠ [] := hterms
      refine hx.still hs hu hterms rfl rfl (waiting_congr (hs.tracked_apply rfl hheard r) (fun v => ?_) key)
      rw [Operation.apply, findNext, if_neg (by simpa using heard)]
      exact (tracker_nextSubscriber b t v active).2.1
  | buffer batch p t => exact hx.buffer hs hu hterms r
  | acknowledge s m type =>
      have hframe := acknowledge_frame b s m type
      exact hx.idle hs hu hterms (Nat.le_of_eq (by rw [Operation.apply, hframe.2.2.2.2.2.2]))
        (hx.knows.acknowledge hanswers type) rfl (waiting_congr hframe.2.2.1 hframe.1 key)
  | runJob place =>
      refine hx.idle hs hu hterms (length_jobs_runJob b place) (hx.knows.runJob hterms)
        (Journal.runJob_frame h b place).1 (waiting_congr (Sound.tracked_runJob b place) (fun t => ?_) key)
      refine (b.buffer_runJob place t).resolve_right ?_
      rintro ⟨j, hj, -, -, hfailed, -⟩
      exact hfailed (hterms j hj)
  | flush vetoes now t =>
      have hkept : Preserves b ((Operation.flush vetoes now t).apply r b) := hs.preserves rfl hu r
      exact hx.delivery hs hu hterms htopic htopics hterms.1
        (fun m hm => ⟨hterms.2.2 m hm, fun v hv s hs => hagreed v hv s hs m hm⟩)
        (congrArg Prod.snd (flush_heard _ now hterms.2.1)).symm rfl (hkept.key t)
  | send vetoes now t =>
      have hkept : Preserves b ((Operation.send vetoes now t).apply r b) := hs.preserves rfl hu r
      exact hx.delivery hs hu hterms htopic htopics hterms.1
        (fun m hm => ⟨hterms.2.2 m hm, fun v hv s hs => hagreed v hv s hs m hm⟩)
        (congrArg Prod.snd (sendBuffered_heard _ now hterms.2.1)).symm rfl (hkept.key t)
  | _ => exact absurd hterms id

end Broker.InStep

theorem handedOver_append (r : Rules) (id : SubscriberId) (l l' : List Operation) (b : Broker)
    (h : Journal) :
    handedOver r id (l ++ l') b = handedOver r id l b ++ handedOver r id l' (replay r l b h).1 := by
  induction l generalizing b h with
  | nil => rfl
  | cons op l ih =>
      rw [List.cons_append, handedOver, handedOver, ih, List.append_assoc]
      rfl

theorem inStep_replay (htopic : key.type = .topic) (htopics : r.topics ≠ .discardAllowed)
    (l : List Operation) (hl : Follows r (abreastTerms key) l default default) :
    (replay r l default default).1.InStep key (r.topics = .discardNone)
      (replay r l default default).2 fun id => handedOver r id l default := by
  induction l using List.reverseRecOn with
  | nil =>
      have hserves := (lossFree_default htopic fun _ _ => False).serves
      refine ⟨hserves, rfl, ⟨nofun, fun _ _ _ => rfl⟩, [], rfl, List.nodup_nil, fun _ _ => .inl rfl,
        fun h => absurd rfl h, fun _ _ => rfl⟩
  | append_singleton l op ih =>
      obtain ⟨hl, ⟨hu, ht⟩, -⟩ := follows_append.1 hl
      have hstep := (ih hl).apply (Reaches.start.replay l hl).sound hu ht htopic htopics
      have hlast : ∀ id, handedOver r id (l ++ [op]) default =
          handedOver r id l default ++ op.hands r (replay r l default default).1 id := fun id => by
        rw [handedOver_append r id l [op] default default, handedOver, handedOver, List.append_nil]
      simp only [hlast, replay_append]
      exact hstep

/-- The subscribers of a topic stay abreast under the strategies that discard nothing. What each was
handed is the beginning of what was buffered, in that order, with a difference of one message at most
and none at all under the strategy for the slowest. The buffer holds just what the slowest was not
handed yet. -/
theorem subscribers_abreast (htopic : key.type = .topic) (htopics : r.topics ≠ .discardAllowed)
    {l : List Operation} (hl : Follows r (abreastTerms key) l default default)
    (hrun : replay r l default default = (b, h)) (ht : (b.tracker t).key = key)
    (heard : b.active t ≠ []) :
    (∀ s ∈ b.active t, handedOver r (b.subscriber s).id l default <+: h.accepted) ∧
      (∀ s ∈ b.active t, ∀ u ∈ b.active t,
        (handedOver r (b.subscriber s).id l default).length ≤
          (handedOver r (b.subscriber u).id l default).length + 1) ∧
      (r.topics = .slowestSubRate → ∀ s ∈ b.active t, ∀ u ∈ b.active t,
        handedOver r (b.subscriber s).id l default = handedOver r (b.subscriber u).id l default) ∧
      ∃ s ∈ b.active t,
        (∀ u ∈ b.active t, (handedOver r (b.subscriber s).id l default).length ≤
          (handedOver r (b.subscriber u).id l default).length) ∧
        (b.tracker t).buffer = h.accepted.drop (handedOver r (b.subscriber s).id l default).length := by
  have hx := inStep_replay htopic htopics l hl
  rw [hrun] at hx
  obtain ⟨done, ha⟩ := hx.abreast
  rw [hx.serves.waiting_eq ht] at ha
  have hid : ∀ s ∈ b.active t, (b.subscriber s).id ∈ b.audience key := fun s hs => by
    rw [audience, ← ht]
    exact List.mem_map_of_mem hs
  have hids : b.audience key ≠ [] := by
    rw [audience, ← ht]
    exact fun he => heard (List.map_eq_nil_iff.1 he)
  refine ⟨fun s hs => ha.handed_prefix (hid s hs), fun s hs u hu => ?_, fun hslow s hs u hu => ?_, ?_⟩
  · exact Nat.le_trans (ha.length_handed (hid s hs)).2
      (Nat.succ_le_succ (ha.length_handed (hid u hu)).1)
  · have hnobody : r.topics ≠ .discardNone := by
      rw [hslow]
      decide
    rw [ha.handed_eq hnobody (hid s hs), ha.handed_eq hnobody (hid u hu)]
  · obtain ⟨id, hmem, he⟩ := ha.exists_slowest hids
    rw [audience, ← ht] at hmem
    obtain ⟨s, hs, rfl⟩ := List.mem_map.1 hmem
    refine ⟨s, hs, fun u hu => he ▸ (ha.length_handed (hid u hu)).1, ?_⟩
    rw [he, ha.split, List.drop_left]

def twoReaders : List Operation :=
  [.createSlot "stored", .createMessage 1 "news" "stored" "story" 0 0,
    .createMessage 2 "news" "stored" "report" 0 0,
    .createSubscriber "quick" ⟨"news", .amqp, .topic⟩ "local" 2 default,
    .createSubscriber "slow" ⟨"news", .amqp, .topic⟩ "local" 1 default, .register ⟨0⟩, .register ⟨1⟩,
    .track ⟨"news", .amqp, .topic⟩, .buffer [⟨0⟩, ⟨1⟩] ⟨0⟩ ⟨0⟩]

def quickAheadRun : List Operation :=
  twoReaders ++ [.flush [] 0 ⟨0⟩, .runJob 0, .acknowledge ⟨0⟩ ⟨0⟩ .topic, .flush [] 0 ⟨0⟩]

theorem subscribers_abreast_quickAheadRun :
    Follows workerRules (abreastTerms ⟨"news", .amqp, .topic⟩) quickAheadRun default default ∧
      ((replay workerRules quickAheadRun default default).1.tracker ⟨0⟩).key =
        ⟨"news", .amqp, .topic⟩ ∧
      (replay workerRules quickAheadRun default default).1.active ⟨0⟩ = [⟨0⟩, ⟨1⟩] ∧
      handedOver workerRules "quick" quickAheadRun default = [⟨0⟩, ⟨1⟩] ∧
      handedOver workerRules "slow" quickAheadRun default = [⟨0⟩] ∧
      ∀ s ∈ (replay workerRules quickAheadRun default default).1.active ⟨0⟩,
        handedOver workerRules ((replay workerRules quickAheadRun default default).1.subscriber s).id
            quickAheadRun default <+:
          (replay workerRules quickAheadRun default default).2.accepted :=
  have hplain : Follows workerRules (fun b h op => undisturbedTerms ⟨"news", .amqp, .topic⟩ b h op ∧
      op.asksNobody = true ∧ op.Answers b) quickAheadRun default default := by decide
  have hf : Follows workerRules (abreastTerms ⟨"news", .amqp, .topic⟩) quickAheadRun default default :=
    follows_mono (fun b _ _ ht => ⟨ht.1, Operation.agreed_of_asksNobody ht.2.1 b, ht.2.2⟩) hplain
  have ht : ((replay workerRules quickAheadRun default default).1.tracker ⟨0⟩).key =
      ⟨"news", .amqp, .topic⟩ := by decide
  have hactive : (replay workerRules quickAheadRun default default).1.active ⟨0⟩ = [⟨0⟩, ⟨1⟩] := by
    decide
  have heard : (replay workerRules quickAheadRun default default).1.active ⟨0⟩ ≠ [] := by
    rw [hactive]
    exact List.cons_ne_nil _ _
  ⟨hf, ht, hactive, by decide, by decide,
    (subscribers_abreast rfl (by decide) hf (Prod.eta _).symm ht heard).1⟩

/-- The quick reader acknowledges the story before it is dispatched to anybody. -/
def earlyAnswerRun : List Operation :=
  twoReaders ++ [.acknowledge ⟨0⟩ ⟨0⟩ .topic, .flush [] 0 ⟨0⟩]

/-- An acknowledgement that comes before its message was dispatched lets the subscriber skip it. -/
theorem skipped_of_early_answer :
    Follows workerRules (fun b h op => undisturbedTerms ⟨"news", .amqp, .topic⟩ b h op ∧
        op.asksNobody = true) earlyAnswerRun default default ∧
      ⟨0⟩ ∈ (replay workerRules earlyAnswerRun default default).1.active ⟨0⟩ ∧
      ((replay workerRules earlyAnswerRun default default).1.subscriber ⟨0⟩).id = "quick" ∧
      ¬ handedOver workerRules "quick" earlyAnswerRun default <+:
        (replay workerRules earlyAnswerRun default default).2.accepted := by
  decide

end Courier
