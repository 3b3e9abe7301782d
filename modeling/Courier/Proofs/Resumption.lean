import Courier.Proofs.Convergence
import Courier.Proofs.Itinerary
import Courier.Proofs.Listing

namespace Courier

namespace Delta

open NaturalKey (key without)

variable {α κ : Type} [NaturalKey α κ] [DecidableEq κ] {persisted live live' : List α} {x y : α}

theorem mem_map_without {l : List α} {k : κ} :
    k ∈ (without x l).map key ↔ k ∈ l.map key ∧ k ≠ key x := by
  simp only [without, List.mem_map, List.mem_filter, decide_eq_true_eq]
  constructor
  · rintro ⟨y, ⟨hy, hne⟩, rfl⟩
    exact ⟨⟨y, hy, rfl⟩, hne⟩
  · rintro ⟨⟨y, hy, rfl⟩, hne⟩
    exact ⟨y, ⟨hy, hne⟩, rfl⟩

theorem without_cons {l : List α} (h : ((x :: l).map (key (κ := κ))).Nodup) :
    without x (x :: l) = l := by
  have hx : ∀ y ∈ l, (key y : κ) ≠ key x := fun y hy heq =>
    (List.nodup_cons.1 h).1 (heq ▸ List.mem_map_of_mem hy)
  rw [without, List.filter_cons, if_neg (by simp), List.filter_eq_self]
  exact fun y hy => decide_eq_true (hx y hy)

theorem missingFrom_congr {l other other' : List α}
    (h : ∀ y ∈ l, (key y : κ) ∈ other.map key ↔ (key y : κ) ∈ other'.map key) :
    missingFrom l other = missingFrom l other' :=
  List.filter_congr fun y hy => decide_eq_decide.2 (not_congr (h y hy))

theorem missingFrom_without {l other : List α} (hx : (key x : κ) ∈ other.map key) :
    missingFrom (without x l) other = missingFrom l other := by
  rw [missingFrom, missingFrom, without, List.filter_filter]
  refine List.filter_congr fun y _ => ?_
  by_cases hy : (key y : κ) = key x
  · simp [hy, hx]
  · simp [hy]

theorem between_added (hx : x ∈ persisted) (hlist : without x live' = without x live)
    (hmem : (key x : κ) ∈ live'.map key) :
    between persisted live' =
      ⟨without x (between persisted live).toAdd, (between persisted live).toRemove⟩ := by
  have hkeys : ∀ k : κ, k ≠ key x → (k ∈ live'.map key ↔ k ∈ live.map key) := by
    intro k hk
    have h : k ∈ (without x live').map key ↔ k ∈ (without x live).map key := by rw [hlist]
    rw [mem_map_without, mem_map_without] at h
    simpa only [hk, ne_eq, not_false_eq_true, and_true] using h
  have hadd : missingFrom persisted live' = without x (missingFrom persisted live) := by
    rw [missingFrom, missingFrom, without, List.filter_filter]
    refine List.filter_congr fun y _ => ?_
    by_cases hy : (key y : κ) = key x
    · simp [hy, hmem]
    · simp [hy, hkeys _ hy]
  have hkey : (key x : κ) ∈ persisted.map key := List.mem_map_of_mem hx
  have hremove : missingFrom live' persisted = missingFrom live persisted := by
    rw [← missingFrom_without hkey, hlist, missingFrom_without hkey]
  rw [between, hadd, hremove]
  rfl

theorem between_deleted (hy : (key y : κ) ∉ persisted.map key) :
    between persisted (without y live) =
      ⟨(between persisted live).toAdd, without y (between persisted live).toRemove⟩ := by
  have hadd : missingFrom persisted (without y live) = missingFrom persisted live := by
    refine missingFrom_congr fun x hx => ?_
    have hne : (key x : κ) ≠ key y := fun h => hy (h ▸ List.mem_map_of_mem hx)
    rw [mem_map_without, and_iff_left hne]
  have hremove : missingFrom (without y live) persisted = without y (missingFrom live persisted) :=
    List.filter_comm ..
  rw [between, hadd, hremove]
  rfl

theorem nodup_missingFrom {l : List α} (h : (l.map (key (κ := κ))).Nodup) (other : List α) :
    ((missingFrom l other).map (key (κ := κ))).Nodup :=
  h.sublist (List.filter_sublist.map _)

variable {keep : α → Bool} {event : Change → α → ClusterEvent} {e : ClusterEvent}
variable {rest : List ClusterEvent}

def events (keep : α → Bool) (event : Change → α → ClusterEvent) (d : Delta α) : List ClusterEvent :=
  (d.toAdd.filter keep).map (event .added) ++ d.toRemove.map (event .deleted)

theorem events_next (hpersisted : (persisted.map (key (κ := κ))).Nodup)
    (hlive : (live.map (key (κ := κ))).Nodup)
    (hadded : ∀ x ∈ persisted, e = event .added x →
      without x live' = without x live ∧ (key x : κ) ∈ live'.map key)
    (hdeleted : ∀ y, e = event .deleted y → live' = without y live)
    (h : events keep event (between persisted live) = e :: rest) :
    events keep event (between persisted live') = rest := by
  cases hadd : (between persisted live).toAdd.filter keep with
  | cons x l =>
      rw [events, hadd, List.map_cons, List.cons_append] at h
      obtain ⟨he, rfl⟩ := List.cons.inj h
      have hmem : x ∈ (between persisted live).toAdd.filter keep := hadd ▸ List.mem_cons_self
      have hx : x ∈ persisted := List.mem_of_mem_filter (List.mem_of_mem_filter hmem)
      obtain ⟨hlist, hlisted⟩ := hadded x hx he.symm
      have hnodup : ((x :: l).map (key (κ := κ))).Nodup :=
        hadd ▸ (nodup_missingFrom hpersisted live).sublist (List.filter_sublist.map _)
      have hrest : (without x (between persisted live).toAdd).filter keep = l := by
        rw [without, List.filter_comm, hadd]
        exact without_cons hnodup
      rw [between_added hx hlist hlisted, events, hrest]
  | nil =>
      rw [events, hadd, List.map_nil, List.nil_append] at h
      cases hremove : (between persisted live).toRemove with
      | nil =>
          rw [hremove] at h
          exact absurd h.symm (List.cons_ne_nil _ _)
      | cons y l =>
          rw [hremove, List.map_cons] at h
          obtain ⟨he, rfl⟩ := List.cons.inj h
          have hmem : y ∈ (between persisted live).toRemove := hremove ▸ List.mem_cons_self
          have hy : (key y : κ) ∉ persisted.map key := of_decide_eq_true (List.mem_filter.1 hmem).2
          have hnodup : ((y :: l).map (key (κ := κ))).Nodup := hremove ▸ nodup_missingFrom hlive _
          rw [hdeleted y he.symm, between_deleted hy, events, hadd, hremove, without_cons hnodup]
          rfl

theorem exists_of_events {d : Delta α} (h : events keep event d = e :: rest) :
    ∃ change x, e = event change x ∧ (x ∈ d.toAdd ∨ x ∈ d.toRemove) := by
  have he : e ∈ events keep event d := h ▸ List.mem_cons_self
  rcases List.mem_append.1 he with he | he
  · obtain ⟨x, hx, rfl⟩ := List.mem_map.1 he
    exact ⟨.added, x, rfl, .inl (List.mem_of_mem_filter hx)⟩
  · obtain ⟨x, hx, rfl⟩ := List.mem_map.1 he
    exact ⟨.deleted, x, rfl, .inr hx⟩

end Delta

namespace Recovery.Persisted

open NaturalKey (without)

variable {p : Persisted} {v : LiveView} {e : ClusterEvent} {l l' : List ClusterEvent}

structure Distinct (p : Persisted) : Prop where
  exchanges : p.exchangeNames.Nodup
  queues : p.queueNames.Nodup
  bindings : ∀ exchange, ((p.bindings exchange).map Binding.key).Nodup

theorem exchangeEvents_eq (p : Persisted) (v : LiveView) :
    p.exchangeEvents v = Delta.events (fun _ => true) .exchange (p.exchangeDelta v) := by
  rw [exchangeEvents, Delta.events, List.filter_true]

theorem bindingEventsOf_eq (p : Persisted) (exchange : String) (v : LiveView) :
    p.bindingEventsOf exchange v =
      Delta.events (fun _ => true) .binding (p.bindingDelta exchange v) := by
  rw [bindingEventsOf, Delta.events, List.filter_true]

theorem exchangeEvents_next (hv : v.Keyed) (hp : p.Distinct) (h : p.exchangeEvents v = e :: l) :
    p.exchangeEvents (v.apply e) = l := by
  rw [exchangeEvents_eq] at h ⊢
  refine Delta.events_next hp.exchanges (LiveView.nodup_exchangeList hv) ?_ ?_ h
  · rintro x - rfl
    exact ⟨LiveView.exchangeList_added hv x,
      List.mem_map_of_mem (LiveView.mem_exchangeList_added hv x)⟩
  · rintro x rfl
    exact LiveView.exchangeList_deleted hv x

theorem queueEvents_next (hv : v.Keyed) (hp : p.Distinct) (h : p.queueEvents v = e :: l) :
    p.queueEvents (v.apply e) = l ∧ p.exchangeEvents (v.apply e) = p.exchangeEvents v := by
  constructor
  · refine Delta.events_next hp.queues (LiveView.nodup_queueList hv) ?_ ?_ h
    · rintro q - rfl
      exact ⟨LiveView.queueList_added hv q, List.mem_map_of_mem (LiveView.mem_queueList_added hv q)⟩
    · rintro q rfl
      exact LiveView.queueList_deleted hv q
  · obtain ⟨change, q, rfl, -⟩ := Delta.exists_of_events h
    cases change <;> rfl

theorem bindingEventsOf_next (hv : v.Keyed) (hproper : p.Proper) (hp : p.Distinct)
    {exchange : String} (h : p.bindingEventsOf exchange v = e :: l) :
    p.bindingEventsOf exchange (v.apply e) = l ∧ p.exchangeEvents (v.apply e) = p.exchangeEvents v ∧
      p.queueEvents (v.apply e) = p.queueEvents v ∧
      ∀ other, other ≠ exchange → p.bindingEventsOf other (v.apply e) = p.bindingEventsOf other v := by
  rw [bindingEventsOf_eq] at h ⊢
  obtain ⟨change, b, rfl, hb⟩ := Delta.exists_of_events h
  have hexchange : b.exchange = exchange := by
    rcases hb with hb | hb
    · exact hproper exchange b (List.mem_of_mem_filter hb)
    · exact LiveView.exchange_of_mem (List.mem_of_mem_filter hb)
  refine ⟨?_, ?_, ?_, fun other hother => ?_⟩
  · refine Delta.events_next (hp.bindings exchange) (LiveView.nodup_bindingsOf hv exchange) ?_ ?_ h
    · rintro x hx he
      obtain rfl := hproper exchange x hx
      rw [he]
      exact ⟨LiveView.bindingsOf_added hv _ x,
        List.mem_map_of_mem (LiveView.mem_bindingsOf_added hv x)⟩
    · rintro x he
      rw [he]
      exact LiveView.bindingsOf_deleted hv _ x
  · cases change <;> rfl
  · cases change <;> rfl
  · rw [bindingEventsOf, bindingEventsOf, bindingDelta, bindingDelta,
      LiveView.bindingsOf_other hv change fun h => hother (h.symm.trans hexchange)]

theorem bindingEvents_head {xs : List Exchange} (h : p.bindingEvents xs v = e :: l) :
    ∃ x ∈ xs, ∃ l', p.bindingEventsOf x.name v = e :: l' := by
  induction xs with
  | nil => exact nomatch h
  | cons x xs ih =>
      rw [bindingEvents_cons] at h
      cases hfirst : p.bindingEventsOf x.name v with
      | nil =>
          rw [hfirst] at h
          obtain ⟨y, hy, hevents⟩ := ih h
          exact ⟨y, List.mem_cons_of_mem x hy, hevents⟩
      | cons e' l' =>
          rw [hfirst, List.cons_append] at h
          obtain ⟨rfl, -⟩ := List.cons.inj h
          exact ⟨x, List.mem_cons_self, l', hfirst⟩

theorem bindingEvents_next (hv : v.Keyed) (hproper : p.Proper) (hp : p.Distinct) {xs : List Exchange}
    (h : p.bindingEvents xs v = e :: l) : p.bindingEvents xs (v.apply e) = l := by
  induction xs with
  | nil => exact nomatch h
  | cons x xs ih =>
      rw [bindingEvents_cons] at h ⊢
      cases hfirst : p.bindingEventsOf x.name v with
      | nil =>
          -- the event is one of another exchange, so there is still nothing to do for this one
          rw [hfirst] at h
          change p.bindingEvents xs v = e :: l at h
          obtain ⟨y, -, l', hevents⟩ := bindingEvents_head h
          obtain ⟨-, -, -, hothers⟩ := bindingEventsOf_next hv hproper hp hevents
          have hne : x.name ≠ y.name := fun heq => by
            rw [← heq, hfirst] at hevents
            exact nomatch hevents
          rw [hothers _ hne, hfirst]
          exact ih h
      | cons e' l' =>
          rw [hfirst, List.cons_append] at h
          obtain ⟨rfl, rfl⟩ := List.cons.inj h
          rw [(bindingEventsOf_next hv hproper hp hfirst).1]
          rfl

/-- When the first event of a pass has been followed, the others are the events of the next pass. -/
theorem events_next (hv : v.Keyed) (hproper : p.Proper) (hp : p.Distinct) (h : p.events v = e :: l) :
    p.events (v.apply e) = l := by
  rw [events, List.append_assoc] at h ⊢
  cases hexchanges : p.exchangeEvents v with
  | cons e' l₁ =>
      rw [hexchanges, List.cons_append] at h
      obtain ⟨rfl, rfl⟩ := List.cons.inj h
      have hview : p.withExchanges (v.apply e') = p.withExchanges v := by
        rw [withExchanges, withExchanges, exchangeEvents_next hv hp hexchanges, hexchanges]
        rfl
      rw [exchangeEvents_next hv hp hexchanges, hview]
  | nil =>
      have hsame : ∀ w, p.exchangeEvents w = [] → p.withExchanges w = w := fun w hw => by
        rw [withExchanges, hw]
        rfl
      rw [hsame v hexchanges, hexchanges, List.nil_append] at h
      cases hqueues : p.queueEvents v with
      | cons e' l₂ =>
          rw [hqueues, List.cons_append] at h
          obtain ⟨rfl, rfl⟩ := List.cons.inj h
          obtain ⟨hnext, hstill⟩ := queueEvents_next hv hp hqueues
          have hview : p.withQueues (v.apply e') = p.withQueues v := by
            rw [withQueues, withQueues, hnext, hqueues]
            rfl
          rw [hexchanges] at hstill
          rw [hsame _ hstill, hstill, hnext, hview, List.nil_append]
      | nil =>
          have hqueuesSame : ∀ w, p.queueEvents w = [] → p.withQueues w = w := fun w hw => by
            rw [withQueues, hw]
            rfl
          rw [hqueues, hqueuesSame v hqueues, List.nil_append] at h
          obtain ⟨x, -, l', hfirst⟩ := bindingEvents_head h
          obtain ⟨-, hexchanges', hqueues', -⟩ := bindingEventsOf_next hv hproper hp hfirst
          rw [hexchanges] at hexchanges'
          rw [hqueues] at hqueues'
          rw [hsame _ hexchanges', hexchanges', hqueues', hqueuesSame _ hqueues',
            bindingEvents_next hv hproper hp h, List.nil_append, List.nil_append]

/-- When the first part of the events of a pass has been followed, the next pass replays the rest. -/
theorem events_resumed (hv : v.Keyed) (hproper : p.Proper) (hp : p.Distinct)
    (h : p.events v = l ++ l') : p.events (v.follow l) = l' := by
  induction l generalizing v with
  | nil => exact h
  | cons e l ih => exact ih (hv.apply e) (events_next hv hproper hp h)

end Recovery.Persisted

namespace Recovery

open Relation (ReflTransGen)

theorem isPrefix_granted {l : List Entry} {done left : List Stage} {stop : Option (RecoveryStep × Stop)}
    (h : Abides l done left stop) :
    l.filterMap Entry.granted? <+: (l.filterMap Entry.call?).map Prod.fst := by
  induction h with
  | through => exact List.prefix_rfl
  | passedOver _ _ ih | looked _ _ ih => exact ih
  | answered step a notices _ ih => exact (List.prefix_cons_inj _).2 ih
  | gateClosed | failed | panicked => exact List.nil_prefix

theorem granted?_eq (l : List Entry) :
    l.filterMap Entry.granted? = ((l.filterMap Entry.call?).filter Prod.snd).map Prod.fst := by
  induction l with
  | nil => rfl
  | cons x l ih =>
      cases x with
      | looked => exact ih
      | called step q reply notices =>
          cases reply with
          | ok => exact congrArg (List.cons q) ih
          | error | panicked => exact ih

/-- Only the last event that is asked for can fail. -/
theorem isPrefix_replayed {σ : Type} (c : Collaborators σ) (full : Bool) (task : RecoveryTask) (w : σ) :
    replayed (triggerCalls c full task w) <+: asked (triggerCalls c full task w) := by
  have hasked : asked (triggerCalls c full task w) =
      (((transcript c full task w).filterMap Entry.call?).map Prod.fst).filterMap Request.event? := by
    rw [call?_transcript, List.map_map, List.filterMap_map]
    rfl
  have hreplayed : replayed (triggerCalls c full task w) =
      ((transcript c full task w).filterMap Entry.granted?).filterMap Request.event? := by
    rw [granted?_eq, call?_transcript, List.filter_map, List.map_map, List.filterMap_map]
    rfl
  rw [hasked, hreplayed]
  refine List.IsPrefix.filterMap _ ?_
  by_cases h : task.running = false ∧ task.operational = true
  · obtain ⟨i, done, left, stop, -, habides, -⟩ := transcript_abides c full task w h.1 h.2
    exact isPrefix_granted habides
  · rw [transcript, if_neg h]
    exact List.prefix_rfl

namespace Mirror

variable {σ : Type} {c : Collaborators σ} {p : Persisted}

/-- A pass leads from one world to another, however it ends. Before the next one the world may
change, but not the live view. -/
def Leads (m : Mirror c p) (w w' : σ) : Prop :=
  m.holds w' ∧ ∃ full task, m.live w' = m.live (Recovery.trigger c full task w).world

/-- Whatever passes have done, the next one has the rest of the events still to replay. -/
theorem live_led (m : Mirror c p) (hproper : p.Proper) (hp : p.Distinct) {w w' : σ} (hw : m.holds w)
    (hkeyed : (m.live w).Keyed) (hled : ReflTransGen m.Leads w w') :
    m.holds w' ∧ ∃ l l', p.events (m.live w) = l ++ l' ∧ m.live w' = (m.live w).follow l := by
  induction hled with
  | refl => exact ⟨hw, [], _, rfl, rfl⟩
  | @tail u u' _ hlast ih =>
      obtain ⟨hholds, l, l', hevents, hlive⟩ := ih
      obtain ⟨hholds', full, task, hlive'⟩ := hlast
      have hrest : p.events (m.live u) = l' :=
        hlive ▸ Persisted.events_resumed hkeyed hproper hp hevents
      obtain ⟨l'', hl''⟩ := (isPrefix_replayed c full task u).trans (m.asked_trigger hholds)
      refine ⟨hholds', l ++ replayed (triggerCalls c full task u), l'', ?_, ?_⟩
      · rw [List.append_assoc, hl'', hrest, hevents]
      · rw [hlive', (m.trigger hholds full task).2, hlive, LiveView.follow_append]

end Mirror

/-- However often a pass is cut short, and wherever: once a later one completes, the live view is the
one that a single pass would have left that was not interrupted. -/
theorem interruption_harmless {σ σ₀ : Type} {c : Collaborators σ} {c₀ : Collaborators σ₀}
    {p : Persisted} (m : Mirror c p) (m₀ : Mirror c₀ p) (hproper : p.Proper) (hp : p.Distinct)
    {w w' : σ} {w₀ : σ₀} {full full₀ : Bool} {task task₀ : RecoveryTask} {r r₀ : RecoveryReport}
    (hw : m.holds w) (hkeyed : (m.live w).Keyed) (hled : ReflTransGen m.Leads w w')
    (hlater : (trigger c full task w').value = some (.completed r)) (hw₀ : m₀.holds w₀)
    (hsame : m₀.live w₀ = m.live w)
    (hatonce : (trigger c₀ full₀ task₀ w₀).value = some (.completed r₀)) :
    m.live (trigger c full task w').world = m₀.live (trigger c₀ full₀ task₀ w₀).world := by
  obtain ⟨hw', l, l', hevents, hlive⟩ := m.live_led hproper hp hw hkeyed hled
  have hrest : p.events (m.live w') = l' :=
    hlive ▸ Persisted.events_resumed hkeyed hproper hp hevents
  rw [m.live_completed hw' hlater, m₀.live_completed hw₀ hatonce, hsame, hrest, hlive, hevents,
    LiveView.follow_append]

def beset : Cluster :=
  { (default : Cluster) with
    exchanges := [.new "orders" "topic", .new "billing" "direct"]
    queues := [.new "jobs" .amqp, .new "sensors" .mqtt]
    bindings := [⟨"orders", "old", "k", .mqtt⟩, ⟨"billing", "jobs", "k", .amqp⟩]
    live := LiveView.empty.follow [.exchange .added (.new "orders" "direct"),
      .exchange .added (.new "old" "direct"), .queue .added (.new "old" .amqp),
      .binding .added ⟨"orders", "old", "k", .amqp⟩, .binding .added ⟨"old", "jobs", "k", .amqp⟩]
    applies := true
    cues := [⟨.exchangeEvent, 2, .announce (.down .context (.unavailable "db down"))⟩,
      ⟨.bindingEvent, 2, .fail (.rejected "too late")⟩] }

/-- The first pass is halted, the second one aborted, and the third one completes. -/
theorem interruption_harmless_beset :
    ∃ w w' : Cluster,
      trigger Cluster.collaborators false default beset =
          ⟨some (.halted .queues ⟨0, 1, 1, 0, 0, 0, 0, 0, false⟩), ⟨false, false⟩, w⟩ ∧
        trigger Cluster.collaborators true default w =
          ⟨some (.aborted .bindings (.rejected "too late") ⟨0, 0, 0, 1, 1, 1, 1, 0, false⟩),
            default, w'⟩ ∧
        (trigger Cluster.collaborators false default w').world.live =
          (trigger Cluster.collaborators false default { beset with cues := [] }).world.live := by
  obtain ⟨w, w', hfirst, hsecond, hlater⟩ : ∃ w w' : Cluster,
      trigger Cluster.collaborators false default beset =
          ⟨some (.halted .queues ⟨0, 1, 1, 0, 0, 0, 0, 0, false⟩), ⟨false, false⟩, w⟩ ∧
        trigger Cluster.collaborators true default w =
          ⟨some (.aborted .bindings (.rejected "too late") ⟨0, 0, 0, 1, 1, 1, 1, 0, false⟩),
            default, w'⟩ ∧
        (trigger Cluster.collaborators false default w').value =
          some (.completed ⟨0, 0, 0, 0, 0, 1, 1, 0, true⟩) := ⟨_, _, rfl, rfl, rfl⟩
  have hatonce : (trigger Cluster.collaborators false default { beset with cues := [] }).value =
      some (.completed ⟨0, 1, 1, 1, 1, 1, 2, 0, true⟩) := rfl
  let m := Cluster.mirror beset.persisted
  have hholds := (m.trigger (w := beset) ⟨rfl, rfl⟩ false default).1
  rw [hfirst] at hholds
  have hholds' := (m.trigger hholds true default).1
  rw [hsecond] at hholds'
  have hled : ReflTransGen m.Leads beset w' :=
    .tail (.single ⟨hholds, false, default, by rw [hfirst]⟩) ⟨hholds', true, default, by rw [hsecond]⟩
  have hp : beset.persisted.Distinct :=
    ⟨by decide, by decide, fun exchange => (List.filter_sublist.map _).nodup (by decide)⟩
  have hcalm : m.holds { beset with cues := [] } := ⟨rfl, rfl⟩
  exact ⟨w, w', hfirst, hsecond, interruption_harmless m m beset.proper_persisted hp ⟨rfl, rfl⟩
    (LiveView.Keyed.empty.follow _) hled hlater hcalm rfl hatonce⟩

end Recovery

end Courier
