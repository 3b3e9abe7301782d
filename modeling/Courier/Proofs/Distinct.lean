import Courier.Proofs.Sound

namespace Courier

open Broker
open Relation (ReflTransGen)

namespace Broker

variable {b b' : Broker} {m : MessageRef}

def Distinct (b : Broker) : Prop :=
  ∀ m n, b.hasMessage m → b.hasMessage n → (b.message m).id = (b.message n).id → m = n

def Apart (b : Broker) (m : MessageRef) : Prop :=
  ∀ t, ∀ n ∈ (b.tracker t).buffer, (b.message n).id = (b.message m).id → n = m

theorem Sound.apart_of_distinct (hs : b.Sound) (hd : b.Distinct) (hm : b.hasMessage m) : b.Apart m :=
  fun t n hn => hd n m (hs.buffered t n hn) hm

theorem Touches.apart (ht : Touches m b b') (ha : b.Apart m) : b'.Apart m := fun t n hn hid => by
  rw [ht.id, ht.id] at hid
  exact (ht.gains t n hn).elim (fun hold => ha t n hold hid) id

end Broker

def Operation.Distinguishes (b : Broker) : Operation → Prop
  | .createMessage id .. => ∀ m ∈ b.references, (b.message m).id ≠ id
  | _ => True

variable {r : Rules} {b b' c : Broker} {h : Journal} {m : MessageRef} {t : TrackerRef}
  {op : Operation} {condition : StoreCondition}

namespace Broker.Distinct

theorem of_size (hd : b.Distinct) (hs : b'.messages.size = b.messages.size)
    (hid : ∀ n, (b'.message n).id = (b.message n).id) : b'.Distinct := fun m n hm hn he => by
  rw [hasMessage, hs] at hm hn
  rw [hid, hid] at he
  exact hd m n hm hn he

theorem touches (hd : b.Distinct) (ht : Touches m b b') (hm : b.hasMessage m) :
    b'.Distinct :=
  hd.of_size (ht.size hm) ht.id

theorem foldl {f : Broker → MessageRef → Broker} (hf : ∀ b m, Touches m b (f b m))
    (hd : b.Distinct) (l : List MessageRef) (hl : ∀ m ∈ l, b.hasMessage m) :
    (l.foldl f b).Distinct :=
  hd.of_size (Touches.size_foldl hf l b hl)
    (Preserves.foldl (fun b m => (hf b m).toPreserves) l b).id

theorem passSteps {now : UInt64} {active : List SubscriberRef} {batch : List MessageRef}
    (hd : b.Distinct) (hs : b.Sound) (ht : b.hasTracker t)
    (hactive : ∀ s ∈ active, b.hasSubscriber s) (hbatch : ∀ m ∈ batch, b.hasMessage m)
    (steps : ReflTransGen (PassStep r now t active batch) b c) : c.Distinct := by
  induction steps with
  | refl => exact hd
  | tail prior next ih =>
      obtain ⟨hs', hp⟩ := hs.passSteps prior ht hactive hbatch
      obtain rfl | ⟨m, hm, htouch⟩ := next.touches
      · exact ih.of_size rfl fun _ => rfl
      · exact ih.touches htouch (hm.elim (fun h => hp.hasMessage (hbatch m h)) (hs'.buffered t m))

theorem drain (hd : b.Distinct) (hs : b.Sound) (t : TrackerRef) : (b.drain t).Distinct :=
  foldl (fun b m => Touches.setBuffered b m false)
    (b := b.modifyTracker t fun x => { x with buffer := [] }) hd _ (hs.buffered t)

theorem evict (hd : b.Distinct) (hs : b.Sound) (t : TrackerRef) : (b.evict t).Distinct := by
  have hgone : (b.letGo t).Distinct := hd
  rw [evict_eq]
  split
  · split
    · have hsize : ∀ m, b.hasMessage m → ((b.letGo t).drain t).hasMessage m := fun m hm =>
        ((Preserves.letGo b t).trans (.drain _ t)).hasMessage hm
      exact (hgone.drain (hs.letGo t) t).foldl Touches.settle _ fun m hm => hsize m (hs.buffered t m hm)
    · exact hgone
  · exact hd

theorem delivers {now : UInt64} (hd : b.Distinct) (hs : b.Sound) (ht : b.hasTracker t)
    (hdel : Delivers r now t b b') : b'.Distinct := by
  cases hdel with
  | letGo => exact hd.evict hs t
  | nothing => exact hd
  | pass _ _ steps => exact hd.passSteps hs ht (fun s hm => (hs.mem_active hm).1) (hs.buffered t) steps

theorem runJob (hd : b.Distinct) (hs : b.Sound) (place : Nat) : (b.runJob place).Distinct := by
  unfold Broker.runJob
  split
  · next j hj =>
      have hw : (b.withJobs (b.dispatcher.jobs.eraseIdx place)).Distinct := hd
      exact hw.touches (Touches.execute _ j) (hs.jobs j (List.mem_of_getElem? hj)).2.1
  · exact hd

theorem shutdown (hd : b.Distinct) (hs : b.Sound) : b.shutdown.Distinct :=
  (shutdown_induction (P := fun c _ => c.Sound ∧ c.Distinct) (h := default) ⟨hs, hd⟩
    (fun _ _ h => ⟨h.1.runJob 0, h.2.runJob h.1 0⟩) fun _ _ h => ⟨h.1.close, h.2⟩).2

theorem addMessage (hd : b.Distinct) {x : Message}
    (hx : ∀ m ∈ b.references, (b.message m).id ≠ x.id) : (b.addMessage x).2.Distinct := by
  have hcases : ∀ m, (b.addMessage x).2.hasMessage m →
      b.hasMessage m ∧ (b.addMessage x).2.message m = b.message m ∨
        m = ⟨b.messages.size⟩ ∧ (b.addMessage x).2.message m = x := fun m hm => by
    have hsize : (b.addMessage x).2.messages.size = b.messages.size + 1 := Table.size_push _ _
    rw [hasMessage, hsize] at hm
    rw [message_addMessage]
    obtain hlt | heq := Nat.lt_succ_iff_lt_or_eq.1 hm
    · exact .inl ⟨hlt, if_neg (Nat.ne_of_lt hlt)⟩
    · exact .inr ⟨by cases m; simp_all, if_pos heq⟩
  intro m n hm hn hid
  obtain ⟨hm, he⟩ | ⟨hm, he⟩ := hcases m hm <;> obtain ⟨hn, he'⟩ | ⟨hn, he'⟩ := hcases n hn <;>
    rw [he, he'] at hid
  · exact hd m n hm hn hid
  · exact absurd hid (hx m (mem_references.2 hm))
  · exact absurd hid.symm (hx n (mem_references.2 hn))
  · exact hm.trans hn.symm

theorem deletes (hd : b.Distinct) (hs : b.Sound) (hdel : Deletes b condition b') : b'.Distinct := by
  cases hdel with
  | deleted store => exact foldl Touches.settle (b := b.withExpired [] store) hd _ hs.expired
  | refused | lost => exact hd

theorem apply (hd : b.Distinct) (hs : b.Sound) (hu : op.uses b) (ht : op.Distinguishes b)
    (r : Rules) : (op.apply r b).Distinct := by
  cases op with
  | createSlot | createSubscriber | connect | register | unregister | close => exact hd
  | createMessage =>
      exact Operation.createMessage_induction (P := Distinct) hd fun _ => hd.addMessage ht
  | track key =>
      rw [Operation.apply, track_eq]
      split <;> exact hd
  | buffer batch p t =>
      exact foldl (Touches.accept p t) (b := b.raiseSlot p (.ofNat batch.length)) hd batch hu.1
  | rebuffer key l =>
      rw [Operation.apply_rebuffer]
      split
      · exact hd.foldl (Touches.returnToBuffer _) l hu
      · exact hd
  | requeue m type =>
      change ((Operation.rebuffer ⟨type, (b.message m).destination⟩ [m]).apply r b).Distinct
      rw [Operation.apply_rebuffer]
      split
      · exact hd.foldl (Touches.returnToBuffer _) [m] fun n hn => by
          rw [List.mem_singleton.1 hn]; exact hu
      · exact hd
  | flush vetoes now t => exact hd.delivers hs hu (flush_delivers b (hs.active_nodup t))
  | send vetoes now t => exact hd.delivers hs hu (sendBuffered_delivers b (hs.active_nodup t))
  | findNext t active =>
      unfold Operation.apply Broker.findNext
      dsimp only
      split
      · exact hd.evict hs t
      · exact hd
  | clear key =>
      unfold Operation.apply Broker.clear
      dsimp only
      split
      · exact hd.drain hs _
      · exact hd
  | purge now key storageQueue =>
      have hrecorded := hs.recordPurge storageQueue now
      have hd' : (b.recordPurge storageQueue now).Distinct := hd
      unfold Operation.apply Broker.purge
      dsimp only
      split
      · next t _ =>
          exact (hd'.drain hrecorded t).foldl Touches.consumePurged _ fun m hm =>
            (Preserves.drain _ t).hasMessage (hrecorded.buffered t m hm)
      · exact hd'
  | acknowledge s m type => exact hd.touches (Touches.acknowledge b s m type) hu.2
  | runJob place => exact hd.runJob hs place
  | shutdown => exact hd.shutdown hs
  | deleteExpired condition => exact hd.deletes hs (b.deleteExpired_deletes condition)

end Broker.Distinct

theorem Reaches.distinct {terms : Broker → Journal → Operation → Prop} (hr : Reaches r terms b h)
    (hterms : ∀ b h op, terms b h op → op.Distinguishes b) : b.Distinct := by
  induction hr with
  | start => exact fun m _ hm => absurd hm (Nat.not_lt_zero _)
  | step op prior hu ht ih => exact ih.apply prior.sound hu (hterms _ _ op ht) r

end Courier
