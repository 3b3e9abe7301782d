import Courier.Failure
import Courier.Table
import Courier.Text.Shown

namespace Courier

inductive StoreKind where
  /-- The cluster's topology and its durable subscriptions. -/
  | context
  | message
  deriving DecidableEq

def StoreKind.display : StoreKind → String
  | context => "context"
  | message => "message"

inductive HealthNotice where
  | down (store : StoreKind) (cause : StoreError)
  | up (store : StoreKind)
  deriving DecidableEq

structure ListenerRef where
  index : Nat
  deriving DecidableEq

/-- A listener that has gone stays on the list until the next notice finds it missing. -/
structure Notifier where
  registered : List ListenerRef
  gone : List ListenerRef
  deriving DecidableEq

namespace Notifier

def empty : Notifier := ⟨[], []⟩

instance : Inhabited Notifier := ⟨empty⟩

def register (n : Notifier) (l : ListenerRef) : Notifier :=
  { n with registered := n.registered ++ [l] }

def drop (n : Notifier) (l : ListenerRef) : Notifier := { n with gone := l :: n.gone }

def live (n : Notifier) : List ListenerRef := n.registered.filter fun l => l ∉ n.gone

def prune (n : Notifier) : Notifier := { n with registered := n.live }

def describe (n : Notifier) : String :=
  Text.record "StoreHealthNotifier" [("listeners", toString n.registered.length)]

end Notifier

structure Hearing where
  downs : Nat
  ups : Nat
  last : String
  deriving DecidableEq

namespace Hearing

instance : Inhabited Hearing := ⟨⟨0, 0, ""⟩⟩

def hear (h : Hearing) : HealthNotice → Hearing
  | .down store cause =>
      { h with downs := h.downs + 1, last := store.display ++ " " ++ cause.message }
  | .up store => { h with ups := h.ups + 1, last := store.display }

end Hearing

structure HealthBoard where
  notifier : Notifier
  hearings : Table Hearing
  deriving DecidableEq, Inhabited

namespace HealthBoard

def join (h : HealthBoard) : ListenerRef × HealthBoard :=
  let l : ListenerRef := ⟨h.hearings.size⟩
  (l, ⟨h.notifier.register l, h.hearings.push default⟩)

def hearing (h : HealthBoard) (l : ListenerRef) : Hearing := h.hearings.get l.index

def announce (h : HealthBoard) (n : HealthNotice) : HealthBoard :=
  ⟨h.notifier.prune,
    h.notifier.live.foldl (fun t l => t.modify l.index fun x => x.hear n) h.hearings⟩

end HealthBoard

end Courier
