import Courier.Broker.Pipeline

namespace Courier

inductive DeletionResult where
  | deleted (count : Nat)
  | failed (cause : StoreError)
  | panicked
  deriving DecidableEq

def MessageStore.delete (store : MessageStore) (ids : List UInt64) :
    StoreCondition × MessageStore :=
  match store.condition with
  | .working => (.working, { store with deletions := store.deletions ++ [ids] })
  | other => (other, store)

namespace Broker

def takeExpired (b : Broker) : List MessageRef × Broker := (b.expired, { b with expired := [] })

/-- Deletes a batch in one call of the store. A batch that the store refuses is queued again,
behind what has been queued since; one on which it panics is lost to the queue. -/
def deleteBatch (b : Broker) (batch : List MessageRef) : DeletionResult × Broker :=
  match b.store.delete (batch.map fun m => (b.message m).id) with
  | (.working, store) => (.deleted batch.length, { b with store }.settleAll batch)
  | (.failing cause, store) => (.failed cause, { b with store, expired := b.expired ++ batch })
  | (.panicking, store) => (.panicked, { b with store })

def deleteExpired (b : Broker) : DeletionResult × Broker :=
  let (batch, b) := b.takeExpired
  if batch.isEmpty then (.deleted 0, b) else b.deleteBatch batch

end Broker

end Courier
