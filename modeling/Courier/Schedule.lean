namespace Courier

/-- A job that runs at every multiple of its period since it was scheduled, and never if that is
zero. -/
structure Scheduled (α : Type) where
  job : α
  period : Nat
  created : Nat
  deriving DecidableEq

namespace Scheduled

variable {α : Type}

def runsBy (s : Scheduled α) (time : Nat) : Nat := (time - s.created) / s.period

def times (s : Scheduled α) (start stop : Nat) : List Nat :=
  (List.range' (s.runsBy start + 1) (s.runsBy stop - s.runsBy start)).map fun k =>
    s.created + k * s.period

theorem length_times (s : Scheduled α) (start stop : Nat) :
    (s.times start stop).length = s.runsBy stop - s.runsBy start := by
  simp [times]

end Scheduled

/-- The jobs that run after `start`, up to `stop`, in the order of their times. Jobs of one time
run in the order in which they were scheduled. -/
def dueJobs {α : Type} (jobs : List (Scheduled α)) (start stop : Nat) : List α :=
  let runs := jobs.flatMap fun s => (s.times start stop).map fun time => (time, s.job)
  (runs.mergeSort fun a b => decide (a.1 ≤ b.1)).map Prod.snd

/-- The number of runs after each advance of the clock. Before the advance of number `stopAt`, if
there is one, the job is stopped for good. -/
def runCounts {α : Type} (s : Scheduled α) (stopAt : Option Nat) :
    Nat → Nat → Nat → List Nat → List Nat
  | _, _, _, [] => []
  | place, time, runs, step :: rest =>
      let runs := if stopAt.any fun n => decide (n ≤ place) then runs else s.runsBy (time + step)
      runs :: runCounts s stopAt (place + 1) (time + step) runs rest

end Courier
