import Kstrl.Queue.WorkQueue
import Kstrl.Serve.Outcome

/-!
# What the daemon does to the queue

Every change `ks serve` makes to the queue happens in a block under `queue_lock`.  This file has the
blocks, in the order a cycle runs them: the reaper, the claim, the start, the adoption of the lease
by the child, and the ways a finished run is settled (`kstrl/serve/serve.py`,
`kstrl/serve/serve_process.py`, `kstrl/serve/serve_settle.py`).

A block reads the clock once, as `env.now`; `moment` is the time the cycle started.  `probe` is what
the kernel answers about a process id.

* **`reapLeases`** takes back the items whose lease holder is gone or whose lease lapsed.
* **`failureBranch`** is two transitions in a row, out of `running/` and out of `failed/`.
* Between the claim and the start the daemon holds the item it leased; every other block reads its
  item again.
-/

namespace Kstrl

open CrashProg

namespace Serve

/-! ## Time and processes -/

/-- `BACKOFF_BASE_SECONDS`, in microseconds. -/
def backoffBase : ℕ := 60000000

/-- `BACKOFF_CAP_SECONDS`, in microseconds. -/
def backoffCap : ℕ := 1800000000

/-- `backoff_seconds`; none when the power is too large for a float. -/
def backoffSeconds (attempts : ℤ) : Option ℕ :=
  if attempts ≤ 0 then some 0
  else if 1024 < attempts then none
  else some (min (backoffBase * 2 ^ (attempts - 1).toNat) backoffCap)

/-- `_pid_alive`: whether a lease holder is still running.  A lease of another host is taken to be
    alive. -/
def pidAlive (env : Env) (probe : ℤ → Bool) (pid : ℤ) (host : String) : Bool :=
  if host ≠ "" ∧ host ≠ env.hostname then true else decide (0 < pid) && probe pid

/-- The lease lapsed or its holder is gone. -/
def leaseLost (env : Env) (probe : ℤ → Bool) (moment : ℕ) (item : QueueItem) : Bool :=
  item.leaseExpired env.fmt moment || !pidAlive env probe item.leasePid item.leaseHost

section Blocks

variable (env : Env) (probe : ℤ → Bool) (moment : ℕ)

/-- `queue.get` under the lock. -/
def getItem (itemId : String) : QueueProg (Option QueueItem) := do
  let d ← read
  match Queue.get d itemId with
  | .ok found => pure found
  | .error e => raise e

/-- `_iso(moment + timedelta(seconds=backoff_seconds(attempts)))`. -/
def backoffMoment (attempts : ℤ) : QueueProg String :=
  match backoffSeconds attempts with
  | some delay => pure (env.fmt.isoformat (moment + delay))
  | none => raise .overflow

/-! ## The reaper -/

structure ReapResult where
  requeued : List String := []
  poisoned : List String := []
  failedForRetry : List String := []

/-- A dead leased item spent nothing. -/
def reapLeased (actor : String) (result : ReapResult) (item : QueueItem) : QueueProg ReapResult :=
  if leaseLost env probe moment item then do
    let _ ← Queue.requeue env item "reaped: lease holder gone before any spend" actor false (some "")
    pure { result with requeued := result.requeued ++ [item.itemId] }
  else pure result

def reapDetail (item : QueueItem) : String :=
  "run interrupted (lease holder pid " ++ toString item.leasePid ++ " on " ++
    (if item.leaseHost = "" then "unknown host" else item.leaseHost) ++
    " is gone or its lease lapsed); classified as infrastructure"

def noneLeft (item : QueueItem) : String :=
  "; no attempts left (" ++ toString item.attempts ++ "/" ++ toString item.maxAttempts ++ ")"

/-- A dead running item spent an attempt: out of `running/`, and on by what is left. -/
def reapRunning (actor : String) (result : ReapResult) (item : QueueItem) :
    QueueProg ReapResult :=
  if leaseLost env probe moment item then do
    let _ ← Queue.finishFailed env item (reapDetail item) actor
    match ← getItem item.itemId with
    | none => pure result
    | some reread =>
        if 0 < reread.attemptsRemaining then do
          let notBefore ← backoffMoment env moment reread.attempts
          let _ ← Queue.requeue env reread "reaped: retrying an interrupted run" actor false
            (some notBefore)
          pure { result with failedForRetry := result.failedForRetry ++ [item.itemId] }
        else do
          let _ ← Queue.poison env reread (reapDetail item ++ noneLeft reread) actor
          pure { result with poisoned := result.poisoned ++ [item.itemId] }
  else pure result

/-- Recover the items whose owner died or slept through its lease. -/
def reapLeases (actor : String := "reaper") : QueueProg ReapResult := do
  let d ← read
  let result ← (items d [.leased]).foldlM (reapLeased env probe moment actor) {}
  let d ← read
  (items d [.running]).foldlM (reapRunning env probe moment actor) result

/-- The first block of a cycle. -/
def recoverBlock : QueueProg ReapResult := do
  let _ ← sweepStaging env.stamp
  reapLeases env probe moment

/-! ## Claim and start -/

/-- `next_ready`: the item to claim next. -/
def nextReady (fmt : IsoFormat) (d : Disk) (paused : Bool) (moment : ℕ) : Option QueueItem :=
  if paused then none else (items d [.queued]).find? fun item => item.readyAt fmt moment

/-- What `resolve_merge_gate` says of an item. -/
structure MergeGate where
  refusal : String := ""
  unreadableSection : String := ""

/-- Make a refused item terminal, unless the refusal clears itself. -/
def poisonForMergeGate (candidate : QueueItem) (gate : MergeGate) :
    QueueProg (Option QueueItem) :=
  if gate.unreadableSection ≠ "" then pure none
  else do
    let _ ← Queue.poison env candidate ("merge-gate conflict: " ++ gate.refusal) "serve"
    getItem candidate.itemId

/-- Claim exactly one item; the item as it was leased. -/
def claimBlock (paused : Bool) (gate : QueueItem → MergeGate) :
    QueueProg (Option QueueItem) := do
  let d ← read
  match nextReady env.fmt d paused moment with
  | none => pure none
  | some candidate =>
      if (gate candidate).refusal ≠ "" then do
        let _ ← poisonForMergeGate env candidate (gate candidate)
        pure none
      else do
        let leased ← Queue.lease env candidate 0 "" "serve"
        pure (some leased)

/-- Charge the attempt.  `leased` is the item the claim returned. -/
def startBlock (leased : QueueItem) : QueueProg QueueItem :=
  Queue.start env leased "" "serve"

/-- After `QueueBudgetExhausted`. -/
def exhaustedBlock (leased : QueueItem) (reason : String) : QueueProg (Option QueueItem) := do
  let _ ← Queue.poison env leased reason "serve"
  getItem leased.itemId

/-- The child owns the lease for the duration of the run. -/
def adoptBlock (itemId : String) (childPid : ℤ) : QueueProg Unit := do
  match ← getItem itemId with
  | none => pure ()
  | some current => do
      let _ ← Queue.adoptLease env current childPid "" "serve"

/-! ## Settling a run -/

/-- A timeout whose process group was not seen to go: never released for another attempt. -/
def unreapedBlock (itemId detail : String) : QueueProg Unit := do
  match ← getItem itemId with
  | none => pure ()
  | some current => do
      let _ ← Queue.poison env current detail "serve"

/-- A run that did not fail; whether the cycle is over for the item. -/
def settleBlock (itemId : String) (verdict : Outcome) (prUrls : List String)
    (runId architectRunId : String) : QueueProg Bool := do
  match ← getItem itemId with
  | none => pure true
  | some current =>
      match verdict.verdict with
      | .success => do
          let _ ← Queue.finishOk env current "serve" prUrls
          pure true
      | .awaitingApproval => do
          let _ ← Queue.awaitApproval env current verdict.reason runId "serve" prUrls
          pure true
      | .awaitingAnswer => do
          let _ ← Queue.awaitAnswer env current verdict.reason architectRunId "serve"
          pure true
      | _ => pure false

/-- A run that refused on a red base: back to `queued/` through `failed/`, not judged. -/
def redBaseBlock (itemId reason : String) : QueueProg Unit := do
  match ← getItem itemId with
  | none => pure ()
  | some current => do
      let failed ← Queue.finishFailed env current reason "serve"
      let _ ← Queue.requeue env failed ("red base: " ++ reason) "serve"

/-- The failure branch: out of `running/`, and on by the verdict and by what is left. -/
def failureBranch (itemId : String) (verdict : Outcome) (prUrls : List String) :
    QueueProg Unit := do
  match ← getItem itemId with
  | none => pure ()
  | some current => do
      let _ ← Queue.finishFailed env current verdict.reason "serve" prUrls
      match ← getItem itemId with
      | none => pure ()
      | some failed =>
          if verdict.verdict.mayRetry ∧ 0 < failed.attemptsRemaining then do
            let notBefore ← backoffMoment env moment failed.attempts
            let _ ← Queue.requeue env failed ("retry: " ++ verdict.reason) "serve" false
              (some notBefore)
          else do
            let exhausted := if verdict.verdict.mayRetry then noneLeft failed else ""
            let _ ← Queue.poison env failed (verdict.reason ++ exhausted) "serve"

/-- `settle_approval_run`, once the run of a merge decision has exited.  `parkedNow` says that a
    component still awaits approval. -/
def settleApprovalBlock (itemId runId actor : String) (parkedNow : Option String)
    (verdict : Outcome) (prUrls : List String) : QueueProg Unit := do
  match ← getItem itemId with
  | none => pure ()
  | some current =>
      if current.state ≠ .awaitingApproval then pure ()
      else match parkedNow with
        | some reason =>
            if runId = current.lastRunId then pure ()
            else do
              let _ ← Queue.relinkRun env current runId reason actor
        | none =>
            if verdict.verdict = .success then do
              let _ ← Queue.finishOk env current actor prUrls
            else do
              let _ ← Queue.poison env current verdict.reason actor

end Blocks

end Serve

end Kstrl
