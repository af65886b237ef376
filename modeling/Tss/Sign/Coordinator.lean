import Tss.Lifecycle.Machine
import Tss.Party

/-!
# The durable side of an online-sign session

`cggmp21/secp256k1/sign_attempt_coordinator.go` and the dispositions of
`SignSession` in `lifecycle.go` and `online_sign_session.go`. A session
and its coordinator share one lifecycle store with everyone else, so
their methods run on a `World`: the store as it is now and the session.

What the protocol says about an inbound envelope is an input of `handle`:
the outcome of building the transition and, once the partial is stored,
of preparing the final signature.
-/

namespace Tss.Sign

open Proc Lifecycle

/-- The errors of the coordinator and the session. -/
inductive SignError where
  | context (cause : ContextError)
  /-- `session abort reason must not be empty` -/
  | emptyReason
  /-- `sign attempt coordinator has no durable attempt` -/
  | noDurableAttempt
  /-- `sign attempt coordinator unavailable during completion` -/
  | coordinatorUnavailable
  /-- `ErrSignAttemptCorrupt` -/
  | corrupt (detail : String)
  | store (cause : LifecycleError)
  /-- `ErrAttemptConflict: durable sign attempt aborted` -/
  | attemptAborted
  /-- `finish sign run lease: %w` -/
  | finishLease (cause : LifecycleError)
  /-- `persist sign attempt completion: %w` -/
  | persistCompletion (cause : LifecycleError)
  | attemptOutcomeUnknown (cause : LifecycleError)
  /-- `abort online-sign attempt: %w` -/
  | abortAttempt (cause : SignError)
  /-- `errors.Join(err, "persist sign attempt abort: %w")` -/
  | joined (err abort : SignError)
  | runCompleted
  /-- A `tss.ProtocolError`; the flag says whether it wraps `ErrPlanHashMismatch`. -/
  | protocol (code : ErrorCode) (planHashMismatch : Bool)
  | other (detail : String)
deriving DecidableEq

/-- `shouldAbortSession`: a verification failure other than a plan mismatch. `errors.As`
also looks through a join, whose first member is the protocol error. -/
def shouldAbortSession : SignError → Bool
  | .protocol code planHashMismatch => code = .verification && !planHashMismatch
  | .joined err _ => shouldAbortSession err
  | _ => false

/-! ## The coordinator -/

/-- `attempt` is the record last accepted, absent while `hasRecord` is false. -/
structure SignAttemptCoordinator where
  lease : RunLease
  query : AttemptQuery
  attempt : Option SignAttemptRecord
deriving DecidableEq

/-- What a coordinator's method works on: the shared store and the coordinator. -/
structure Durable where
  store : MemoryLifecycleStore
  coordinator : SignAttemptCoordinator

abbrev CoordM := Proc Durable SignError

/-- `SignAttemptRecord.Query`. -/
def attemptQuery (record : SignAttemptRecord) : AttemptQuery :=
  ⟨record.binding, record.presignID, record.intent.attemptID, record.intent.intentDigest⟩

/-- A call of the store under `durableStoreContext`, which outlives the caller's. -/
def storeCall {α : Type} (onError : LifecycleError → SignError) (x : LifecycleM α) : CoordM α :=
  zoom Durable.store (fun s d => { d with store := s }) (mapError onError x)

variable [Sha256]

def acceptRecord (record : SignAttemptRecord) : CoordM Unit := do
  let c := (← get).coordinator
  throwIf (attemptQuery record ≠ c.query)
    (.corrupt "durable lifecycle attempt identity mismatch")
  throwIf (c.lease.token ≠ 0 ∧ record.intent.sessionID ≠ c.lease.sessionID)
    (.corrupt "durable lifecycle attempt session mismatch")
  throwIf (c.attempt.any fun old => record.intent.sessionID ≠ old.intent.sessionID)
    (.corrupt "durable lifecycle attempt session changed")
  throwIf (record.outboxDigest.length ≠ sha256Size) (.corrupt "invalid durable outbox digest")
  throwIf (record.exactOutbox ≠ [] ∧ record.outboxDigest ≠ sha256 record.exactOutbox)
    (.corrupt "durable outbox digest mismatch")
  throwIf (record.presignMetadata = [] ∨ record.delivered ≠ (record.delivery ≠ [] : Bool)
      ∨ record.completed ≠ (record.completion ≠ [] : Bool)
      ∨ (record.aborted ∧ record.abortReason = [])) (.corrupt "invalid durable attempt progress")
  throwIf record.aborted .attemptAborted
  throwIf (c.attempt.any fun old => attemptQuery old ≠ attemptQuery record)
    (.corrupt "durable attempt identity changed")
  modify fun d => { d with coordinator := { d.coordinator with attempt := some record } }

def requireAttempt : CoordM Unit := do
  throwIf ((← get).coordinator.attempt = none) .noDurableAttempt

def finishLeaseIfTerminal : CoordM Unit := do
  let c := (← get).coordinator
  if c.attempt.any SignAttemptRecord.terminal ∧ c.lease.token ≠ 0 ∧ c.lease.state = .active then
    storeCall .finishLease (finishRunLease none c.lease .completed)
    modify fun d => { d with
      coordinator := { d.coordinator with lease := { c.lease with state := .completed } } }

/-- `completion` is the signature bound to the intent, encoded. -/
def complete (completion : Bytes) : CoordM SignAttemptRecord := do
  requireAttempt
  let c := (← get).coordinator
  let record ← storeCall .persistCompletion (completeAttempt none c.query completion)
  acceptRecord record
  finishLeaseIfTerminal
  return record

def abort (reason : GoString) : CoordM Unit := do
  requireAttempt
  let c := (← get).coordinator
  let record ← storeCall .store (Lifecycle.abortAttempt none c.query reason)
  acceptRecord record
  if c.lease.token ≠ 0 ∧ c.lease.state = .active then
    storeCall .store (finishRunLease none c.lease .aborted)
    modify fun d => { d with
      coordinator := { d.coordinator with lease := { c.lease with state := .aborted } } }

/-! ## The session -/

/-- The flags of a `SignSession` that decide its disposition. -/
structure SignSession where
  coordinator : Option SignAttemptCoordinator
  completed : Bool := false
  aborted : Bool := false
  closed : Bool := false
  closePending : Bool := false
deriving DecidableEq

structure World where
  store : MemoryLifecycleStore
  session : SignSession

abbrev SignM := Proc World SignError

omit [Sha256] in
/-- Run a coordinator's method through the session's pointer to it. -/
def withCoordinator {α : Type} (c : SignAttemptCoordinator) (body : CoordM α) : SignM α :=
  zoom (fun w => ⟨w.store, c⟩)
    (fun d w => { w with
      store := d.store, session := { w.session with coordinator := some d.coordinator } }) body

omit [Sha256] in
/-- `SignSession.abort`: the flag; the cleared secrets are not modelled. -/
def markAborted : SignM Unit :=
  modify fun w => { w with session := { w.session with aborted := true } }

omit [Sha256] in
def setClosePending (pending : Bool) : SignM Unit :=
  modify fun w => { w with session := { w.session with closePending := pending } }

def abortDispositionLocked (reason : GoString) : SignM Unit := do
  let session := (← get).session
  if session.closed then return
  throwIf session.completed .runCompleted
  let abortErr ← match session.coordinator with
    | some c => attempt (withCoordinator c (abort reason))
    | none => pure none
  markAborted
  match abortErr with
  | some e =>
    setClosePending true
    throw (.abortAttempt e)
  | none => setClosePending false

/-- `SignSession.Abort`. -/
def sessionAbort (ctx : Context) (reason : GoString) : SignM Unit := do
  check (ctx.map .context)
  throwIf (reason = []) .emptyReason
  abortDispositionLocked reason

/-- The reason `Close` aborts with. -/
def closedByCallerReason : GoString := lit "online-sign session closed by caller"

/-- `SignSession.Close`. -/
def sessionClose (ctx : Context) : SignM Unit := do
  check (ctx.map .context)
  let session := (← get).session
  if session.closed then return
  if !session.completed && (!session.aborted || session.closePending) then
    abortDispositionLocked closedByCallerReason
  markAborted
  modify fun w => { w with session := { w.session with closed := true, closePending := false } }

/-- The reason a terminal rejection aborts with. -/
def terminalRejectionReason : GoString := lit "terminal online-sign protocol rejection"

/-- The deferred function of `Handle`, on the error the body returned. -/
def afterRejection (err : SignError) : SignM Unit := do
  if shouldAbortSession err then
    let abortErr ← match (← get).session.coordinator with
      | some c => do
        let abortErr ← attempt (withCoordinator c (abort terminalRejectionReason))
        setClosePending abortErr.isSome
        pure abortErr
      | none => pure none
    markAborted
    match abortErr with
    | some e => throw (.joined err e)
    | none => throw err
  else throw err

/-- The body of `Handle` once the session is known to be live. `built` is the outcome
of building the partial's transition, `ctx` the context's state before it is applied,
and `prepared` the outcome of `prepareFinalSignature`: not ready, or the completion to
store, encoded. -/
def handleBody (ctx : Context) (built : Except SignError Unit)
    (prepared : Except SignError (Option Bytes)) : SignM Unit := do
  outcome built
  check (ctx.map .context)
  match ← outcome prepared with
  | none => return
  | some completion =>
    match (← get).session.coordinator with
    | none => throw .coordinatorUnavailable
    | some c =>
      let record ← withCoordinator c (complete completion)
      throwIf (record.completion ≠ completion) (.corrupt "completion record mismatch")
      modify fun w => { w with session := { w.session with completed := true } }

def handle (ctx ctx' : Context) (built : Except SignError Unit)
    (prepared : Except SignError (Option Bytes)) : SignM Unit := do
  check (ctx.map .context)
  let session := (← get).session
  throwIf session.completed (.protocol .completed false)
  throwIf session.aborted (.protocol .aborted false)
  match ← attempt (handleBody ctx' built prepared) with
  | some err => afterRejection err
  | none => return

end Tss.Sign
