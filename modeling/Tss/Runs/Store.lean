import Tss.Lib.FMap
import Tss.Lib.Proc
import Tss.Lib.Run
import Tss.Runs.Intent

/-!
# The memory run store (`tssrun/run.go`)

One record per run with four maps from parties to what they did, and an
index from protocol sessions to runs. The record's status is a summary of
the maps, recomputed at different points of each call. `byRunID` holds
pointers, so a call works on the record it found and its writes stay
whether or not it fails; `withRecord` is that reading.
-/

namespace Tss.Runs

open Proc Lifecycle

inductive RunStatus where
  | proposed
  | accepted
  | started
  | completed
  | aborted
deriving DecidableEq, Repr

structure RunRecord where
  intent : RunIntent
  status : RunStatus
  accepted : FMap PartyID Bytes
  started : FMap PartyID Bool
  completed : FMap PartyID LocalRunResult
  aborted : FMap PartyID GoString

/-- A protocol session: the key of the second index. -/
structure SessionIndex where
  protocol : ProtocolID
  sessionID : SessionID
deriving DecidableEq

structure MemoryRunStore where
  byRunID : FMap GoString RunRecord
  bySession : FMap SessionIndex GoString

def newMemoryRunStore : MemoryRunStore := ⟨∅, ∅⟩

abbrev RunM := Proc MemoryRunStore RunError

/-- `if err := ctx.Err(); err != nil { return err }`. -/
def ctxErr (ctx : Context) : Option RunError := ctx.map .context

/-! ## Status -/

namespace RunRecord

/-- The party accepted and has neither completed nor aborted. -/
def active (r : RunRecord) (party : PartyID) : Bool :=
  party ∉ r.completed && party ∉ r.aborted

def refreshStatus (r : RunRecord) : RunRecord :=
  let activeAccepted := r.accepted.any fun party _ => r.active party
  let activeStarted := r.accepted.any fun party _ =>
    r.active party && (r.started.lookup party).getD false
  { r with status :=
      if activeStarted then .started
      else if activeAccepted then .accepted
      else if 0 < r.completed.size then .completed
      else if 0 < r.aborted.size then .aborted
      else .proposed }

/-! ## Calls on one record -/

variable [Sha256]

/-- The part of `AcceptPlan` after the record was found. -/
def acceptPlan (self : PartyID) (digest : Bytes) : Proc RunRecord RunError Unit := do
  let r ← get
  throwIf (self ∉ r.intent.participants) .runPartyNotParticipant
  throwIf (digest ≠ r.intent.acceptanceDigest) .planDigestConflict
  modify refreshStatus
  let r ← get
  throwIf (self ∈ r.aborted) .runAborted
  throwIf (self ∈ r.completed) .runCompleted
  match r.accepted.lookup self with
  | some old => throwIf (old ≠ digest) .planDigestConflict
  | none =>
    throwIf (r.status = .aborted) .runAborted
    throwIf (r.status = .completed) .runCompleted
    modify fun r => { r with accepted := r.accepted.insert self digest }
    modify refreshStatus

/-- The part of `MarkStarted` after the record was found. -/
def markStarted (self : PartyID) (acceptanceDigest : Bytes) (descriptor : SessionDescriptor) :
    Proc RunRecord RunError Unit := do
  let r ← get
  check (validateSessionDescriptorForRun r.intent self acceptanceDigest descriptor)
  throwIf (self ∉ r.intent.participants) .runPartyNotParticipant
  throwIf (self ∈ r.aborted) .runAborted
  throwIf (self ∈ r.completed) .runCompleted
  throwIf (self ∉ r.accepted) .runNotAccepted
  modify fun r => { r with started := r.started.insert self true }
  modify refreshStatus

omit [Sha256] in
/-- The part of `MarkCompleted` after the record was found. -/
def markCompleted (self : PartyID) (result : LocalRunResult) : Proc RunRecord RunError Unit := do
  let r ← get
  throwIf (self ∉ r.intent.participants) .runPartyNotParticipant
  throwIf (self ∈ r.aborted) .runAborted
  throwIf (self ∉ r.started) .runNotAccepted
  check (validateLocalRunResult r.intent result)
  match r.completed.lookup self with
  | some old => throwIf (!localRunResultsEqual old result) .runCompleted
  | none =>
    modify fun r => { r with completed := r.completed.insert self result }
    modify refreshStatus

omit [Sha256] in
/-- The part of `AbortRun` after the record was found. -/
def abortRun (self : PartyID) (reason : GoString) : Proc RunRecord RunError Unit := do
  let r ← get
  throwIf (self ∉ r.intent.participants) .runPartyNotParticipant
  throwIf (self ∈ r.completed) .runCompleted
  modify fun r => { r with aborted := r.aborted.insert self reason }
  modify refreshStatus

omit [Sha256] in
/-- The part of `LookupBySession` after the record was found. -/
def lookup : Proc RunRecord RunError RunIntent := do
  modify refreshStatus
  let r ← get
  match r.status with
  | .accepted | .started => return r.intent
  | .completed => throw .runCompleted
  | .aborted => throw .runAborted
  | .proposed => throw .runNotAccepted

end RunRecord

/-! ## The store's calls -/

/-- Run a body on the record stored under `runID`. -/
def withRecord {α : Type} (runID : GoString) (missing : RunError)
    (body : Proc RunRecord RunError α) : RunM α := do
  let s ← get
  match s.byRunID.lookup runID with
  | none => throw missing
  | some r =>
    zoom (fun _ => r) (fun r' s => { s with byRunID := s.byRunID.insert runID r' }) body

def createRun (ctx : Context) (run : RunIntent) : RunM Unit := do
  check (ctxErr ctx)
  check (validateRunIntent run)
  let s ← get
  throwIf (run.runID ∈ s.byRunID) .runConflict
  let idx : SessionIndex := ⟨run.protocol, run.sessionID⟩
  throwIf (idx ∈ s.bySession) .sessionAlreadyUsed
  modify fun s => {
    byRunID := s.byRunID.insert run.runID
      { intent := run, status := .proposed, accepted := ∅, started := ∅, completed := ∅,
        aborted := ∅ }
    bySession := s.bySession.insert idx run.runID }

def loadRun (ctx : Context) (runID : GoString) : RunM RunIntent := do
  check (ctxErr ctx)
  throwIf (runID = []) .runNotFound
  withRecord runID .runNotFound do return (← get).intent

/-- A session bound to a run whose record is gone would dereference nil. -/
def lookupBySession (ctx : Context) (protocol : ProtocolID) (sessionID : SessionID) :
    RunM RunIntent := do
  check (ctxErr ctx)
  let s ← get
  match s.bySession.lookup ⟨protocol, sessionID⟩ with
  | none => throw .runNotFound
  | some runID => withRecord runID .nilRecord RunRecord.lookup

def markCompleted (ctx : Context) (runID : GoString) (self : PartyID) (result : LocalRunResult) :
    RunM Unit := do
  check (ctxErr ctx)
  withRecord runID .runNotFound (RunRecord.markCompleted self result)

def abortRun (ctx : Context) (runID : GoString) (self : PartyID) (reason : GoString) :
    RunM Unit := do
  check (ctxErr ctx)
  withRecord runID .runNotFound (RunRecord.abortRun self reason)

variable [Sha256]

def acceptPlan (ctx : Context) (runID : GoString) (self : PartyID) (digest : Bytes) :
    RunM Unit := do
  check (ctxErr ctx)
  throwIf (self = 0 ∨ digest = []) (.invalidRunIntent "")
  withRecord runID .runNotFound (RunRecord.acceptPlan self digest)

def markStarted (ctx : Context) (runID : GoString) (self : PartyID) (acceptanceDigest : Bytes)
    (descriptor : SessionDescriptor) : RunM Unit := do
  check (ctxErr ctx)
  withRecord runID .runNotFound (RunRecord.markStarted self acceptanceDigest descriptor)

/-! ## The store as a machine -/

/-- A call of one of the methods of `RunStore`. -/
inductive RunOp where
  | createRun (ctx : Context) (run : RunIntent)
  | acceptPlan (ctx : Context) (runID : GoString) (self : PartyID) (digest : Bytes)
  | loadRun (ctx : Context) (runID : GoString)
  | lookupBySession (ctx : Context) (protocol : ProtocolID) (sessionID : SessionID)
  | markStarted (ctx : Context) (runID : GoString) (self : PartyID) (acceptanceDigest : Bytes)
      (descriptor : SessionDescriptor)
  | markCompleted (ctx : Context) (runID : GoString) (self : PartyID) (result : LocalRunResult)
  | abortRun (ctx : Context) (runID : GoString) (self : PartyID) (reason : GoString)

/-- The party that makes the call, where the call names one. -/
def RunOp.party : RunOp → Option PartyID
  | .acceptPlan _ _ self _ | .markStarted _ _ self _ _ | .markCompleted _ _ self _
  | .abortRun _ _ self _ => some self
  | .createRun .. | .loadRun .. | .lookupBySession .. => none

/-- The method a call runs; the two reads return an intent. -/
def RunOp.call : RunOp → RunM (Option RunIntent)
  | .createRun ctx run => (fun _ => none) <$> Runs.createRun ctx run
  | .acceptPlan ctx runID self digest => (fun _ => none) <$> Runs.acceptPlan ctx runID self digest
  | .loadRun ctx runID => some <$> Runs.loadRun ctx runID
  | .lookupBySession ctx protocol sessionID =>
    some <$> Runs.lookupBySession ctx protocol sessionID
  | .markStarted ctx runID self digest descriptor =>
    (fun _ => none) <$> Runs.markStarted ctx runID self digest descriptor
  | .markCompleted ctx runID self result =>
    (fun _ => none) <$> Runs.markCompleted ctx runID self result
  | .abortRun ctx runID self reason => (fun _ => none) <$> Runs.abortRun ctx runID self reason

def step (s : MemoryRunStore) (op : RunOp) :
    Except RunError (Option RunIntent) × MemoryRunStore :=
  exec op.call s

/-- The store after the calls, in the order the mutex admitted them. -/
def runCalls (s : MemoryRunStore) (ops : List RunOp) : MemoryRunStore := Run.final step s ops

end Tss.Runs
