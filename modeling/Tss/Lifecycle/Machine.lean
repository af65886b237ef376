import Tss.Lib.Run
import Tss.Lifecycle.Operations

/-!
# The memory store as a machine

`Op` is a call of one of the 22 methods of `LifecycleStore` with its
arguments, `Response` what a successful call returns. A run is a list of
calls, in any order and with any arguments.
-/

namespace Tss.Lifecycle

open Proc

inductive Op where
  | installInitialGeneration (ctx : Context) (binding : GenerationBinding) (blob metadata : Bytes)
  | loadCurrentGeneration (ctx : Context) (keyID : GoString)
  | acquireRunLease (ctx : Context) (binding : GenerationBinding) (kind : RunKind)
      (sessionID : SessionID)
  | acquireReshareReceiverLease (ctx : Context) (anchor : ReshareReceiverAnchor)
  | queryRunLease (ctx : Context) (binding : GenerationBinding) (kind : RunKind)
      (sessionID : SessionID)
  | finishRunLease (ctx : Context) (lease : RunLease) (outcome : RunLeaseOutcome)
  | markProtocolRefreshFailed (ctx : Context) (lease : RunLease) (reason : GoString)
  | commitAvailablePresignFromLease (ctx : Context) (lease : RunLease) (presignID : GoString)
      (blob metadata : Bytes)
  | preparePresignCandidate (ctx : Context) (binding : GenerationBinding) (presignID : GoString)
  | commitSignAttempt (ctx : Context) (binding : GenerationBinding) (presignID : GoString)
      (intent : SignAttemptIntent) (exactOutbox : Bytes)
  | queryAttemptOutcome (ctx : Context) (query : AttemptQuery)
  | markAttemptDelivered (ctx : Context) (query : AttemptQuery) (delivery : Bytes)
  | completeAttempt (ctx : Context) (query : AttemptQuery) (completion : Bytes)
  | abortAttempt (ctx : Context) (query : AttemptQuery) (reason : GoString)
  | burnPresign (ctx : Context) (binding : GenerationBinding) (presignID reason : GoString)
  | beginCutover (ctx : Context) (source target : GenerationBinding)
  | beginCutoverFromLease (ctx : Context) (lease : RunLease) (target : GenerationBinding)
  | commitRetirementFromLease (ctx : Context) (lease : RunLease) (target : GenerationBinding)
  | commitCutover (ctx : Context) (fence : CutoverFence) (targetBlob targetMetadata : Bytes)
  | abortCutover (ctx : Context) (fence : CutoverFence) (reason : GoString)
  | commitInitialGenerationFromLease (ctx : Context) (lease : RunLease)
      (child : GenerationBinding) (childBlob childMetadata : Bytes)
  | commitInitialGenerationFromReshareLease (ctx : Context) (lease : RunLease)
      (target : GenerationBinding) (targetBlob targetMetadata : Bytes)
deriving DecidableEq

/-- The result of a successful call. -/
inductive Response where
  | done
  | generation (record : GenerationRecord)
  | lease (lease : RunLease)
  | refreshDisabled (record : RefreshDisabledRecord)
  | candidate (candidate : PresignCandidate)
  | commit (commit : AttemptCommit)
  | attempt (record : SignAttemptRecord)
  | fence (fence : CutoverFence)
deriving DecidableEq

variable [Sha256]

/-- The method a call runs. -/
def Op.call : Op → LifecycleM Response
  | .installInitialGeneration ctx binding blob metadata =>
    .generation <$> Lifecycle.installInitialGeneration ctx binding blob metadata
  | .loadCurrentGeneration ctx keyID =>
    .generation <$> Lifecycle.loadCurrentGeneration ctx keyID
  | .acquireRunLease ctx binding kind sessionID =>
    .lease <$> Lifecycle.acquireRunLease ctx binding kind sessionID
  | .acquireReshareReceiverLease ctx anchor =>
    .lease <$> Lifecycle.acquireReshareReceiverLease ctx anchor
  | .queryRunLease ctx binding kind sessionID =>
    .lease <$> Lifecycle.queryRunLease ctx binding kind sessionID
  | .finishRunLease ctx lease outcome =>
    (fun _ => .done) <$> Lifecycle.finishRunLease ctx lease outcome
  | .markProtocolRefreshFailed ctx lease reason =>
    .refreshDisabled <$> Lifecycle.markProtocolRefreshFailed ctx lease reason
  | .commitAvailablePresignFromLease ctx lease presignID blob metadata =>
    (fun _ => .done) <$>
      Lifecycle.commitAvailablePresignFromLease ctx lease presignID blob metadata
  | .preparePresignCandidate ctx binding presignID =>
    .candidate <$> Lifecycle.preparePresignCandidate ctx binding presignID
  | .commitSignAttempt ctx binding presignID intent exactOutbox =>
    .commit <$> Lifecycle.commitSignAttempt ctx binding presignID intent exactOutbox
  | .queryAttemptOutcome ctx query =>
    .attempt <$> Lifecycle.queryAttemptOutcome ctx query
  | .markAttemptDelivered ctx query delivery =>
    .attempt <$> Lifecycle.markAttemptDelivered ctx query delivery
  | .completeAttempt ctx query completion =>
    .attempt <$> Lifecycle.completeAttempt ctx query completion
  | .abortAttempt ctx query reason =>
    .attempt <$> Lifecycle.abortAttempt ctx query reason
  | .burnPresign ctx binding presignID reason =>
    (fun _ => .done) <$> Lifecycle.burnPresign ctx binding presignID reason
  | .beginCutover ctx source target =>
    .fence <$> Lifecycle.beginCutover ctx source target
  | .beginCutoverFromLease ctx lease target =>
    .fence <$> Lifecycle.beginCutoverFromLease ctx lease target
  | .commitRetirementFromLease ctx lease target =>
    (fun _ => .done) <$> Lifecycle.commitRetirementFromLease ctx lease target
  | .commitCutover ctx fence targetBlob targetMetadata =>
    .generation <$> Lifecycle.commitCutover ctx fence targetBlob targetMetadata
  | .abortCutover ctx fence reason =>
    (fun _ => .done) <$> Lifecycle.abortCutover ctx fence reason
  | .commitInitialGenerationFromLease ctx lease child childBlob childMetadata =>
    .generation <$>
      Lifecycle.commitInitialGenerationFromLease ctx lease child childBlob childMetadata
  | .commitInitialGenerationFromReshareLease ctx lease target targetBlob targetMetadata =>
    .generation <$>
      Lifecycle.commitInitialGenerationFromReshareLease ctx lease target targetBlob targetMetadata

/-- One call on the store: its outcome and the store it leaves. -/
def step (s : MemoryLifecycleStore) (op : Op) :
    Except LifecycleError Response × MemoryLifecycleStore :=
  exec op.call s

/-- The store after the calls, first to last. -/
def runOps (s : MemoryLifecycleStore) (ops : List Op) : MemoryLifecycleStore :=
  Run.final step s ops

end Tss.Lifecycle
