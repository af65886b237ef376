import Tss.Lib.Verdict
import Tss.Lifecycle.Store

/-!
# The load-time validator (`tssrun/file_lifecycle_state.go`)

`validateMemoryLifecycleStateForKey` and its sub-validators, in the order
the source runs them. Every rejection is an `ErrLifecycleCorrupt`; the
source's loops range over maps, so a sub-validator is a `Verdict`. A map
read that Go answers with a zero value is `getD` here. The checks for nil
pointers, unknown statuses, states, kinds and namespaces have no
counterpart: the types have no such values.
-/

namespace Tss.Lifecycle

open MemoryLifecycleStore Verdict

def fileLifecycleGlobalKeyID : GoString := lit "tssrun-global-lifecycle"

/-- `if cond { return fmt.Errorf("%w: detail", ErrLifecycleCorrupt) }`. -/
def corruptIf (c : Prop) [Decidable c] (detail : String) : Verdict LifecycleError :=
  failIf c (.lifecycleCorrupt detail)

@[simp] theorem corruptIf_eq_zero {c : Prop} [Decidable c] {detail : String} :
    corruptIf c detail = 0 ↔ ¬ c :=
  failIf_eq_zero

section Validators

variable [Sha256] (memory : MemoryLifecycleStore)

def validateMemoryLifecycleTombstones : Verdict LifecycleError :=
  range memory.tombstones fun key tombstone =>
    corruptIf (tombstone.identifierHash.length ≠ sha256Size * 2
      ∨ validateLifecycleIdentifier tombstone.keyID ≠ none
      ∨ tombstone.digest.length ≠ sha256Size ∨ tombstone.state = []
      ∨ key ≠ lifecycleTombstoneMapKey tombstone.ns tombstone.identifierHash)
      "invalid lifecycle tombstone"

/-- `currentCounts[keyID]`. -/
def currentCount (keyID : GoString) : Nat :=
  memory.generations.count fun binding record =>
    record.status = .current && binding.keyID = keyID

def validateMemoryLifecycleGenerations : Verdict LifecycleError :=
  andThen
    (range memory.current fun indexedKeyID binding =>
      corruptIf (indexedKeyID ≠ binding.keyID ∨ binding.validate ≠ none)
        "invalid current generation index")
  <| andThen
    (range memory.generations fun binding record =>
      andThen
        (corruptIf (binding.validate ≠ none ∨ record.binding ≠ binding)
          "invalid generation record")
        (if record.status = .current then
          corruptIf (memory.current.lookup binding.keyID ≠ some binding ∨ record.blob = [])
            "current generation mismatch"
        else
          corruptIf (record.blob ≠ [] ∨ record.metadata ≠ [])
            "retired generation retained secret blob"))
    (range memory.current fun indexedKeyID _ =>
      corruptIf (currentCount memory indexedKeyID ≠ 1) "invalid current generation count")

def validateStoredLease (token : Nat) (lease : RunLease) : Verdict LifecycleError :=
  andThen
    (corruptIf (lease.token ≠ token ∨ validateRunLease lease ≠ none
      ∨ memory.nextLeaseToken < token) "invalid run lease")
  <| andThen
    (corruptIf ((memory.leaseBySession.lookup lease.sessionID).getD 0 ≠ token)
      "lease session index mismatch")
    (corruptIf (lease.state ≠ .active ∧ lease.state ≠ .completed ∧ lease.state ≠ .aborted)
      "invalid run lease state")

def validateReceiverLease (lease : RunLease) (receiverAnchor : ReshareReceiverAnchor) :
    Verdict LifecycleError :=
  andThen
    (corruptIf (receiverAnchor.validate ≠ none ∨ lease.kind ≠ .reshare
      ∨ receiverAnchor.source ≠ lease.binding ∨ receiverAnchor.sessionID ≠ lease.sessionID)
      "invalid reshare receiver anchor")
  <| andThen
    (corruptIf (lease.binding.keyID ∈ memory.current
      ∨ memory.hasKeyGenerationLocked lease.binding.keyID receiverAnchor.targetKeyGeneration
      ∨ memory.hasNonTerminalAttemptForKeyLocked lease.binding.keyID)
      "reshare receiver anchor conflicts with local state")
    (corruptIf (lease.binding.keyID ∈ memory.cutoverByKey)
      "reshare receiver anchor overlaps cutover")

/-- `activeLeaseCounts[keyID]`. -/
def activeLeaseCount (keyID : GoString) : Nat :=
  memory.leasesByToken.count fun _ lease =>
    lease.state = .active && lease.binding.keyID = keyID

def validatedReceiverAnchors : Nat :=
  memory.leasesByToken.count fun token lease =>
    lease.state = .active && token ∈ memory.reshareReceivers

def validateMemoryLifecycleLeases : Verdict LifecycleError :=
  andThen
    (corruptIf (memory.leasesByToken.size ≠ memory.leaseBySession.size) "lease index mismatch")
  <| andThen
    (range memory.leasesByToken fun token lease =>
      andThen (validateStoredLease memory token lease)
        (if lease.state ≠ .active then
          corruptIf (token ∈ memory.reshareReceivers)
            "terminal lease retained reshare receiver anchor"
        else match memory.reshareReceivers.lookup token with
          | some receiverAnchor => validateReceiverLease memory lease receiverAnchor
          | none =>
            if lease.kind = .keygen then
              corruptIf (lease.binding.keyID ∈ memory.current
                ∨ memory.hasGenerationForKeyLocked lease.binding.keyID)
                "active keygen lease has generation state"
            else
              corruptIf (!memory.isCurrentLocked lease.binding)
                "active lease is not bound to current generation"))
  <| andThen
    (corruptIf (validatedReceiverAnchors memory ≠ memory.reshareReceivers.size)
      "reshare receiver anchor missing active lease")
    (range memory.leasesByToken fun _ lease =>
      corruptIf (lease.state = .active ∧ exclusiveLeaseRunKind lease.kind
        ∧ activeLeaseCount memory lease.binding.keyID ≠ 1)
        "active exclusive lease overlaps another lease")

def validateMemoryLifecycleLeaseEffects : Verdict LifecycleError :=
  range memory.leaseEffects fun token effect =>
    match memory.leasesByToken.lookup token with
    | none => corruptIf True "invalid lease effect"
    | some lease =>
      andThen
        (corruptIf (effect.leaseToken ≠ token ∨ lease.state = .active) "invalid lease effect")
        (match effect.kind with
        | .presign =>
          corruptIf (lease.kind ≠ .presign ∨ lease.state ≠ .completed
            ∨ validateLifecycleIdentifier effect.presignID ≠ none
            ∨ effect.digest.length ≠ sha256Size ∨ effect.presignID ∉ memory.presigns)
            "invalid presign lease effect"
        | .cutover =>
          corruptIf (!cutoverLeaseRunKind lease.kind ∨ lease.state ≠ .completed
            ∨ effect.target.keyID ≠ lease.binding.keyID
            ∨ (memory.cutoversByToken.lookup effect.cutoverToken).all fun cutover =>
                cutover.fence.source ≠ lease.binding ∨ cutover.fence.target ≠ effect.target)
            "invalid cutover lease effect"
        | .refreshFailed =>
          corruptIf (lease.kind ≠ .refresh ∨ lease.state ≠ .aborted
            ∨ (memory.refreshDisabled.lookup lease.binding.keyID).all fun disabled =>
                disabled.sessionID ≠ lease.sessionID ∨ disabled.reason ≠ effect.reason)
            "invalid refresh-failed lease effect"
        | .childGeneration =>
          corruptIf (lease.kind ≠ .childDerivation ∨ lease.state ≠ .completed
            ∨ effect.target.keyID = lease.binding.keyID
            ∨ effect.target.epochID = lease.binding.epochID
            ∨ effect.target.validate ≠ none ∨ effect.digest.length ≠ sha256Size
            ∨ effect.target ∉ memory.generations)
            "invalid child-generation lease effect"
        | .reshareReceiverGeneration =>
          corruptIf (lease.kind ≠ .reshare ∨ lease.state ≠ .completed
            ∨ effect.target.keyID ≠ lease.binding.keyID
            ∨ effect.target.keyGeneration = lease.binding.keyGeneration
            ∨ effect.target.epochID = lease.binding.epochID
            ∨ effect.target.validate ≠ none ∨ effect.digest.length ≠ sha256Size
            ∨ effect.target ∉ memory.generations)
            "invalid reshare receiver generation lease effect"
        | .retirement =>
          corruptIf (lease.kind ≠ .reshare ∨ lease.state ≠ .completed
            ∨ validateCutoverBindings lease.binding effect.target ≠ none
            ∨ (memory.generations.lookup lease.binding).all fun source =>
                source.status ≠ .retired ∨ source.blob ≠ [] ∨ source.metadata ≠ [])
            "invalid retirement lease effect")

def validateMemoryLifecycleRefreshDisabled : Verdict LifecycleError :=
  range memory.refreshDisabled fun disabledKeyID disabled =>
    andThen
      (corruptIf (disabled.keyID ≠ disabledKeyID ∨ !idValid disabled.sessionID
        ∨ validateLifecycleReason disabled.reason ≠ none) "invalid refresh-disabled record")
      (match memory.leaseBySession.lookup disabled.sessionID with
      | none =>
        corruptIf (!memory.tombstonedLocked .session disabled.sessionID.toList)
          "refresh-disabled record missing lease effect"
      | some token =>
        corruptIf ((memory.leaseEffects.lookup token).all fun effect =>
            effect.kind ≠ .refreshFailed)
          "refresh-disabled record missing lease effect")

def validateStoredPresign (presignID : GoString) (presign : StoredPresign) :
    Verdict LifecycleError :=
  match presign.state with
  | .available =>
    andThen
      (corruptIf (!memory.isCurrentLocked presign.binding ∨ presign.blob = []
        ∨ presign.attemptID ≠ [] ∨ presign.reason ≠ []) "invalid available presign")
      (corruptIf (presign.artifactDigest ≠ sha256 presign.metadata)
        "presign public artifact digest mismatch")
  | .claimed =>
    corruptIf (!memory.isCurrentLocked presign.binding ∨ presign.blob ≠ []
      ∨ presign.metadata ≠ [] ∨ presign.attemptID = [] ∨ presign.reason ≠ []
      ∨ (memory.attempts.lookup presign.attemptID).all fun attempt =>
          attempt.binding ≠ presign.binding ∨ attempt.presignID ≠ presignID ∨ attempt.aborted)
      "invalid claimed presign"
  | .burned =>
    andThen
      (corruptIf (presign.blob ≠ [] ∨ presign.metadata ≠ []
        ∨ validateLifecycleReason presign.reason ≠ none) "invalid burned presign")
      (corruptIf (presign.attemptID ≠ []
        ∧ (memory.attempts.lookup presign.attemptID).all fun attempt =>
            attempt.binding ≠ presign.binding ∨ attempt.presignID ≠ presignID
              ∨ (!attempt.aborted ∧ !attempt.terminal))
        "invalid attempted burned presign")

/-- The loop finds a duplicate artifact at whichever of its owners comes second. -/
def validateMemoryLifecyclePresigns : Verdict LifecycleError :=
  range memory.presigns fun presignID presign =>
    andThen
      (corruptIf (validateLifecycleIdentifier presignID ≠ none
        ∨ presign.binding.validate ≠ none ∨ presign.artifactDigest.length ≠ sha256Size)
        "invalid presign record")
    <| andThen
      (corruptIf (memory.hasConflictingPresignArtifactLocked presignID presign.artifactDigest)
        "duplicate presign public artifact")
      (validateStoredPresign memory presignID presign)

def validateStoredAttemptProgress (record : SignAttemptRecord) :
    Verdict LifecycleError :=
  andThen
    (corruptIf (record.delivered ≠ (record.delivery ≠ [] : Bool)
      ∨ record.completed ≠ (record.completion ≠ [] : Bool)) "attempt progress mismatch")
  <| andThen
    (corruptIf (!record.terminal ∧ !record.aborted ∧ record.exactOutbox = [])
      "pending attempt missing exact outbox")
  <| andThen
    (corruptIf ((record.terminal ∨ record.aborted) ∧ record.exactOutbox ≠ [])
      "terminal outbox retained")
  <| andThen
    (corruptIf (record.exactOutbox ≠ [] ∧ record.outboxDigest ≠ sha256 record.exactOutbox)
      "exact outbox digest mismatch")
    (corruptIf (record.presignMetadata = []) "attempt missing public presign metadata")

/-- The lease stored for a session, if both indexes have it. -/
def sessionLease (sessionID : SessionID) : Option RunLease :=
  (memory.leaseBySession.lookup sessionID).bind memory.leasesByToken.lookup

def validateStoredAttempt (attemptID : GoString) (record : SignAttemptRecord) :
    Verdict LifecycleError :=
  andThen
    (corruptIf (record.intent.attemptID ≠ attemptID) "invalid attempt index")
  <| andThen
    (corruptIf (record.binding.validate ≠ none ∨ record.intent.validate ≠ none
      ∨ validateLifecycleIdentifier record.presignID ≠ none
      ∨ record.outboxDigest.length ≠ sha256Size) "invalid attempt record")
  <| andThen
    (corruptIf ((sessionLease memory record.intent.sessionID).all fun lease =>
      lease.binding ≠ record.binding ∨ lease.kind ≠ .sign) "attempt sign lease mismatch")
  <| andThen
    (corruptIf (!record.terminal ∧ !memory.isCurrentLocked record.binding)
      "nonterminal attempt is not current")
  <| andThen
    (corruptIf ((memory.presigns.lookup record.presignID).all fun presign =>
      presign.binding ≠ record.binding ∨ presign.attemptID ≠ attemptID)
      "attempt presign index mismatch")
  <| andThen
    (if record.aborted then
      corruptIf ((memory.presigns.lookup record.presignID).all (fun presign =>
          presign.state ≠ .burned)
        ∨ validateLifecycleReason record.abortReason ≠ none) "invalid aborted attempt"
    else
      corruptIf (record.abortReason ≠ []
        ∨ (memory.presigns.lookup record.presignID).all fun presign =>
            presign.state ≠ .claimed ∧ (!record.terminal ∨ presign.state ≠ .burned))
        "invalid claimed attempt")
    (validateStoredAttemptProgress record)

def validateMemoryLifecycleAttempts : Verdict LifecycleError :=
  range memory.attempts (validateStoredAttempt memory)

def validateCommittedCutover (cutover : StoredCutover) : Verdict LifecycleError :=
  andThen
    (corruptIf (cutover.targetBlobDigest.length ≠ sha256Size
      ∨ cutover.targetMetadataDigest.length ≠ sha256Size ∨ cutover.reason ≠ [])
      "invalid committed cutover")
  <| andThen
    (corruptIf ((memory.generations.lookup cutover.fence.source).all (fun source =>
        source.status ≠ .retired)
      ∨ cutover.fence.target ∉ memory.generations) "committed cutover generation mismatch")
    (corruptIf ((memory.generations.lookup cutover.fence.target).any fun target =>
      target.status = .current ∧ (cutover.targetBlobDigest ≠ sha256 target.blob
        ∨ cutover.targetMetadataDigest ≠ sha256 target.metadata))
      "committed cutover target digest mismatch")

def validateStoredCutover (token : Nat) (cutover : StoredCutover) : Verdict LifecycleError :=
  andThen
    (corruptIf (cutover.fence.token ≠ token ∨ memory.nextCutoverToken < token
      ∨ validateCutoverFence cutover.fence ≠ none) "invalid cutover record")
    (match cutover.state with
    | .active =>
      corruptIf ((memory.cutoverByKey.lookup cutover.fence.source.keyID).getD 0 ≠ token
        ∨ !memory.isCurrentLocked cutover.fence.source
        ∨ cutover.fence.target ∈ memory.generations
        ∨ memory.hasActiveLeaseForKeyLocked cutover.fence.source.keyID
        ∨ memory.hasNonTerminalAttemptLocked cutover.fence.source
        ∨ cutover.targetBlobDigest ≠ [] ∨ cutover.targetMetadataDigest ≠ []
        ∨ cutover.reason ≠ []) "invalid active cutover"
    | .committed => validateCommittedCutover memory cutover
    | .aborted =>
      corruptIf (cutover.targetBlobDigest ≠ [] ∨ cutover.targetMetadataDigest ≠ []
        ∨ validateLifecycleReason cutover.reason ≠ none) "invalid aborted cutover")

def activeCutovers : Nat := memory.cutoversByToken.count fun _ cutover => cutover.state = .active

def validateMemoryLifecycleCutovers : Verdict LifecycleError :=
  andThen (range memory.cutoversByToken (validateStoredCutover memory))
    (corruptIf (activeCutovers memory ≠ memory.cutoverByKey.size)
      "active cutover index mismatch")

def validateMemoryLifecycleStateForKey (keyID : GoString) : Verdict LifecycleError :=
  andThen (failIf (keyID ≠ fileLifecycleGlobalKeyID) errLifecycleCorrupt)
  <| andThen (validateMemoryLifecycleGenerations memory)
  <| andThen (validateMemoryLifecycleLeases memory)
  <| andThen (validateMemoryLifecycleLeaseEffects memory)
  <| andThen (validateMemoryLifecycleRefreshDisabled memory)
  <| andThen (validateMemoryLifecyclePresigns memory)
  <| andThen (validateMemoryLifecycleAttempts memory)
  <| andThen (validateMemoryLifecycleCutovers memory)
    (validateMemoryLifecycleTombstones memory)

/-- `validateMemoryLifecycleStateForKey` returns `nil`. -/
def Validates : Prop :=
  validateMemoryLifecycleStateForKey memory fileLifecycleGlobalKeyID = 0

end Validators

end Tss.Lifecycle
