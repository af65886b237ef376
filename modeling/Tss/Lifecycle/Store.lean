import Tss.Lib.FMap
import Tss.Lib.Proc
import Tss.Transcript
import Tss.Lifecycle.Record

/-!
# The memory store's state (`tssrun/lifecycle_memory.go`)

`MemoryLifecycleStore` and its `...Locked` helpers. The mutex is not
modelled: every operation holds it from its first read to its return, so
an operation is one step. A stored pointer is its record; a nil pointer
is an absent key, and the source never stores one.
-/

namespace Tss.Lifecycle

/-! ## Stored records -/

inductive StoredLeaseEffectKind where
  | presign
  | cutover
  | refreshFailed
  | childGeneration
  | reshareReceiverGeneration
  | retirement
deriving DecidableEq, Repr

/-- What a completed lease did. The fields a kind does not use hold their zero value. -/
structure StoredLeaseEffect where
  leaseToken : Nat
  kind : StoredLeaseEffectKind
  presignID : GoString := []
  target : GenerationBinding := .zero
  digest : Bytes := []
  reason : GoString := []
  cutoverToken : Nat := 0
deriving DecidableEq

inductive StoredPresignState where
  | available
  | claimed
  | burned
deriving DecidableEq, Repr

structure StoredPresign where
  binding : GenerationBinding
  blob : Bytes
  metadata : Bytes
  artifactDigest : Bytes
  state : StoredPresignState
  attemptID : GoString := []
  reason : GoString := []
deriving DecidableEq

inductive AttemptProgressKind where
  | delivery
  | completion
deriving DecidableEq, Repr

inductive StoredCutoverState where
  | active
  | committed
  | aborted
deriving DecidableEq, Repr

structure StoredCutover where
  fence : CutoverFence
  state : StoredCutoverState
  targetBlobDigest : Bytes := []
  targetMetadataDigest : Bytes := []
  reason : GoString := []
deriving DecidableEq

/-- The namespaces of tombstones and root index entries. -/
inductive TombstoneNamespace where
  | generation
  | generationName
  | session
  | presign
  | presignArtifact
  | attempt
  | cutover
deriving DecidableEq, Repr

/-- The string the source writes for a namespace. -/
def TombstoneNamespace.label : TombstoneNamespace → GoString
  | .generation => lit "generation"
  | .generationName => lit "generation-name"
  | .session => lit "session"
  | .presign => lit "presign"
  | .presignArtifact => lit "presign-artifact"
  | .attempt => lit "attempt"
  | .cutover => lit "cutover"

structure StoredLifecycleTombstone where
  ns : TombstoneNamespace
  identifierHash : GoString
  keyID : GoString
  digest : Bytes
  state : GoString
deriving DecidableEq

/-- The reference lifecycle store. -/
@[ext] structure MemoryLifecycleStore where
  generations : FMap GenerationBinding GenerationRecord
  current : FMap GoString GenerationBinding
  leasesByToken : FMap Nat RunLease
  leaseBySession : FMap SessionID Nat
  leaseEffects : FMap Nat StoredLeaseEffect
  refreshDisabled : FMap GoString RefreshDisabledRecord
  reshareReceivers : FMap Nat ReshareReceiverAnchor
  attempts : FMap GoString SignAttemptRecord
  presigns : FMap GoString StoredPresign
  cutoversByToken : FMap Nat StoredCutover
  cutoverByKey : FMap GoString Nat
  tombstones : FMap GoString StoredLifecycleTombstone
  nextLeaseToken : Nat
  nextCutoverToken : Nat
deriving DecidableEq

def newMemoryLifecycleStore : MemoryLifecycleStore :=
  { generations := ∅, current := ∅, leasesByToken := ∅, leaseBySession := ∅,
    leaseEffects := ∅, refreshDisabled := ∅, reshareReceivers := ∅, attempts := ∅,
    presigns := ∅, cutoversByToken := ∅, cutoverByKey := ∅, tombstones := ∅,
    nextLeaseToken := 0, nextCutoverToken := 0 }

/-- The body of a store method. -/
abbrev LifecycleM := Proc MemoryLifecycleStore LifecycleError

/-! ## Digests and tombstone identifiers -/

def leaseEffectArtifactDigest [Sha256] (label : String) (binding : GenerationBinding)
    (identifier : GoString) (blob metadata : Bytes) : Bytes :=
  ((((((((Transcript.new "tssrun-lifecycle-lease-effect-v1").appendString "kind" (lit label)).appendString
    "key_id" binding.keyID).appendString
    "key_generation" binding.keyGeneration).appendBytes
    "epoch_id" binding.epochID.toList).appendString
    "identifier" identifier).appendBytes
    "blob_digest" (sha256 blob)).appendBytes
    "metadata_digest" (sha256 metadata)).sum

def lifecycleTombstoneHash [Sha256] (ns : TombstoneNamespace) (identifier : Bytes) : GoString :=
  hexEncode (sha256 (ns.label ++ 0 :: identifier))

def lifecycleTombstoneMapKey (ns : TombstoneNamespace) (identifierHash : GoString) : GoString :=
  ns.label ++ lit ":" ++ identifierHash

def generationTombstoneIdentifier (binding : GenerationBinding) : Bytes :=
  binding.keyID ++ 0 :: (binding.keyGeneration ++ 0 :: hexEncode binding.epochID.toList)

/-- `keyID + "\x00" + generation`, the identifier of a generation's name. -/
def generationNameTombstoneIdentifier (keyID keyGeneration : GoString) : Bytes :=
  keyID ++ 0 :: keyGeneration

def cutoverTombstoneIdentifier (token : Nat) : Bytes := be64 token

/-- The reason a cutover or a retirement writes on the presigns it burns. -/
def generationCutoverReason : GoString := lit "generation cutover"

namespace MemoryLifecycleStore

variable (s : MemoryLifecycleStore)

/-! ## Helpers that read the store under its lock -/

def tombstonedLocked [Sha256] (ns : TombstoneNamespace) (identifier : Bytes) : Bool :=
  lifecycleTombstoneMapKey ns (lifecycleTombstoneHash ns identifier) ∈ s.tombstones

def isCurrentLocked (binding : GenerationBinding) : Bool :=
  match s.current.lookup binding.keyID with
  | none => false
  | some current =>
    if current ≠ binding then false
    else match s.generations.lookup binding with
      | none => false
      | some record => record.status = .current

def hasGenerationForKeyLocked (keyID : GoString) : Bool :=
  s.generations.any fun binding _ => binding.keyID = keyID

def hasKeyGenerationLocked [Sha256] (keyID generation : GoString) : Bool :=
  s.tombstonedLocked .generationName (generationNameTombstoneIdentifier keyID generation)
    || s.generations.any fun binding _ => binding.keyID = keyID && binding.keyGeneration = generation

def hasConflictingPresignArtifactLocked (presignID : GoString) (artifactDigest : Bytes) : Bool :=
  s.presigns.any fun existingID presign =>
    existingID ≠ presignID && presign.artifactDigest = artifactDigest

def hasActiveLeaseForKeyLocked (keyID : GoString) : Bool :=
  s.leasesByToken.any fun _ lease => lease.binding.keyID = keyID && lease.state = .active

def hasOtherActiveLeaseForKeyLocked (keyID : GoString) (exceptToken : Nat) : Bool :=
  s.leasesByToken.any fun token lease =>
    token ≠ exceptToken && lease.binding.keyID = keyID && lease.state = .active

def hasActiveLeaseLocked (binding : GenerationBinding) : Bool :=
  s.leasesByToken.any fun _ lease => lease.binding = binding && lease.state = .active

def hasOtherActiveLeaseLocked (binding : GenerationBinding) (exceptToken : Nat) : Bool :=
  s.leasesByToken.any fun token lease =>
    token ≠ exceptToken && lease.binding = binding && lease.state = .active

def hasIncompatibleLeaseLocked (binding : GenerationBinding) (requested : RunKind) : Bool :=
  s.leasesByToken.any fun _ lease =>
    lease.binding = binding && lease.state = .active
      && (exclusiveLeaseRunKind requested || exclusiveLeaseRunKind lease.kind)

def hasActiveSignLeaseLocked (binding : GenerationBinding) (sessionID : SessionID) : Bool :=
  match s.leaseBySession.lookup sessionID with
  | none => false
  | some token => match s.leasesByToken.lookup token with
    | none => false
    | some lease => lease.binding = binding && lease.kind = .sign && lease.state = .active

def hasNonTerminalAttemptLocked (binding : GenerationBinding) : Bool :=
  s.attempts.any fun _ record => record.binding = binding && !record.terminal

def hasNonTerminalAttemptForKeyLocked (keyID : GoString) : Bool :=
  s.attempts.any fun _ record => record.binding.keyID = keyID && !record.terminal

/-! ## What the helpers decide -/

theorem tombstonedLocked_eq_false [Sha256] {ns : TombstoneNamespace} {identifier : Bytes} :
    s.tombstonedLocked ns identifier = false ↔
      lifecycleTombstoneMapKey ns (lifecycleTombstoneHash ns identifier) ∉ s.tombstones := by
  simp [tombstonedLocked]

variable {s}

variable {binding : GenerationBinding}

theorem isCurrentLocked_iff :
    s.isCurrentLocked binding = true ↔
      s.current.lookup binding.keyID = some binding ∧
        ∃ record, s.generations.lookup binding = some record ∧ record.status = .current := by
  unfold isCurrentLocked
  cases s.current.lookup binding.keyID with
  | none => simp
  | some current =>
    by_cases h : current = binding
    · cases s.generations.lookup binding <;> simp [h]
    · simp [h]

variable {keyID : GoString}

theorem hasGenerationForKeyLocked_eq_false :
    s.hasGenerationForKeyLocked keyID = false ↔
      ∀ b r, s.generations.lookup b = some r → b.keyID ≠ keyID := by
  simp [hasGenerationForKeyLocked, FMap.any_eq_false]

theorem hasKeyGenerationLocked_eq_false [Sha256] {generation : GoString} :
    s.hasKeyGenerationLocked keyID generation = false ↔
      s.tombstonedLocked .generationName
          (generationNameTombstoneIdentifier keyID generation) = false ∧
        ∀ b r, s.generations.lookup b = some r → b.keyID = keyID → b.keyGeneration ≠ generation := by
  simp [hasKeyGenerationLocked, FMap.any_eq_false]

theorem hasConflictingPresignArtifactLocked_eq_false {presignID : GoString} {digest : Bytes} :
    s.hasConflictingPresignArtifactLocked presignID digest = false ↔
      ∀ p r, s.presigns.lookup p = some r → p ≠ presignID → r.artifactDigest ≠ digest := by
  simp [hasConflictingPresignArtifactLocked, FMap.any_eq_false]

theorem hasActiveLeaseForKeyLocked_eq_false :
    s.hasActiveLeaseForKeyLocked keyID = false ↔
      ∀ t l, s.leasesByToken.lookup t = some l → l.binding.keyID = keyID → l.state ≠ .active := by
  simp [hasActiveLeaseForKeyLocked, FMap.any_eq_false]

theorem hasOtherActiveLeaseForKeyLocked_eq_false {exceptToken : Nat} :
    s.hasOtherActiveLeaseForKeyLocked keyID exceptToken = false ↔
      ∀ t l, s.leasesByToken.lookup t = some l → t ≠ exceptToken → l.binding.keyID = keyID →
        l.state ≠ .active := by
  simp [hasOtherActiveLeaseForKeyLocked, FMap.any_eq_false]

theorem hasActiveLeaseLocked_eq_false :
    s.hasActiveLeaseLocked binding = false ↔
      ∀ t l, s.leasesByToken.lookup t = some l → l.binding = binding → l.state ≠ .active := by
  simp [hasActiveLeaseLocked, FMap.any_eq_false]

theorem hasOtherActiveLeaseLocked_eq_false {exceptToken : Nat} :
    s.hasOtherActiveLeaseLocked binding exceptToken = false ↔
      ∀ t l, s.leasesByToken.lookup t = some l → t ≠ exceptToken → l.binding = binding →
        l.state ≠ .active := by
  simp [hasOtherActiveLeaseLocked, FMap.any_eq_false]

theorem hasIncompatibleLeaseLocked_eq_false {kind : RunKind} :
    s.hasIncompatibleLeaseLocked binding kind = false ↔
      ∀ t l, s.leasesByToken.lookup t = some l → l.binding = binding → l.state = .active →
        exclusiveLeaseRunKind kind = false ∧ exclusiveLeaseRunKind l.kind = false := by
  simp [hasIncompatibleLeaseLocked, FMap.any_eq_false]

theorem hasActiveSignLeaseLocked_iff {sessionID : SessionID} :
    s.hasActiveSignLeaseLocked binding sessionID = true ↔
      ∃ t l, s.leaseBySession.lookup sessionID = some t ∧ s.leasesByToken.lookup t = some l ∧
        l.binding = binding ∧ l.kind = .sign ∧ l.state = .active := by
  unfold hasActiveSignLeaseLocked
  cases s.leaseBySession.lookup sessionID with
  | none => simp
  | some t => cases h : s.leasesByToken.lookup t <;> simp [h, and_assoc]

theorem hasNonTerminalAttemptLocked_eq_false :
    s.hasNonTerminalAttemptLocked binding = false ↔
      ∀ i a, s.attempts.lookup i = some a → a.binding = binding → a.terminal = true := by
  simp [hasNonTerminalAttemptLocked, FMap.any_eq_false]

theorem hasNonTerminalAttemptForKeyLocked_eq_false :
    s.hasNonTerminalAttemptForKeyLocked keyID = false ↔
      ∀ i a, s.attempts.lookup i = some a → a.binding.keyID = keyID → a.terminal = true := by
  simp [hasNonTerminalAttemptForKeyLocked, FMap.any_eq_false]

variable (s)

/-! ## Helpers that rewrite records -/

/-- `clearAttemptSecretsIfTerminalLocked`: a terminal attempt drops its outbox. -/
def clearAttemptSecretsIfTerminal (record : SignAttemptRecord) : SignAttemptRecord :=
  if record.terminal then { record with exactOutbox := [] } else record

/-- A presign with its secret material cleared and a burn reason. -/
def burnPresignRecord (reason : GoString) (presign : StoredPresign) : StoredPresign :=
  { presign with blob := [], metadata := [], state := .burned, reason := reason }

/-- The loop body of `burnEpochPresignsLocked`: an available presign of the epoch
is burned, a claimed one only when its attempt is terminal. -/
def burnEpochPresign (attempts : FMap GoString SignAttemptRecord) (keyID : GoString)
    (epochID : EpochID) (presign : StoredPresign) : StoredPresign :=
  if presign.binding.keyID ≠ keyID ∨ presign.binding.epochID ≠ epochID then presign
  else match presign.state with
    | .available => burnPresignRecord generationCutoverReason presign
    | .claimed => match attempts.lookup presign.attemptID with
      | some attempt =>
        if attempt.terminal then
          { presign with state := .burned, reason := generationCutoverReason }
        else presign
      | none => presign
    | .burned => presign

def burnEpochPresignsLocked (keyID : GoString) (epochID : EpochID) : MemoryLifecycleStore :=
  { s with presigns := s.presigns.mapVals fun _ => burnEpochPresign s.attempts keyID epochID }

/-- A write through the lease pointer stored at `token`. -/
def setLease (token : Nat) (lease : RunLease) : MemoryLifecycleStore :=
  { s with leasesByToken := s.leasesByToken.insert token lease }

/-- Install `record` as the current generation of its key. -/
def installGeneration (record : GenerationRecord) : MemoryLifecycleStore :=
  { s with
    generations := s.generations.insert record.binding record
    current := s.current.insert record.binding.keyID record.binding }

/-- Retire the generation stored at `binding` and clear its secret material. -/
def retireGeneration (binding : GenerationBinding) (record : GenerationRecord) :
    MemoryLifecycleStore :=
  { s with
    generations := s.generations.insert binding
      { record with status := .retired, blob := [], metadata := [] } }

/-- Store a fence and index it by its source key. -/
def addFence (fence : CutoverFence) : MemoryLifecycleStore :=
  { s with
    cutoversByToken := s.cutoversByToken.insert fence.token { fence := fence, state := .active }
    cutoverByKey := s.cutoverByKey.insert fence.source.keyID fence.token
    nextCutoverToken := fence.token }

end MemoryLifecycleStore

end Tss.Lifecycle
