import Tss.Lifecycle.Store

/-!
# The memory store's operations (`tssrun/lifecycle_memory.go`)

One definition per method of `MemoryLifecycleStore`, statement by
statement: `check` and `throwIf` are its early error returns, `get` is
the lock being taken, `modify` a write. `Clone` calls copy a record and
are the identity here.
-/

namespace Tss.Lifecycle

open Proc

variable [Sha256]

/-! ## Reading attempts and leases -/

def exactActiveLeaseLocked (lease : RunLease) : LifecycleM RunLease := do
  let s ← get
  match s.leasesByToken.lookup lease.token with
  | none => do
    throwIf (s.tombstonedLocked .session lease.sessionID.toList) .lifecycleHistoryCompacted
    throw .runLeaseNotFound
  | some stored => do
    throwIf (stored.binding ≠ lease.binding ∨ stored.kind ≠ lease.kind
      ∨ stored.sessionID ≠ lease.sessionID) .runLeaseConflict
    throwIf (stored.state ≠ .active) .runLeaseConflict
    return stored

def queryAttemptLocked (query : AttemptQuery) : LifecycleM SignAttemptRecord := do
  let s ← get
  match s.attempts.lookup query.attemptID with
  | none => throw .attemptNotFound
  | some attempt => do
    throwIf (!sameAttemptQuery attempt query) .attemptConflict
    return attempt

/-- Returns the stored record; the caller writes back through the attempt's ID. -/
def mutableAttemptLocked (query : AttemptQuery) : LifecycleM SignAttemptRecord :=
  queryAttemptLocked query

/-! ## Generations and leases -/

def installInitialGeneration (ctx : Context) (binding : GenerationBinding)
    (blob metadata : Bytes) : LifecycleM GenerationRecord := do
  check ctx.err
  check binding.validate
  check (wrapInvalid (validateLifecycleBlob blob true) "invalid generation blob")
  check (wrapInvalid (validateLifecycleBlob metadata false) "invalid generation metadata")
  let s ← get
  throwIf (s.tombstonedLocked .generation (generationTombstoneIdentifier binding)
    ∨ s.tombstonedLocked .generationName
        (generationNameTombstoneIdentifier binding.keyID binding.keyGeneration)) .generationConflict
  match s.current.lookup binding.keyID with
  | some current =>
    match s.generations.lookup current with
    | none => throw .generationConflict
    | some stored =>
      if current = binding ∧ stored.status = .current ∧ stored.blob = blob
          ∧ stored.metadata = metadata then
        return stored
      else throw .generationConflict
  | none => do
    throwIf (s.hasGenerationForKeyLocked binding.keyID) .generationConflict
    throwIf (s.hasActiveLeaseForKeyLocked binding.keyID) .runLeaseConflict
    let record : GenerationRecord := { binding, blob, metadata, status := .current }
    modify (·.installGeneration record)
    return record

def loadCurrentGeneration (ctx : Context) (keyID : GoString) : LifecycleM GenerationRecord := do
  check ctx.err
  check (wrapInvalid (validateLifecycleIdentifier keyID) "invalid key id")
  let s ← get
  match s.current.lookup keyID with
  | none => throw .generationNotCurrent
  | some binding =>
    match s.generations.lookup binding with
    | none => throw errLifecycleCorrupt
    | some record => do
      throwIf (record.status ≠ .current) errLifecycleCorrupt
      return record

/-- The admission rules of `AcquireRunLease` for a session that holds no lease:
keygen needs a key without generations or active leases, every other kind the
current generation, unfenced and without an incompatible lease. -/
def runLeaseAdmission (s : MemoryLifecycleStore) (binding : GenerationBinding) (kind : RunKind) :
    Option LifecycleError :=
  if kind = .keygen then
    if binding.keyID ∈ s.current ∨ s.hasGenerationForKeyLocked binding.keyID then
      some .generationConflict
    else if s.hasActiveLeaseForKeyLocked binding.keyID then some .runLeaseConflict
    else none
  else if !s.isCurrentLocked binding then some .generationNotCurrent
  else if binding.keyID ∈ s.cutoverByKey then some .runLeaseConflict
  else if s.hasIncompatibleLeaseLocked binding kind then some .runLeaseConflict
  else none

omit [Sha256] in
theorem runLeaseAdmission_eq_none {s : MemoryLifecycleStore} {binding : GenerationBinding}
    {kind : RunKind} :
    runLeaseAdmission s binding kind = none ↔
      (kind = .keygen ∧ binding.keyID ∉ s.current ∧
        s.hasGenerationForKeyLocked binding.keyID = false ∧
        s.hasActiveLeaseForKeyLocked binding.keyID = false) ∨
      (kind ≠ .keygen ∧ s.isCurrentLocked binding = true ∧ binding.keyID ∉ s.cutoverByKey ∧
        s.hasIncompatibleLeaseLocked binding kind = false) := by
  unfold runLeaseAdmission
  split_ifs <;> grind

def acquireRunLease (ctx : Context) (binding : GenerationBinding) (kind : RunKind)
    (sessionID : SessionID) : LifecycleM RunLease := do
  check ctx.err
  check binding.validate
  throwIf (!validLeaseRunKind kind ∨ !idValid sessionID) errInvalidLifecycleRecord
  let s ← get
  throwIf (s.tombstonedLocked .session sessionID.toList) .sessionAlreadyUsed
  throwIf (kind = .refresh ∧ binding.keyID ∈ s.refreshDisabled) .refreshDisabled
  match s.leaseBySession.lookup sessionID with
  | some token =>
    match s.leasesByToken.lookup token with
    | none => throw errLifecycleCorrupt
    | some lease => do
      throwIf (token ∈ s.reshareReceivers) .sessionAlreadyUsed
      if lease.binding = binding ∧ lease.kind = kind ∧ lease.sessionID = sessionID
          ∧ lease.state = .active then
        return lease
      else throw .sessionAlreadyUsed
  | none => do
    check (runLeaseAdmission s binding kind)
    let lease : RunLease :=
      { token := s.nextLeaseToken + 1, binding, kind, sessionID, state := .active }
    modify fun s => { s.setLease lease.token lease with
      leaseBySession := s.leaseBySession.insert sessionID lease.token
      nextLeaseToken := lease.token }
    return lease

def acquireReshareReceiverLease (ctx : Context) (anchor : ReshareReceiverAnchor) :
    LifecycleM RunLease := do
  check ctx.err
  check anchor.validate
  let s ← get
  throwIf (s.tombstonedLocked .session anchor.sessionID.toList) .sessionAlreadyUsed
  match s.leaseBySession.lookup anchor.sessionID with
  | some token =>
    match s.leasesByToken.lookup token, s.reshareReceivers.lookup token with
    | some lease, some storedAnchor =>
      if lease.state = .active ∧ reshareReceiverAnchorsEqual storedAnchor anchor then
        return lease
      else throw .sessionAlreadyUsed
    | _, _ => throw .sessionAlreadyUsed
  | none => do
    throwIf (anchor.source.keyID ∈ s.current) .generationConflict
    throwIf (s.hasActiveLeaseForKeyLocked anchor.source.keyID) .runLeaseConflict
    throwIf (anchor.source.keyID ∈ s.cutoverByKey) .runLeaseConflict
    throwIf (s.hasNonTerminalAttemptForKeyLocked anchor.source.keyID) .runLeaseConflict
    throwIf (s.hasKeyGenerationLocked anchor.source.keyID anchor.targetKeyGeneration)
      .generationConflict
    let lease : RunLease :=
      { token := s.nextLeaseToken + 1, binding := anchor.source, kind := .reshare,
        sessionID := anchor.sessionID, state := .active }
    modify fun s => { s.setLease lease.token lease with
      leaseBySession := s.leaseBySession.insert lease.sessionID lease.token
      reshareReceivers := s.reshareReceivers.insert lease.token anchor
      nextLeaseToken := lease.token }
    return lease

def queryRunLease (ctx : Context) (binding : GenerationBinding) (kind : RunKind)
    (sessionID : SessionID) : LifecycleM RunLease := do
  check ctx.err
  throwIf (binding.validate ≠ none ∨ !validLeaseRunKind kind ∨ !idValid sessionID)
    errInvalidLifecycleRecord
  let s ← get
  throwIf (s.tombstonedLocked .session sessionID.toList) .lifecycleHistoryCompacted
  match s.leaseBySession.lookup sessionID with
  | none => throw .runLeaseNotFound
  | some token =>
    match s.leasesByToken.lookup token with
    | none => throw errLifecycleCorrupt
    | some stored => do
      throwIf (stored.binding ≠ binding ∨ stored.kind ≠ kind ∨ stored.sessionID ≠ sessionID)
        .runLeaseConflict
      return stored

/-- The lease state an outcome leaves behind. -/
def RunLeaseOutcome.wanted (outcome : RunLeaseOutcome) : RunLeaseState :=
  if outcome = .aborted then .aborted else .completed

def finishRunLease (ctx : Context) (lease : RunLease) (outcome : RunLeaseOutcome) :
    LifecycleM Unit := do
  check ctx.err
  check (validateRunLease lease)
  throwIf (outcome ≠ .completed ∧ outcome ≠ .aborted) errInvalidLifecycleRecord
  let s ← get
  match s.leasesByToken.lookup lease.token with
  | none => do
    throwIf (s.tombstonedLocked .session lease.sessionID.toList) .lifecycleHistoryCompacted
    throw .runLeaseNotFound
  | some stored => do
    throwIf (stored.binding ≠ lease.binding ∨ stored.kind ≠ lease.kind
      ∨ stored.sessionID ≠ lease.sessionID) .runLeaseConflict
    if stored.state = outcome.wanted then
      return ()
    else
      throwIf (stored.state ≠ .active) .runLeaseConflict
      throwIf (lease.token ∈ s.reshareReceivers ∧ outcome ≠ .aborted) .runLeaseConflict
      -- deleting an absent anchor is a no-op, so the receiver test is not repeated
      modify fun s => { s with reshareReceivers := s.reshareReceivers.erase lease.token }
      modify (·.setLease lease.token { stored with state := outcome.wanted })

def markProtocolRefreshFailed (ctx : Context) (lease : RunLease) (reason : GoString) :
    LifecycleM RefreshDisabledRecord := do
  check ctx.err
  throwIf (validateRunLease lease ≠ none ∨ lease.kind ≠ .refresh ∨ lease.state ≠ .active)
    errInvalidLifecycleRecord
  check (wrapInvalid (validateLifecycleReason reason) "invalid refresh failure reason")
  let s ← get
  match s.leaseEffects.lookup lease.token with
  | some effect =>
    if effect.kind = .refreshFailed ∧ effect.reason = reason then
      match s.refreshDisabled.lookup lease.binding.keyID with
      | none => throw errLifecycleCorrupt
      | some record => do
        throwIf (record.sessionID ≠ lease.sessionID ∨ record.reason ≠ reason) errLifecycleCorrupt
        return record
    else throw .runLeaseConflict
  | none => do
    let stored ← exactActiveLeaseLocked lease
    throwIf (lease.binding.keyID ∈ s.refreshDisabled) .refreshDisabled
    let record : RefreshDisabledRecord :=
      { keyID := lease.binding.keyID, sessionID := lease.sessionID, reason }
    modify fun s => { s.setLease lease.token { stored with state := .aborted } with
      refreshDisabled := s.refreshDisabled.insert record.keyID record
      leaseEffects := s.leaseEffects.insert lease.token
        { leaseToken := lease.token, kind := .refreshFailed, reason } }
    return record

/-! ## Presigns and attempts -/

def validatePresignInput (binding : GenerationBinding) (presignID : GoString)
    (blob metadata : Bytes) : LifecycleM Unit := do
  check binding.validate
  check (wrapInvalid (validateLifecycleIdentifier presignID) "invalid presign id")
  check (wrapInvalid (validateLifecycleBlob blob true) "invalid presign blob")
  check (wrapInvalid (validateLifecycleBlob metadata true) "invalid presign metadata")

def commitAvailablePresignFromLease (ctx : Context) (lease : RunLease) (presignID : GoString)
    (blob metadata : Bytes) : LifecycleM Unit := do
  check ctx.err
  throwIf (validateRunLease lease ≠ none ∨ lease.kind ≠ .presign ∨ lease.state ≠ .active)
    errInvalidLifecycleRecord
  validatePresignInput lease.binding presignID blob metadata
  let digest := leaseEffectArtifactDigest "presign" lease.binding presignID blob metadata
  let artifactDigest := sha256 metadata
  let s ← get
  throwIf (s.tombstonedLocked .presign presignID
    ∨ s.tombstonedLocked .presignArtifact artifactDigest) .presignUnavailable
  match s.leaseEffects.lookup lease.token with
  | some effect =>
    if effect.kind = .presign ∧ effect.presignID = presignID ∧ effect.digest = digest then
      match s.presigns.lookup presignID with
      | none => throw errLifecycleCorrupt
      | some presign => do
        throwIf (presign.binding ≠ lease.binding ∨ presign.artifactDigest ≠ artifactDigest)
          errLifecycleCorrupt
        throwIf (presign.state = .available ∧ (presign.blob ≠ blob ∨ presign.metadata ≠ metadata))
          errLifecycleCorrupt
        return ()
    else throw .runLeaseConflict
  | none => do
    let stored ← exactActiveLeaseLocked lease
    throwIf (!s.isCurrentLocked lease.binding) .generationNotCurrent
    throwIf (lease.binding.keyID ∈ s.cutoverByKey) .runLeaseConflict
    throwIf (presignID ∈ s.presigns) .presignUnavailable
    throwIf (s.hasConflictingPresignArtifactLocked presignID artifactDigest) .presignUnavailable
    modify fun s => { s.setLease lease.token { stored with state := .completed } with
      presigns := s.presigns.insert presignID
        { binding := lease.binding, blob, metadata, artifactDigest, state := .available }
      leaseEffects := s.leaseEffects.insert lease.token
        { leaseToken := lease.token, kind := .presign, presignID, digest } }

def preparePresignCandidate (ctx : Context) (binding : GenerationBinding) (presignID : GoString) :
    LifecycleM PresignCandidate := do
  check ctx.err
  check binding.validate
  check (wrapInvalid (validateLifecycleIdentifier presignID) "invalid presign id")
  let s ← get
  throwIf (!s.isCurrentLocked binding) .generationNotCurrent
  throwIf (binding.keyID ∈ s.cutoverByKey) .runLeaseConflict
  match s.presigns.lookup presignID with
  | none => do
    throwIf (s.tombstonedLocked .presign presignID) .lifecycleHistoryCompacted
    throw .presignUnavailable
  | some record => do
    throwIf (record.binding ≠ binding) .presignUnavailable
    match record.state with
    | .available =>
      return { binding, presignID, blob := record.blob, metadata := record.metadata }
    | .burned => throw .presignBurned
    | .claimed => throw .presignUnavailable

def commitSignAttempt (ctx : Context) (binding : GenerationBinding) (presignID : GoString)
    (intent : SignAttemptIntent) (exactOutbox : Bytes) : LifecycleM AttemptCommit := do
  check ctx.err
  check binding.validate
  check (wrapInvalid (validateLifecycleIdentifier presignID) "invalid presign id")
  check intent.validate
  check (wrapInvalid (validateLifecycleBlob exactOutbox true) "invalid exact outbox")
  let outboxDigest := sha256 exactOutbox
  let s ← get
  throwIf (s.tombstonedLocked .attempt intent.attemptID) .attemptConflict
  throwIf (s.tombstonedLocked .presign presignID) .presignBurned
  match s.attempts.lookup intent.attemptID with
  | some existing =>
    if sameBaseAttempt existing binding presignID intent outboxDigest then
      return { status := .existingSame, record := existing }
    else if existing.presignID = presignID
        ∧ existing.intent.intentDigest = intent.intentDigest then
      throw .attemptNonDeterminism
    else throw .attemptConflict
  | none => do
    throwIf (!s.isCurrentLocked binding) .generationNotCurrent
    throwIf (binding.keyID ∈ s.cutoverByKey) .runLeaseConflict
    throwIf (!s.hasActiveSignLeaseLocked binding intent.sessionID) .runLeaseNotFound
    match s.presigns.lookup presignID with
    | none => throw .presignUnavailable
    | some presign => do
      throwIf (presign.binding ≠ binding) .presignUnavailable
      match presign.state with
      | .burned => throw .presignBurned
      | .claimed =>
        match s.attempts.lookup presign.attemptID with
        | none => throw errLifecycleCorrupt
        | some attempt =>
          if attempt.intent.intentDigest = intent.intentDigest then
            throw .attemptNonDeterminism
          else throw .attemptConflict
      | .available => do
        let record : SignAttemptRecord :=
          { binding, presignID, intent, presignMetadata := presign.metadata, exactOutbox,
            outboxDigest }
        modify fun s => { s with
          attempts := s.attempts.insert intent.attemptID record
          presigns := s.presigns.insert presignID
            { presign with state := .claimed, attemptID := intent.attemptID, blob := [],
                           metadata := [] } }
        return { status := .created, record }

def queryAttemptOutcome (ctx : Context) (query : AttemptQuery) : LifecycleM SignAttemptRecord := do
  check ctx.err
  check query.validate
  let s ← get
  throwIf (s.tombstonedLocked .attempt query.attemptID) .lifecycleHistoryCompacted
  queryAttemptLocked query

/-- The label `recordAttemptProgress` puts into its size error. -/
def AttemptProgressKind.label : AttemptProgressKind → String
  | .delivery => "delivery evidence"
  | .completion => "completion"

/-- Whether the progress is recorded already. -/
def SignAttemptRecord.recorded (record : SignAttemptRecord) : AttemptProgressKind → Bool
  | .delivery => record.delivered
  | .completion => record.completed

/-- The bytes recorded for it. -/
def SignAttemptRecord.progress (record : SignAttemptRecord) : AttemptProgressKind → Bytes
  | .delivery => record.delivery
  | .completion => record.completion

def SignAttemptRecord.withProgress (record : SignAttemptRecord) (value : Bytes) :
    AttemptProgressKind → SignAttemptRecord
  | .delivery => { record with delivery := value, delivered := true }
  | .completion => { record with completion := value, completed := true }

def recordAttemptProgress (ctx : Context) (query : AttemptQuery) (value : Bytes)
    (kind : AttemptProgressKind) : LifecycleM SignAttemptRecord := do
  check ctx.err
  check query.validate
  check (wrapInvalid (validateLifecycleBlob value true) s!"invalid {kind.label}")
  let record ← mutableAttemptLocked query
  throwIf record.aborted .attemptConflict
  if record.recorded kind then
    if record.progress kind = value then
      return record
    else throw .attemptConflict
  else
    let updated :=
      MemoryLifecycleStore.clearAttemptSecretsIfTerminal (record.withProgress value kind)
    modify fun s => { s with attempts := s.attempts.insert query.attemptID updated }
    return updated

def markAttemptDelivered (ctx : Context) (query : AttemptQuery) (delivery : Bytes) :
    LifecycleM SignAttemptRecord :=
  recordAttemptProgress ctx query delivery .delivery

def completeAttempt (ctx : Context) (query : AttemptQuery) (completion : Bytes) :
    LifecycleM SignAttemptRecord :=
  recordAttemptProgress ctx query completion .completion

def abortAttempt (ctx : Context) (query : AttemptQuery) (reason : GoString) :
    LifecycleM SignAttemptRecord := do
  check ctx.err
  check query.validate
  check (wrapInvalid (validateLifecycleReason reason) "invalid abort reason")
  let record ← mutableAttemptLocked query
  throwIf (record.terminal ∧ !record.aborted) .attemptConflict
  if record.aborted then
    if record.abortReason = reason then
      return record
    else throw .attemptConflict
  else
    let updated := { record with aborted := true, abortReason := reason, exactOutbox := [] }
    -- the attempt is written before the presign is looked at
    modify fun s => { s with attempts := s.attempts.insert query.attemptID updated }
    let s ← get
    match s.presigns.lookup record.presignID with
    | none => throw errLifecycleCorrupt
    | some presign => do
      throwIf (presign.state ≠ .claimed ∨ presign.attemptID ≠ record.intent.attemptID)
        errLifecycleCorrupt
      modify fun s => { s with
        presigns := s.presigns.insert record.presignID
          { presign with state := .burned, reason := reason } }
      return updated

def burnPresign (ctx : Context) (binding : GenerationBinding) (presignID reason : GoString) :
    LifecycleM Unit := do
  check ctx.err
  check binding.validate
  check (wrapInvalid (validateLifecycleIdentifier presignID) "invalid presign id")
  check (wrapInvalid (validateLifecycleReason reason) "invalid burn reason")
  let s ← get
  match s.presigns.lookup presignID with
  | none => do
    throwIf (s.tombstonedLocked .presign presignID) .presignBurned
    throw .presignUnavailable
  | some presign => do
    throwIf (presign.binding ≠ binding) .presignUnavailable
    match presign.state with
    | .available =>
      modify fun s => { s with
        presigns := s.presigns.insert presignID
          (MemoryLifecycleStore.burnPresignRecord reason presign) }
    | .burned =>
      if presign.reason = reason then
        return ()
      else throw .presignBurned
    | .claimed => throw .attemptConflict

/-! ## Cutovers and installs -/

def beginCutover (ctx : Context) (source target : GenerationBinding) :
    LifecycleM CutoverFence := do
  check ctx.err
  check (validateCutoverBindings source target)
  let s ← get
  match s.cutoverByKey.lookup source.keyID with
  | some token =>
    match s.cutoversByToken.lookup token with
    | none => throw errLifecycleCorrupt
    | some cutover => do
      throwIf (cutover.state ≠ .active) errLifecycleCorrupt
      if cutover.fence.source = source ∧ cutover.fence.target = target then
        return cutover.fence
      else throw .cutoverConflict
  | none => do
    throwIf (!s.isCurrentLocked source) .generationNotCurrent
    throwIf (s.hasKeyGenerationLocked target.keyID target.keyGeneration) .generationConflict
    throwIf (s.hasActiveLeaseLocked source ∨ s.hasNonTerminalAttemptLocked source)
      .runLeaseConflict
    let fence : CutoverFence := { token := s.nextCutoverToken + 1, source, target }
    modify (·.addFence fence)
    return fence

def beginCutoverFromLease (ctx : Context) (lease : RunLease) (target : GenerationBinding) :
    LifecycleM CutoverFence := do
  check ctx.err
  throwIf (validateRunLease lease ≠ none ∨ lease.state ≠ .active ∨ !cutoverLeaseRunKind lease.kind)
    errInvalidLifecycleRecord
  check (validateCutoverBindings lease.binding target)
  let s ← get
  match s.leaseEffects.lookup lease.token with
  | some effect => do
    throwIf (effect.kind ≠ .cutover ∨ effect.target ≠ target ∨ effect.cutoverToken = 0)
      .runLeaseConflict
    match s.cutoversByToken.lookup effect.cutoverToken with
    | none => throw errLifecycleCorrupt
    | some cutover => do
      throwIf (cutover.fence.source ≠ lease.binding ∨ cutover.fence.target ≠ target)
        errLifecycleCorrupt
      return cutover.fence
  | none => do
    let stored ← exactActiveLeaseLocked lease
    throwIf (lease.binding.keyID ∈ s.cutoverByKey) .cutoverConflict
    throwIf (!s.isCurrentLocked lease.binding) .generationNotCurrent
    throwIf (s.hasKeyGenerationLocked target.keyID target.keyGeneration) .generationConflict
    throwIf (s.hasOtherActiveLeaseLocked lease.binding lease.token
      ∨ s.hasNonTerminalAttemptLocked lease.binding) .runLeaseConflict
    let fence : CutoverFence := { token := s.nextCutoverToken + 1, source := lease.binding, target }
    modify fun s => { (s.addFence fence).setLease lease.token { stored with state := .completed } with
      leaseEffects := s.leaseEffects.insert lease.token
        { leaseToken := lease.token, kind := .cutover, target, cutoverToken := fence.token } }
    return fence

def commitRetirementFromLease (ctx : Context) (lease : RunLease) (target : GenerationBinding) :
    LifecycleM Unit := do
  check ctx.err
  throwIf (validateRunLease lease ≠ none ∨ lease.kind ≠ .reshare ∨ lease.state ≠ .active)
    errInvalidLifecycleRecord
  check (validateCutoverBindings lease.binding target)
  let s ← get
  match s.leaseEffects.lookup lease.token with
  | some effect => do
    throwIf (effect.kind ≠ .retirement ∨ effect.target ≠ target) .runLeaseConflict
    match s.generations.lookup lease.binding with
    | none => throw errLifecycleCorrupt
    | some source => do
      throwIf (source.status ≠ .retired ∨ source.blob ≠ [] ∨ source.metadata ≠ [])
        errLifecycleCorrupt
      throwIf (lease.binding.keyID ∈ s.current) errLifecycleCorrupt
      return ()
  | none => do
    let stored ← exactActiveLeaseLocked lease
    throwIf (lease.token ∈ s.reshareReceivers) .runLeaseConflict
    throwIf (!s.isCurrentLocked lease.binding) .generationNotCurrent
    throwIf (lease.binding.keyID ∈ s.cutoverByKey) .runLeaseConflict
    throwIf (s.hasOtherActiveLeaseLocked lease.binding lease.token
      ∨ s.hasNonTerminalAttemptLocked lease.binding) .runLeaseConflict
    throwIf (s.hasKeyGenerationLocked target.keyID target.keyGeneration) .generationConflict
    match s.generations.lookup lease.binding with
    | none => throw errLifecycleCorrupt
    | some source => do
      throwIf (source.status ≠ .current) errLifecycleCorrupt
      modify fun s => { s.retireGeneration lease.binding source with
        current := s.current.erase lease.binding.keyID }
      modify (·.burnEpochPresignsLocked lease.binding.keyID lease.binding.epochID)
      modify fun s => { s.setLease lease.token { stored with state := .completed } with
        leaseEffects := s.leaseEffects.insert lease.token
          { leaseToken := lease.token, kind := .retirement, target } }

def commitCutover (ctx : Context) (fence : CutoverFence) (targetBlob targetMetadata : Bytes) :
    LifecycleM GenerationRecord := do
  check ctx.err
  check (validateCutoverFence fence)
  check (wrapInvalid (validateLifecycleBlob targetBlob true) "invalid target generation blob")
  check (wrapInvalid (validateLifecycleBlob targetMetadata false)
    "invalid target generation metadata")
  let targetBlobDigest := sha256 targetBlob
  let targetMetadataDigest := sha256 targetMetadata
  let s ← get
  match s.cutoversByToken.lookup fence.token with
  | none => do
    throwIf (s.tombstonedLocked .cutover (cutoverTombstoneIdentifier fence.token))
      .lifecycleHistoryCompacted
    throw .cutoverConflict
  | some cutover => do
    throwIf (cutover.fence ≠ fence) .cutoverConflict
    if cutover.state = .committed then
      throwIf (cutover.targetBlobDigest ≠ targetBlobDigest
        ∨ cutover.targetMetadataDigest ≠ targetMetadataDigest) .cutoverConflict
      match s.generations.lookup fence.target with
      | none => throw errLifecycleCorrupt
      | some target => do
        throwIf (target.status ≠ .current) errLifecycleCorrupt
        return target
    else
      throwIf (cutover.state ≠ .active) .cutoverConflict
      throwIf (s.cutoverByKey.lookup fence.source.keyID ≠ some fence.token) .cutoverConflict
      throwIf (!s.isCurrentLocked fence.source) .generationConflict
      throwIf (s.hasActiveLeaseLocked fence.source ∨ s.hasNonTerminalAttemptLocked fence.source)
        .runLeaseConflict
      throwIf (fence.target ∈ s.generations) .generationConflict
      match s.generations.lookup fence.source with
      | none => throw errLifecycleCorrupt
      | some source => do
        throwIf (source.status ≠ .current) errLifecycleCorrupt
        let target : GenerationRecord :=
          { binding := fence.target, blob := targetBlob, metadata := targetMetadata,
            status := .current }
        modify fun s => { s with
          generations := s.generations.insert fence.target target
          current := s.current.insert fence.source.keyID fence.target }
        modify (·.retireGeneration fence.source source)
        modify (·.burnEpochPresignsLocked fence.source.keyID fence.source.epochID)
        modify fun s => { s with
          cutoversByToken := s.cutoversByToken.insert fence.token
            { cutover with state := .committed, targetBlobDigest, targetMetadataDigest }
          cutoverByKey := s.cutoverByKey.erase fence.source.keyID }
        return target

def abortCutover (ctx : Context) (fence : CutoverFence) (reason : GoString) :
    LifecycleM Unit := do
  check ctx.err
  check (validateCutoverFence fence)
  check (wrapInvalid (validateLifecycleReason reason) "invalid cutover abort reason")
  let s ← get
  match s.cutoversByToken.lookup fence.token with
  | none => do
    throwIf (s.tombstonedLocked .cutover (cutoverTombstoneIdentifier fence.token))
      .lifecycleHistoryCompacted
    throw .cutoverConflict
  | some cutover => do
    throwIf (cutover.fence ≠ fence) .cutoverConflict
    if cutover.state = .aborted then
      if cutover.reason = reason then
        return ()
      else throw .cutoverConflict
    else
      throwIf (cutover.state ≠ .active) .cutoverConflict
      throwIf (s.cutoverByKey.lookup fence.source.keyID ≠ some fence.token) .cutoverConflict
      modify fun s => { s with
        cutoversByToken := s.cutoversByToken.insert fence.token
          { cutover with state := .aborted, reason := reason }
        cutoverByKey := s.cutoverByKey.erase fence.source.keyID }

def commitInitialGenerationFromLease (ctx : Context) (lease : RunLease)
    (child : GenerationBinding) (childBlob childMetadata : Bytes) :
    LifecycleM GenerationRecord := do
  check ctx.err
  throwIf (validateRunLease lease ≠ none ∨ lease.kind ≠ .childDerivation ∨ lease.state ≠ .active)
    errInvalidLifecycleRecord
  throwIf (child.validate ≠ none ∨ child.keyID = lease.binding.keyID
    ∨ child.epochID = lease.binding.epochID) errInvalidLifecycleRecord
  check (wrapInvalid (validateLifecycleBlob childBlob true) "invalid child generation blob")
  check (wrapInvalid (validateLifecycleBlob childMetadata true) "invalid child generation metadata")
  let digest := leaseEffectArtifactDigest "child-generation" child child.keyID childBlob childMetadata
  let s ← get
  match s.leaseEffects.lookup lease.token with
  | some effect =>
    if effect.kind = .childGeneration ∧ effect.target = child ∧ effect.digest = digest then
      match s.generations.lookup child with
      | none => throw errLifecycleCorrupt
      | some generation => do
        throwIf (generation.status ≠ .current ∨ generation.blob ≠ childBlob
          ∨ generation.metadata ≠ childMetadata) errLifecycleCorrupt
        return generation
    else throw .runLeaseConflict
  | none => do
    let stored ← exactActiveLeaseLocked lease
    throwIf (!s.isCurrentLocked lease.binding) .generationNotCurrent
    throwIf (lease.binding.keyID ∈ s.cutoverByKey) .runLeaseConflict
    throwIf (child.keyID ∈ s.current ∨ s.hasGenerationForKeyLocked child.keyID
      ∨ s.hasKeyGenerationLocked child.keyID child.keyGeneration
      ∨ s.hasActiveLeaseForKeyLocked child.keyID) .generationConflict
    let record : GenerationRecord :=
      { binding := child, blob := childBlob, metadata := childMetadata, status := .current }
    modify fun s => { (s.installGeneration record).setLease lease.token { stored with state := .completed } with
      leaseEffects := s.leaseEffects.insert lease.token
        { leaseToken := lease.token, kind := .childGeneration, target := child, digest } }
    return record

def commitInitialGenerationFromReshareLease (ctx : Context) (lease : RunLease)
    (target : GenerationBinding) (targetBlob targetMetadata : Bytes) :
    LifecycleM GenerationRecord := do
  check ctx.err
  throwIf (validateRunLease lease ≠ none ∨ lease.kind ≠ .reshare ∨ lease.state ≠ .active)
    errInvalidLifecycleRecord
  throwIf (target.validate ≠ none ∨ target.keyID ≠ lease.binding.keyID
    ∨ target.keyGeneration = lease.binding.keyGeneration
    ∨ target.epochID = lease.binding.epochID) errInvalidLifecycleRecord
  check (wrapInvalid (validateLifecycleBlob targetBlob true)
    "invalid reshare target generation blob")
  check (wrapInvalid (validateLifecycleBlob targetMetadata false)
    "invalid reshare target generation metadata")
  let digest := leaseEffectArtifactDigest "reshare-receiver-generation" target target.keyID
    targetBlob targetMetadata
  let s ← get
  match s.leaseEffects.lookup lease.token with
  | some effect =>
    if effect.kind = .reshareReceiverGeneration ∧ effect.target = target
        ∧ effect.digest = digest then
      match s.generations.lookup target with
      | none => throw errLifecycleCorrupt
      | some generation => do
        throwIf (generation.status ≠ .current ∨ generation.blob ≠ targetBlob
          ∨ generation.metadata ≠ targetMetadata) errLifecycleCorrupt
        throwIf (lease.token ∈ s.reshareReceivers) errLifecycleCorrupt
        return generation
    else throw .runLeaseConflict
  | none => do
    let stored ← exactActiveLeaseLocked lease
    match s.reshareReceivers.lookup lease.token with
    | none => throw .runLeaseConflict
    | some anchor => do
      throwIf (anchor.source ≠ lease.binding ∨ anchor.sessionID ≠ lease.sessionID
        ∨ anchor.targetKeyGeneration ≠ target.keyGeneration) .runLeaseConflict
      throwIf (target.keyID ∈ s.current) .generationConflict
      throwIf (s.hasOtherActiveLeaseForKeyLocked target.keyID lease.token
        ∨ s.hasNonTerminalAttemptForKeyLocked target.keyID) .runLeaseConflict
      throwIf (target.keyID ∈ s.cutoverByKey) .runLeaseConflict
      throwIf (s.hasKeyGenerationLocked target.keyID target.keyGeneration) .generationConflict
      let record : GenerationRecord :=
        { binding := target, blob := targetBlob, metadata := targetMetadata, status := .current }
      modify fun s => { (s.installGeneration record).setLease lease.token { stored with state := .completed } with
        reshareReceivers := s.reshareReceivers.erase lease.token
        leaseEffects := s.leaseEffects.insert lease.token
          { leaseToken := lease.token, kind := .reshareReceiverGeneration, target, digest } }
      return record

end Tss.Lifecycle
