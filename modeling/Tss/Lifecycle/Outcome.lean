import Tss.Lifecycle.Operations

/-!
# What a successful call did

One lemma per operation: a call succeeds with result `r` and store `t`
exactly when its guards hold and `r` and `t` are what the branch that was
taken says. An operation that is idempotent has two such branches, the
exact retry (`t = s`) and the first execution. Every later proof uses
these lemmas and none unfolds an operation's body.
-/

namespace Tss.Lifecycle

open Proc

variable {s t : MemoryLifecycleStore} {ctx : Context}

@[simp] theorem Context.err_eq_none : Context.err ctx = none ↔ ctx = none := by
  simp [Context.err]

/-- The stored lease is for the run the caller's lease names. -/
def RunLease.SameRun (stored lease : RunLease) : Prop :=
  stored.binding = lease.binding ∧ stored.kind = lease.kind ∧ stored.sessionID = lease.sessionID

variable [Sha256]

/-! ## Reading attempts and leases -/

variable {lease : RunLease}

theorem exactActiveLeaseLocked_ok {stored : RunLease} :
    exec (exactActiveLeaseLocked lease) s = (.ok stored, t) ↔
      s = t ∧ s.leasesByToken.lookup lease.token = some stored ∧ stored.SameRun lease ∧
        stored.state = .active := by
  unfold exactActiveLeaseLocked RunLease.SameRun
  cases hl : s.leasesByToken.lookup lease.token with
  | none => simp [hl]
  | some l =>
    simp [hl]
    grind

omit [Sha256] in
theorem queryAttemptLocked_ok {query : AttemptQuery} {record : SignAttemptRecord} :
    exec (queryAttemptLocked query) s = (.ok record, t) ↔
      s = t ∧ s.attempts.lookup query.attemptID = some record ∧
        sameAttemptQuery record query = true := by
  unfold queryAttemptLocked
  cases ha : s.attempts.lookup query.attemptID with
  | none => simp [ha]
  | some a =>
    simp [ha]
    grind

/-! ## Generations and leases -/

variable {binding : GenerationBinding} {r : GenerationRecord}

theorem installInitialGeneration_ok {blob metadata : Bytes} :
    exec (installInitialGeneration ctx binding blob metadata) s = (.ok r, t) ↔
      ctx = none ∧ binding.validate = none ∧ validateLifecycleBlob blob true = none ∧
      validateLifecycleBlob metadata false = none ∧
      s.tombstonedLocked .generation (generationTombstoneIdentifier binding) = false ∧
      s.tombstonedLocked .generationName
        (generationNameTombstoneIdentifier binding.keyID binding.keyGeneration) = false ∧
      ((s.current.lookup binding.keyID = some binding ∧ s.generations.lookup binding = some r ∧
          r.status = .current ∧ r.blob = blob ∧ r.metadata = metadata ∧ t = s) ∨
        (s.current.lookup binding.keyID = none ∧
          s.hasGenerationForKeyLocked binding.keyID = false ∧
          s.hasActiveLeaseForKeyLocked binding.keyID = false ∧
          r = { binding, blob, metadata, status := .current } ∧ t = s.installGeneration r)) := by
  unfold installInitialGeneration
  cases hc : s.current.lookup binding.keyID with
  | none =>
    simp [hc]
    grind
  | some current =>
    cases hg : s.generations.lookup current with
    | none =>
      simp [hc, hg]
      grind
    | some stored =>
      simp [hc, hg]
      grind

omit [Sha256] in
theorem loadCurrentGeneration_ok {keyID : GoString} :
    exec (loadCurrentGeneration ctx keyID) s = (.ok r, t) ↔
      ctx = none ∧ validateLifecycleIdentifier keyID = none ∧
      ∃ binding, s.current.lookup keyID = some binding ∧ s.generations.lookup binding = some r ∧
        r.status = .current ∧ t = s := by
  unfold loadCurrentGeneration
  cases hc : s.current.lookup keyID with
  | none => simp [hc]
  | some binding =>
    cases hg : s.generations.lookup binding with
    | none => simp [hc, hg]
    | some stored =>
      simp [hc, hg]
      grind

theorem acquireRunLease_ok {kind : RunKind} {sessionID : SessionID} {r : RunLease} :
    exec (acquireRunLease ctx binding kind sessionID) s = (.ok r, t) ↔
      ctx = none ∧ binding.validate = none ∧ validLeaseRunKind kind = true ∧
      idValid sessionID = true ∧ s.tombstonedLocked .session sessionID.toList = false ∧
      (kind = .refresh → binding.keyID ∉ s.refreshDisabled) ∧
      ((∃ token, s.leaseBySession.lookup sessionID = some token ∧
          s.leasesByToken.lookup token = some r ∧ token ∉ s.reshareReceivers ∧
          r.binding = binding ∧ r.kind = kind ∧ r.sessionID = sessionID ∧ r.state = .active ∧
          t = s) ∨
        (s.leaseBySession.lookup sessionID = none ∧ runLeaseAdmission s binding kind = none ∧
          r = { token := s.nextLeaseToken + 1, binding, kind, sessionID, state := .active } ∧
          t = { s.setLease r.token r with
            leaseBySession := s.leaseBySession.insert sessionID r.token
            nextLeaseToken := r.token })) := by
  unfold acquireRunLease
  cases hs : s.leaseBySession.lookup sessionID with
  | none =>
    simp [hs]
    grind
  | some token =>
    cases hl : s.leasesByToken.lookup token with
    | none => simp [hs, hl]
    | some lease =>
      simp [hs, hl]
      grind

theorem acquireReshareReceiverLease_ok {anchor : ReshareReceiverAnchor} {r : RunLease} :
    exec (acquireReshareReceiverLease ctx anchor) s = (.ok r, t) ↔
      ctx = none ∧ anchor.validate = none ∧
      s.tombstonedLocked .session anchor.sessionID.toList = false ∧
      ((∃ token, s.leaseBySession.lookup anchor.sessionID = some token ∧
          s.leasesByToken.lookup token = some r ∧ s.reshareReceivers.lookup token = some anchor ∧
          r.state = .active ∧ t = s) ∨
        (s.leaseBySession.lookup anchor.sessionID = none ∧ anchor.source.keyID ∉ s.current ∧
          s.hasActiveLeaseForKeyLocked anchor.source.keyID = false ∧
          anchor.source.keyID ∉ s.cutoverByKey ∧
          s.hasNonTerminalAttemptForKeyLocked anchor.source.keyID = false ∧
          s.hasKeyGenerationLocked anchor.source.keyID anchor.targetKeyGeneration = false ∧
          r = { token := s.nextLeaseToken + 1, binding := anchor.source, kind := .reshare,
                sessionID := anchor.sessionID, state := .active } ∧
          t = { s.setLease r.token r with
            leaseBySession := s.leaseBySession.insert r.sessionID r.token
            reshareReceivers := s.reshareReceivers.insert r.token anchor
            nextLeaseToken := r.token })) := by
  unfold acquireReshareReceiverLease
  cases hs : s.leaseBySession.lookup anchor.sessionID with
  | none =>
    simp [hs]
    grind
  | some token =>
    cases hl : s.leasesByToken.lookup token with
    | none => simp [hs, hl]
    | some lease =>
      cases hr : s.reshareReceivers.lookup token with
      | none => simp [hs, hl, hr]
      | some stored =>
        simp [hs, hl, hr, reshareReceiverAnchorsEqual_iff]
        grind

theorem queryRunLease_ok {kind : RunKind} {sessionID : SessionID} {r : RunLease} :
    exec (queryRunLease ctx binding kind sessionID) s = (.ok r, t) ↔
      ctx = none ∧ binding.validate = none ∧ validLeaseRunKind kind = true ∧
      idValid sessionID = true ∧ s.tombstonedLocked .session sessionID.toList = false ∧
      ∃ token, s.leaseBySession.lookup sessionID = some token ∧
        s.leasesByToken.lookup token = some r ∧
        r.binding = binding ∧ r.kind = kind ∧ r.sessionID = sessionID ∧ t = s := by
  unfold queryRunLease
  cases hs : s.leaseBySession.lookup sessionID with
  | none => simp [hs]
  | some token =>
    cases hl : s.leasesByToken.lookup token with
    | none => simp [hs, hl]
    | some lease =>
      simp [hs, hl]
      grind

theorem finishRunLease_ok {outcome : RunLeaseOutcome} {u : Unit} :
    exec (finishRunLease ctx lease outcome) s = (.ok u, t) ↔
      ctx = none ∧ validateRunLease lease = none ∧ (outcome = .completed ∨ outcome = .aborted) ∧
      ∃ stored, s.leasesByToken.lookup lease.token = some stored ∧ stored.SameRun lease ∧
        ((stored.state = outcome.wanted ∧ t = s) ∨
          (stored.state ≠ outcome.wanted ∧ stored.state = .active ∧
            (lease.token ∈ s.reshareReceivers → outcome = .aborted) ∧
            t = { s.setLease lease.token { stored with state := outcome.wanted } with
              reshareReceivers := s.reshareReceivers.erase lease.token })) := by
  unfold finishRunLease RunLease.SameRun
  cases hl : s.leasesByToken.lookup lease.token with
  | none => simp [hl]
  | some stored =>
    simp [hl, MemoryLifecycleStore.setLease]
    grind

theorem markProtocolRefreshFailed_ok {reason : GoString} {r : RefreshDisabledRecord} :
    exec (markProtocolRefreshFailed ctx lease reason) s = (.ok r, t) ↔
      ctx = none ∧ validateRunLease lease = none ∧ lease.kind = .refresh ∧
      lease.state = .active ∧ validateLifecycleReason reason = none ∧
      ((∃ effect, s.leaseEffects.lookup lease.token = some effect ∧
          effect.kind = .refreshFailed ∧ effect.reason = reason ∧
          s.refreshDisabled.lookup lease.binding.keyID = some r ∧
          r.sessionID = lease.sessionID ∧ r.reason = reason ∧ t = s) ∨
        (s.leaseEffects.lookup lease.token = none ∧
          ∃ stored, s.leasesByToken.lookup lease.token = some stored ∧ stored.SameRun lease ∧
            stored.state = .active ∧ lease.binding.keyID ∉ s.refreshDisabled ∧
            r = { keyID := lease.binding.keyID, sessionID := lease.sessionID, reason } ∧
            t = { s.setLease lease.token { stored with state := .aborted } with
              refreshDisabled := s.refreshDisabled.insert r.keyID r
              leaseEffects := s.leaseEffects.insert lease.token
                { leaseToken := lease.token, kind := .refreshFailed, reason } })) := by
  unfold markProtocolRefreshFailed
  cases he : s.leaseEffects.lookup lease.token with
  | none =>
    simp [he, exactActiveLeaseLocked_ok]
    grind
  | some effect =>
    cases hd : s.refreshDisabled.lookup lease.binding.keyID with
    | none => simp [he, hd]
    | some record =>
      simp [he, hd]
      grind

/-! ## Presigns and attempts -/

variable {presignID : GoString}

omit [Sha256] in
theorem validatePresignInput_ok {blob metadata : Bytes} {u : Unit} :
    exec (validatePresignInput binding presignID blob metadata) s = (.ok u, t) ↔
      s = t ∧ binding.validate = none ∧ validateLifecycleIdentifier presignID = none ∧
        validateLifecycleBlob blob true = none ∧ validateLifecycleBlob metadata true = none := by
  unfold validatePresignInput
  simp
  grind

theorem commitAvailablePresignFromLease_ok {blob metadata : Bytes} {u : Unit} :
    exec (commitAvailablePresignFromLease ctx lease presignID blob metadata) s = (.ok u, t) ↔
      ctx = none ∧ validateRunLease lease = none ∧ lease.kind = .presign ∧
      lease.state = .active ∧ lease.binding.validate = none ∧
      validateLifecycleIdentifier presignID = none ∧ validateLifecycleBlob blob true = none ∧
      validateLifecycleBlob metadata true = none ∧
      s.tombstonedLocked .presign presignID = false ∧
      s.tombstonedLocked .presignArtifact (sha256 metadata) = false ∧
      ((∃ effect presign, s.leaseEffects.lookup lease.token = some effect ∧
          effect.kind = .presign ∧ effect.presignID = presignID ∧
          effect.digest = leaseEffectArtifactDigest "presign" lease.binding presignID blob metadata ∧
          s.presigns.lookup presignID = some presign ∧ presign.binding = lease.binding ∧
          presign.artifactDigest = sha256 metadata ∧
          (presign.state = .available → presign.blob = blob ∧ presign.metadata = metadata) ∧
          t = s) ∨
        (s.leaseEffects.lookup lease.token = none ∧
          ∃ stored, s.leasesByToken.lookup lease.token = some stored ∧ stored.SameRun lease ∧
            stored.state = .active ∧ s.isCurrentLocked lease.binding = true ∧
            lease.binding.keyID ∉ s.cutoverByKey ∧ presignID ∉ s.presigns ∧
            s.hasConflictingPresignArtifactLocked presignID (sha256 metadata) = false ∧
            t = { s.setLease lease.token { stored with state := .completed } with
              presigns := s.presigns.insert presignID
                { binding := lease.binding, blob, metadata, artifactDigest := sha256 metadata,
                  state := .available }
              leaseEffects := s.leaseEffects.insert lease.token
                { leaseToken := lease.token, kind := .presign, presignID,
                  digest := leaseEffectArtifactDigest "presign" lease.binding presignID blob
                    metadata } })) := by
  unfold commitAvailablePresignFromLease
  cases he : s.leaseEffects.lookup lease.token with
  | none =>
    simp [he, validatePresignInput_ok, exactActiveLeaseLocked_ok]
    grind
  | some effect =>
    cases hp : s.presigns.lookup presignID with
    | none => simp [he, hp, validatePresignInput_ok]
    | some presign =>
      simp [he, hp, validatePresignInput_ok]
      grind

theorem preparePresignCandidate_ok {r : PresignCandidate} :
    exec (preparePresignCandidate ctx binding presignID) s = (.ok r, t) ↔
      ctx = none ∧ binding.validate = none ∧ validateLifecycleIdentifier presignID = none ∧
      s.isCurrentLocked binding = true ∧ binding.keyID ∉ s.cutoverByKey ∧
      ∃ record, s.presigns.lookup presignID = some record ∧ record.binding = binding ∧
        record.state = .available ∧
        r = { binding, presignID, blob := record.blob, metadata := record.metadata } ∧ t = s := by
  unfold preparePresignCandidate
  cases hp : s.presigns.lookup presignID with
  | none => simp [hp]
  | some record =>
    cases hs : record.state with
    | available =>
      simp [hp, hs]
      grind
    | claimed => simp [hp, hs]
    | burned => simp [hp, hs]

theorem commitSignAttempt_ok {intent : SignAttemptIntent} {exactOutbox : Bytes} {r : AttemptCommit} :
    exec (commitSignAttempt ctx binding presignID intent exactOutbox) s = (.ok r, t) ↔
      ctx = none ∧ binding.validate = none ∧ validateLifecycleIdentifier presignID = none ∧
      intent.validate = none ∧ validateLifecycleBlob exactOutbox true = none ∧
      s.tombstonedLocked .attempt intent.attemptID = false ∧
      s.tombstonedLocked .presign presignID = false ∧
      ((∃ existing, s.attempts.lookup intent.attemptID = some existing ∧
          sameBaseAttempt existing binding presignID intent (sha256 exactOutbox) = true ∧
          r = { status := .existingSame, record := existing } ∧ t = s) ∨
        (s.attempts.lookup intent.attemptID = none ∧ s.isCurrentLocked binding = true ∧
          binding.keyID ∉ s.cutoverByKey ∧
          s.hasActiveSignLeaseLocked binding intent.sessionID = true ∧
          ∃ presign, s.presigns.lookup presignID = some presign ∧ presign.binding = binding ∧
            presign.state = .available ∧
            r = { status := .created
                  record := { binding, presignID, intent, presignMetadata := presign.metadata,
                              exactOutbox, outboxDigest := sha256 exactOutbox } } ∧
            t = { s with
              attempts := s.attempts.insert intent.attemptID r.record
              presigns := s.presigns.insert presignID
                { presign with state := .claimed, attemptID := intent.attemptID, blob := [],
                               metadata := [] } })) := by
  unfold commitSignAttempt
  cases ha : s.attempts.lookup intent.attemptID with
  | some existing =>
    simp [ha]
    grind
  | none =>
    cases hp : s.presigns.lookup presignID with
    | none => simp [ha, hp]
    | some presign =>
      cases hs : presign.state with
      | available =>
        simp [ha, hp, hs]
        grind
      | claimed =>
        cases hc : s.attempts.lookup presign.attemptID <;> simp [ha, hp, hs, hc]
      | burned => simp [ha, hp, hs]

theorem queryAttemptOutcome_ok {query : AttemptQuery} {r : SignAttemptRecord} :
    exec (queryAttemptOutcome ctx query) s = (.ok r, t) ↔
      ctx = none ∧ query.validate = none ∧
      s.tombstonedLocked .attempt query.attemptID = false ∧
      s.attempts.lookup query.attemptID = some r ∧ sameAttemptQuery r query = true ∧ t = s := by
  unfold queryAttemptOutcome
  simp [queryAttemptLocked_ok]
  grind

omit [Sha256] in
theorem recordAttemptProgress_ok {query : AttemptQuery} {value : Bytes}
    {kind : AttemptProgressKind} {r : SignAttemptRecord} :
    exec (recordAttemptProgress ctx query value kind) s = (.ok r, t) ↔
      ctx = none ∧ query.validate = none ∧ validateLifecycleBlob value true = none ∧
      ∃ record, s.attempts.lookup query.attemptID = some record ∧
        sameAttemptQuery record query = true ∧ record.aborted = false ∧
        ((record.recorded kind = true ∧ record.progress kind = value ∧ r = record ∧ t = s) ∨
          (record.recorded kind = false ∧
            r = MemoryLifecycleStore.clearAttemptSecretsIfTerminal
              (record.withProgress value kind) ∧
            t = { s with attempts := s.attempts.insert query.attemptID r })) := by
  unfold recordAttemptProgress mutableAttemptLocked
  cases ha : s.attempts.lookup query.attemptID with
  | none => simp [ha, queryAttemptLocked_ok]
  | some record =>
    simp [ha, queryAttemptLocked_ok]
    grind

omit [Sha256] in
/-- On success the presign the attempt names was still claimed by it. -/
theorem abortAttempt_ok {query : AttemptQuery} {reason : GoString} {r : SignAttemptRecord} :
    exec (abortAttempt ctx query reason) s = (.ok r, t) ↔
      ctx = none ∧ query.validate = none ∧ validateLifecycleReason reason = none ∧
      ∃ record, s.attempts.lookup query.attemptID = some record ∧
        sameAttemptQuery record query = true ∧
        ((record.aborted = true ∧ record.abortReason = reason ∧ r = record ∧ t = s) ∨
          (record.terminal = false ∧
            r = { record with aborted := true, abortReason := reason, exactOutbox := [] } ∧
            ∃ presign, s.presigns.lookup record.presignID = some presign ∧
              presign.state = .claimed ∧ presign.attemptID = record.intent.attemptID ∧
              t = { s with
                attempts := s.attempts.insert query.attemptID r
                presigns := s.presigns.insert record.presignID
                  { presign with state := .burned, reason := reason } })) := by
  unfold abortAttempt mutableAttemptLocked
  cases ha : s.attempts.lookup query.attemptID with
  | none => simp [ha, queryAttemptLocked_ok]
  | some record =>
    cases hp : s.presigns.lookup record.presignID with
    | none =>
      simp [ha, hp, queryAttemptLocked_ok]
      grind
    | some presign =>
      simp [ha, hp, queryAttemptLocked_ok]
      grind [SignAttemptRecord.terminal]

theorem burnPresign_ok {reason : GoString} {u : Unit} :
    exec (burnPresign ctx binding presignID reason) s = (.ok u, t) ↔
      ctx = none ∧ binding.validate = none ∧ validateLifecycleIdentifier presignID = none ∧
      validateLifecycleReason reason = none ∧
      ∃ presign, s.presigns.lookup presignID = some presign ∧ presign.binding = binding ∧
        ((presign.state = .burned ∧ presign.reason = reason ∧ t = s) ∨
          (presign.state = .available ∧
            t = { s with
              presigns := s.presigns.insert presignID
                (MemoryLifecycleStore.burnPresignRecord reason presign) })) := by
  unfold burnPresign
  cases hp : s.presigns.lookup presignID with
  | none => simp [hp]
  | some presign =>
    cases hs : presign.state with
    | available =>
      simp [hp, hs]
      grind
    | claimed => simp [hp, hs]
    | burned =>
      simp [hp, hs]
      grind

/-! ## Cutovers and installs -/

variable {target : GenerationBinding}

theorem beginCutover_ok {source : GenerationBinding} {r : CutoverFence} :
    exec (beginCutover ctx source target) s = (.ok r, t) ↔
      ctx = none ∧ validateCutoverBindings source target = none ∧
      ((∃ token cutover, s.cutoverByKey.lookup source.keyID = some token ∧
          s.cutoversByToken.lookup token = some cutover ∧ cutover.state = .active ∧
          cutover.fence.source = source ∧ cutover.fence.target = target ∧ r = cutover.fence ∧
          t = s) ∨
        (s.cutoverByKey.lookup source.keyID = none ∧ s.isCurrentLocked source = true ∧
          s.hasKeyGenerationLocked target.keyID target.keyGeneration = false ∧
          s.hasActiveLeaseLocked source = false ∧ s.hasNonTerminalAttemptLocked source = false ∧
          r = { token := s.nextCutoverToken + 1, source, target } ∧ t = s.addFence r)) := by
  unfold beginCutover
  cases hf : s.cutoverByKey.lookup source.keyID with
  | none =>
    simp [hf]
    grind
  | some token =>
    cases hc : s.cutoversByToken.lookup token with
    | none => simp [hf, hc]
    | some cutover =>
      simp [hf, hc]
      grind

theorem beginCutoverFromLease_ok {r : CutoverFence} :
    exec (beginCutoverFromLease ctx lease target) s = (.ok r, t) ↔
      ctx = none ∧ validateRunLease lease = none ∧ lease.state = .active ∧
      cutoverLeaseRunKind lease.kind = true ∧ validateCutoverBindings lease.binding target = none ∧
      ((∃ effect cutover, s.leaseEffects.lookup lease.token = some effect ∧
          effect.kind = .cutover ∧ effect.target = target ∧ effect.cutoverToken ≠ 0 ∧
          s.cutoversByToken.lookup effect.cutoverToken = some cutover ∧
          cutover.fence.source = lease.binding ∧ cutover.fence.target = target ∧
          r = cutover.fence ∧ t = s) ∨
        (s.leaseEffects.lookup lease.token = none ∧
          ∃ stored, s.leasesByToken.lookup lease.token = some stored ∧ stored.SameRun lease ∧
            stored.state = .active ∧ lease.binding.keyID ∉ s.cutoverByKey ∧
            s.isCurrentLocked lease.binding = true ∧
            s.hasKeyGenerationLocked target.keyID target.keyGeneration = false ∧
            s.hasOtherActiveLeaseLocked lease.binding lease.token = false ∧
            s.hasNonTerminalAttemptLocked lease.binding = false ∧
            r = { token := s.nextCutoverToken + 1, source := lease.binding, target } ∧
            t = { (s.addFence r).setLease lease.token { stored with state := .completed } with
              leaseEffects := s.leaseEffects.insert lease.token
                { leaseToken := lease.token, kind := .cutover, target,
                  cutoverToken := r.token } })) := by
  unfold beginCutoverFromLease
  cases he : s.leaseEffects.lookup lease.token with
  | none =>
    simp [he, exactActiveLeaseLocked_ok]
    grind
  | some effect =>
    cases hc : s.cutoversByToken.lookup effect.cutoverToken with
    | none => simp [he, hc]
    | some cutover =>
      simp [he, hc]
      grind

theorem commitRetirementFromLease_ok {u : Unit} :
    exec (commitRetirementFromLease ctx lease target) s = (.ok u, t) ↔
      ctx = none ∧ validateRunLease lease = none ∧ lease.kind = .reshare ∧
      lease.state = .active ∧ validateCutoverBindings lease.binding target = none ∧
      ((∃ effect source, s.leaseEffects.lookup lease.token = some effect ∧
          effect.kind = .retirement ∧ effect.target = target ∧
          s.generations.lookup lease.binding = some source ∧ source.status = .retired ∧
          source.blob = [] ∧ source.metadata = [] ∧ lease.binding.keyID ∉ s.current ∧ t = s) ∨
        (s.leaseEffects.lookup lease.token = none ∧
          ∃ stored source, s.leasesByToken.lookup lease.token = some stored ∧
            stored.SameRun lease ∧ stored.state = .active ∧ lease.token ∉ s.reshareReceivers ∧
            s.isCurrentLocked lease.binding = true ∧ lease.binding.keyID ∉ s.cutoverByKey ∧
            s.hasOtherActiveLeaseLocked lease.binding lease.token = false ∧
            s.hasNonTerminalAttemptLocked lease.binding = false ∧
            s.hasKeyGenerationLocked target.keyID target.keyGeneration = false ∧
            s.generations.lookup lease.binding = some source ∧ source.status = .current ∧
            t = { s with
              generations := (s.retireGeneration lease.binding source).generations
              current := s.current.erase lease.binding.keyID
              presigns := (s.burnEpochPresignsLocked lease.binding.keyID
                lease.binding.epochID).presigns
              leasesByToken := s.leasesByToken.insert lease.token
                { stored with state := .completed }
              leaseEffects := s.leaseEffects.insert lease.token
                { leaseToken := lease.token, kind := .retirement, target } })) := by
  unfold commitRetirementFromLease
  cases he : s.leaseEffects.lookup lease.token with
  | none =>
    cases hg : s.generations.lookup lease.binding with
    | none => simp [he, hg, exactActiveLeaseLocked_ok]
    | some source =>
      simp [he, hg, exactActiveLeaseLocked_ok, MemoryLifecycleStore.setLease,
        MemoryLifecycleStore.burnEpochPresignsLocked, MemoryLifecycleStore.retireGeneration]
      grind
  | some effect =>
    cases hg : s.generations.lookup lease.binding with
    | none => simp [he, hg]
    | some source =>
      simp [he, hg]
      grind

theorem commitCutover_ok {fence : CutoverFence} {targetBlob targetMetadata : Bytes} :
    exec (commitCutover ctx fence targetBlob targetMetadata) s = (.ok r, t) ↔
      ctx = none ∧ validateCutoverFence fence = none ∧
      validateLifecycleBlob targetBlob true = none ∧
      validateLifecycleBlob targetMetadata false = none ∧
      ∃ cutover, s.cutoversByToken.lookup fence.token = some cutover ∧ cutover.fence = fence ∧
        ((cutover.state = .committed ∧ cutover.targetBlobDigest = sha256 targetBlob ∧
            cutover.targetMetadataDigest = sha256 targetMetadata ∧
            s.generations.lookup fence.target = some r ∧ r.status = .current ∧ t = s) ∨
          (cutover.state = .active ∧ s.cutoverByKey.lookup fence.source.keyID = some fence.token ∧
            s.isCurrentLocked fence.source = true ∧ s.hasActiveLeaseLocked fence.source = false ∧
            s.hasNonTerminalAttemptLocked fence.source = false ∧ fence.target ∉ s.generations ∧
            ∃ source, s.generations.lookup fence.source = some source ∧
              source.status = .current ∧
              r = { binding := fence.target, blob := targetBlob, metadata := targetMetadata,
                    status := .current } ∧
              t = { s with
                generations := (s.generations.insert fence.target r).insert fence.source
                  { source with status := .retired, blob := [], metadata := [] }
                current := s.current.insert fence.source.keyID fence.target
                presigns := (s.burnEpochPresignsLocked fence.source.keyID
                  fence.source.epochID).presigns
                cutoversByToken := s.cutoversByToken.insert fence.token
                  { cutover with state := .committed, targetBlobDigest := sha256 targetBlob
                                 targetMetadataDigest := sha256 targetMetadata }
                cutoverByKey := s.cutoverByKey.erase fence.source.keyID })) := by
  unfold commitCutover
  cases hc : s.cutoversByToken.lookup fence.token with
  | none => simp [hc]
  | some cutover =>
    cases hst : cutover.state with
    | committed =>
      cases ht : s.generations.lookup fence.target with
      | none => simp [hc, hst, ht]
      | some target =>
        simp [hc, hst, ht]
        grind
    | active =>
      cases hg : s.generations.lookup fence.source with
      | none => simp [hc, hst, hg]
      | some source =>
        simp [hc, hst, hg, MemoryLifecycleStore.burnEpochPresignsLocked,
          MemoryLifecycleStore.retireGeneration]
        grind
    | aborted => simp [hc, hst]

theorem abortCutover_ok {fence : CutoverFence} {reason : GoString} {u : Unit} :
    exec (abortCutover ctx fence reason) s = (.ok u, t) ↔
      ctx = none ∧ validateCutoverFence fence = none ∧ validateLifecycleReason reason = none ∧
      ∃ cutover, s.cutoversByToken.lookup fence.token = some cutover ∧ cutover.fence = fence ∧
        ((cutover.state = .aborted ∧ cutover.reason = reason ∧ t = s) ∨
          (cutover.state = .active ∧ s.cutoverByKey.lookup fence.source.keyID = some fence.token ∧
            t = { s with
              cutoversByToken := s.cutoversByToken.insert fence.token
                { cutover with state := .aborted, reason := reason }
              cutoverByKey := s.cutoverByKey.erase fence.source.keyID })) := by
  unfold abortCutover
  cases hc : s.cutoversByToken.lookup fence.token with
  | none => simp [hc]
  | some cutover =>
    simp [hc]
    grind

theorem commitInitialGenerationFromLease_ok {child : GenerationBinding}
    {childBlob childMetadata : Bytes} :
    exec (commitInitialGenerationFromLease ctx lease child childBlob childMetadata) s =
        (.ok r, t) ↔
      ctx = none ∧ validateRunLease lease = none ∧ lease.kind = .childDerivation ∧
      lease.state = .active ∧ child.validate = none ∧ child.keyID ≠ lease.binding.keyID ∧
      child.epochID ≠ lease.binding.epochID ∧ validateLifecycleBlob childBlob true = none ∧
      validateLifecycleBlob childMetadata true = none ∧
      ((∃ effect, s.leaseEffects.lookup lease.token = some effect ∧
          effect.kind = .childGeneration ∧ effect.target = child ∧
          effect.digest = leaseEffectArtifactDigest "child-generation" child child.keyID childBlob
            childMetadata ∧
          s.generations.lookup child = some r ∧ r.status = .current ∧ r.blob = childBlob ∧
          r.metadata = childMetadata ∧ t = s) ∨
        (s.leaseEffects.lookup lease.token = none ∧
          ∃ stored, s.leasesByToken.lookup lease.token = some stored ∧ stored.SameRun lease ∧
            stored.state = .active ∧ s.isCurrentLocked lease.binding = true ∧
            lease.binding.keyID ∉ s.cutoverByKey ∧ child.keyID ∉ s.current ∧
            s.hasGenerationForKeyLocked child.keyID = false ∧
            s.hasKeyGenerationLocked child.keyID child.keyGeneration = false ∧
            s.hasActiveLeaseForKeyLocked child.keyID = false ∧
            r = { binding := child, blob := childBlob, metadata := childMetadata,
                  status := .current } ∧
            t = { (s.installGeneration r).setLease lease.token
                    { stored with state := .completed } with
              leaseEffects := s.leaseEffects.insert lease.token
                { leaseToken := lease.token, kind := .childGeneration, target := child,
                  digest := leaseEffectArtifactDigest "child-generation" child child.keyID
                    childBlob childMetadata } })) := by
  unfold commitInitialGenerationFromLease
  cases he : s.leaseEffects.lookup lease.token with
  | none =>
    simp [he, exactActiveLeaseLocked_ok]
    grind
  | some effect =>
    cases hg : s.generations.lookup child with
    | none => simp [he, hg]
    | some generation =>
      simp [he, hg]
      grind

theorem commitInitialGenerationFromReshareLease_ok {targetBlob targetMetadata : Bytes} :
    exec (commitInitialGenerationFromReshareLease ctx lease target targetBlob targetMetadata) s =
        (.ok r, t) ↔
      ctx = none ∧ validateRunLease lease = none ∧ lease.kind = .reshare ∧
      lease.state = .active ∧ target.validate = none ∧ target.keyID = lease.binding.keyID ∧
      target.keyGeneration ≠ lease.binding.keyGeneration ∧
      target.epochID ≠ lease.binding.epochID ∧ validateLifecycleBlob targetBlob true = none ∧
      validateLifecycleBlob targetMetadata false = none ∧
      ((∃ effect, s.leaseEffects.lookup lease.token = some effect ∧
          effect.kind = .reshareReceiverGeneration ∧ effect.target = target ∧
          effect.digest = leaseEffectArtifactDigest "reshare-receiver-generation" target
            target.keyID targetBlob targetMetadata ∧
          s.generations.lookup target = some r ∧ r.status = .current ∧ r.blob = targetBlob ∧
          r.metadata = targetMetadata ∧ lease.token ∉ s.reshareReceivers ∧ t = s) ∨
        (s.leaseEffects.lookup lease.token = none ∧
          ∃ stored anchor, s.leasesByToken.lookup lease.token = some stored ∧
            stored.SameRun lease ∧ stored.state = .active ∧
            s.reshareReceivers.lookup lease.token = some anchor ∧
            anchor.source = lease.binding ∧ anchor.sessionID = lease.sessionID ∧
            anchor.targetKeyGeneration = target.keyGeneration ∧ target.keyID ∉ s.current ∧
            s.hasOtherActiveLeaseForKeyLocked target.keyID lease.token = false ∧
            s.hasNonTerminalAttemptForKeyLocked target.keyID = false ∧
            target.keyID ∉ s.cutoverByKey ∧
            s.hasKeyGenerationLocked target.keyID target.keyGeneration = false ∧
            r = { binding := target, blob := targetBlob, metadata := targetMetadata,
                  status := .current } ∧
            t = { (s.installGeneration r).setLease lease.token
                    { stored with state := .completed } with
              reshareReceivers := s.reshareReceivers.erase lease.token
              leaseEffects := s.leaseEffects.insert lease.token
                { leaseToken := lease.token, kind := .reshareReceiverGeneration, target,
                  digest := leaseEffectArtifactDigest "reshare-receiver-generation" target
                    target.keyID targetBlob targetMetadata } })) := by
  unfold commitInitialGenerationFromReshareLease
  cases he : s.leaseEffects.lookup lease.token with
  | none =>
    cases hr : s.reshareReceivers.lookup lease.token with
    | none => simp [he, hr, exactActiveLeaseLocked_ok]
    | some anchor =>
      simp [he, hr, exactActiveLeaseLocked_ok]
      grind
  | some effect =>
    cases hg : s.generations.lookup target with
    | none => simp [he, hg]
    | some generation =>
      simp [he, hg]
      grind

end Tss.Lifecycle
