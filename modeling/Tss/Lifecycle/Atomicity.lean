import Tss.Lifecycle.Outcome
import Tss.Lifecycle.Invariant

/-!
# Failed calls change nothing

Every operation but one checks first and writes last, so a failing call
has not written; that is read off its body. `abortAttempt` writes the
attempt before it looks at the attempt's presign: its failing branches
after the write are unreachable from a well-formed store, where the
presign of a pending attempt is claimed by it.
-/

namespace Tss.Lifecycle

open Proc

variable [Sha256] {ctx : Context}

theorem exactActiveLeaseLocked_readOnly (lease : RunLease) :
    ReadOnly (exactActiveLeaseLocked lease) := by
  refine .bind .of_get fun s => ?_
  split
  · exact .bind (.of_throwIf _ _) fun _ => .of_throw _
  · exact .bind (.of_throwIf _ _) fun _ => .bind (.of_throwIf _ _) fun _ => .of_pure _

omit [Sha256] in
theorem queryAttemptLocked_readOnly (query : AttemptQuery) :
    ReadOnly (queryAttemptLocked query) := by
  refine .bind .of_get fun s => ?_
  split
  · exact .of_throw _
  · exact .bind (.of_throwIf _ _) fun _ => .of_pure _

omit [Sha256] in
theorem validatePresignInput_readOnly (binding : GenerationBinding) (presignID : GoString)
    (blob metadata : Bytes) : ReadOnly (validatePresignInput binding presignID blob metadata) :=
  .bind (.of_check _) fun _ => .bind (.of_check _) fun _ => .bind (.of_check _) fun _ =>
    .of_check _

variable {s : MemoryLifecycleStore}

/-! ## Operations that check before they write -/

variable {binding : GenerationBinding}

theorem installInitialGeneration_clean {blob metadata : Bytes} :
    CleanAt (installInitialGeneration ctx binding blob metadata) s := by
  unfold installInitialGeneration
  cases hc : s.current.lookup binding.keyID with
  | none => simp [hc]
  | some current => cases hg : s.generations.lookup current <;> simp [hc, hg]

omit [Sha256] in
theorem loadCurrentGeneration_clean {keyID : GoString} :
    CleanAt (loadCurrentGeneration ctx keyID) s := by
  unfold loadCurrentGeneration
  cases hc : s.current.lookup keyID with
  | none => simp [hc]
  | some binding => cases hg : s.generations.lookup binding <;> simp [hc, hg]

theorem acquireRunLease_clean {kind : RunKind} {sessionID : SessionID} :
    CleanAt (acquireRunLease ctx binding kind sessionID) s := by
  unfold acquireRunLease
  cases hs : s.leaseBySession.lookup sessionID with
  | none => simp [hs]
  | some token => cases hl : s.leasesByToken.lookup token <;> simp [hs, hl]

theorem acquireReshareReceiverLease_clean {anchor : ReshareReceiverAnchor} :
    CleanAt (acquireReshareReceiverLease ctx anchor) s := by
  unfold acquireReshareReceiverLease
  cases hs : s.leaseBySession.lookup anchor.sessionID with
  | none => simp [hs]
  | some token =>
    cases hl : s.leasesByToken.lookup token <;>
      cases hr : s.reshareReceivers.lookup token <;> simp [hs, hl, hr]

theorem queryRunLease_clean {kind : RunKind} {sessionID : SessionID} :
    CleanAt (queryRunLease ctx binding kind sessionID) s := by
  unfold queryRunLease
  cases hs : s.leaseBySession.lookup sessionID with
  | none => simp [hs]
  | some token => cases hl : s.leasesByToken.lookup token <;> simp [hs, hl]

variable {lease : RunLease}

theorem finishRunLease_clean {outcome : RunLeaseOutcome} :
    CleanAt (finishRunLease ctx lease outcome) s := by
  unfold finishRunLease
  cases hl : s.leasesByToken.lookup lease.token <;> simp [hl]

theorem markProtocolRefreshFailed_clean {reason : GoString} :
    CleanAt (markProtocolRefreshFailed ctx lease reason) s := by
  unfold markProtocolRefreshFailed
  cases he : s.leaseEffects.lookup lease.token with
  | none => simp [he, cleanAt_bind (exactActiveLeaseLocked_readOnly _)]
  | some effect =>
    cases hd : s.refreshDisabled.lookup lease.binding.keyID <;> simp [he, hd]

variable {presignID : GoString}

theorem commitAvailablePresignFromLease_clean {blob metadata : Bytes} :
    CleanAt (commitAvailablePresignFromLease ctx lease presignID blob metadata) s := by
  unfold commitAvailablePresignFromLease
  cases he : s.leaseEffects.lookup lease.token with
  | none =>
    simp [he, cleanAt_bind (exactActiveLeaseLocked_readOnly _),
      cleanAt_bind (validatePresignInput_readOnly _ _ _ _)]
  | some effect =>
    cases hp : s.presigns.lookup presignID <;>
      simp [he, hp, cleanAt_bind (validatePresignInput_readOnly _ _ _ _)]

theorem preparePresignCandidate_clean :
    CleanAt (preparePresignCandidate ctx binding presignID) s := by
  unfold preparePresignCandidate
  cases hp : s.presigns.lookup presignID with
  | none => simp [hp]
  | some record => cases hs : record.state <;> simp [hp, hs]

theorem commitSignAttempt_clean {intent : SignAttemptIntent} {exactOutbox : Bytes} :
    CleanAt (commitSignAttempt ctx binding presignID intent exactOutbox) s := by
  unfold commitSignAttempt
  cases ha : s.attempts.lookup intent.attemptID with
  | some existing => simp [ha]
  | none =>
    cases hp : s.presigns.lookup presignID with
    | none => simp [ha, hp]
    | some presign =>
      cases hc : s.attempts.lookup presign.attemptID <;>
        cases hs : presign.state <;> simp [ha, hp, hs, hc]

theorem queryAttemptOutcome_clean {query : AttemptQuery} :
    CleanAt (queryAttemptOutcome ctx query) s := by
  unfold queryAttemptOutcome
  simp [(queryAttemptLocked_readOnly query).clean s]

omit [Sha256] in
theorem recordAttemptProgress_clean {query : AttemptQuery} {value : Bytes}
    {kind : AttemptProgressKind} : CleanAt (recordAttemptProgress ctx query value kind) s := by
  unfold recordAttemptProgress mutableAttemptLocked
  simp [cleanAt_bind (queryAttemptLocked_readOnly _)]

theorem burnPresign_clean {reason : GoString} :
    CleanAt (burnPresign ctx binding presignID reason) s := by
  unfold burnPresign
  cases hp : s.presigns.lookup presignID with
  | none => simp [hp]
  | some presign => cases hs : presign.state <;> simp [hp, hs]

variable {target : GenerationBinding}

theorem beginCutover_clean {source : GenerationBinding} :
    CleanAt (beginCutover ctx source target) s := by
  unfold beginCutover
  cases hf : s.cutoverByKey.lookup source.keyID with
  | none => simp [hf]
  | some token => cases hc : s.cutoversByToken.lookup token <;> simp [hf, hc]

theorem beginCutoverFromLease_clean :
    CleanAt (beginCutoverFromLease ctx lease target) s := by
  unfold beginCutoverFromLease
  cases he : s.leaseEffects.lookup lease.token with
  | none => simp [he, cleanAt_bind (exactActiveLeaseLocked_readOnly _)]
  | some effect => cases hc : s.cutoversByToken.lookup effect.cutoverToken <;> simp [he, hc]

theorem commitRetirementFromLease_clean :
    CleanAt (commitRetirementFromLease ctx lease target) s := by
  unfold commitRetirementFromLease
  cases he : s.leaseEffects.lookup lease.token <;>
    cases hg : s.generations.lookup lease.binding <;>
    simp [he, hg, cleanAt_bind (exactActiveLeaseLocked_readOnly _)]

theorem commitCutover_clean {fence : CutoverFence} {targetBlob targetMetadata : Bytes} :
    CleanAt (commitCutover ctx fence targetBlob targetMetadata) s := by
  unfold commitCutover
  cases hc : s.cutoversByToken.lookup fence.token with
  | none => simp [hc]
  | some cutover =>
    cases hg : s.generations.lookup fence.source <;>
      cases ht : s.generations.lookup fence.target <;> simp [hc, hg, ht]

theorem abortCutover_clean {fence : CutoverFence} {reason : GoString} :
    CleanAt (abortCutover ctx fence reason) s := by
  unfold abortCutover
  cases hc : s.cutoversByToken.lookup fence.token <;> simp [hc]

theorem commitInitialGenerationFromLease_clean {child : GenerationBinding}
    {childBlob childMetadata : Bytes} :
    CleanAt (commitInitialGenerationFromLease ctx lease child childBlob childMetadata) s := by
  unfold commitInitialGenerationFromLease
  cases he : s.leaseEffects.lookup lease.token with
  | none => simp [he, cleanAt_bind (exactActiveLeaseLocked_readOnly _)]
  | some effect => cases hg : s.generations.lookup child <;> simp [he, hg]

theorem commitInitialGenerationFromReshareLease_clean {targetBlob targetMetadata : Bytes} :
    CleanAt (commitInitialGenerationFromReshareLease ctx lease target targetBlob targetMetadata)
      s := by
  unfold commitInitialGenerationFromReshareLease
  cases he : s.leaseEffects.lookup lease.token with
  | none =>
    cases hr : s.reshareReceivers.lookup lease.token <;>
      simp [he, hr, cleanAt_bind (exactActiveLeaseLocked_readOnly _)]
  | some effect => cases hg : s.generations.lookup target <;> simp [he, hg]

/-! ## Aborting an attempt -/

theorem abortAttempt_clean (h : WF s) {query : AttemptQuery} {reason : GoString} :
    CleanAt (abortAttempt ctx query reason) s := by
  unfold abortAttempt mutableAttemptLocked
  simp only [cleanAt_check_bind, cleanAt_bind (queryAttemptLocked_readOnly _),
    queryAttemptLocked_ok, cleanAt_throwIf_bind, cleanAt_ite, cleanAt_pure, cleanAt_throw]
  intro _ _ _ record hrec hterm
  refine ⟨by simp, fun hab => ?_⟩
  -- the attempt is pending, so the presign it names is claimed by it
  obtain ⟨p, hp, hst, hatt, -⟩ := h.attempts.claimed hrec.2.1 (by simpa [hab] using hterm)
  rw [(h.attempts.record hrec.2.1).1]
  simp [hp, hst, hatt]

end Tss.Lifecycle
