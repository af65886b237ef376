import Tss.Lifecycle.Steps

/-!
# When a call reports corruption

`ErrLifecycleCorrupt` stands on branches the source believes a healthy
store cannot reach. Most of them are unreachable from a well-formed
store. The others sit on the retry path of the operations that run on a
lease or a fence: the retry is recognised by its recorded effect, and the
branch then asks whether the record the effect created is still as it was
created, which later calls may have changed. `Op.StaleRetry` names
exactly those calls.
-/

namespace Tss.Lifecycle

open Proc MemoryLifecycleStore

/-- `errors.Is(err, ErrLifecycleCorrupt)`. -/
@[simp] def Corrupt (e : LifecycleError) : Prop := ∃ detail, e = .lifecycleCorrupt detail

attribute [simp] errInvalidLifecycleRecord errLifecycleCorrupt

/-! ## No argument check reports corruption -/

/-- The check returns no corruption error. -/
def Sound (err : Option LifecycleError) : Prop := ∀ e, err = some e → ¬ Corrupt e

theorem Sound.not_corrupt {err : Option LifecycleError} (h : Sound err) :
    ¬ ∃ e, err = some e ∧ Corrupt e := by
  rintro ⟨e, he, hc⟩
  exact h e he hc

theorem sound_none : Sound none := by
  intro e he
  cases he

theorem sound_some {e : LifecycleError} (h : ¬ Corrupt e) : Sound (some e) := by
  intro e' he
  exact Option.some.inj he ▸ h

theorem sound_ite {c : Prop} [Decidable c] {a b : Option LifecycleError} (ha : Sound a)
    (hb : Sound b) : Sound (if c then a else b) := by
  split <;> assumption

theorem sound_orElse {a b : Option LifecycleError} : Sound a → Sound b →
    Sound (match a with | some e => some e | none => b) := by
  cases a <;> intros <;> assumption

theorem sound_map {α : Type} {f : α → LifecycleError} (h : ∀ a, ¬ Corrupt (f a))
    (x : Option α) : Sound (x.map f) := by
  cases x with
  | none => exact sound_none
  | some a => exact sound_some (h a)

@[simp] theorem sound_context (ctx : Context) : Sound ctx.err := sound_map (by simp) ctx

@[simp] theorem sound_wrapInvalid (err : Option LifecycleError) (detail : String) :
    Sound (wrapInvalid err detail) := sound_map (by simp) err

@[simp] theorem sound_binding (b : GenerationBinding) : Sound b.validate :=
  sound_ite (sound_some (by simp)) (sound_ite (sound_some (by simp)) (sound_ite (sound_some (by simp)) sound_none))

@[simp] theorem sound_runLease (l : RunLease) : Sound (validateRunLease l) :=
  sound_ite (sound_some (by simp))
    (sound_orElse (sound_binding _) (sound_ite (sound_some (by simp)) sound_none))

@[simp] theorem sound_anchor (a : ReshareReceiverAnchor) : Sound a.validate :=
  sound_orElse (sound_binding _)
    (sound_ite (sound_some (by simp)) (sound_ite (sound_some (by simp)) sound_none))

@[simp] theorem sound_intent (i : SignAttemptIntent) : Sound i.validate :=
  sound_ite (sound_some (by simp)) (sound_ite (sound_some (by simp)) (sound_ite (sound_some (by simp)) sound_none))

@[simp] theorem sound_query (q : AttemptQuery) : Sound q.validate :=
  sound_orElse (sound_binding _) (sound_ite (sound_some (by simp))
    (sound_ite (sound_some (by simp)) (sound_ite (sound_some (by simp)) sound_none)))

@[simp] theorem sound_cutoverBindings (a b : GenerationBinding) : Sound (validateCutoverBindings a b) :=
  sound_orElse (sound_binding _)
    (sound_orElse (sound_binding _) (sound_ite (sound_some (by simp)) sound_none))

@[simp] theorem sound_cutoverFence (f : CutoverFence) : Sound (validateCutoverFence f) :=
  sound_ite (sound_some (by simp)) (sound_cutoverBindings _ _)

@[simp] theorem sound_runLeaseAdmission (s : MemoryLifecycleStore) (b : GenerationBinding)
    (kind : RunKind) : Sound (runLeaseAdmission s b kind) :=
  sound_ite (sound_ite (sound_some (by simp)) (sound_ite (sound_some (by simp)) sound_none))
    (sound_ite (sound_some (by simp)) (sound_ite (sound_some (by simp))
      (sound_ite (sound_some (by simp)) sound_none)))

/-- A check in front of a body: the body decides whether the call reports corruption. -/
@[simp high] theorem failsAt_check_bind_of_sound {err : Option LifecycleError} {α : Type}
    {f : Unit → LifecycleM α} {s : MemoryLifecycleStore} (h : Sound err) :
    FailsAt Corrupt (check err >>= f) s ↔ err = none ∧ FailsAt Corrupt (f ()) s := by
  rw [failsAt_check_bind]
  exact or_iff_right h.not_corrupt

section Operations

variable [Sha256] {s : MemoryLifecycleStore} {ctx : Context}

/-! ## Calls that never report corruption -/

variable {binding : GenerationBinding}

theorem installInitialGeneration_sound {blob metadata : Bytes} :
    ¬ FailsAt Corrupt (installInitialGeneration ctx binding blob metadata) s := by
  unfold installInitialGeneration
  cases hc : s.current.lookup binding.keyID with
  | none => simp [hc]
  | some current =>
    cases hg : s.generations.lookup current <;> simp [hc, hg]

theorem loadCurrentGeneration_sound (h : WF s) {keyID : GoString} :
    ¬ FailsAt Corrupt (loadCurrentGeneration ctx keyID) s := by
  unfold loadCurrentGeneration
  cases hc : s.current.lookup keyID with
  | none => simp [hc]
  | some binding =>
    obtain ⟨-, r, hr, hst⟩ := h.generations.index hc
    simp [hc, hr, hst]

theorem acquireRunLease_sound (h : WF s) {kind : RunKind} {sessionID : SessionID} :
    ¬ FailsAt Corrupt (acquireRunLease ctx binding kind sessionID) s := by
  unfold acquireRunLease
  cases hs : s.leaseBySession.lookup sessionID with
  | none => simp [hs]
  | some token =>
    obtain ⟨l, hl, -⟩ := h.leases.session hs
    simp [hs, hl]

theorem acquireReshareReceiverLease_sound {anchor : ReshareReceiverAnchor} :
    ¬ FailsAt Corrupt (acquireReshareReceiverLease ctx anchor) s := by
  unfold acquireReshareReceiverLease
  cases hs : s.leaseBySession.lookup anchor.sessionID with
  | none => simp [hs]
  | some token =>
    cases hl : s.leasesByToken.lookup token <;>
      cases hr : s.reshareReceivers.lookup token <;> simp [hs, hl, hr]

theorem queryRunLease_sound (h : WF s) {kind : RunKind} {sessionID : SessionID} :
    ¬ FailsAt Corrupt (queryRunLease ctx binding kind sessionID) s := by
  unfold queryRunLease
  cases hs : s.leaseBySession.lookup sessionID with
  | none => simp [hs]
  | some token =>
    obtain ⟨l, hl, -⟩ := h.leases.session hs
    simp [hs, hl]

theorem finishRunLease_sound {lease : RunLease} {outcome : RunLeaseOutcome} :
    ¬ FailsAt Corrupt (finishRunLease ctx lease outcome) s := by
  unfold finishRunLease
  cases hl : s.leasesByToken.lookup lease.token <;> simp [hl]

theorem preparePresignCandidate_sound {presignID : GoString} :
    ¬ FailsAt Corrupt (preparePresignCandidate ctx binding presignID) s := by
  unfold preparePresignCandidate
  cases hp : s.presigns.lookup presignID with
  | none => simp [hp]
  | some record => cases hst : record.state <;> simp [hp, hst]

/-- A claimed presign's attempt is stored. -/
theorem commitSignAttempt_sound (h : WF s) {presignID : GoString} {intent : SignAttemptIntent}
    {exactOutbox : Bytes} :
    ¬ FailsAt Corrupt (commitSignAttempt ctx binding presignID intent exactOutbox) s := by
  unfold commitSignAttempt
  cases ha : s.attempts.lookup intent.attemptID with
  | some existing => simp [ha]
  | none =>
    cases hp : s.presigns.lookup presignID with
    | none => simp [ha, hp]
    | some presign =>
      cases hst : presign.state with
      | available => simp [ha, hp, hst]
      | burned => simp [ha, hp, hst]
      | claimed =>
        have hok := h.presigns.state hp
        simp only [PresignStateOk, hst] at hok
        obtain ⟨-, -, -, -, -, a, hatt, -⟩ := hok
        simp [ha, hp, hst, hatt]

omit [Sha256] in
theorem queryAttemptLocked_sound {query : AttemptQuery} :
    ¬ FailsAt Corrupt (queryAttemptLocked query) s := by
  unfold queryAttemptLocked
  cases ha : s.attempts.lookup query.attemptID <;> simp [ha]

theorem queryAttemptOutcome_sound {query : AttemptQuery} :
    ¬ FailsAt Corrupt (queryAttemptOutcome ctx query) s := by
  unfold queryAttemptOutcome
  simp [queryAttemptLocked_sound]

omit [Sha256] in
theorem recordAttemptProgress_sound {query : AttemptQuery} {value : Bytes}
    {kind : AttemptProgressKind} :
    ¬ FailsAt Corrupt (recordAttemptProgress ctx query value kind) s := by
  unfold recordAttemptProgress mutableAttemptLocked
  simp [failsAt_bind (queryAttemptLocked query), queryAttemptLocked_sound]

/-- The presign of a pending attempt is claimed by it, so the checks after the
write pass. -/
theorem abortAttempt_sound (h : WF s) {query : AttemptQuery} {reason : GoString} :
    ¬ FailsAt Corrupt (abortAttempt ctx query reason) s := by
  unfold abortAttempt mutableAttemptLocked
  simp only [failsAt_check_bind_of_sound, sound_context, sound_query, sound_wrapInvalid,
    failsAt_bind (queryAttemptLocked query), queryAttemptLocked_sound, queryAttemptLocked_ok]
  rintro ⟨-, -, -, hf | ⟨record, _, ⟨rfl, hrec, -⟩, hfail⟩⟩
  · exact hf
  simp only [failsAt_throwIf_bind, failsAt_ite, failsAt_pure, failsAt_throw, failsAt_modify_bind,
    failsAt_get_bind] at hfail
  rcases hfail with ⟨-, hc⟩ | ⟨hterm, ⟨-, hc⟩ | ⟨hab, hc⟩⟩
  · simp at hc
  · simp at hc
  · obtain ⟨p, hp, hst, hatt, -⟩ := h.attempts.claimed hrec (by simpa [hab] using hterm)
    rw [(h.attempts.record hrec).1] at hc
    simp [hp, hst, hatt] at hc

theorem burnPresign_sound {presignID reason : GoString} :
    ¬ FailsAt Corrupt (burnPresign ctx binding presignID reason) s := by
  unfold burnPresign
  cases hp : s.presigns.lookup presignID with
  | none => simp [hp]
  | some presign => cases hst : presign.state <;> simp [hp, hst]

/-- An indexed fence is stored and active. -/
theorem beginCutover_sound (h : WF s) {source target : GenerationBinding} :
    ¬ FailsAt Corrupt (beginCutover ctx source target) s := by
  unfold beginCutover
  cases hf : s.cutoverByKey.lookup source.keyID with
  | none => simp [hf]
  | some token =>
    obtain ⟨c, hc, hact, -⟩ := h.cutovers.index hf
    simp [hf, hc, hact]

theorem abortCutover_sound {fence : CutoverFence} {reason : GoString} :
    ¬ FailsAt Corrupt (abortCutover ctx fence reason) s := by
  unfold abortCutover
  cases hc : s.cutoversByToken.lookup fence.token <;> simp [hc]

end Operations

/-! ## Retries that do -/

/-- A valid retry that its recorded effect or fence recognises, and for which what
the first call created is no longer as it was created. -/
def Op.StaleRetry [Sha256] (s : MemoryLifecycleStore) : Op → Prop
  | .markProtocolRefreshFailed ctx lease reason =>
    ctx = none ∧ validateRunLease lease = none ∧ lease.kind = .refresh ∧ lease.state = .active ∧
      validateLifecycleReason reason = none ∧
      (∃ e, s.leaseEffects.lookup lease.token = some e ∧ e.kind = .refreshFailed ∧
        e.reason = reason) ∧
      -- the key has no failure of this session on record
      ¬ ∃ d, s.refreshDisabled.lookup lease.binding.keyID = some d ∧
        d.sessionID = lease.sessionID ∧ d.reason = reason
  | .commitAvailablePresignFromLease ctx lease presignID blob metadata =>
    ctx = none ∧ validateRunLease lease = none ∧ lease.kind = .presign ∧ lease.state = .active ∧
      lease.binding.validate = none ∧ validateLifecycleIdentifier presignID = none ∧
      validateLifecycleBlob blob true = none ∧ validateLifecycleBlob metadata true = none ∧
      s.tombstonedLocked .presign presignID = false ∧
      s.tombstonedLocked .presignArtifact (sha256 metadata) = false ∧
      (∃ e, s.leaseEffects.lookup lease.token = some e ∧ e.kind = .presign ∧
        e.presignID = presignID ∧
        e.digest = leaseEffectArtifactDigest "presign" lease.binding presignID blob metadata) ∧
      -- other material with the recorded digest
      ∃ p, s.presigns.lookup presignID = some p ∧
        (p.binding ≠ lease.binding ∨ p.artifactDigest ≠ sha256 metadata ∨
          (p.state = .available ∧ (p.blob ≠ blob ∨ p.metadata ≠ metadata)))
  | .beginCutoverFromLease ctx lease target =>
    ctx = none ∧ validateRunLease lease = none ∧ lease.state = .active ∧
      cutoverLeaseRunKind lease.kind = true ∧ validateCutoverBindings lease.binding target = none ∧
      -- the fence was begun from another source than the lease argument names
      ∃ e c, s.leaseEffects.lookup lease.token = some e ∧ e.kind = .cutover ∧
        e.target = target ∧ s.cutoversByToken.lookup e.cutoverToken = some c ∧
        c.fence.source ≠ lease.binding
  | .commitRetirementFromLease ctx lease target =>
    ctx = none ∧ validateRunLease lease = none ∧ lease.kind = .reshare ∧ lease.state = .active ∧
      validateCutoverBindings lease.binding target = none ∧
      (∃ e, s.leaseEffects.lookup lease.token = some e ∧ e.kind = .retirement ∧
        e.target = target) ∧
      -- the key has a current generation again, or the lease names no retired one
      (lease.binding.keyID ∈ s.current ∨
        ¬ ∃ r, s.generations.lookup lease.binding = some r ∧ r.status = .retired)
  | .commitCutover ctx fence targetBlob targetMetadata =>
    ctx = none ∧ validateCutoverFence fence = none ∧
      validateLifecycleBlob targetBlob true = none ∧
      validateLifecycleBlob targetMetadata false = none ∧
      ∃ c, s.cutoversByToken.lookup fence.token = some c ∧ c.fence = fence ∧
        c.state = .committed ∧ c.targetBlobDigest = sha256 targetBlob ∧
        c.targetMetadataDigest = sha256 targetMetadata ∧
        s.current.lookup fence.target.keyID ≠ some fence.target
  | .commitInitialGenerationFromLease ctx lease child childBlob childMetadata =>
    ctx = none ∧ validateRunLease lease = none ∧ lease.kind = .childDerivation ∧
      lease.state = .active ∧ child.validate = none ∧ child.keyID ≠ lease.binding.keyID ∧
      child.epochID ≠ lease.binding.epochID ∧ validateLifecycleBlob childBlob true = none ∧
      validateLifecycleBlob childMetadata true = none ∧
      (∃ e, s.leaseEffects.lookup lease.token = some e ∧ e.kind = .childGeneration ∧
        e.target = child ∧ e.digest = leaseEffectArtifactDigest "child-generation" child
          child.keyID childBlob childMetadata) ∧
      ¬ ∃ r, s.current.lookup child.keyID = some child ∧ s.generations.lookup child = some r ∧
        r.blob = childBlob ∧ r.metadata = childMetadata
  | .commitInitialGenerationFromReshareLease ctx lease target targetBlob targetMetadata =>
    ctx = none ∧ validateRunLease lease = none ∧ lease.kind = .reshare ∧
      lease.state = .active ∧ target.validate = none ∧ target.keyID = lease.binding.keyID ∧
      target.keyGeneration ≠ lease.binding.keyGeneration ∧
      target.epochID ≠ lease.binding.epochID ∧ validateLifecycleBlob targetBlob true = none ∧
      validateLifecycleBlob targetMetadata false = none ∧
      (∃ e, s.leaseEffects.lookup lease.token = some e ∧ e.kind = .reshareReceiverGeneration ∧
        e.target = target ∧ e.digest = leaseEffectArtifactDigest "reshare-receiver-generation"
          target target.keyID targetBlob targetMetadata) ∧
      ¬ ∃ r, s.current.lookup target.keyID = some target ∧ s.generations.lookup target = some r ∧
        r.blob = targetBlob ∧ r.metadata = targetMetadata
  | _ => False

section StaleRetries

variable [Sha256] {s : MemoryLifecycleStore} {ctx : Context}

omit [Sha256] in
theorem failsAt_validatePresignInput_bind {binding : GenerationBinding} {presignID : GoString}
    {blob metadata : Bytes} {α : Type} {f : Unit → LifecycleM α} :
    FailsAt Corrupt (validatePresignInput binding presignID blob metadata >>= f) s ↔
      binding.validate = none ∧ validateLifecycleIdentifier presignID = none ∧
        validateLifecycleBlob blob true = none ∧ validateLifecycleBlob metadata true = none ∧
        FailsAt Corrupt (f ()) s := by
  unfold validatePresignInput
  simp

variable {lease : RunLease}

/-- No lease the store hands back reports corruption; the first execution starts here. -/
theorem failsAt_exactActiveLeaseLocked_bind {α : Type} {f : RunLease → LifecycleM α} :
    FailsAt Corrupt (exactActiveLeaseLocked lease >>= f) s ↔
      ∃ stored, (s.leasesByToken.lookup lease.token = some stored ∧ stored.SameRun lease ∧
        stored.state = .active) ∧ FailsAt Corrupt (f stored) s := by
  have hsound : ¬ FailsAt Corrupt (exactActiveLeaseLocked lease) s := by
    unfold exactActiveLeaseLocked
    cases hl : s.leasesByToken.lookup lease.token <;> simp [hl]
  rw [failsAt_bind]
  simp only [hsound, false_or, exactActiveLeaseLocked_ok]
  constructor
  · rintro ⟨stored, _, ⟨rfl, hstored⟩, hf⟩
    exact ⟨stored, hstored, hf⟩
  · rintro ⟨stored, hstored, hf⟩
    exact ⟨stored, s, ⟨rfl, hstored⟩, hf⟩

/-- A stored generation is current exactly when the index names it. -/
theorem WF.status_iff (h : WF s) {b : GenerationBinding} {r : GenerationRecord}
    (hb : s.generations.lookup b = some r) :
    r.status = .current ↔ s.current.lookup b.keyID = some b := by
  refine ⟨fun hst => (h.generations.live hb hst).1, fun hcur => ?_⟩
  obtain ⟨-, q, hq, hst⟩ := h.generations.index hcur
  exact Option.some.inj (hq.symm.trans hb) ▸ hst

theorem markProtocolRefreshFailed_corrupt {reason : GoString} :
    FailsAt Corrupt (markProtocolRefreshFailed ctx lease reason) s ↔
      (Op.markProtocolRefreshFailed ctx lease reason).StaleRetry s := by
  unfold markProtocolRefreshFailed Op.StaleRetry
  cases he : s.leaseEffects.lookup lease.token with
  | none => simp [he, failsAt_exactActiveLeaseLocked_bind]
  | some e =>
    cases hd : s.refreshDisabled.lookup lease.binding.keyID with
    | none => simp [he, hd]; grind
    | some d => simp [he, hd]; grind

theorem commitAvailablePresignFromLease_corrupt (h : WF s) {presignID : GoString}
    {blob metadata : Bytes} :
    FailsAt Corrupt (commitAvailablePresignFromLease ctx lease presignID blob metadata) s ↔
      (Op.commitAvailablePresignFromLease ctx lease presignID blob metadata).StaleRetry s := by
  unfold commitAvailablePresignFromLease Op.StaleRetry
  cases he : s.leaseEffects.lookup lease.token with
  | none =>
    simp [he, failsAt_exactActiveLeaseLocked_bind, failsAt_validatePresignInput_bind]
  | some e =>
    obtain ⟨-, l, hl, -, hok⟩ := h.effects.effect he
    cases hp : s.presigns.lookup presignID with
    | none =>
      simp [he, hp, failsAt_validatePresignInput_bind]
      grind [EffectOk]
    | some p =>
      simp [he, hp, failsAt_validatePresignInput_bind]
      grind

theorem beginCutoverFromLease_corrupt (h : WF s) {target : GenerationBinding} :
    FailsAt Corrupt (beginCutoverFromLease ctx lease target) s ↔
      (Op.beginCutoverFromLease ctx lease target).StaleRetry s := by
  unfold beginCutoverFromLease Op.StaleRetry
  cases he : s.leaseEffects.lookup lease.token with
  | none => simp [he, failsAt_exactActiveLeaseLocked_bind]
  | some e =>
    obtain ⟨-, l, hl, -, hok⟩ := h.effects.effect he
    cases hc : s.cutoversByToken.lookup e.cutoverToken with
    | none =>
      simp [he, hc]
      grind [EffectOk]
    | some c =>
      have := h.cutovers.record hc
      simp [he, hc]
      grind [EffectOk, validateCutoverFence_eq_none]

theorem commitRetirementFromLease_corrupt (h : WF s) {target : GenerationBinding} :
    FailsAt Corrupt (commitRetirementFromLease ctx lease target) s ↔
      (Op.commitRetirementFromLease ctx lease target).StaleRetry s := by
  unfold commitRetirementFromLease Op.StaleRetry
  cases he : s.leaseEffects.lookup lease.token with
  | none =>
    cases hg : s.generations.lookup lease.binding with
    | none =>
      simp [he, hg, failsAt_exactActiveLeaseLocked_bind]
      grind [isCurrentLocked_iff]
    | some r =>
      simp [he, hg, failsAt_exactActiveLeaseLocked_bind]
      grind [isCurrentLocked_iff]
  | some e =>
    obtain ⟨-, l, hl, -, hok⟩ := h.effects.effect he
    cases hg : s.generations.lookup lease.binding with
    | none =>
      simp [he, hg]
      grind
    | some r =>
      have := h.generations.retired hg
      simp [he, hg]
      grind

theorem commitCutover_corrupt (h : WF s) {fence : CutoverFence}
    {targetBlob targetMetadata : Bytes} :
    FailsAt Corrupt (commitCutover ctx fence targetBlob targetMetadata) s ↔
      (Op.commitCutover ctx fence targetBlob targetMetadata).StaleRetry s := by
  unfold commitCutover Op.StaleRetry
  cases hc : s.cutoversByToken.lookup fence.token with
  | none => simp [hc]
  | some c =>
    by_cases hf : c.fence = fence
    · subst hf
      cases hst : c.state with
      | committed =>
        have hok := h.cutovers.state hc
        simp only [CutoverStateOk, hst] at hok
        obtain ⟨-, -, -, -, r, hr, -⟩ := hok
        simp [hc, hst, hr, h.status_iff hr, and_assoc]
      | active =>
        cases hg : s.generations.lookup c.fence.source <;>
          simp [hc, hst, hg] <;> grind [isCurrentLocked_iff]
      | aborted => simp [hc, hst]
    · simp [hc, hf]

theorem commitInitialGenerationFromLease_corrupt (h : WF s) {child : GenerationBinding}
    {childBlob childMetadata : Bytes} :
    FailsAt Corrupt (commitInitialGenerationFromLease ctx lease child childBlob childMetadata) s ↔
      (Op.commitInitialGenerationFromLease ctx lease child childBlob childMetadata).StaleRetry
        s := by
  unfold commitInitialGenerationFromLease Op.StaleRetry
  cases he : s.leaseEffects.lookup lease.token with
  | none => simp [he, failsAt_exactActiveLeaseLocked_bind]
  | some e =>
    cases hg : s.generations.lookup child with
    | none =>
      simp [he, hg]
      grind
    | some r =>
      simp [he, hg, ← h.status_iff hg]
      grind

theorem commitInitialGenerationFromReshareLease_corrupt (h : WF s) {target : GenerationBinding}
    {targetBlob targetMetadata : Bytes} :
    FailsAt Corrupt
        (commitInitialGenerationFromReshareLease ctx lease target targetBlob targetMetadata) s ↔
      (Op.commitInitialGenerationFromReshareLease ctx lease target targetBlob
        targetMetadata).StaleRetry s := by
  unfold commitInitialGenerationFromReshareLease Op.StaleRetry
  cases he : s.leaseEffects.lookup lease.token with
  | none =>
    cases ha : s.reshareReceivers.lookup lease.token <;>
      simp [he, ha, failsAt_exactActiveLeaseLocked_bind]
  | some e =>
    -- a lease with an effect is terminal, so it has no anchor left
    have hanchor : lease.token ∉ s.reshareReceivers := by
      intro hmem
      obtain ⟨a, ha⟩ := Finmap.mem_iff.mp hmem
      obtain ⟨-, l, hl, hst, -⟩ := h.effects.effect he
      obtain ⟨-, l', hl', hact, -⟩ := h.receivers.anchor ha
      exact hst (Option.some.inj (hl'.symm.trans hl) ▸ hact)
    cases hg : s.generations.lookup target with
    | none =>
      simp [he, hg]
      grind
    | some r =>
      simp [he, hg, hanchor, ← h.status_iff hg]
      grind

/-! ## Every call -/

theorem Op.call_corrupt (h : WF s) (op : Op) : FailsAt Corrupt op.call s ↔ op.StaleRetry s := by
  cases op <;> simp only [Op.call, failsAt_map]
  case installInitialGeneration => exact iff_of_false installInitialGeneration_sound id
  case loadCurrentGeneration => exact iff_of_false (loadCurrentGeneration_sound h) id
  case acquireRunLease => exact iff_of_false (acquireRunLease_sound h) id
  case acquireReshareReceiverLease => exact iff_of_false acquireReshareReceiverLease_sound id
  case queryRunLease => exact iff_of_false (queryRunLease_sound h) id
  case finishRunLease => exact iff_of_false finishRunLease_sound id
  case markProtocolRefreshFailed => exact markProtocolRefreshFailed_corrupt
  case commitAvailablePresignFromLease => exact commitAvailablePresignFromLease_corrupt h
  case preparePresignCandidate => exact iff_of_false preparePresignCandidate_sound id
  case commitSignAttempt => exact iff_of_false (commitSignAttempt_sound h) id
  case queryAttemptOutcome => exact iff_of_false queryAttemptOutcome_sound id
  case markAttemptDelivered => exact iff_of_false recordAttemptProgress_sound id
  case completeAttempt => exact iff_of_false recordAttemptProgress_sound id
  case abortAttempt => exact iff_of_false (abortAttempt_sound h) id
  case burnPresign => exact iff_of_false burnPresign_sound id
  case beginCutover => exact iff_of_false (beginCutover_sound h) id
  case beginCutoverFromLease => exact beginCutoverFromLease_corrupt h
  case commitRetirementFromLease => exact commitRetirementFromLease_corrupt h
  case commitCutover => exact commitCutover_corrupt h
  case abortCutover => exact iff_of_false abortCutover_sound id
  case commitInitialGenerationFromLease => exact commitInitialGenerationFromLease_corrupt h
  case commitInitialGenerationFromReshareLease =>
    exact commitInitialGenerationFromReshareLease_corrupt h

/-- In every reachable store, the calls that do not report corruption are those
that are no stale retry. -/
theorem no_corruption_iff_not_staleRetry (ops : List Op) (op : Op) :
    (∀ detail, (step (runOps newMemoryLifecycleStore ops) op).1 ≠
        .error (.lifecycleCorrupt detail)) ↔
      ¬ op.StaleRetry (runOps newMemoryLifecycleStore ops) := by
  rw [← Op.call_corrupt (runOps_wf WF.new ops)]
  constructor
  · rintro hno ⟨_, hd, detail, rfl⟩
    exact hno detail hd
  · rintro hno detail hd
    exact hno ⟨_, hd, detail, rfl⟩

end StaleRetries

/-! ## A stale retry -/

/-- Three generations of one key. -/
def sampleBinding (n : UInt8) : GenerationBinding :=
  ⟨lit "key", [0x30 + n], Vector.replicate 32 n⟩

/-- Install generation 1, cut over to 2, then to 3. -/
def twoCutovers : List Op :=
  [.installInitialGeneration none (sampleBinding 1) [1] [],
   .beginCutover none (sampleBinding 1) (sampleBinding 2),
   .commitCutover none ⟨1, sampleBinding 1, sampleBinding 2⟩ [2] [],
   .beginCutover none (sampleBinding 2) (sampleBinding 3),
   .commitCutover none ⟨2, sampleBinding 2, sampleBinding 3⟩ [3] []]

/-- An exact retry of the first commit, after the second, reports corruption. -/
theorem commitCutover_retry_reports_corruption :
    letI := Sha256.firstBytes
    (Run.outputs step newMemoryLifecycleStore twoCutovers).all (fun o => o.toBool) = true ∧
      (step (runOps newMemoryLifecycleStore twoCutovers)
        (.commitCutover none ⟨1, sampleBinding 1, sampleBinding 2⟩ [2] [])).1 =
          .error errLifecycleCorrupt := by
  decide +kernel

end Tss.Lifecycle
