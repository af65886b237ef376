import Tss.Lifecycle.Machine
import Tss.Lifecycle.Atomicity
import Tss.Lifecycle.Preservation

/-!
# Every call keeps the invariant

One lemma per operation that writes: a successful call is a chain of
elementary changes. With the failing calls, which change nothing, that
makes every store a run reaches well formed and a later state of every
store the run passed through.
-/

namespace Tss.Lifecycle

open Proc MemoryLifecycleStore

variable [Sha256] {s t : MemoryLifecycleStore} {ctx : Context}

/-! ## Generations and leases -/

variable {binding : GenerationBinding}

theorem installInitialGeneration_advances (h : WF s) {blob metadata : Bytes} {r : GenerationRecord}
    (hok : exec (installInitialGeneration ctx binding blob metadata) s = (.ok r, t)) :
    Advances s t := by
  obtain ⟨-, hv, hblob, -, -, -, ⟨-, -, -, -, -, rfl⟩ | ⟨hcur, hgen, hact, rfl, rfl⟩⟩ :=
    installInitialGeneration_ok.mp hok
  · exact .refl h
  · rw [hasGenerationForKeyLocked_eq_false] at hgen
    rw [hasActiveLeaseForKeyLocked_eq_false] at hact
    exact h.install hv rfl (validateLifecycleBlob_required hblob) hcur
      (fun b r hb hk => absurd hk (hgen b r hb)) (hact _ _)

theorem acquireRunLease_advances (h : WF s) {kind : RunKind} {sessionID : SessionID} {r : RunLease}
    (hok : exec (acquireRunLease ctx binding kind sessionID) s = (.ok r, t)) :
    Advances s t := by
  obtain ⟨-, hv, hkind, hid, htomb, -, ⟨-, -, -, -, -, -, -, -, rfl⟩ | ⟨hsess, hadm, rfl, rfl⟩⟩ :=
    acquireRunLease_ok.mp hok
  · exact .refl h
  have hval : validateRunLease
      { token := s.nextLeaseToken + 1, binding, kind, sessionID, state := .active } = none :=
    validateRunLease_eq_none.mpr ⟨by simp, by simp, hv, hkind, hid⟩
  have hanchor : s.reshareReceivers.lookup (s.nextLeaseToken + 1) = none := by
    cases ha : s.reshareReceivers.lookup (s.nextLeaseToken + 1) with
    | none => rfl
    | some a =>
      obtain ⟨-, l, hl, -⟩ := h.receivers.anchor ha
      rw [h.leases.fresh (by omega)] at hl
      cases hl
  rcases runLeaseAdmission_eq_none.mp hadm with ⟨rfl, hcur, hgen, hact⟩ | ⟨hne, hiscur, hfen, hinc⟩
  · rw [FMap.notMem_iff_lookup] at hcur
    rw [hasGenerationForKeyLocked_eq_false] at hgen
    rw [hasActiveLeaseForKeyLocked_eq_false] at hact
    exact h.addLease s.reshareReceivers rfl rfl hval hsess htomb (h.unfenced_of_vacant hcur)
      (fun hl hst hk => absurd hst (hact _ _ hl hk)) (fun _ _ => hgen)
      (fun _ hk => absurd rfl hk) (fun _ _ => rfl) (fun a ha => absurd (hanchor.symm.trans ha) (by simp))
  · obtain ⟨hcur, -⟩ := isCurrentLocked_iff.mp hiscur
    rw [FMap.notMem_iff_lookup] at hfen
    rw [hasIncompatibleLeaseLocked_eq_false] at hinc
    refine h.addLease s.reshareReceivers rfl rfl hval hsess htomb hfen (fun hl hst hk => ?_)
      (fun _ hk => absurd hk hne) (fun _ _ => hcur) (fun _ _ => rfl)
      (fun a ha => absurd (hanchor.symm.trans ha) (by simp))
    exact hinc _ _ hl (h.active_on_current hl hst (hk ▸ hcur)).1 hst

theorem acquireReshareReceiverLease_advances (h : WF s) {anchor : ReshareReceiverAnchor}
    {r : RunLease} (hok : exec (acquireReshareReceiverLease ctx anchor) s = (.ok r, t)) :
    Advances s t := by
  obtain ⟨-, hv, htomb, ⟨-, -, -, -, -, rfl⟩ |
    ⟨hsess, hcur, hact, hfen, -, hname, rfl, rfl⟩⟩ := acquireReshareReceiverLease_ok.mp hok
  · exact .refl h
  · rw [FMap.notMem_iff_lookup] at hcur hfen
    rw [hasActiveLeaseForKeyLocked_eq_false] at hact
    have hval : validateRunLease
        { token := s.nextLeaseToken + 1, binding := anchor.source, kind := .reshare,
          sessionID := anchor.sessionID, state := .active } = none :=
      validateRunLease_eq_none.mpr
        ⟨by simp, by simp, ReshareReceiverAnchor.validate_source hv, rfl,
          ReshareReceiverAnchor.validate_sessionID hv⟩
    refine h.addLease (s.reshareReceivers.insert (s.nextLeaseToken + 1) anchor) rfl rfl hval hsess htomb hfen (fun hl hst hk => absurd hst (hact _ _ hl hk)) ?_ ?_
      (fun x hx => Finmap.lookup_insert_of_ne _ hx) ?_
    · exact fun hnot => absurd (Finmap.mem_insert.mpr (.inl rfl)) hnot
    · exact fun hnot => absurd (Finmap.mem_insert.mpr (.inl rfl)) hnot
    · intro a ha
      obtain rfl := Option.some.inj ((Finmap.lookup_insert _).symm.trans ha)
      exact ⟨hv, rfl, rfl, rfl, hcur, hname⟩

omit [Sha256] in
theorem RunLeaseOutcome.wanted_terminal (outcome : RunLeaseOutcome) : outcome.wanted.terminal := by
  unfold RunLeaseOutcome.wanted
  split <;> trivial

variable {lease : RunLease}

theorem finishRunLease_advances (h : WF s) {outcome : RunLeaseOutcome} {u : Unit}
    (hok : exec (finishRunLease ctx lease outcome) s = (.ok u, t)) : Advances s t := by
  obtain ⟨-, -, -, stored, hl, -, ⟨-, rfl⟩ | ⟨-, hact, -, rfl⟩⟩ := finishRunLease_ok.mp hok
  · exact .refl h
  · exact h.finish _ _ hl hact outcome.wanted_terminal (Finmap.lookup_erase _ _)
      fun y hy => Finmap.lookup_erase_ne hy

/-- A lease that completes without an anchor of its own leaves the anchors alone. -/
theorem WF.complete (h : WF s) {x : Nat} {l : RunLease} (st : RunLeaseState)
    (hl : s.leasesByToken.lookup x = some l) (hact : l.state = .active) (hst : st.terminal)
    (hrecv : x ∉ s.reshareReceivers) : Advances s (s.finishLease x l st s.reshareReceivers) :=
  h.finish st _ hl hact hst (FMap.notMem_iff_lookup.mp hrecv) fun _ _ => rfl

theorem WF.not_receiver (h : WF s) {x : Nat} {l : RunLease}
    (hl : s.leasesByToken.lookup x = some l) (hk : l.kind ≠ .reshare) :
    x ∉ s.reshareReceivers := by
  rw [FMap.notMem_iff_lookup]
  cases ha : s.reshareReceivers.lookup x with
  | none => rfl
  | some a =>
    obtain ⟨-, l', hl', -, hk', -⟩ := h.receivers.anchor ha
    obtain rfl : l = l' := Option.some.inj (hl.symm.trans hl')
    exact absurd hk' hk

theorem markProtocolRefreshFailed_advances (h : WF s) {reason : GoString}
    {r : RefreshDisabledRecord}
    (hok : exec (markProtocolRefreshFailed ctx lease reason) s = (.ok r, t)) : Advances s t := by
  obtain ⟨-, -, hkind, -, hreason, ⟨-, -, -, -, -, -, -, rfl⟩ |
    ⟨heff, stored, hl, ⟨hb, hk, hs⟩, hact, hdis, rfl, rfl⟩⟩ :=
    markProtocolRefreshFailed_ok.mp hok
  · exact .refl h
  · have hrecv := h.not_receiver hl (by simp [hk, hkind])
    refine (h.complete .aborted hl hact trivial hrecv).next fun h₁ => ?_
    exact h₁.disableRefresh (l := { stored with state := .aborted }) (d :=
      { keyID := lease.binding.keyID, sessionID := lease.sessionID, reason }) heff
      (FMap.notMem_iff_lookup.mp hdis) (Finmap.lookup_insert _) rfl (hk.trans hkind)
      (by rw [hb]) hs.symm hreason

/-! ## Presigns and attempts -/

theorem commitAvailablePresignFromLease_advances (h : WF s) {presignID : GoString}
    {blob metadata : Bytes} {u : Unit}
    (hok : exec (commitAvailablePresignFromLease ctx lease presignID blob metadata) s = (.ok u, t)) :
    Advances s t := by
  obtain ⟨-, -, hkind, -, hv, hid, hblob, hmeta, -, -, ⟨-, -, -, -, -, -, -, -, -, -, rfl⟩ |
    ⟨heff, stored, hl, ⟨hb, hk, -⟩, hact, hiscur, -, hnew, hart, rfl⟩⟩ :=
    commitAvailablePresignFromLease_ok.mp hok
  · exact .refl h
  obtain ⟨hcur, -⟩ := isCurrentLocked_iff.mp hiscur
  rw [FMap.notMem_iff_lookup] at hnew
  rw [hasConflictingPresignArtifactLocked_eq_false] at hart
  have hrecv := h.not_receiver hl (by simp [hk, hkind])
  refine ((h.complete .completed hl hact trivial hrecv).next fun h₁ =>
    h₁.addPresign (p := ⟨lease.binding, blob, metadata, sha256 metadata, .available, [], []⟩)
      hnew hid hv
      ⟨hcur, validateLifecycleBlob_required hblob, validateLifecycleBlob_required hmeta,
        rfl, rfl, rfl⟩ rfl fun {id' p'} hp' => hart id' p' hp' ?_).next fun h₂ => ?_
  · rintro rfl
    exact absurd (hnew.symm.trans hp') (by simp)
  · refine h₂.addEffect heff (Finmap.lookup_insert _) (by simp) rfl ?_ nofun
    exact ⟨hk.trans hkind, rfl, rfl, rfl, hid, length_sha256 _, _, Finmap.lookup_insert _, hb.symm⟩

theorem commitSignAttempt_advances (h : WF s) {presignID : GoString} {intent : SignAttemptIntent}
    {exactOutbox : Bytes} {r : AttemptCommit}
    (hok : exec (commitSignAttempt ctx binding presignID intent exactOutbox) s = (.ok r, t)) :
    Advances s t := by
  obtain ⟨-, -, -, hv, hout, -, -, ⟨-, -, -, -, rfl⟩ |
    ⟨hnone, -, hfen, hlease, p, hp, rfl, hav, rfl, rfl⟩⟩ := commitSignAttempt_ok.mp hok
  · exact .refl h
  obtain ⟨x, l, hx, hl, hb, hk, -⟩ := hasActiveSignLeaseLocked_iff.mp hlease
  have hst := h.presigns.state hp
  rw [PresignStateOk, hav] at hst
  refine h.claim hp hav hnone rfl hv rfl rfl (length_sha256 _) ?_ rfl rfl
    ⟨x, l, hx, hl, hb, hk⟩ (FMap.notMem_iff_lookup.mp hfen)
  exact ⟨by simp, by simp, fun _ => validateLifecycleBlob_required hout,
    fun hterm => absurd hterm (by simp [SignAttemptRecord.terminal]), fun _ => rfl, hst.2.2.1⟩

theorem recordAttemptProgress_advances (h : WF s) {query : AttemptQuery} {value : Bytes}
    {kind : AttemptProgressKind} {r : SignAttemptRecord}
    (hok : exec (recordAttemptProgress ctx query value kind) s = (.ok r, t)) : Advances s t := by
  obtain ⟨-, -, hv, record, hi, -, -, ⟨-, -, -, rfl⟩ | ⟨-, rfl, rfl⟩⟩ :=
    recordAttemptProgress_ok.mp hok
  · exact .refl h
  · exact h.progress hi (validateLifecycleBlob_required hv) kind

theorem abortAttempt_advances (h : WF s) {query : AttemptQuery} {reason : GoString}
    {r : SignAttemptRecord} (hok : exec (abortAttempt ctx query reason) s = (.ok r, t)) :
    Advances s t := by
  obtain ⟨-, -, hreason, record, hi, -, ⟨-, -, -, rfl⟩ | ⟨hpend, rfl, p, hp, -, -, rfl⟩⟩ :=
    abortAttempt_ok.mp hok
  · exact .refl h
  · exact h.abortAttempt hi hpend hp hreason

theorem burnPresign_advances (h : WF s) {presignID reason : GoString} {u : Unit}
    (hok : exec (burnPresign ctx binding presignID reason) s = (.ok u, t)) :
    Advances s t := by
  obtain ⟨-, -, -, hreason, p, hp, -, ⟨-, -, rfl⟩ | ⟨hav, rfl⟩⟩ := burnPresign_ok.mp hok
  · exact .refl h
  · exact h.burn hp hav hreason

/-! ## Cutovers and installs -/

/-- Active leases of the key run on its current generation, so it is enough that
none of those is left. -/
theorem WF.idle_of_current (h : WF s) {b : GenerationBinding} {x : Nat}
    (hcur : s.current.lookup b.keyID = some b)
    (hother : ∀ y l, s.leasesByToken.lookup y = some l → y ≠ x → l.binding = b →
      l.state ≠ .active) {y : Nat} {l : RunLease} (hy : s.leasesByToken.lookup y = some l)
    (hne : y ≠ x) (hk : l.binding.keyID = b.keyID) : l.state ≠ .active := fun hact =>
  hother y l hy hne (h.active_on_current hy hact (hk ▸ hcur)).1 hact

variable {target : GenerationBinding}

theorem beginCutover_advances (h : WF s) {source : GenerationBinding} {r : CutoverFence}
    (hok : exec (beginCutover ctx source target) s = (.ok r, t)) : Advances s t := by
  obtain ⟨-, hv, ⟨-, -, -, -, -, -, -, -, rfl⟩ | ⟨hfree, hiscur, hname, hact, hquiet, rfl, rfl⟩⟩ :=
    beginCutover_ok.mp hok
  · exact .refl h
  obtain ⟨hcur, -⟩ := isCurrentLocked_iff.mp hiscur
  rw [hasKeyGenerationLocked_eq_false] at hname
  rw [hasActiveLeaseLocked_eq_false] at hact
  rw [hasNonTerminalAttemptLocked_eq_false] at hquiet
  refine h.addFence rfl (validateCutoverFence_eq_none.mpr ⟨by simp, hv⟩) hfree
    ⟨hcur, hname.2, fun {y l} hy hk hst => ?_, hquiet _ _⟩
  exact hact y l hy (h.active_on_current hy hst (hk ▸ hcur)).1 hst

theorem beginCutoverFromLease_advances (h : WF s) {r : CutoverFence}
    (hok : exec (beginCutoverFromLease ctx lease target) s = (.ok r, t)) :
    Advances s t := by
  obtain ⟨-, -, -, hkind, hv, ⟨-, -, -, -, -, -, -, -, -, -, rfl⟩ |
    ⟨heff, stored, hl, ⟨hb, hk, -⟩, hact, hfree, hiscur, hname, hother, hquiet, rfl, rfl⟩⟩ :=
    beginCutoverFromLease_ok.mp hok
  · exact .refl h
  obtain ⟨hcur, -⟩ := isCurrentLocked_iff.mp hiscur
  rw [FMap.notMem_iff_lookup] at hfree
  rw [hasKeyGenerationLocked_eq_false] at hname
  rw [hasOtherActiveLeaseLocked_eq_false] at hother
  rw [hasNonTerminalAttemptLocked_eq_false] at hquiet
  have hrecv := (h.active_on_current hl hact (hb ▸ hcur)).2
  refine ((h.complete .completed hl hact trivial hrecv).next fun h₁ =>
    h₁.addFence (f := { token := s.nextCutoverToken + 1, source := lease.binding, target }) rfl
      (validateCutoverFence_eq_none.mpr ⟨by simp, hv⟩) hfree
      ⟨hcur, hname.2, fun {y l} hy hk' => ?_, hquiet _ _⟩).next fun h₂ => ?_
  · rcases FMap.lookup_insert_eq_some.mp hy with ⟨rfl, rfl⟩ | ⟨hne, hy⟩
    · simp
    · exact h.idle_of_current hcur hother hy hne hk'
  · refine h₂.addEffect heff (Finmap.lookup_insert _) (by simp) rfl ⟨hk ▸ hkind, rfl, ?_, ?_⟩
      nofun
    · exact (validateCutoverBindings_eq_none.mp hv).2.2.1.symm.trans (by rw [hb])
    · exact ⟨_, Finmap.lookup_insert _, hb.symm, rfl⟩

theorem commitRetirementFromLease_advances (h : WF s) {u : Unit}
    (hok : exec (commitRetirementFromLease ctx lease target) s = (.ok u, t)) : Advances s t := by
  obtain ⟨-, -, hkind, -, hv, ⟨-, -, -, -, -, -, -, -, -, -, rfl⟩ |
    ⟨heff, stored, source, hl, ⟨hb, hk, -⟩, hact, hrecv, hiscur, hfree, hother, hquiet, -, hsrc,
      hlive, rfl⟩⟩ := commitRetirementFromLease_ok.mp hok
  · exact .refl h
  obtain ⟨hcur, -⟩ := isCurrentLocked_iff.mp hiscur
  rw [FMap.notMem_iff_lookup] at hfree
  rw [hasOtherActiveLeaseLocked_eq_false] at hother
  rw [hasNonTerminalAttemptLocked_eq_false] at hquiet
  refine ((h.complete .completed hl hact trivial hrecv).next fun h₁ =>
    h₁.retire hsrc hlive (fun {y l} hy hk' => ?_) (hquiet _ _) hfree).next fun h₂ => ?_
  · rcases FMap.lookup_insert_eq_some.mp hy with ⟨rfl, rfl⟩ | ⟨hne, hy⟩
    · simp
    · exact h.idle_of_current hcur hother hy hne hk'
  · refine h₂.addEffect heff (Finmap.lookup_insert _) (by simp) rfl
      ⟨hk.trans hkind, rfl, rfl, hb ▸ hv, ?_⟩ nofun
    rw [hb]
    exact ⟨_, Finmap.lookup_insert _, rfl⟩

theorem commitCutover_advances (h : WF s) {fence : CutoverFence} {targetBlob targetMetadata : Bytes}
    {r : GenerationRecord}
    (hok : exec (commitCutover ctx fence targetBlob targetMetadata) s = (.ok r, t)) :
    Advances s t := by
  obtain ⟨-, -, hblob, -, c, hc, rfl, ⟨-, -, -, -, -, rfl⟩ |
    ⟨hact, -, -, -, -, -, source, hsrc, hlive, rfl, rfl⟩⟩ := commitCutover_ok.mp hok
  · exact .refl h
  · have hst := h.cutovers.state hc
    rw [CutoverStateOk, hact] at hst
    exact h.commitFence hc hact hsrc hlive rfl rfl (validateLifecycleBlob_required hblob) rfl rfl
      hst.2.2.2.2 ⟨rfl, rfl⟩

theorem abortCutover_advances (h : WF s) {fence : CutoverFence} {reason : GoString} {u : Unit}
    (hok : exec (abortCutover ctx fence reason) s = (.ok u, t)) : Advances s t := by
  obtain ⟨-, -, hreason, c, hc, rfl, ⟨-, -, rfl⟩ | ⟨hact, -, rfl⟩⟩ := abortCutover_ok.mp hok
  · exact .refl h
  · exact h.unfence hc hact hreason

theorem commitInitialGenerationFromLease_advances (h : WF s) {child : GenerationBinding}
    {childBlob childMetadata : Bytes} {r : GenerationRecord} (hok : exec
    (commitInitialGenerationFromLease ctx lease child childBlob childMetadata) s = (.ok r, t)) :
    Advances s t := by
  obtain ⟨-, -, hkind, -, hv, hkey, hepoch, hblob, -, ⟨-, -, -, -, -, -, -, -, -, rfl⟩ |
    ⟨heff, stored, hl, ⟨hb, hk, -⟩, hact, -, -, hcur, -, hname, hidle, rfl, rfl⟩⟩ :=
    commitInitialGenerationFromLease_ok.mp hok
  · exact .refl h
  rw [FMap.notMem_iff_lookup] at hcur
  rw [hasKeyGenerationLocked_eq_false] at hname
  rw [hasActiveLeaseForKeyLocked_eq_false] at hidle
  have hrecv := h.not_receiver hl (by simp [hk, hkind])
  refine ((h.install (r := ⟨child, childBlob, childMetadata, .current⟩) hv rfl
    (validateLifecycleBlob_required hblob) hcur hname.2 (hidle _ _)).next fun h₁ =>
      h₁.complete .completed hl hact trivial hrecv).next fun h₂ => ?_
  refine h₂.addEffect heff (Finmap.lookup_insert _) (by simp) rfl
    ⟨hk.trans hkind, rfl, rfl, ?_, ?_, hv, length_sha256 _⟩ fun _ => ⟨_, Finmap.lookup_insert _⟩
  · rw [hb]
    exact hkey
  · rw [hb]
    exact hepoch

theorem commitInitialGenerationFromReshareLease_advances (h : WF s)
    {targetBlob targetMetadata : Bytes} {r : GenerationRecord} (hok : exec
    (commitInitialGenerationFromReshareLease ctx lease target targetBlob targetMetadata) s = (.ok r,
    t)) : Advances s t := by
  obtain ⟨-, -, hkind, -, hv, hkey, hgen, hepoch, hblob, -,
    ⟨-, -, -, -, -, -, -, -, -, -, rfl⟩ |
    ⟨heff, stored, anchor, hl, ⟨hb, hk, -⟩, hact, -, -, -, -, hcur, hidle, -, -, hname, rfl,
      rfl⟩⟩ := commitInitialGenerationFromReshareLease_ok.mp hok
  · exact .refl h
  rw [FMap.notMem_iff_lookup] at hcur
  rw [hasKeyGenerationLocked_eq_false] at hname
  rw [hasOtherActiveLeaseForKeyLocked_eq_false] at hidle
  refine ((h.finish .completed (s.reshareReceivers.erase lease.token) hl hact trivial
    (Finmap.lookup_erase _ _) fun y hy => Finmap.lookup_erase_ne hy).next fun h₁ =>
      h₁.install (r := ⟨target, targetBlob, targetMetadata, .current⟩) hv rfl
        (validateLifecycleBlob_required hblob) hcur hname.2 fun {y l} hy hk' => ?_).next
    fun h₂ => ?_
  · rcases FMap.lookup_insert_eq_some.mp hy with ⟨rfl, rfl⟩ | ⟨hne, hy⟩
    · simp
    · exact hidle y l hy hne hk'
  · refine h₂.addEffect heff (Finmap.lookup_insert _) (by simp) rfl ⟨hk.trans hkind, rfl, rfl, ?_,
      ?_, ?_, hv, length_sha256 _, _, Finmap.lookup_insert _⟩ nofun <;> rw [hb]
    · exact hkey
    · exact hgen
    · exact hepoch

/-! ## Calls and runs -/

theorem Op.call_clean (h : WF s) (op : Op) : CleanAt op.call s := by
  cases op with
  | installInitialGeneration => exact (cleanAt_map ..).mpr installInitialGeneration_clean
  | loadCurrentGeneration => exact (cleanAt_map ..).mpr loadCurrentGeneration_clean
  | acquireRunLease => exact (cleanAt_map ..).mpr acquireRunLease_clean
  | acquireReshareReceiverLease => exact (cleanAt_map ..).mpr acquireReshareReceiverLease_clean
  | queryRunLease => exact (cleanAt_map ..).mpr queryRunLease_clean
  | finishRunLease => exact (cleanAt_map ..).mpr finishRunLease_clean
  | markProtocolRefreshFailed => exact (cleanAt_map ..).mpr markProtocolRefreshFailed_clean
  | commitAvailablePresignFromLease =>
    exact (cleanAt_map ..).mpr commitAvailablePresignFromLease_clean
  | preparePresignCandidate => exact (cleanAt_map ..).mpr preparePresignCandidate_clean
  | commitSignAttempt => exact (cleanAt_map ..).mpr commitSignAttempt_clean
  | queryAttemptOutcome => exact (cleanAt_map ..).mpr queryAttemptOutcome_clean
  | markAttemptDelivered => exact (cleanAt_map ..).mpr recordAttemptProgress_clean
  | completeAttempt => exact (cleanAt_map ..).mpr recordAttemptProgress_clean
  | abortAttempt => exact (cleanAt_map ..).mpr (abortAttempt_clean h)
  | burnPresign => exact (cleanAt_map ..).mpr burnPresign_clean
  | beginCutover => exact (cleanAt_map ..).mpr beginCutover_clean
  | beginCutoverFromLease => exact (cleanAt_map ..).mpr beginCutoverFromLease_clean
  | commitRetirementFromLease => exact (cleanAt_map ..).mpr commitRetirementFromLease_clean
  | commitCutover => exact (cleanAt_map ..).mpr commitCutover_clean
  | abortCutover => exact (cleanAt_map ..).mpr abortCutover_clean
  | commitInitialGenerationFromLease =>
    exact (cleanAt_map ..).mpr commitInitialGenerationFromLease_clean
  | commitInitialGenerationFromReshareLease =>
    exact (cleanAt_map ..).mpr commitInitialGenerationFromReshareLease_clean

theorem Op.call_advances (h : WF s) {op : Op} {r : Response}
    (hok : exec op.call s = (.ok r, t)) : Advances s t := by
  cases op <;> obtain ⟨a, ha, -⟩ := exec_map_ok.mp hok
  case installInitialGeneration => exact installInitialGeneration_advances h ha
  case loadCurrentGeneration =>
    obtain ⟨-, -, -, -, -, -, rfl⟩ := loadCurrentGeneration_ok.mp ha
    exact .refl h
  case acquireRunLease => exact acquireRunLease_advances h ha
  case acquireReshareReceiverLease => exact acquireReshareReceiverLease_advances h ha
  case queryRunLease =>
    obtain ⟨-, -, -, -, -, -, -, -, -, -, -, rfl⟩ := queryRunLease_ok.mp ha
    exact .refl h
  case finishRunLease => exact finishRunLease_advances h ha
  case markProtocolRefreshFailed => exact markProtocolRefreshFailed_advances h ha
  case commitAvailablePresignFromLease => exact commitAvailablePresignFromLease_advances h ha
  case preparePresignCandidate =>
    obtain ⟨-, -, -, -, -, -, -, -, -, -, rfl⟩ := preparePresignCandidate_ok.mp ha
    exact .refl h
  case commitSignAttempt => exact commitSignAttempt_advances h ha
  case queryAttemptOutcome =>
    obtain ⟨-, -, -, -, -, rfl⟩ := queryAttemptOutcome_ok.mp ha
    exact .refl h
  case markAttemptDelivered => exact recordAttemptProgress_advances h ha
  case completeAttempt => exact recordAttemptProgress_advances h ha
  case abortAttempt => exact abortAttempt_advances h ha
  case burnPresign => exact burnPresign_advances h ha
  case beginCutover => exact beginCutover_advances h ha
  case beginCutoverFromLease => exact beginCutoverFromLease_advances h ha
  case commitRetirementFromLease => exact commitRetirementFromLease_advances h ha
  case commitCutover => exact commitCutover_advances h ha
  case abortCutover => exact abortCutover_advances h ha
  case commitInitialGenerationFromLease => exact commitInitialGenerationFromLease_advances h ha
  case commitInitialGenerationFromReshareLease =>
    exact commitInitialGenerationFromReshareLease_advances h ha

theorem step_failed (h : WF s) {op : Op} {e : LifecycleError} (hfail : step s op = (.error e, t)) :
    t = s :=
  op.call_clean h e t hfail

theorem step_advances (h : WF s) (op : Op) : Advances s (step s op).2 := by
  rcases hr : step s op with ⟨e | r, t⟩
  · obtain rfl := step_failed h hr
    exact .refl h
  · exact Op.call_advances h hr

theorem runOps_wf (h : WF s) (ops : List Op) : WF (runOps s ops) :=
  Run.final_inv WF (fun _ op h => (step_advances h op).wf) h ops

theorem runOps_evolves (h : WF s) (ops : List Op) : Evolves s (runOps s ops) :=
  Run.final_rel WF Evolves (fun _ op h => (step_advances h op).wf) .refl (fun _ _ _ => .trans)
    (fun _ op h => (step_advances h op).evolves) h ops

end Tss.Lifecycle
