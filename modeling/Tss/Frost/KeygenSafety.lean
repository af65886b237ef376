import Tss.Frost.KeygenSession
import Tss.Frost.SigningSafety

/-!
# Safety of the key generation session

A failed `Handle` leaves the session as it was or aborts it. Every failure
after a message is accepted must be one that aborts. Only a mismatch of plan
hashes is not, and `PlanBound` excludes it: a session keeps nothing that was
made for another plan.
-/

set_option linter.unusedSectionVars false

namespace Tss.Frost

open Edwards25519 Fallible Wire

section Safety

variable {F G : Type} [Field F] [DecidableEq F] [AddCommGroup G] [DecidableEq G] [Module F G]
  [Edwards25519 F G] [Sha256]

/-! ## Errors of the local checks -/

theorem aggregateChainCode_inert (parties : PartySet) (chainCodes : FMap PartyID Bytes) :
    ErrorsIn GoError.Inert (aggregateChainCode parties chainCodes) :=
  .foldlM fun _ _ _ => .guard ⟨rfl, rfl⟩ (.ok _)

theorem validateCommitments_inert (first : Bool) (points : List G) :
    ErrorsIn GoError.Inert (validateCommitments first points) :=
  .guard ⟨rfl, rfl⟩ (.rejectIf ⟨rfl, rfl⟩)

theorem ThresholdLimits.validateThreshold_inert (l : ThresholdLimits) (threshold n : Nat) :
    ErrorsIn GoError.Inert (l.validateThreshold threshold n) :=
  .rejectIf ⟨rfl, rfl⟩

theorem validateStrictSortedIDs_inert (ids : PartySet) (f : String → GoError)
    (hf : ∀ text, (f text).Inert) :
    ErrorsIn GoError.Inert ((validateStrictSortedIDs ids).mapError f) :=
  .mapError fun text _ => hf text

/-- Confirmations for the same plan are compared without an error about the plan. -/
theorem compareBinding_inert {reference c : KeygenConfirmation G}
    (hplan : c.planHash = reference.planHash) :
    ErrorsIn GoError.Inert (compareKeygenConfirmationBindingFields reference c) := by
  iterate 6 refine .guard ⟨rfl, rfl⟩ ?_
  exact .rejectIf_of fun hne => absurd hplan hne

theorem verifyBindingListFrom_inert {reference : KeygenConfirmation G} (i : Nat)
    (seen : List PartyID) (parties : PartySet) {confirmations : List (KeygenConfirmation G)}
    (hplan : ∀ c ∈ confirmations, c.planHash = reference.planHash) :
    ErrorsIn GoError.Inert (verifyBindingListFrom reference i seen parties confirmations) := by
  induction confirmations generalizing i seen parties with
  | nil =>
    cases parties with
    | nil => exact .ok _
    | cons => exact .ok _
  | cons c confirmations ih =>
    cases parties with
    | nil => exact .ok _
    | cons expected parties =>
      obtain ⟨hc, hrest⟩ := List.forall_mem_cons.mp hplan
      iterate 2 refine .guard ⟨rfl, rfl⟩ ?_
      exact .bind (compareBinding_inert hc) fun _ _ => ih _ _ _ hrest

theorem verifyBindingList_inert {reference : KeygenConfirmation G} (parties : PartySet)
    {confirmations : List (KeygenConfirmation G)}
    (hplan : ∀ c ∈ confirmations, c.planHash = reference.planHash) :
    ErrorsIn GoError.Inert
      (verifyKeygenConfirmationBindingList parties reference confirmations) :=
  .bind (.rejectIf ⟨rfl, rfl⟩) fun _ _ => verifyBindingListFrom_inert _ _ _ hplan

namespace KeyShareState

theorem checkPartyDataKeys_inert (k : KeyShareState F G) :
    ErrorsIn GoError.Inert k.checkPartyDataKeys := by
  refine .bind (.rejectIf ⟨rfl, rfl⟩) fun _ _ => .forM fun id _ => ?_
  iterate 2 refine .guard ⟨rfl, rfl⟩ ?_
  split
  · exact .ok _
  · exact .rejectIf ⟨rfl, rfl⟩

theorem validateWithoutConfirmations_inert (k : KeyShareState F G) :
    ErrorsIn GoError.Inert k.validateWithoutConfirmations := by
  iterate 2 refine .guard ⟨rfl, rfl⟩ ?_
  refine .bind (validateStrictSortedIDs_inert _ _ fun _ => ⟨rfl, rfl⟩) fun _ _ => ?_
  refine .guard ⟨rfl, rfl⟩ ?_
  refine .bind (checkPartyDataKeys_inert k) fun _ _ => ?_
  iterate 4 refine .guard ⟨rfl, rfl⟩ ?_
  exact .mapError fun e he =>
    ⟨(validateCommitments_inert _ _ e he).plain, (validateCommitments_inert _ _ e he).notPlan⟩

theorem validateResourceLimits_inert (limits : Limits) (k : KeyShareState F G) :
    ErrorsIn GoError.Inert (k.validateResourceLimits limits) := by
  iterate 5 refine .guard ⟨rfl, rfl⟩ ?_
  exact .rejectIf ⟨rfl, rfl⟩

/-- Every confirmation the key keeps was made for its plan. -/
def PlanBound (k : KeyShareState F G) : Prop :=
  ∀ id c, k.confirmations.lookup id = some c → c.planHash = k.planHash

variable {k : KeyShareState F G} {confirmations : List (KeygenConfirmation G)}

theorem verifyAggregate_inert (hplan : ∀ c ∈ confirmations, c.planHash = k.planHash) :
    ErrorsIn GoError.Inert (k.verifyConfirmationSetAggregateChainCode confirmations) := by
  refine .bind (verifyBindingList_inert _ hplan) fun _ _ => ?_
  split
  · refine .bind (.mapError fun e he => ?_) fun _ _ => .rejectIf ⟨rfl, rfl⟩
    exact ⟨(aggregateChainCode_inert _ _ e he).plain, (aggregateChainCode_inert _ _ e he).notPlan⟩
  · exact .forM fun _ _ => .rejectIf ⟨rfl, rfl⟩

theorem mem_orderedConfirmations (h : k.parties.mapM k.orderedConfirmation = .ok confirmations)
    (hplan : k.PlanBound) :
    ∀ c ∈ confirmations, c.planHash = k.planHash := by
  intro c hc
  obtain ⟨id, hid, hlookup⟩ := mapM_mem_ok h c hc
  unfold orderedConfirmation at hlookup
  split at hlookup
  · cases hlookup
  · next c' hc' =>
    obtain ⟨-, hlookup⟩ := seq_eq_ok.mp hlookup
    cases hlookup
    exact hplan id c hc'

theorem validateConfirmationSet_inert (hplan : k.PlanBound) :
    ErrorsIn GoError.Inert k.validateConfirmationSet := by
  refine .bind (validateWithoutConfirmations_inert k) fun _ _ => ?_
  refine .guard ⟨rfl, rfl⟩ ?_
  refine .bind (.mapM fun id _ => ?_) fun confirmations hordered => ?_
  · unfold orderedConfirmation
    split
    · exact .error ⟨rfl, rfl⟩
    · exact .guard ⟨rfl, rfl⟩ (.ok _)
  · refine .mapError fun e he => ?_
    have hinert := verifyAggregate_inert (mem_orderedConfirmations hordered hplan) e he
    exact ⟨hinert.plain, hinert.notPlan⟩

theorem validateWithLimits_inert (hplan : k.PlanBound) (limits : Limits) :
    ErrorsIn GoError.Inert (k.validateWithLimits limits) := by
  refine .bind (validateResourceLimits_inert limits k) fun _ _ => ?_
  refine .bind (limits.threshold.validateThreshold_inert _ _) fun _ _ => ?_
  refine .bind (validateConfirmationSet_inert hplan) fun _ _ => ?_
  refine .bind (validateWithoutConfirmations_inert k) fun _ _ => ?_
  exact .mapError fun e _ => by cases e <;> exact ⟨rfl, rfl⟩

/-- Confirmations for the plan of the key are attached to it. -/
theorem planBound_attach {k' : KeyShareState F G}
    (hplan : ∀ c ∈ confirmations, c.planHash = k.planHash) (hk : k.PlanBound)
    (h : confirmations.foldlM attachConfirmation k = .ok k') : k'.PlanBound := by
  induction confirmations generalizing k with
  | nil =>
    cases h
    exact hk
  | cons c confirmations ih =>
    rw [List.foldlM_cons] at h
    obtain ⟨k₁, hk₁, h⟩ := bind_eq_ok.mp h
    obtain ⟨-, hk₁⟩ := seq_eq_ok.mp hk₁
    cases hk₁
    obtain ⟨hc, hrest⟩ := List.forall_mem_cons.mp hplan
    refine ih (k := { k with confirmations := k.confirmations.insert c.sender c }) hrest
      (fun id c' hlookup => ?_) h
    rcases FMap.lookup_insert_eq_some.mp hlookup with ⟨-, rfl⟩ | ⟨-, hlookup⟩
    · exact hc
    · exact hk id c' hlookup

theorem applyConfirmationSet_inert (hplan : ∀ c ∈ confirmations, c.planHash = k.planHash) :
    ErrorsIn GoError.Inert (k.applyConfirmationSet confirmations) := by
  refine .bind (.mapError fun e he => ?_) fun _ _ => ?_
  · exact ⟨(validateWithoutConfirmations_inert k e he).plain,
      (validateWithoutConfirmations_inert k e he).notPlan⟩
  · refine .bind (verifyBindingList_inert _ hplan) fun _ _ => ?_
    exact .foldlM fun _ _ _ => .guard ⟨rfl, rfl⟩ (.ok _)

end KeyShareState

/-! ## Errors of the rounds -/

theorem verifyCommitmentShare_inert (points : List G) (id : PartyID) (share : F) :
    ErrorsIn GoError.Inert (verifyCommitmentShare points id share) := by
  unfold verifyCommitmentShare
  split
  · exact .error ⟨rfl, rfl⟩
  · exact .rejectIf ⟨rfl, rfl⟩

/-- A share that does not verify blames its dealer, and the session aborts. -/
theorem shareBlame_terminal (points : List G) (id dealer : PartyID) (share : F) :
    ErrorsIn Terminal ((verifyCommitmentShare points id share).mapError
      (shareBlameError dealer)) :=
  .mapError fun e he =>
    .of_verification (verifyCommitmentShare_inert points id share e he).notPlan _ _ _

theorem SchnorrProof.validate_plain (p : SchnorrProof) :
    ErrorsIn GoError.Plain (p.validate G) := by
  have hpoint : ErrorsIn GoError.Plain
      (semanticPointFromBytes p.commitment : Except GoError (SemanticPoint G)) := by
    refine .bind (.guard rfl ?_) fun _ _ => ?_
    · split
      · exact .error rfl
      · exact .guard rfl (.ok _)
    · split
      · exact .error rfl
      · exact .ok _
  refine .bind (.mapError fun e he => hpoint e he) fun _ _ => ?_
  refine .bind (.mapError fun e he => ?_) fun _ _ => .ok _
  unfold scalarFromCanonicalBytes at he
  split at he
  · cases he
    rfl
  · cases he

theorem SchnorrProof.marshal_plain (p : SchnorrProof) : ErrorsIn GoError.Plain (p.marshal G) := by
  refine .bind (.mapError fun e he => validate_plain p e he) fun _ _ => ?_
  refine .bind ?_ fun _ _ => Schema.marshal_plain _ _
  refine .bind (.mapError fun e he => ?_) fun _ _ => ?_
  · obtain ⟨-, rfl⟩ := rejectIf_eq_error.mp he
    rfl
  · refine .bind (.mapError fun e he => ?_) fun _ _ => .ok _
    obtain ⟨-, rfl⟩ := rejectIf_eq_error.mp he
    rfl

theorem KeygenConfirmation.validate_plain (c : KeygenConfirmation G) :
    ErrorsIn GoError.Plain c.validate := by
  iterate 8 refine .guard rfl ?_
  exact .bind (.mapError fun _ _ => rfl) fun _ _ => .rejectIf rfl

theorem KeygenConfirmation.marshal_plain (limits : Limits) (c : KeygenConfirmation G) :
    ErrorsIn GoError.Plain (c.marshal limits) := by
  refine .bind ?_ fun _ _ => ?_
  · iterate 2 refine .guard rfl ?_
    refine .bind (.mapError fun e he => ?_) fun _ _ => validate_plain c
    exact (limits.threshold.validateThreshold_inert _ _ e he).plain
  · refine .guard rfl ?_
    refine .bind (.mapError fun e he => ?_) fun _ _ => Schema.marshal_plain _ _
    have hlimit : ErrorsIn GoError.Plain
        (checkUint32ListLimit limits.threshold.maxParties c.parties.length) :=
      .guard rfl (.rejectIf rfl)
    exact hlimit e he

namespace KeygenSession

theorem slot_plain (s : KeygenSession F G) (id : PartyID) : ErrorsIn GoError.Plain (s.slot id) := by
  unfold slot
  split
  · exact .error rfl
  · exact .ok _

theorem commitmentsReady_plain (s : KeygenSession F G) (ids : PartySet) :
    ErrorsIn GoError.Plain (s.commitmentsReady ids) := by
  induction ids with
  | nil => exact .ok _
  | cons id ids ih =>
    unfold commitmentsReady
    split
    · exact .error rfl
    · split
      · exact .ok _
      · exact ih

theorem round1Snapshot_plain (s : KeygenSession F G) (ids : PartySet) :
    ErrorsIn GoError.Plain (s.round1Snapshot ids) := by
  induction ids with
  | nil => exact .ok _
  | cons id ids ih =>
    unfold round1Snapshot
    split
    · exact .error rfl
    · refine .bind ih fun snap _ => ?_
      cases snap with
      | none => exact .ok _
      | some => exact .ok _
    · exact .ok _

theorem confirmationSnapshot_plain (s : KeygenSession F G) (ids : PartySet) :
    ErrorsIn GoError.Plain (s.confirmationSnapshot ids) := by
  induction ids with
  | nil => exact .ok _
  | cons id ids ih =>
    unfold confirmationSnapshot
    split
    · exact .ok _
    · split
      · exact .error rfl
      · refine .bind ih fun snap _ => ?_
        cases snap with
        | none => exact .ok _
        | some => exact .ok _

theorem verifyAvailableShare_terminal (s : KeygenSession F G) (id : PartyID) :
    ErrorsIn Terminal (s.verifyAvailableShare id) := by
  refine .bind ((slot_plain s id).imp fun _ => .of_plain) fun slot _ => ?_
  split
  · exact .ok _
  · refine .error fun r => ?_
    simp [terminalApplyError, shouldAbortSession, GoError.newProtocolError]
  · exact shareBlame_terminal _ _ _ _

theorem emitFROSTKeygenRound2_plain (s : KeygenSession F G) :
    ErrorsIn GoError.Plain s.emitFROSTKeygenRound2 := by
  unfold emitFROSTKeygenRound2
  split
  · exact .error rfl
  · refine .mapM fun id _ => ?_
    refine .bind (.bind (.rejectIf rfl) fun _ _ => Schema.marshal_plain _ _) fun _ _ => ?_
    exact newEnvelope_plain _ _ _ _ _ _ _

theorem pointAt_inert (points : List G) (i : Nat) : ErrorsIn GoError.Inert (pointAt points i) := by
  unfold pointAt
  split
  · exact .ok _
  · exact .error ⟨rfl, rfl⟩

theorem aggregateCommitments_inert (threshold : Nat) (commitments : List (List G)) :
    ErrorsIn GoError.Inert (aggregateFROSTKeygenCommitments threshold commitments) := by
  refine .bind (.mapM fun degree _ => ?_) fun points _ => ?_
  · exact .bind (.mapM fun c _ => pointAt_inert c degree) fun _ _ => .ok _
  · have hgroup : ErrorsIn GoError.Inert (newGroupCommitments points threshold) := by
      iterate 2 refine .guard ⟨rfl, rfl⟩ ?_
      split
      · exact .error ⟨rfl, rfl⟩
      · exact .ok _
    exact .mapError fun e he => ⟨(hgroup e he).plain, (hgroup e he).notPlan⟩

theorem deriveShares_inert (parties : PartySet) (group : List G) :
    ErrorsIn GoError.Inert (deriveFROSTVerificationShares (F := F) parties group) := by
  refine .mapM fun id _ => .bind ?_ fun _ _ => .ok _
  unfold evalGroupCommitments
  split
  · exact .error ⟨rfl, rfl⟩
  · split
    · exact .error ⟨rfl, rfl⟩
    · exact .ok _

theorem buildTranscriptHash_plain (s : KeygenSession F G) (snap : List (SnapshotEntry F G))
    (group : List G) (shares : List (PartyID × SemanticPoint G)) :
    ErrorsIn GoError.Plain (s.buildTranscriptHash snap group shares) := by
  refine .bind (.mapM fun entry _ => ?_) fun _ _ => ?_
  · refine .bind (.mapError fun e he => ?_) fun _ _ => .ok _
    exact entry.dealing.proof.marshal_plain (G := G) e he
  · exact .bind ((aggregateChainCode_inert _ _).imp fun _ h => h.plain) fun _ _ => .ok _

/-- An aggregate that is no key aborts the session without blame. -/
theorem aggregateError_terminal {α : Type} {x : Except GoError α} (hx : ErrorsIn GoError.Inert x)
    (text : String) : ErrorsIn Terminal (x.mapError (aggregateError text)) := by
  refine .mapError fun e he => ?_
  have hquiet : (GoError.wrap text [] e).is .planHashMismatch = false := (hx e he).notPlan
  exact .of_verification hquiet _ _ _

theorem preparePendingKeyMaterial_terminal (s : KeygenSession F G)
    (snap : List (SnapshotEntry F G)) : ErrorsIn Terminal (s.preparePendingKeyMaterial snap) := by
  refine .guard (.of_plain rfl) ?_
  split
  · exact .error (.of_plain rfl)
  · refine .bind (.forM fun entry _ => shareBlame_terminal _ _ _ _) fun _ _ => ?_
    refine .bind (aggregateError_terminal (aggregateCommitments_inert _ _) _) fun p _ => ?_
    obtain ⟨publicKey, group⟩ := p
    refine .guard (.of_plain rfl) ?_
    refine .bind (aggregateError_terminal (deriveShares_inert _ _) _) fun shares _ => ?_
    refine ErrorsIn.imp (P := GoError.Plain) ?_ fun _ => Terminal.of_plain
    refine .bind (buildTranscriptHash_plain s snap group shares) fun _ _ => ?_
    refine .bind (.guard rfl (.ok _)) fun confirmation _ => ?_
    refine .bind (confirmation.marshal_plain s.limits) fun _ _ => ?_
    exact .bind (newEnvelope_plain _ _ _ _ _ _ _) fun _ _ => .ok _

/-! ## Nothing of another plan -/

/-- What the session keeps was made for its plan. -/
structure PlanBound (s : KeygenSession F G) : Prop where
  confirmations : ∀ id c, s.confirmations.lookup id = some c → c.planHash = s.planHash
  pendingConfirmations : ∀ id c, s.pendingConfirmations.lookup id = some c →
    c.planHash = s.planHash
  pending : ∀ p, s.pending = some p → p.planHash = s.planHash

theorem mem_confirmationSnapshot {s : KeygenSession F G} {ids : PartySet}
    {snap : List (KeygenConfirmation G)} (h : s.confirmationSnapshot ids = .ok (some snap)) :
    ∀ c ∈ snap, ∃ id ∈ ids, s.confirmations.lookup id = some c := by
  induction ids generalizing snap with
  | nil =>
    cases h
    simp
  | cons id ids ih =>
    unfold confirmationSnapshot at h
    split at h
    · cases h
    · next c hc =>
      split at h
      · cases h
      · obtain ⟨rest, hrest, h⟩ := bind_eq_ok.mp h
        cases rest with
        | none => cases h
        | some rest =>
          cases h
          intro c' hc'
          rcases List.mem_cons.mp hc' with rfl | hc'
          · exact ⟨id, List.mem_cons_self, hc⟩
          · obtain ⟨id', hid', hlookup⟩ := ih hrest c' hc'
            exact ⟨id', List.mem_cons_of_mem _ hid', hlookup⟩

theorem confirmationReference_planHash {p : PendingKeyShare F G} {sender : PartyID}
    {chainCode : Bytes} {c : KeygenConfirmation G}
    (h : p.confirmationReference sender chainCode = .ok c) : c.planHash = p.planHash := by
  obtain ⟨-, h⟩ := seq_eq_ok.mp h
  cases h
  rfl

theorem verifyConfirmation_inert {p : PendingKeyShare F G} {c : KeygenConfirmation G}
    (hplan : c.planHash = p.planHash) : ErrorsIn GoError.Inert (p.verifyConfirmation c) := by
  refine .bind (.guard ⟨rfl, rfl⟩ (.ok _)) fun reference href => ?_
  exact compareBinding_inert (hplan.trans (confirmationReference_planHash href).symm)

theorem confirmationError_terminal {α : Type} {x : Except GoError α}
    (hx : ErrorsIn GoError.Inert x) (party : PartyID) :
    ErrorsIn Terminal (x.mapError (confirmationError party)) :=
  .mapError fun e he => .of_verification (hx e he).notPlan _ _ _

theorem verifyReveal_inert (sessionID : Array32) (sender : PartyID) (revealed commitment : Bytes) :
    ErrorsIn GoError.Inert (verifyReveal sessionID sender revealed commitment) :=
  .rejectIf ⟨rfl, rfl⟩

theorem buildFinalKeyShare_terminal {s : KeygenSession F G} (hbound : s.PlanBound)
    {snap : List (KeygenConfirmation G)}
    (hsnap : s.confirmationSnapshot s.cfg.parties = .ok (some snap)) :
    ErrorsIn Terminal (s.buildFinalKeyShare snap) := by
  have hplan : ∀ c ∈ snap, c.planHash = s.planHash := by
    intro c hc
    obtain ⟨id, -, hlookup⟩ := mem_confirmationSnapshot hsnap c hc
    exact hbound.confirmations id c hlookup
  unfold buildFinalKeyShare
  split
  · exact .error (.of_verification rfl _ _ _)
  · next pending hpending =>
    have hpendingPlan : pending.planHash = s.planHash := hbound.pending pending hpending
    have hset : ErrorsIn GoError.Inert (pending.verifyConfirmationSet snap) := by
      refine .bind (.guard ⟨rfl, rfl⟩ (.ok _)) fun reference href => ?_
      refine verifyBindingList_inert _ fun c hc => ?_
      rw [hplan c hc, confirmationReference_planHash href, hpendingPlan]
    refine .bind (confirmationError_terminal hset _) fun _ _ => ?_
    refine .bind (.forM fun id _ => confirmationError_terminal ?_ _) fun _ _ => ?_
    · refine .bind ?_ fun _ _ => verifyReveal_inert _ _ _ _
      unfold slot
      split
      · exact .error ⟨rfl, rfl⟩
      · exact .ok _
    · refine .bind (confirmationError_terminal (aggregateChainCode_inert _ _) _) fun _ _ => ?_
      refine .guard (.of_verification rfl _ _ _) ?_
      have hkey : ∀ c ∈ snap, c.planHash = pending.planHash :=
        fun c hc => (hplan c hc).trans hpendingPlan.symm
      refine .bind (confirmationError_terminal (KeyShareState.applyConfirmationSet_inert hkey) _)
        fun final hfinal => ?_
      rw [mapError_eq_ok] at hfinal
      iterate 2 obtain ⟨-, hfinal⟩ := seq_eq_ok.mp hfinal
      have hfinalBound : final.PlanBound :=
        KeyShareState.planBound_attach hkey (fun id c habs => by simp at habs) hfinal
      refine .bind (confirmationError_terminal ?_ _) fun _ _ => .ok _
      exact KeyShareState.validateWithLimits_inert hfinalBound s.limits

/-! ## Steps -/

/-- What a failed step leaves: an error that aborts, and a session that was still running. -/
def Failed (e : GoError) (t : KeygenSession F G) : Prop :=
  Terminal e ∧ t.completed = false ∧ t.aborted = false

/-- What a step that succeeds leaves. -/
def Kept {α : Type} (_ : α) (t : KeygenSession F G) : Prop := t.PlanBound ∧ t.aborted = false

/-- The session keeps to its plan and still runs. -/
structure Running (s : KeygenSession F G) : Prop where
  bound : s.PlanBound
  completed : s.completed = false
  aborted : s.aborted = false

variable {s : KeygenSession F G}

/-- An error before anything is written. -/
theorem Running.failed (h : s.Running) {e : GoError} (he : Terminal e) : Failed e s :=
  ⟨he, h.completed, h.aborted⟩

theorem advanceConfirmations_spec (h : s.Running) :
    Proc.Spec Failed Kept advanceConfirmations s := by
  refine .get_bind (.outcome_bind (fun e he => ?_) fun snap hsnap => ?_)
  · exact h.failed (.of_plain (confirmationSnapshot_plain s _ e he))
  · cases snap with
    | none => exact .of_pure ⟨h.bound, h.aborted⟩
    | some snap =>
      refine .outcome_bind (fun e he => ?_) fun share _ => .modify_bind (.of_pure ?_)
      · exact h.failed (buildFinalKeyShare_terminal h.bound hsnap e he)
      · exact ⟨⟨fun _ _ habs => by simp [commitFinalKeyShare] at habs,
          h.bound.pendingConfirmations, fun _ habs => by simp [commitFinalKeyShare] at habs⟩,
          h.aborted⟩

/-- The pending share and the local confirmation are made for the plan. -/
theorem preparePendingKeyMaterial_planHash {snap : List (SnapshotEntry F G)}
    {prepared : PreparedPending F G} (h : s.preparePendingKeyMaterial snap = .ok prepared) :
    prepared.pending.planHash = s.planHash ∧ prepared.confirmation.planHash = s.planHash := by
  obtain ⟨-, h⟩ := seq_eq_ok.mp h
  split at h
  · cases h
  · obtain ⟨-, h⟩ := seq_eq_ok.mp h
    obtain ⟨⟨publicKey, group⟩, -, h⟩ := bind_eq_ok.mp h
    obtain ⟨-, h⟩ := seq_eq_ok.mp h
    obtain ⟨shares, -, h⟩ := bind_eq_ok.mp h
    obtain ⟨transcriptHash, -, h⟩ := bind_eq_ok.mp h
    obtain ⟨confirmation, href, h⟩ := bind_eq_ok.mp h
    obtain ⟨encoded, -, h⟩ := bind_eq_ok.mp h
    obtain ⟨env, -, h⟩ := bind_eq_ok.mp h
    cases h
    exact ⟨rfl, confirmationReference_planHash href⟩

theorem advanceShares_spec (h : s.Running) : Proc.Spec Failed Kept advanceShares s := by
  refine .get_bind (.outcome_bind (fun e he => ?_) fun snap _ => ?_)
  · exact h.failed (.of_plain (round1Snapshot_plain s _ e he))
  · cases snap with
    | none => exact .of_pure ⟨h.bound, h.aborted⟩
    | some snap =>
      refine .outcome_bind (fun e he => ?_) fun prepared hprep => .modify_bind ?_
      · exact h.failed (preparePendingKeyMaterial_terminal s snap e he)
      · obtain ⟨hpending, hconfirmation⟩ := preparePendingKeyMaterial_planHash hprep
        have hrun : (commitPendingKeyShare prepared s).Running := by
          refine ⟨⟨fun id c hc => ?_, h.bound.pendingConfirmations, fun p hp => ?_⟩,
            h.completed, h.aborted⟩
          · rcases FMap.lookup_insert_eq_some.mp hc with ⟨-, rfl⟩ | ⟨-, hc⟩
            · exact hconfirmation
            · exact h.bound.confirmations id c hc
          · cases hp
            exact hpending
        exact .bind (advanceConfirmations_spec hrun) fun more t ht => .of_pure ht

theorem advanceCommitments_spec (h : s.Running) :
    Proc.Spec Failed Kept advanceCommitments s := by
  refine .get_bind (.outcome_bind (fun e he => ?_) fun ready _ => ?_)
  · exact h.failed (.of_plain (commitmentsReady_plain s _ e he))
  · cases ready with
    | false => exact .of_pure ⟨h.bound, h.aborted⟩
    | true =>
      refine .outcome_bind (fun e he => ?_) fun _ _ => ?_
      · have hshares : ErrorsIn Terminal (s.cfg.parties.forM s.verifyAvailableShare) :=
          .forM fun id _ => verifyAvailableShare_terminal s id
        exact h.failed (hshares e he)
      · refine .outcome_bind (fun e he => ?_) fun out _ => .modify_bind ?_
        · exact h.failed (.of_plain (emitFROSTKeygenRound2_plain s e he))
        · refine .bind (advanceShares_spec ?_) fun more t ht => .of_pure ht
          exact ⟨⟨h.bound.confirmations, h.bound.pendingConfirmations, h.bound.pending⟩,
            h.completed, h.aborted⟩

theorem tryAdvance_spec (h : s.Running) : Proc.Spec Failed Kept tryAdvance s := by
  refine .get_bind ?_
  rw [h.completed, h.aborted]
  cases s.state with
  | collectingCommitments => exact advanceCommitments_spec h
  | collectingShares => exact advanceShares_spec h
  | awaitingConfirmations => exact advanceConfirmations_spec h
  | confirmed => exact .of_pure ⟨h.bound, h.aborted⟩
  | aborted => exact .of_pure ⟨h.bound, h.aborted⟩

theorem promotePending_spec (h : s.Running) (sender : PartyID) :
    Proc.Spec Failed (fun _ t => t.Running) (promotePendingKeygenConfirmation sender) s := by
  refine .get_bind ?_
  split
  · exact .of_pure h
  · next c hc =>
    have hplan := h.bound.pendingConfirmations sender c hc
    refine .outcome_bind (fun e he => h.failed (.of_plain (slot_plain s sender e he)))
      fun slot _ => ?_
    split
    · exact .of_pure h
    · refine .outcome_bind (fun e he => ?_) fun _ _ => ?_
      · exact h.failed (confirmationError_terminal (verifyReveal_inert _ _ _ _) _ e he)
      · have hwrite : Proc.Spec Failed (fun _ t => t.Running) (modify fun s : KeygenSession F G =>
            { s with
              chainCodes := s.chainCodes.insert sender c.chainCode
              confirmations := s.confirmations.insert sender c
              pendingConfirmations := s.pendingConfirmations.erase sender }) s := by
          refine .of_modify ⟨⟨fun id c' hc' => ?_, fun id c' hc' => ?_, h.bound.pending⟩,
            h.completed, h.aborted⟩
          · rcases FMap.lookup_insert_eq_some.mp hc' with ⟨-, rfl⟩ | ⟨-, hc'⟩
            · exact hplan
            · exact h.bound.confirmations id c' hc'
          · exact h.bound.pendingConfirmations id c' (FMap.lookup_erase_eq_some.mp hc').2
        split
        · exact hwrite
        · next pending hpending =>
          refine .outcome_bind (fun e he => ?_) fun _ _ => hwrite
          have hsame : c.planHash = pending.planHash :=
            hplan.trans (h.bound.pending pending hpending).symm
          exact h.failed (confirmationError_terminal (verifyConfirmation_inert hsame) _ e he)

/-! ## What a transition was built from -/

/-- The transitions that a message leads to, with what was checked of each. -/
inductive Built (s : KeygenSession F G) (base : Envelope) : KeygenTransition F G → Prop
  | duplicate : Built s base .duplicate
  | commitments (slot : Round1Slot F G) (dealing : Dealing G)
      (hslot : s.round1.lookup base.sender = some slot) (hnone : slot.dealing = none)
      (hvalid : validateCommitmentsThreshold s.cfg.threshold true dealing.commitments = .ok ())
      (hproof : verifyFROSTKeygenProof s.cfg s.planHash base.sender dealing = .ok ())
      (himport : s.checkImportConstraint base.sender dealing = .ok ()) :
      Built s base (.acceptCommitments base.sender dealing)
  | share (slot : Round1Slot F G) (share : F) (hslot : s.round1.lookup base.sender = some slot)
      (hnone : slot.share = none)
      (hverify : ∀ d, slot.dealing = some d →
        verifyCommitmentShare d.commitments s.cfg.self share = .ok ()) :
      Built s base (.acceptShare base.sender share)
  | early (slot : Round1Slot F G) (c : KeygenConfirmation G)
      (hslot : s.round1.lookup base.sender = some slot) (hnone : slot.dealing = none)
      (hsender : c.sender = base.sender) (hplan : c.planHash = s.planHash)
      (hkept : s.pendingConfirmations.lookup base.sender = none)
      (hnew : s.confirmations.lookup base.sender = none) :
      Built s base (.acceptConfirmation base.sender c true)
  | confirmation (slot : Round1Slot F G) (dealing : Dealing G) (c : KeygenConfirmation G)
      (hslot : s.round1.lookup base.sender = some slot) (hdealt : slot.dealing = some dealing)
      (hsender : c.sender = base.sender) (hplan : c.planHash = s.planHash)
      (hkept : s.pendingConfirmations.lookup base.sender = none)
      (hnew : s.confirmations.lookup base.sender = none)
      (hreveal : verifyReveal s.cfg.sessionID base.sender c.chainCode dealing.chainCodeCommit =
        .ok ())
      (hpending : ∀ p, s.pending = some p → p.verifyConfirmation c = .ok ()) :
      Built s base (.acceptConfirmation base.sender c false)

theorem slot_eq_ok {id : PartyID} {slot : Round1Slot F G} (h : s.slot id = .ok slot) :
    s.round1.lookup id = some slot := by
  unfold KeygenSession.slot at h
  split at h
  · cases h
  · next slot' hlookup =>
    cases h
    exact hlookup

theorem requireHash_eq_ok {label : String} {got want : Bytes}
    (h : requireHash label got want = .ok ()) : got = want := by
  obtain ⟨-, h⟩ := seq_eq_ok.mp h
  simpa using h

variable {base : Envelope} {tx : KeygenTransition F G}

theorem duplicateConfirmation_eq_ok {text : String} {existing c : KeygenConfirmation G}
    (h : duplicateConfirmation base text existing c = .ok tx) : tx = .duplicate := by
  unfold duplicateConfirmation at h
  split at h
  · cases h
    rfl
  · cases h

theorem buildCommitments_built (h : s.buildAcceptKeygenCommitmentsTx base = .ok tx) :
    Built s base tx := by
  obtain ⟨⟨dealing, planHash⟩, -, h⟩ := bind_eq_ok.mp h
  obtain ⟨-, h⟩ := seq_eq_ok.mp h
  obtain ⟨hvalid, h⟩ := seq_eq_ok.mp h
  obtain ⟨hproof, h⟩ := seq_eq_ok.mp h
  obtain ⟨himport, h⟩ := seq_eq_ok.mp h
  obtain ⟨slot, hslot, h⟩ := bind_eq_ok.mp h
  rw [mapError_eq_ok] at hvalid hproof himport hslot
  split at h
  · split at h
    · cases h
      exact .duplicate
    · cases h
  · next hnone =>
    cases h
    exact .commitments slot dealing (slot_eq_ok hslot) hnone hvalid hproof himport

theorem buildShare_built (h : s.buildAcceptKeygenShareTx base = .ok tx) : Built s base tx := by
  obtain ⟨payload, -, h⟩ := bind_eq_ok.mp h
  obtain ⟨-, h⟩ := seq_eq_ok.mp h
  obtain ⟨slot, hslot, h⟩ := bind_eq_ok.mp h
  rw [mapError_eq_ok] at hslot
  split at h
  · split at h
    · cases h
      exact .duplicate
    · cases h
  · next hnone =>
    split at h
    · next hdealing =>
      cases h
      exact .share slot payload.share (slot_eq_ok hslot) hnone fun d hd => by
        rw [hdealing] at hd
        cases hd
    · next dealing hdealing =>
      obtain ⟨hverify, h⟩ := seq_eq_ok.mp h
      rw [mapError_eq_ok] at hverify
      cases h
      exact .share slot payload.share (slot_eq_ok hslot) hnone fun d hd => by
        rw [hdealing] at hd
        cases hd
        exact hverify

theorem buildConfirmation_built (h : s.buildAcceptKeygenConfirmationTx base = .ok tx) :
    Built s base tx := by
  obtain ⟨-, h⟩ := seq_eq_ok.mp h
  obtain ⟨c, -, h⟩ := bind_eq_ok.mp h
  obtain ⟨hsender, h⟩ := seq_eq_ok.mp h
  obtain ⟨hplan, h⟩ := seq_eq_ok.mp h
  rw [rejectIf_eq_ok, not_not] at hsender
  rw [mapError_eq_ok] at hplan
  have hplan := requireHash_eq_ok hplan
  split at h
  · rw [duplicateConfirmation_eq_ok h]
    exact .duplicate
  · next hkept =>
    obtain ⟨slot, hslot, h⟩ := bind_eq_ok.mp h
    rw [mapError_eq_ok] at hslot
    have hslot := slot_eq_ok hslot
    split at h
    · rw [duplicateConfirmation_eq_ok h]
      exact .duplicate
    · next hnew =>
      split at h
      · next hnone =>
        cases h
        exact .early slot c hslot hnone hsender hplan hkept hnew
      · next dealing hdealt =>
        obtain ⟨hreveal, h⟩ := seq_eq_ok.mp h
        rw [mapError_eq_ok] at hreveal
        split at h
        · next hnone =>
          cases h
          refine .confirmation slot dealing c hslot hdealt hsender hplan hkept hnew hreveal ?_
          intro p hp
          rw [hnone] at hp
          cases hp
        · next pending hpending =>
          obtain ⟨hverify, h⟩ := seq_eq_ok.mp h
          rw [mapError_eq_ok] at hverify
          cases h
          refine .confirmation slot dealing c hslot hdealt hsender hplan hkept hnew hreveal ?_
          intro p hp
          rw [hpending] at hp
          cases hp
          exact hverify

theorem build_built (h : s.build base = .ok tx) :
    Built s base tx := by
  unfold build at h
  split at h
  · exact buildConfirmation_built h
  · split at h
    · exact buildCommitments_built (seq_eq_ok.mp h).2
    · split at h
      · exact buildShare_built (seq_eq_ok.mp h).2
      · cases h

/-! ## Calls -/

/-- Errors of a step as `apply` returns them. -/
theorem Failed.aborts {e : GoError} {t : KeygenSession F G} (h : Failed e t) (round : UInt8) :
    shouldAbortSession (terminalApplyError round e) = true ∧ t.completed = false ∧
      t.aborted = false :=
  ⟨h.1 round, h.2⟩

theorem apply_spec (h : s.Running) (hbuild : s.build base = .ok tx) :
    Proc.Spec (fun e t => shouldAbortSession e = true ∧ t.completed = false ∧ t.aborted = false)
      Kept (apply tx) s := by
  cases build_built hbuild with
  | duplicate => exact .of_pure ⟨h.bound, h.aborted⟩
  | commitments slot dealing hslot =>
    have hread : s.slot base.sender = .ok slot := by rw [KeygenSession.slot, hslot]
    refine .get_bind (.outcome_bind (fun e he => ?_) fun slot' _ => .modify_bind ?_)
    · rw [hread] at he
      cases he
    · have hrun (slots : FMap PartyID (Round1Slot F G)) :
          ({ s with round1 := slots } : KeygenSession F G).Running :=
        ⟨⟨h.bound.confirmations, h.bound.pendingConfirmations, h.bound.pending⟩, h.completed,
          h.aborted⟩
      refine .bind (.mapError ((promotePending_spec (hrun _) base.sender).imp
        (fun _ _ hf => hf.aborts keygenCommitmentRound) fun _ _ => id)) fun _ t ht => ?_
      exact .mapError ((tryAdvance_spec ht).imp (fun _ _ hf => hf.aborts _) fun _ _ => id)
  | share slot share hslot =>
    have hread : s.slot base.sender = .ok slot := by rw [KeygenSession.slot, hslot]
    refine .get_bind (.outcome_bind (fun e he => ?_) fun slot' _ => .modify_bind ?_)
    · rw [hread] at he
      cases he
    · refine .mapError ((tryAdvance_spec ?_).imp (fun _ _ hf => hf.aborts _) fun _ _ => id)
      exact ⟨⟨h.bound.confirmations, h.bound.pendingConfirmations, h.bound.pending⟩, h.completed,
        h.aborted⟩
  | early slot c hslot hnone hsender hplan =>
    refine .modify_bind (.of_pure ⟨⟨h.bound.confirmations, fun id c' hc' => ?_,
      h.bound.pending⟩, h.aborted⟩)
    rcases FMap.lookup_insert_eq_some.mp hc' with ⟨-, rfl⟩ | ⟨-, hc'⟩
    · exact hplan
    · exact h.bound.pendingConfirmations id c' hc'
  | confirmation slot dealing c hslot hdealt hsender hplan =>
    refine .modify_bind (.mapError ((tryAdvance_spec ?_).imp (fun _ _ hf => hf.aborts _)
      fun _ _ => id))
    refine ⟨⟨fun id c' hc' => ?_, h.bound.pendingConfirmations, h.bound.pending⟩, h.completed,
      h.aborted⟩
    rcases FMap.lookup_insert_eq_some.mp hc' with ⟨-, rfl⟩ | ⟨-, hc'⟩
    · exact hplan
    · exact h.bound.confirmations id c' hc'

/-- The session is aborted and holds no secret and no reveal. -/
structure Cleared (s : KeygenSession F G) : Prop where
  aborted : s.aborted = true
  localMaterial : s.localMaterial = none
  shares : ∀ id slot, s.round1.lookup id = some slot → slot.share = none
  confirmations : s.confirmations = ∅
  chainCodes : s.chainCodes = ∅
  pendingConfirmations : s.pendingConfirmations = ∅
  pending : s.pending = none
  keyShare : s.keyShare = none

theorem cleared_abort (hcompleted : s.completed = false) (haborted : s.aborted = false) :
    s.abort.Cleared := by
  have habort : s.abort = _ := if_neg (by rw [haborted]; decide)
  rw [habort]
  refine ⟨rfl, rfl, fun id slot hslot => ?_, rfl, rfl, rfl, rfl, if_neg (by rw [hcompleted]; decide)⟩
  rw [destroySecrets, FMap.lookup_mapVals] at hslot
  obtain ⟨old, -, rfl⟩ := Option.map_eq_some_iff.mp hslot
  rfl

theorem planBound_abort (h : s.PlanBound) : s.abort.PlanBound := by
  unfold KeygenSession.abort
  split
  · exact h
  · exact ⟨fun _ _ habs => by simp at habs, fun _ _ habs => by simp at habs,
      fun _ habs => by simp at habs⟩

theorem planBound_step {h : Hosted (KeygenSession F G)} (hbound : h.session.PlanBound)
    (call : Call) : (step h call).2.session.PlanBound := by
  cases call with
  | handle ctx env =>
    refine SessionOps.handle_inv hbound (fun _ => planBound_abort) ?_
    intro cache tx hcompleted haborted _ hbuild
    have hspec := apply_spec ⟨hbound, hcompleted, haborted⟩ hbuild
    show (ops.settle (Proc.exec (apply tx) h.session).1
      (Proc.exec (apply tx) h.session).2).PlanBound
    rcases hexec : Proc.exec (apply tx) h.session with ⟨err | out, t⟩
    · obtain ⟨habort, hc, ha⟩ := hspec.error hexec
      have hclear := cleared_abort hc ha
      simp only [SessionOps.settle, habort, if_true]
      refine ⟨fun id c hc => ?_, fun id c hc => ?_, fun p hp => ?_⟩
      · rw [show (ops.abort t).confirmations = ∅ from hclear.confirmations] at hc
        simp at hc
      · rw [show (ops.abort t).pendingConfirmations = ∅ from hclear.pendingConfirmations] at hc
        simp at hc
      · rw [show (ops.abort t).pending = none from hclear.pending] at hp
        cases hp
    · exact (hspec.ok hexec).1
  | abort ctx reason =>
    simp only [step, abortCall]
    split
    · exact hbound
    · split
      · exact hbound
      · split
        · exact hbound
        · split
          · exact hbound
          · exact planBound_abort hbound
  | close ctx =>
    simp only [step, closeCall]
    split
    · exact hbound
    · split
      · exact hbound
      · have hs : (if (!h.session.completed && !h.session.aborted) = true then h.session.abort
            else h.session).PlanBound := by
          split
          · exact planBound_abort hbound
          · exact hbound
        exact ⟨hs.confirmations, hs.pendingConfirmations, hs.pending⟩

theorem startKeygen_planBound {cfg : ThresholdConfig} {limits : Limits} {planHash : Bytes}
    {guard : EnvelopeGuard} {c : Contribution F} {plan : Option (TrustedDealerImportPlan G)}
    {out : List Envelope} (h : startKeygen cfg limits planHash guard c plan = .ok (s, out)) :
    s.PlanBound := by
  obtain ⟨material, -, h⟩ := bind_eq_ok.mp h
  obtain ⟨payload, -, h⟩ := bind_eq_ok.mp h
  obtain ⟨env, -, h⟩ := bind_eq_ok.mp h
  have hrun : (initial cfg limits planHash guard material plan).Running :=
    ⟨⟨fun _ _ habs => by simp [initial] at habs, fun _ _ habs => by simp [initial] at habs,
      fun _ habs => by simp [initial] at habs⟩, rfl, rfl⟩
  have hspec := tryAdvance_spec hrun
  rcases hexec : Proc.exec tryAdvance (initial cfg limits planHash guard material plan) with
    ⟨err | rest, t⟩
  · rw [hexec] at h
    cases h
  · rw [hexec] at h
    cases h
    exact (hspec.ok hexec).1

/-- A failed `Handle` of a session that keeps to its plan leaves it as it was, or aborted and
cleared. -/
theorem handle_error {ctx : HandlerContext} {env : InboundEnvelope}
    {h h' : Hosted (KeygenSession F G)} {err : GoError} (hbound : h.session.PlanBound)
    (hfail : handle ctx env h = (.error err, h')) :
    h'.session = h.session ∨ h'.session.Cleared := by
  refine SessionOps.handle_error (Q := Cleared) hfail (fun hc ha => cleared_abort hc ha) ?_
  intro tx hc ha hbuild
  exact (apply_spec ⟨hbound, hc, ha⟩ hbuild).imp
    (fun _ t ht => ⟨ht.1, cleared_abort ht.2.1 ht.2.2⟩) fun _ _ _ => trivial

end KeygenSession

/-- An error of `Handle` leaves a key generation session and a signing session, whatever calls
it took before, as it was or aborted and cleared. This covers the errors of the context too. -/
theorem handle_error_unchanged_or_cleared [Sha512] :
    (∀ (cfg : ThresholdConfig) (limits : Limits) (planHash : Bytes) (guard : EnvelopeGuard)
      (c : KeygenSession.Contribution F) (plan : Option (TrustedDealerImportPlan G))
      (s₀ : KeygenSession F G) (out₀ : List Envelope),
      KeygenSession.startKeygen cfg limits planHash guard c plan = .ok (s₀, out₀) →
      ∀ (cache : ReplayCache) (calls : List KeygenSession.Call) (ctx : HandlerContext)
        (env : InboundEnvelope) (err : GoError) (h' : Hosted (KeygenSession F G)),
        let h : Hosted (KeygenSession F G) := Run.final KeygenSession.step ⟨s₀, cache⟩ calls
        KeygenSession.handle ctx env h = (.error err, h') →
        h'.session = h.session ∨ h'.session.Cleared) ∧
    (∀ (key : KeyShare F G) (plan : SigningSession.Plan F) (guard : EnvelopeGuard) (d e : F)
      (s₀ : SigningSession F G) (out₀ : List Envelope),
      SigningSession.startSign key plan guard d e = .ok (s₀, out₀) →
      ∀ (cache : ReplayCache) (calls : List SigningSession.Call) (ctx : HandlerContext)
        (env : InboundEnvelope) (err : GoError) (h' : Hosted (SigningSession F G)),
        let h : Hosted (SigningSession F G) := Run.final SigningSession.step ⟨s₀, cache⟩ calls
        SigningSession.handle ctx env h = (.error err, h') →
        h'.session = h.session ∨ h'.session.Cleared) := by
  constructor
  · intro cfg limits planHash guard c plan s₀ out₀ hstart cache calls ctx env err h' h hfail
    have hbound : h.session.PlanBound :=
      Run.final_inv (fun k : Hosted (KeygenSession F G) => k.session.PlanBound) (fun _ call hb =>
        KeygenSession.planBound_step hb call) (KeygenSession.startKeygen_planBound hstart) calls
    exact KeygenSession.handle_error hbound hfail
  · intro key plan guard d e s₀ out₀ _ cache calls ctx env err h' h hfail
    exact SigningSession.handle_error hfail

end Safety

/-- The configuration of party 1 of two, with threshold 2. -/
def sampleConfig : ThresholdConfig where
  threshold := 2
  parties := [1, 2]
  self := 1
  sessionID := Vector.replicate 32 1

/-- An envelope for another protocol. -/
def strayEnvelope : InboundEnvelope where
  env :=
    { protocol := lit "other"
      sessionID := Vector.replicate 32 1
      round := 1
      sender := 2
      recipient := 0
      payloadType := lit "other"
      payload := []
      senderSignature := [] }
  receiveInfo := ⟨2, .plaintext⟩
  broadcast := none

/-- A session of either kind starts and refuses a stray envelope. -/
theorem handle_error_unchanged_or_cleared_sample :
    letI := sampleCurve
    letI := sampleSha512
    letI := Sha256.firstBytes
    (∃ (s : KeygenSession SampleField SampleField) (err : GoError)
      (h' : Hosted (KeygenSession SampleField SampleField)),
      KeygenSession.handle .background strayEnvelope ⟨s, ⟨∅, 8⟩⟩ = (.error err, h') ∧
      (h'.session = s ∨ h'.session.Cleared)) ∧
    ∃ (s : SigningSession SampleField SampleField) (err : GoError)
      (h' : Hosted (SigningSession SampleField SampleField)),
      SigningSession.handle .background strayEnvelope ⟨s, ⟨∅, 8⟩⟩ = (.error err, h') ∧
      (h'.session = s ∨ h'.session.Cleared) := by
  let := sampleCurve
  let := sampleSha512
  let := Sha256.firstBytes
  have hkeygen : ((KeygenSession.startKeygen (G := SampleField) sampleConfig defaultLimits
      (List.replicate 32 0) SigningSession.sampleGuard ⟨[5, 4], List.replicate 32 7, 3⟩
      none).toOption.map fun r =>
        (KeygenSession.handle .background strayEnvelope ⟨r.1, ⟨∅, 8⟩⟩).1.isOk) = some false := by
    decide +kernel
  have hsign : ((SigningSession.startSign (sampleKey 1 9) SigningSession.samplePlan
      SigningSession.sampleGuard 2 7).toOption.map fun r =>
        (SigningSession.handle .background strayEnvelope ⟨r.1, ⟨∅, 8⟩⟩).1.isOk) = some false := by
    decide +kernel
  obtain ⟨hkeygens, hsigns⟩ := @handle_error_unchanged_or_cleared SampleField SampleField _ _ _ _ _
    sampleCurve Sha256.firstBytes sampleSha512
  constructor
  · rcases hstart : KeygenSession.startKeygen (G := SampleField) sampleConfig defaultLimits
      (List.replicate 32 0) SigningSession.sampleGuard ⟨[5, 4], List.replicate 32 7, 3⟩
      none with err | ⟨s, out⟩
    · rw [hstart] at hkeygen
      cases hkeygen
    · rw [hstart] at hkeygen
      rcases hfail : KeygenSession.handle .background strayEnvelope ⟨s, ⟨∅, 8⟩⟩ with
        ⟨err | out', h'⟩
      · exact ⟨s, err, h', hfail, hkeygens _ _ _ _ _ _ _ _ hstart ⟨∅, 8⟩ [] _ _ _ _ hfail⟩
      · simp [hfail, Except.isOk, Except.toBool, Except.toOption] at hkeygen
  · rcases hstart : SigningSession.startSign (sampleKey 1 9) SigningSession.samplePlan
      SigningSession.sampleGuard 2 7 with err | ⟨s, out⟩
    · rw [hstart] at hsign
      cases hsign
    · rw [hstart] at hsign
      rcases hfail : SigningSession.handle .background strayEnvelope ⟨s, ⟨∅, 8⟩⟩ with
        ⟨err | out', h'⟩
      · exact ⟨s, err, h', hfail, hsigns _ _ _ _ _ _ _ hstart ⟨∅, 8⟩ [] _ _ _ _ hfail⟩
      · simp [hfail, Except.isOk, Except.toBool, Except.toOption] at hsign

end Tss.Frost
