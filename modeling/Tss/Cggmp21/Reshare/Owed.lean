import Tss.Cggmp21.Reshare.Debts
import Tss.Curve.Model

/-!
# A reshare sends what it owes

The debts of a session over whole runs: any sequence of deliveries, retries,
aborts and closes, with any failures of the store. A call either is idle, which
changes no debt (`Idle`), or is one message of the handoff.
-/

set_option linter.unusedSectionVars false

namespace Tss.Cggmp21

open Secp256k1 Fallible Paillier Lifecycle Proc

namespace ReshareSession

section Session

variable [Sha256] [Curve] [EvidenceEncoding] [ReshareOps] {s t u : ReshareSession}
  {w : World ReshareSession}

/-! ## Idle calls -/

/-- What holds of the outcome of a session in every state. -/
structure Safe (s : ReshareSession) : Prop where
  nodup : s.config.newParties.Nodup
  finished : s.lifecycleFinished = true → s.completed = true ∨ s.aborted = true
  failed : s.figure7Failure.isSome → s.aborted = true
  final : s.lifecycleFinal.isSome → s.newShare.isSome
  role : s.newShare.isSome → s.config.isReceiver = true
  outbox : ∀ e ∈ s.lifecycleOutbox, Quiet e

/-- No debt is paid between `s` and `t` and none becomes due. -/
structure Idle (s t : ReshareSession) : Prop where
  config : t.config = s.config
  dealerSent : t.dealerSent = s.dealerSent
  factorProofsSent : t.factorProofsSent = s.factorProofsSent
  past : t.PastMaterial → s.PastMaterial
  safe : Safe t

theorem Idle.refl (h : Safe s) : Idle s s := ⟨rfl, rfl, rfl, id, h⟩

theorem Idle.trans (h : Idle s t) (h' : Idle t u) : Idle s u where
  config := h'.config.trans h.config
  dealerSent := h'.dealerSent.trans h.dealerSent
  factorProofsSent := h'.factorProofsSent.trans h.factorProofsSent
  past := h.past ∘ h'.past
  safe := h'.safe

/-- An update that touches neither the flags nor what makes a debt due. -/
theorem Idle.update (hconfig : t.config = s.config) (hdealer : t.dealerSent = s.dealerSent)
    (hfactor : t.factorProofsSent = s.factorProofsSent) (hparties : t.newPartyData = s.newPartyData)
    (haux : t.auxInfo = s.auxInfo) (hshare : t.newShare = s.newShare) (hsafe : Safe t) :
    Idle s t where
  config := hconfig
  dealerSent := hdealer
  factorProofsSent := hfactor
  past := by
    have hmaterial : t.materialOf = s.materialOf := by
      funext p
      rw [materialOf, materialOf, hparties]
    rw [PastMaterial, PastMaterial, haux, hshare, allReshareReceiverMaterialReceived,
      allReshareReceiverMaterialReceived, hmaterial, hconfig]
    exact id
  safe := hsafe

/-- Aborting clears what makes a debt due. -/
theorem Idle.abort (h : Safe s) : Idle s s.abort where
  config := rfl
  dealerSent := rfl
  factorProofsSent := rfl
  past := by
    rintro (hall | haux | hshare)
    · left
      have hnone : ∀ p ∈ s.config.newParties, False := by
        intro p hp
        have hsome : ((s.newPartyData.mapVals fun _ _ => (⟨none, none, none⟩ :
            ReshareNewPartyData)).lookup p).bind (·.material) |>.isSome :=
          List.all_eq_true.mp hall p hp
        rw [FMap.lookup_mapVals] at hsome
        cases hl : s.newPartyData.lookup p <;> rw [hl] at hsome <;> cases hsome
      rw [allReshareReceiverMaterialReceived, List.all_eq_true]
      intro p hp
      exact (hnone p hp).elim
    · cases haux
    · cases hshare
  safe :=
    { nodup := h.nodup
      finished := fun _ => .inr rfl
      failed := fun _ => rfl
      final := fun hfinal => by cases hfinal
      role := fun hshare => by cases hshare
      outbox := fun e he => by cases he }

/-! ### Lifecycle commits -/

/-- The post-condition of a call that is idle since `s`. -/
abbrev IdleSince (s : ReshareSession) {α : Type} : α → World ReshareSession → Prop :=
  fun _ w => Idle s w.session

/-- A call of the store is idle. -/
theorem onStore_idle (hidle : Idle s w.session) {α : Type} {format : String} {fault : StoreFault}
    {call : LifecycleM α} :
    Spec (IdleSince s) (IdleSince s) (SessionM.onStore format fault call) w :=
  SessionM.spec_onStore (fun _ _ => hidle) fun _ _ => hidle

/-- The new share stands in for the pending one. -/
theorem Idle.commitFinal (hidle : Idle s t) {final : LifecycleOps.KeyShare}
    (hfinal : t.lifecycleFinal = some final) :
    Idle s { t with
      lifecycleFinal := none
      newShare := some final
      lifecycleFinished := true
      completed := true
      oldSecret := none } where
  config := hidle.config
  dealerSent := hidle.dealerSent
  factorProofsSent := hidle.factorProofsSent
  past := fun _ => hidle.past (.inr (.inr (hidle.safe.final (by rw [hfinal]; rfl))))
  safe :=
    { nodup := hidle.safe.nodup
      finished := fun _ => .inl rfl
      failed := hidle.safe.failed
      final := fun h => by cases h
      role := fun _ => hidle.safe.role (hidle.safe.final (by rw [hfinal]; rfl))
      outbox := hidle.safe.outbox }

variable {faults : ReshareFaults}

/-- Installing a generation leaves the session alone. -/
theorem installGeneration_session (w : World ReshareSession) {target : GenerationBinding}
    {blob planHash : Bytes} :
    Spec (fun _ w' => w'.session = w.session) (fun _ w' => w'.session = w.session)
      (s.installGeneration faults target blob planHash) w := by
  apply Spec.ite
  · intro _
    refine Spec.bind (Q := fun _ w' => w'.session = w.session)
      (SessionM.spec_onStore (fun _ _ => rfl) fun _ _ => rfl) fun fence w' hw' => ?_
    exact SessionM.spec_onStore (fun _ _ => hw') fun _ _ => hw'
  · exact fun _ => SessionM.spec_onStore (fun _ _ => rfl) fun _ _ => rfl

theorem commitReshareReceiverGeneration_idle (hidle : Idle s w.session)
    {final : LifecycleOps.KeyShare} (hfinal : w.session.lifecycleFinal = some final) :
    Spec (IdleSince s) (IdleSince s) (commitReshareReceiverGeneration faults final) w := by
  apply Spec.get_bind
  refine SessionM.spec_lift_bind (fun _ _ => hidle) fun blob _ => ?_
  split
  · exact .of_throw hidle
  · refine SessionM.spec_lift_bind (fun _ _ => hidle) fun epochID _ => ?_
    refine Spec.throwIf_bind (fun _ => hidle) fun _ => ?_
    refine Spec.bind ((installGeneration_session w).imp
      (fun _ w' hw' => by rw [IdleSince, hw']; exact hidle) fun _ _ h => h) fun record w' hw' => ?_
    have hidle' : Idle s w'.session := by
      rw [hw']
      exact hidle
    refine Spec.throwIf_bind (fun _ => hidle') fun _ => ?_
    exact SessionM.spec_modifySession (hidle'.commitFinal (by rw [hw']; exact hfinal))

theorem commitPendingReshareLifecycle_idle (hidle : Idle s w.session) :
    Spec (IdleSince s) (IdleSince s) (commitPendingReshareLifecycle faults) w := by
  apply Spec.get_bind
  apply Spec.ite
  · exact fun _ => .of_pure hidle
  intro _
  refine Spec.throwIf_bind (fun _ => hidle) fun _ => ?_
  split
  · next final _ hfinal => exact commitReshareReceiverGeneration_idle hidle hfinal
  · refine Spec.bind (onStore_idle hidle) fun _ w' hidle' => ?_
    apply SessionM.spec_modifySession
    refine hidle'.trans (.update rfl rfl rfl rfl rfl rfl ?_)
    exact { hidle'.safe with finished := fun _ => .inl rfl }
  · apply Spec.ite
    · intro houtcome
      have haborted : w.session.aborted = true := by
        rcases houtcome with haborted | hfailed
        · exact haborted
        · exact hidle.safe.failed hfailed
      refine Spec.bind (Q := fun _ w' => w'.session = w.session)
        (SessionM.spec_result (SessionM.spec_onStore (fun _ _ => rfl) fun _ _ => rfl)) ?_
      intro result w' hw'
      have hidle' : Idle s w'.session := by
        rw [hw']
        exact hidle
      cases result with
      | error e =>
        apply SessionM.spec_modifySession_bind
        exact .of_throw (hidle'.trans (.update rfl rfl rfl rfl rfl rfl
          ⟨hidle'.safe.nodup, hidle'.safe.finished, hidle'.safe.failed, hidle'.safe.final, hidle'.safe.role,
    hidle'.safe.outbox⟩))
      | ok _ =>
        apply SessionM.spec_modifySession
        refine hidle'.trans (.update rfl rfl rfl rfl rfl rfl ?_)
        exact { hidle'.safe with finished := fun _ => .inr (by rw [hw']; exact haborted) }
    · exact fun _ => .of_pure hidle

variable {out : List Envelope}

/-- The effects of a call fail only when an outcome is decided, and hold back only what is not
owed. -/
theorem commitReshareLifecycleEffects_idle (hidle : Idle s w.session)
    (hquiet : w.session.outcomeDecided = true → ∀ e ∈ out, Quiet e) :
    Spec (fun _ w' => w.session.outcomeDecided = true ∧ Idle s w'.session)
      (fun out' w' => out' = out ∧ Idle s w'.session) (commitReshareLifecycleEffects faults out) w := by
  apply Spec.get_bind
  apply Spec.ite
  · intro hdecided
    have hcommit : ∀ w' : World ReshareSession, Idle s w'.session →
        Spec (fun _ w' => w.session.outcomeDecided = true ∧ Idle s w'.session)
          (fun out' w' => out' = out ∧ Idle s w'.session) (do
            commitPendingReshareLifecycle faults
            SessionM.modifySession fun s => { s with lifecycleOutbox := [] }
            return out) w' := by
      intro w' hidle'
      refine Spec.bind ((commitPendingReshareLifecycle_idle hidle').imp
        (fun _ _ h => ⟨hdecided, h⟩) fun _ _ h => h) fun _ w'' hidle'' => ?_
      apply SessionM.spec_modifySession_bind
      refine .of_pure ⟨rfl, Idle.trans hidle'' (.update rfl rfl rfl rfl rfl rfl ?_)⟩
      exact { Idle.safe hidle'' with outbox := fun e he => by cases he }
    by_cases hout : out = []
    · rw [if_neg (by simpa using hout)]
      exact hcommit w hidle
    · rw [if_pos hout]
      apply SessionM.spec_modifySession_bind
      apply hcommit
      refine hidle.trans (.update rfl rfl rfl rfl rfl rfl ?_)
      exact { hidle.safe with outbox := hquiet hdecided }
  · exact fun _ => .of_pure ⟨rfl, hidle⟩

/-! ### Confirmations and Figure 7 -/

variable {inbound : InboundEnvelope}

/-- Taking the slot of a message leaves the session alone. -/
theorem validateInbound_idle (hidle : Idle s w.session) {allowed : PartySet} :
    Spec (IdleSince s) (fun _ w' => w'.session = w.session) (validateInbound inbound allowed) w := by
  apply Spec.get_bind
  refine SessionM.spec_lift_bind (fun _ _ => hidle) fun cache _ => ?_
  exact Spec.of_modify rfl

theorem stageReshareFinal_idle (hidle : Idle s t) (hshare : t.newShare.isSome)
    {share : LifecycleOps.KeyShare} :
    Spec (fun _ u => Idle s u) (fun _ u => Idle s u) (stageReshareFinal share) t := by
  apply Spec.get_bind
  refine Spec.throwIf_bind (fun _ => hidle) fun _ => ?_
  refine Spec.throwIf_bind (fun _ => hidle) fun _ => ?_
  refine Spec.throwIf_bind (fun _ => hidle) fun _ => ?_
  apply Spec.of_modify
  refine hidle.trans (.update rfl rfl rfl rfl rfl rfl ?_)
  exact { hidle.safe with final := fun _ => hshare }

/-- Clearing the handoff is idle. -/
theorem Idle.cleanup (hidle : Idle s t) : Idle s t.cleanupTemporaryReshareHandoff where
  config := hidle.config
  dealerSent := hidle.dealerSent
  factorProofsSent := hidle.factorProofsSent
  past := by
    rintro (hall | hlater)
    · exact hidle.past (.inl (all_of_cleanup hall))
    · exact hidle.past (.inr hlater)
  safe := ⟨hidle.safe.nodup, hidle.safe.finished, hidle.safe.failed, hidle.safe.final, hidle.safe.role,
    hidle.safe.outbox⟩

theorem stageReshareRetirement_idle (hidle : Idle s t) {confirmation : Option KeygenConfirmation} :
    Spec (fun _ u => Idle s u) (fun _ u => Idle s u) (stageReshareRetirement confirmation) t := by
  apply Spec.get_bind
  cases confirmation with
  | none => exact .of_throw hidle
  | some confirmation =>
    refine Spec.outcome_bind (fun _ _ => hidle) fun target _ => ?_
    apply Spec.of_modify
    exact hidle.trans (.update rfl rfl rfl rfl rfl rfl ⟨hidle.safe.nodup, hidle.safe.finished,
      hidle.safe.failed, hidle.safe.final, hidle.safe.role, hidle.safe.outbox⟩)

theorem tryCompleteDealerOnly_idle (hidle : Idle s t) :
    Spec (fun _ u => Idle s u) (fun _ u => Idle s u) tryCompleteDealerOnly t := by
  apply Spec.get_bind
  apply Spec.ite
  · intro _
    refine Spec.outcome_bind (fun _ _ => hidle) fun publicKey _ => ?_
    refine Spec.throwIf_bind (fun _ => hidle) fun _ => ?_
    apply Spec.ite
    · intro _
      refine Spec.outcome_bind (fun _ _ => hidle) fun reference _ => ?_
      apply Spec.modify_bind
      exact stageReshareRetirement_idle hidle.cleanup
    · exact fun _ => .of_pure hidle
  · exact fun _ => .of_pure hidle

/-- Storing a confirmation is idle. -/
theorem Idle.storeConfirmation (hidle : Idle s t) (id : PartyID)
    (confirmation : KeygenConfirmation) (accepted : List MessageKey) :
    Idle s { t.modifyNewParty id (fun d => { d with confirmation := some confirmation }) with
      accepted } where
  config := hidle.config
  dealerSent := hidle.dealerSent
  factorProofsSent := hidle.factorProofsSent
  past := by
    rintro (hall | hlater)
    · let stored (d : ReshareNewPartyData) := { d with confirmation := some confirmation }
      have hstored : (t.modifyNewParty id stored).allReshareReceiverMaterialReceived := hall
      exact hidle.past (.inl (all_of_modifyNewParty (by intro d; rfl) hstored))
    · exact hidle.past (.inr hlater)
  safe := ⟨hidle.safe.nodup, hidle.safe.finished, hidle.safe.failed, hidle.safe.final, hidle.safe.role,
    hidle.safe.outbox⟩

/-- A share is completed only where there is one. -/
theorem finalWith_eq_ok {env : Envelope} {confirmation : KeygenConfirmation}
    {share : LifecycleOps.KeyShare} (h : t.finalWith env confirmation = .ok (some share)) :
    t.newShare.isSome := by
  rw [finalWith] at h
  split at h
  · cases h
  · next heq =>
    rw [heq]
    rfl

theorem handleReshareConfirmationInbound_idle (hidle : Idle s w.session) :
    Spec (IdleSince s) (fun out w' => out = [] ∧ Idle s w'.session)
      (handleReshareConfirmationInbound inbound) w := by
  apply Spec.get_bind
  refine SessionM.spec_lift_bind (fun _ _ => hidle) fun confirmation _ => ?_
  refine SessionM.spec_lift_bind (fun _ _ => hidle) fun final hfinal => ?_
  refine Spec.bind (validateInbound_idle hidle) fun _ w' hw' => ?_
  apply SessionM.spec_modifySession_bind
  have hidle' : Idle s w'.session := by
    rw [hw']
    exact hidle
  have hstored := hidle'.storeConfirmation inbound.env.sender confirmation
    (newMessageKey inbound.env :: w'.session.accepted)
  cases final with
  | some share =>
    have hshare : w'.session.newShare.isSome := by
      rw [hw']
      exact finalWith_eq_ok hfinal
    refine Spec.bind (Q := IdleSince s) (SessionM.spec_onSession (Spec.mapError
      (stageReshareFinal_idle hstored hshare))) fun _ w'' hidle'' => ?_
    exact .of_pure ⟨rfl, hidle''⟩
  | none =>
    by_cases hreceiver : w.session.config.isReceiver = false
    · rw [if_pos hreceiver]
      refine Spec.bind (Q := IdleSince s) (SessionM.spec_onSession
        (tryCompleteDealerOnly_idle hstored)) fun _ w'' hidle'' => ?_
      exact .of_pure ⟨rfl, hidle''⟩
    · rw [if_neg hreceiver]
      exact .of_pure ⟨rfl, hstored⟩

/-- Committing the output of Figure 7 is idle: the debts were due when it started. -/
theorem commitReshareOutput_idle (hidle : Idle s t) (haux : t.auxInfo.isSome)
    (hreceiver : t.config.isReceiver = true)
    {output : PreparedReshareOutput} :
    Spec (fun _ u => Idle s u) (fun _ u => Idle s u) (commitReshareOutput output) t := by
  apply Spec.modify_bind
  apply Spec.modify_bind
  apply Spec.modify_bind
  have hcommitted : Idle s { modifyNewParty t.config.selfID
      (fun d => { d with confirmation := some output.confirmation })
      { t with newShare := some output.share } with auxInfo := none } :=
    { config := hidle.config
      dealerSent := hidle.dealerSent
      factorProofsSent := hidle.factorProofsSent
      past := fun _ => hidle.past (.inr (.inl haux))
      safe := ⟨hidle.safe.nodup, hidle.safe.finished, hidle.safe.failed, fun _ => rfl,
        fun _ => hreceiver, hidle.safe.outbox⟩ }
  split
  · exact .of_pure hcommitted
  · exact stageReshareFinal_idle hcommitted rfl

theorem terminalReshareFigure7Failure_idle (hidle : Idle s t) (failure : Figure7Failure) :
    Idle s (terminalReshareFigure7Failure failure t) := by
  have habort := Idle.abort hidle.safe
  refine hidle.trans (habort.trans (.update rfl rfl rfl rfl rfl rfl ?_))
  exact { habort.safe with
    finished := fun _ => .inl rfl
    failed := fun _ => rfl }

variable {coins : LifecycleOps.Coins}

theorem prepareOutput_confirmation {env : Envelope} {result : Option LifecycleOps.AuxResult}
    {output : PreparedReshareOutput} (h : t.prepareOutput env coins result = .ok (some output)) :
    output.confirmationEnvelope.payloadType = payloadKeygenConfirmation := by
  cases result with
  | none => cases h
  | some result =>
    obtain ⟨prepared, hprepare, hsome⟩ := map_eq_ok.mp h
    cases hsome
    obtain ⟨⟨share, confirmation, encoded⟩, -, h⟩ := bind_eq_ok.mp (mapError_eq_ok.mp hprepare)
    obtain ⟨envelope, henvelope, h⟩ := bind_eq_ok.mp h
    obtain ⟨-, h⟩ := seq_eq_ok.mp h
    obtain ⟨signature, rfl⟩ := newEnvelope_eq_ok henvelope
    split at h
    · obtain ⟨final, -, h⟩ := bind_eq_ok.mp h
      cases h
      rfl
    · cases h
      rfl

theorem handleReshareAuxInfoInbound_idle (hidle : Idle s w.session) {ctx : HandlerContext} :
    Spec (IdleSince s) (fun out w' => (∀ e ∈ out, Quiet e) ∧ Idle s w'.session)
      (handleReshareAuxInfoInbound ctx inbound coins) w := by
  have haccept : ∀ {t : ReshareSession} (accepted : List MessageKey), Idle s t →
      Idle s { t with accepted } := fun _ h =>
    h.trans (.update rfl rfl rfl rfl rfl rfl ⟨h.safe.nodup, h.safe.finished, h.safe.failed,
      h.safe.final, h.safe.role, h.safe.outbox⟩)
  apply Spec.get_bind
  apply Spec.ite
  · intro _
    refine Spec.bind (validateInbound_idle hidle) fun _ w' hw' => ?_
    apply SessionM.spec_modifySession_bind
    refine .of_pure ⟨by simp, haccept _ ?_⟩
    rw [hw']
    exact hidle
  intro hreceiver
  split
  · next auxInfo haux hshare =>
    refine SessionM.spec_lift_bind (fun _ _ => hidle) fun prepared _ => ?_
    refine SessionM.spec_lift_bind (fun _ _ => hidle) fun output houtput => ?_
    refine Spec.bind (validateInbound_idle hidle) fun _ w' hw' => ?_
    have hidle' : Idle s w'.session := by
      rw [hw']
      exact hidle
    refine SessionM.spec_lift_bind (fun _ _ => hidle') fun _ _ => ?_
    refine SessionM.spec_lift_bind (fun _ _ => hidle') fun auxInfo' _ => ?_
    apply SessionM.spec_modifySession_bind
    have hadvanced : Idle s { w'.session with
        auxInfo := some auxInfo'
        accepted := newMessageKey inbound.env :: w'.session.accepted } :=
      { config := hidle'.config
        dealerSent := hidle'.dealerSent
        factorProofsSent := hidle'.factorProofsSent
        past := fun _ => hidle.past (.inr (.inl (by rw [haux]; rfl)))
        safe := ⟨hidle'.safe.nodup, hidle'.safe.finished, hidle'.safe.failed, hidle'.safe.final, hidle'.safe.role,
    hidle'.safe.outbox⟩ }
    have hquiet : ∀ e ∈ prepared.out.map (·.1), Quiet e := by
      intro e he
      obtain ⟨a, -, rfl⟩ := List.mem_map.mp he
      exact a.quiet
    split
    · apply SessionM.spec_modifySession_bind
      exact .of_pure ⟨hquiet, terminalReshareFigure7Failure_idle hadvanced _⟩
    · exact .of_pure ⟨hquiet, hadvanced⟩
    · next output =>
      refine Spec.bind (Q := IdleSince s) (SessionM.spec_onSession (Spec.mapError
        (commitReshareOutput_idle hadvanced rfl (by simpa [hw'] using hreceiver)))) fun _ w'' hidle'' => ?_
      refine .of_pure ⟨?_, hidle''⟩
      intro e he
      rcases List.mem_append.mp he with he | he
      · exact hquiet e he
      · obtain rfl := List.mem_singleton.mp he
        exact quiet_of_confirmation (prepareOutput_confirmation houtput)
  · exact .of_throw hidle

/-! ## Calls -/

/-- What a call that returned `out` has done: the debts it paid, and those that are due. -/
structure Settled (s : ReshareSession) (out : List Envelope) (t : ReshareSession) : Prop where
  delta : Delta s out t
  paid : Paid t
  safe : Safe t

theorem Idle.settled (hidle : Idle s t) (hpaid : Paid s) (hquiet : ∀ e ∈ out, Quiet e) :
    Settled s out t where
  delta := .of_quiet hidle.config hidle.dealerSent hidle.factorProofsSent hquiet
  paid := hpaid.of_past hidle.config hidle.dealerSent hidle.factorProofsSent hidle.past
  safe := hidle.safe

theorem Settled.idle (h : Settled s out t) (hidle : Idle t u) :
    Settled s out u := by
  have hnext : Settled t [] u := hidle.settled h.paid (by simp)
  have hdelta := h.delta.append hnext.delta
  rw [List.append_nil] at hdelta
  exact ⟨hdelta, hnext.paid, hnext.safe⟩

theorem handleTerminalInbound_idle (hidle : Idle s w.session) {allowed : PartySet} :
    Spec (IdleSince s) (fun out w' => out = [] ∧ Idle s w'.session)
      (handleTerminalInbound inbound allowed) w := by
  refine Spec.bind (Spec.mapError (validateInbound_idle hidle)) fun _ w' hw' => ?_
  have hidle' : Idle s w'.session := by
    rw [hw']
    exact hidle
  apply Spec.get_bind
  apply Spec.ite
  · intro _
    apply Spec.ite
    · exact fun _ => .of_pure ⟨rfl, hidle'⟩
    · exact fun _ => .of_throw hidle'
  · exact fun _ => .of_throw hidle'

/-- The copy of a live session, on which a message of the handoff works. -/
theorem clone_settled (hpaid : Paid s) (hsafe : Safe s) : Paid s.cloneForInboundTransition ∧
    Safe s.cloneForInboundTransition := by
  constructor
  · refine hpaid.of_past (t := s.cloneForInboundTransition) rfl rfl rfl ?_
    rintro (hall | haux | hshare)
    · exact .inl hall
    · cases haux
    · exact .inr (.inr hshare)
  · exact ⟨hsafe.nodup, hsafe.finished, (by intro h; cases h), (by intro h; cases h), hsafe.role,
      hsafe.outbox⟩

/-- The session is live: no outcome has been decided. -/
structure Live (s : ReshareSession) : Prop where
  completed : s.completed = false
  aborted : s.aborted = false
  pending : s.commitPending = false

theorem Live.retirement (h : Live s) (hsafe : Safe s) : s.lifecycleRetirement = none := by
  have hfinished : s.lifecycleFinished = false := by
    by_contra hfinished
    rcases hsafe.finished (by simpa using hfinished) with hdone | hdone
    · simp [h.completed] at hdone
    · simp [h.aborted] at hdone
  have hpending := h.pending
  rw [commitPending, hfinished] at hpending
  cases hr : s.lifecycleRetirement with
  | none => rfl
  | some target => simp [hr] at hpending

/-- After a message of the handoff an outcome is decided only if it sent nothing. -/
theorem handoff_undecided (hlive : Live s) (hsafe : Safe s) (hshare : s.newShare = none)
    (hcarries : Carries s.cloneForInboundTransition t)
    (hretire : t.lifecycleRetirement = s.lifecycleRetirement ∨ out = [])
    (hdecided : (commitInboundTransition t s).outcomeDecided = true) : out = [] := by
  rcases hretire with hretire | rfl
  · have haborted : t.aborted = false := hcarries.aborted.trans hlive.aborted
    have hfailure : t.figure7Failure = none := hcarries.figure7Failure
    have hretired : t.lifecycleRetirement = none := hretire.trans (hlive.retirement hsafe)
    have hfinal : t.lifecycleFinal = none := hcarries.lifecycleFinal hshare
    simp [outcomeDecided, commitInboundTransition, haborted, hfailure, hretired, hfinal] at hdecided
  · rfl

/-- What a call leaves when it fails after `s`. -/
abbrev SettledSince (s : ReshareSession) : SessionError → World ReshareSession → Prop :=
  fun _ w => Settled s [] w.session

/-- What a call leaves that returns envelopes after `s`. -/
abbrev SettledWith (s : ReshareSession) : List Envelope → World ReshareSession → Prop :=
  fun out w => Settled s out w.session

/-- A message of the handoff replaces the session by the copy it worked on. -/
theorem commitInboundTransition_settled (hpaid : Paid s) (hsafe : Safe s)
    (hshare : s.newShare = none) {env : Envelope} (hlast : ¬ s.CompletesHandoff env)
    (hsender : env.payloadType = payloadReshareReceiverMaterial → env.sender ∈ s.config.newParties)
    (h : exec (applyValidatedInbound coins env) s.cloneForInboundTransition = (.ok out, t)) :
    Settled s out (commitInboundTransition t s) ∧ Carries s.cloneForInboundTransition t ∧
      (t.lifecycleRetirement = s.lifecycleRetirement ∨ out = []) := by
  obtain ⟨hpaid', hsafe'⟩ := clone_settled hpaid hsafe
  obtain ⟨hdelta, hcarries, hpaid'', hretire⟩ :=
    applyValidatedInbound_paid (s := s.cloneForInboundTransition) hsafe.nodup hpaid' hlast hsender h
  refine ⟨⟨⟨hdelta.config, hdelta.commitments, hdelta.shares, hdelta.factors⟩,
    hpaid''.of_past rfl rfl rfl fun h => h, ?_⟩, hcarries, hretire⟩
  have hconfig : t.config = s.config := hcarries.config
  have hnone : t.newShare = none := hcarries.newShare.trans hshare
  constructor
  · show t.config.newParties.Nodup
    rw [hconfig]
    exact hsafe.nodup
  · intro hfinished
    have hfinished' : s.lifecycleFinished = true := hcarries.lifecycleFinished ▸ hfinished
    show t.completed = true ∨ t.aborted = true
    rw [hcarries.completed, hcarries.aborted]
    exact hsafe.finished hfinished'
  · intro hfailed
    have hfailure : t.figure7Failure = none := hcarries.figure7Failure
    have hfailed' : t.figure7Failure.isSome := hfailed
    simp [hfailure] at hfailed'
  · intro hfinal
    have hfinal' : t.lifecycleFinal.isSome := hfinal
    simp [hcarries.lifecycleFinal hshare, cloneForInboundTransition] at hfinal'
  · intro hsome
    have hsome' : t.newShare.isSome := hsome
    simp [hnone] at hsome'
  · show ∀ e ∈ t.lifecycleOutbox, Quiet e
    rw [hcarries.lifecycleOutbox]
    exact hsafe.outbox

/-- A receiver whose check passes has not started Figure 7. -/
theorem checkHandoff_eq_ok {env : Envelope} (hsafe : Safe s) (h : s.checkHandoff env = .ok ()) :
    s.newShare = none := by
  obtain ⟨hrole, -⟩ := seq_eq_ok.mp h
  rw [rejectIf_eq_ok] at hrole
  cases hshare : s.newShare with
  | none => rfl
  | some share =>
    have hsome : s.newShare.isSome := by
      rw [hshare]
      rfl
    exact (hrole ⟨hsafe.role hsome, .inr hsome⟩).elim

theorem handleHandoffInbound_settled (hlive : Live w.session) (hpaid : Paid w.session)
    (hsafe : Safe w.session) {ctx : HandlerContext} {allowed : PartySet}
    (hlast : ¬ w.session.CompletesHandoff inbound.env) (hsender : inbound.env.payloadType =
    payloadReshareReceiverMaterial → inbound.env.sender ∈ w.session.config.newParties) :
    Spec (SettledSince w.session) (SettledWith w.session)
      (handleHandoffInbound ctx inbound allowed coins faults) w := by
  have hidle := Idle.refl hsafe
  have hrefl : Settled w.session [] w.session := hidle.settled hpaid (by simp)
  have hslot : Spec (SettledSince w.session) (fun _ w' => w'.session = w.session)
      (validateInbound inbound allowed) w :=
    (validateInbound_idle hidle).imp (fun _ _ h => h.settled hpaid (by simp)) fun _ _ h => h
  apply Spec.get_bind
  refine SessionM.spec_lift_bind (fun _ _ => hrefl) fun _ hcheck => ?_
  have hshare := checkHandoff_eq_ok hsafe hcheck
  apply Spec.ite
  · intro _
    refine Spec.bind (Spec.mapError hslot) fun _ w' hw' => ?_
    refine .of_throw ?_
    rw [SettledSince, hw']
    exact hrefl
  intro _
  refine SessionM.spec_lift_bind (fun _ _ => hrefl) fun _ _ => ?_
  split
  · exact .of_throw hrefl
  · next out staged hstaged =>
    obtain ⟨hsettled, hcarries, hretire⟩ :=
      commitInboundTransition_settled hpaid hsafe hshare hlast hsender hstaged
    refine Spec.bind (Spec.mapError hslot) fun _ w' hw' => ?_
    have hrefl' : Settled w.session [] w'.session := by
      rw [hw']
      exact hrefl
    refine SessionM.spec_lift_bind (fun _ _ => hrefl') fun _ _ => ?_
    apply SessionM.spec_modifySession_bind
    have hsession : commitInboundTransition staged w'.session =
        commitInboundTransition staged w.session := by rw [hw']
    have hsilent := handoff_undecided hlive hsafe hshare hcarries hretire
    refine (commitReshareLifecycleEffects_idle (s := commitInboundTransition staged w.session)
      (w := { w' with session := commitInboundTransition staged w'.session }) ?_ ?_).imp ?_ ?_
    · show Idle _ (commitInboundTransition staged w'.session)
      rw [hsession]
      exact Idle.refl hsettled.safe
    · intro hdecided e he
      have hnil := hsilent (hsession ▸ hdecided)
      rw [hnil] at he
      cases he
    · rintro e w'' ⟨hdecided, hidle''⟩
      have hnil := hsilent (hsession ▸ hdecided)
      rw [hnil] at hsettled
      exact hsettled.idle hidle''
    · rintro out' w'' ⟨rfl, hidle''⟩
      exact hsettled.idle hidle''

/-- A call of the form "handle the message, then make the outcome durable". -/
theorem effects_settled (hpaid : Paid s) {x : Call (List Envelope)}
    (hx : Spec (IdleSince s) (fun out w' => (∀ e ∈ out, Quiet e) ∧ Idle s w'.session) x w) :
    Spec (SettledSince s) (SettledWith s) (x >>= commitReshareLifecycleEffects faults) w := by
  refine Spec.bind (hx.imp (fun _ _ h => h.settled hpaid (by simp)) fun _ _ h => h) ?_
  rintro out w' ⟨hquiet, hidle⟩
  refine (commitReshareLifecycleEffects_idle hidle fun _ => hquiet).imp ?_ ?_
  · rintro e w'' ⟨-, hidle'⟩
    exact hidle'.settled hpaid (by simp)
  · rintro out' w'' ⟨rfl, hidle'⟩
    exact hidle'.settled hpaid hquiet

theorem handleLive_settled (hlive : Live w.session) (hpaid : Paid w.session)
    (hsafe : Safe w.session) {ctx : HandlerContext}
    (hlast : ¬ w.session.CompletesHandoff inbound.env) :
    Spec (SettledSince w.session) (SettledWith w.session)
      (handleLive ctx inbound (w.session.allowedParties inbound.env) coins faults) w := by
  have hidle := Idle.refl hsafe
  have hrefl : Settled w.session [] w.session := hidle.settled hpaid (by simp)
  apply Spec.get_bind
  refine SessionM.spec_lift_bind (fun _ _ => hrefl) fun _ hvalid => ?_
  refine SessionM.spec_lift_bind (fun _ _ => hrefl) fun _ _ => ?_
  apply Spec.ite
  · intro _
    refine Spec.bind ((validateInbound_idle hidle).imp
      (fun _ _ h => Idle.settled h hpaid (by simp)) fun _ _ h => h) fun _ w' hw' => ?_
    refine .of_throw ?_
    rw [SettledSince, hw']
    exact hrefl
  intro _
  apply Spec.ite
  · intro _
    apply effects_settled hpaid
    refine (handleReshareConfirmationInbound_idle hidle).imp (fun _ _ h => h) ?_
    rintro out w' ⟨rfl, hidle'⟩
    exact ⟨by simp, hidle'⟩
  intro _
  apply Spec.ite
  · intro _
    exact effects_settled hpaid (handleReshareAuxInfoInbound_idle hidle)
  intro _
  apply handleHandoffInbound_settled hlive hpaid hsafe hlast
  intro htype
  have hmember := (validateInboundWithoutReplay_sender hvalid).1
  rw [allowedParties, if_pos (.inl htype)] at hmember
  exact hmember

/-- The deferred part of a call aborts or does nothing. -/
theorem settle_settled {r : Except SessionError (List Envelope)}
    (hsettled : Settled s (returned r) w.session) :
    Spec (SettledSince s) (SettledWith s) (settle inbound faults r) w := by
  cases r with
  | ok out => exact .of_pure hsettled
  | error e =>
    apply Spec.ite
    · intro _
      apply SessionM.spec_modifySession_bind
      have habort := Idle.abort hsettled.safe
      refine Spec.bind (SessionM.spec_result (Q := fun _ w' => Settled s [] w'.session) ?_) ?_
      · exact (commitPendingReshareLifecycle_idle habort).imp
          (fun _ _ h => hsettled.idle h) fun _ _ h => hsettled.idle h
      · intro result w' hsettled'
        cases result with
        | ok _ => exact .of_throw hsettled'
        | error _ => exact .of_throw hsettled'
    · exact fun _ => .of_throw hsettled

theorem handle_settled (hpaid : Paid w.session) (hsafe : Safe w.session) {ctx : HandlerContext}
    (hlast : ¬ w.session.CompletesHandoff inbound.env) :
    Spec (SettledSince w.session) (SettledWith w.session) (handle ctx inbound coins faults) w := by
  have hidle := Idle.refl hsafe
  have hrefl : Settled w.session [] w.session := hidle.settled hpaid (by simp)
  refine SessionM.spec_lift_bind (fun _ _ => hrefl) fun _ _ => ?_
  apply Spec.get_bind
  refine Spec.throwIf_bind (fun _ => hrefl) fun hpending => ?_
  apply Spec.ite
  · intro _
    refine (handleTerminalInbound_idle hidle).imp (fun _ _ h => Idle.settled h hpaid (by simp)) ?_
    rintro out w' ⟨rfl, hidle'⟩
    exact hidle'.settled hpaid (by simp)
  · intro hopen
    have hlive : Live w.session := by
      simp only [not_or, Bool.not_eq_true] at hopen hpending
      exact ⟨hopen.1, hopen.2, hpending⟩
    refine Spec.bind (SessionM.spec_result (Q := fun r w' => Settled w.session (returned r) w'.session)
      (handleLive_settled hlive hpaid hsafe hlast)) fun r w' h => ?_
    exact settle_settled h

/-! ## Retrying, aborting, closing -/

/-- Retrying returns what was held back, which is none of what is owed. -/
theorem retryLifecycleCommit_settled (hpaid : Paid w.session) (hsafe : Safe w.session) :
    Spec (SettledSince w.session) (SettledWith w.session) (retryLifecycleCommit faults) w := by
  refine Spec.bind ((commitPendingReshareLifecycle_idle (Idle.refl hsafe)).imp
    (fun _ _ h => Idle.settled h hpaid (by simp)) fun _ _ h => h) fun _ w' hidle => ?_
  apply Spec.get_bind
  apply SessionM.spec_modifySession_bind
  apply Spec.of_pure
  have hidle' : Idle w.session w'.session := hidle
  have hcleared : Idle w'.session { w'.session with lifecycleOutbox := [] } :=
    .update rfl rfl rfl rfl rfl rfl { hidle'.safe with outbox := fun e he => by cases he }
  exact (hidle'.trans hcleared).settled hpaid hidle'.safe.outbox

theorem abortDisposition_idle (hidle : Idle s w.session) {fault : StoreFault} :
    Spec (IdleSince s) (IdleSince s) (abortDisposition fault) w := by
  apply Spec.get_bind
  apply Spec.ite
  · exact fun _ => .of_pure hidle
  intro _
  refine Spec.throwIf_bind (fun _ => hidle) fun _ => ?_
  refine Spec.throwIf_bind (fun _ => hidle) fun _ => ?_
  -- Every way out of here has aborted the session, and differs in the lease only.
  have haborted : ∀ (t : ReshareSession) (finished pending : Bool), Idle s t →
      Idle s { t.abort with lifecycleFinished := finished, closePending := pending } := by
    intro t finished pending h
    have habort := Idle.abort h.safe
    exact h.trans (habort.trans (.update rfl rfl rfl rfl rfl rfl
      { habort.safe with finished := fun _ => .inr rfl }))
  apply Spec.ite
  · intro _
    refine Spec.bind (Q := fun _ w' => w'.session = w.session)
      (SessionM.spec_result (SessionM.spec_onStore (fun _ _ => rfl) fun _ _ => rfl)) ?_
    intro result w' hw'
    have hidle' : Idle s w'.session := by
      rw [hw']
      exact hidle
    cases result with
    | error e =>
      apply SessionM.spec_modifySession_bind
      exact .of_throw (haborted _ w'.session.lifecycleFinished true hidle')
    | ok _ => exact SessionM.spec_modifySession (haborted _ true false hidle')
  · intro _
    exact SessionM.spec_modifySession (haborted _ w.session.lifecycleFinished false hidle)

theorem abortSession_idle (hidle : Idle s w.session) {ctx : CallerContext} {reason : GoString}
    {fault : StoreFault} :
    Spec (IdleSince s) (IdleSince s) (abortSession ctx reason fault) w := by
  refine SessionM.spec_lift_bind (fun _ _ => hidle) fun _ _ => ?_
  refine Spec.throwIf_bind (fun _ => hidle) fun _ => ?_
  exact abortDisposition_idle hidle

theorem close_idle (hidle : Idle s w.session) {ctx : CallerContext} {fault : StoreFault} :
    Spec (IdleSince s) (IdleSince s) (close ctx fault) w := by
  have hclosed : ∀ t : ReshareSession, Idle s t →
      Idle s { t.abort with closed := true, closePending := false } := by
    intro t h
    have habort := Idle.abort h.safe
    exact h.trans (habort.trans (.update rfl rfl rfl rfl rfl rfl
      { habort.safe with finished := fun _ => .inr rfl }))
  refine SessionM.spec_lift_bind (fun _ _ => hidle) fun _ _ => ?_
  apply Spec.get_bind
  apply Spec.ite
  · exact fun _ => .of_pure hidle
  intro _
  refine Spec.throwIf_bind (fun _ => hidle) fun _ => ?_
  by_cases hneeds : w.session.closePending ∨
      (w.session.completed = false ∧ w.session.aborted = false)
  · rw [if_pos hneeds]
    refine Spec.bind (abortDisposition_idle hidle) fun _ w' hidle' => ?_
    exact SessionM.spec_modifySession (hclosed _ hidle')
  · rw [if_neg hneeds]
    exact SessionM.spec_modifySession (hclosed _ hidle)

/-! ## Runs -/

/-- The call delivers the material that overtakes the factor proofs. -/
def Input.CompletesHandoff (i : Input) (s : ReshareSession) : Prop :=
  match i with
  | .handle _ inbound _ _ => s.CompletesHandoff inbound.env
  | _ => False

instance (i : Input) (s : ReshareSession) : Decidable (i.CompletesHandoff s) :=
  match i with
  | .handle _ inbound _ _ => inferInstanceAs (Decidable (s.CompletesHandoff inbound.env))
  | .retry _ => .isFalse id
  | .abort _ _ _ => .isFalse id
  | .close _ _ => .isFalse id

theorem call_settled (hpaid : Paid w.session) (hsafe : Safe w.session) {i : Input}
    (hlast : ¬ i.CompletesHandoff w.session) :
    Spec (SettledSince w.session) (SettledWith w.session) (call i) w := by
  have hidle := Idle.refl hsafe
  have hnone : ∀ {x : Call Unit}, Spec (IdleSince w.session) (IdleSince w.session) x w →
      Spec (SettledSince w.session) (SettledWith w.session) (x >>= fun _ => pure []) w := by
    intro x hx
    refine Spec.bind (hx.imp (fun _ _ h => Idle.settled h hpaid (by simp)) fun _ _ h => h) ?_
    intro _ w' hidle'
    exact .of_pure (Idle.settled hidle' hpaid (by simp))
  cases i with
  | handle ctx inbound coins faults => exact handle_settled hpaid hsafe hlast
  | retry faults => exact retryLifecycleCommit_settled hpaid hsafe
  | abort ctx reason fault => exact hnone (abortSession_idle hidle)
  | close ctx fault => exact hnone (close_idle hidle)

theorem step_settled (hpaid : Paid w.session) (hsafe : Safe w.session) {i : Input}
    (hlast : ¬ i.CompletesHandoff w.session) :
    Settled w.session (step w i).1 (step w i).2.session := by
  have hcall := call_settled hpaid hsafe hlast
  show Settled w.session (returned (exec (call i) w).1) (exec (call i) w).2.session
  rcases hr : exec (call i) w with ⟨e | out, w'⟩
  · exact hcall.error hr
  · exact hcall.ok hr

/-! ## From the start -/

variable {ids : FMap PartyID Bytes}

theorem parties_of_identifiers {stableSID runSessionID : Array32} {sourceEpochID planHash : Bytes}
    {parties : PartySet} (h : deriveReshareProvisionalIdentifiers stableSID sourceEpochID
    runSessionID planHash parties = .ok ids) : validateStrictSortedIDs parties = .ok () := by
  iterate 2 obtain ⟨-, h⟩ := seq_eq_ok.mp h
  obtain ⟨hsorted, -⟩ := seq_eq_ok.mp h
  exact liftText_eq_ok.mp (mapError_eq_ok.mp hsorted)

/-- A new session has received nothing. -/
theorem materialOf_newSession (i : StartInput) (ids : FMap PartyID Bytes) (p : PartyID) :
    (newSession i ids).materialOf p = none := by
  rw [materialOf, newSession, FMap.lookup_ofKeys]
  split <;> rfl

theorem newSession_paid {i : StartInput} (hne : i.config.newParties ≠ []) :
    Paid (newSession i ids) := by
  have hfresh : ¬ (newSession i ids).PastMaterial := by
    rintro (hall | haux | hshare)
    · obtain ⟨p, hp⟩ := List.exists_mem_of_ne_nil _ hne
      have hsome := List.all_eq_true.mp hall p hp
      simp [materialOf_newSession] at hsome
    · cases haux
    · cases hshare
  exact ⟨fun _ h => (hfresh h).elim, fun _ h => (hfresh h).elim⟩

theorem newSession_safe {i : StartInput} (hnodup : i.config.newParties.Nodup) :
    Safe (newSession i ids) where
  nodup := hnodup
  finished := fun h => by cases h
  failed := fun h => by cases h
  final := fun h => by cases h
  role := fun h => by cases h
  outbox := fun e he => by cases he

/-- A receiver with nothing but its own material. -/
def withOwnMaterial (s : ReshareSession) (newPaillier : PrivateKey) (material : ReceiverMaterial) :
    ReshareSession :=
  modifyNewParty s.config.selfID (fun _ => ⟨some material, none, none⟩)
    { s with newPaillier := some newPaillier }

theorem startReceiver_eq_ok (h : exec (startReceiver coins) s = (.ok out, t)) :
    ∃ (newPaillier : PrivateKey) (material : ReceiverMaterial) (env : Envelope)
      (dealerOut : List Envelope), env.payloadType = payloadReshareReceiverMaterial ∧
      exec (maybeSendDealerMessages coins) (s.withOwnMaterial newPaillier material) =
        (.ok dealerOut, t) ∧ out = env :: dealerOut := by
  rw [startReceiver, exec_get_bind] at h
  obtain ⟨⟨newPaillier, material⟩, -, h⟩ := exec_outcome_bind_ok.mp h
  rw [exec_modify_bind, exec_modify_bind] at h
  obtain ⟨payload, -, h⟩ := exec_outcome_bind_ok.mp h
  obtain ⟨env, henv, h⟩ := exec_outcome_bind_ok.mp h
  obtain ⟨dealerOut, _, hdealer, h⟩ := exec_bind_ok.mp h
  cases h
  obtain ⟨signature, rfl⟩ := newEnvelope_eq_ok henv
  exact ⟨newPaillier, material, _, dealerOut, rfl, hdealer, rfl⟩

/-- A receiver that has all material at its start is alone in the new committee. -/
theorem others_of_withOwnMaterial {i : StartInput} {newPaillier : PrivateKey}
    {material : ReceiverMaterial} (h : ((newSession i ids).withOwnMaterial newPaillier
    material).allReshareReceiverMaterialReceived) : (newSession i ids).others = [] := by
  rw [others, List.filter_eq_nil_iff]
  intro p hp
  have hsome : ((modifyNewParty (newSession i ids).config.selfID
      (fun _ => ⟨some material, none, none⟩)
      { newSession i ids with newPaillier := some newPaillier }).materialOf p).isSome :=
    List.all_eq_true.mp h p hp
  by_cases hself : p = (newSession i ids).config.selfID
  · simp [hself]
  · rw [materialOf, lookup_modifyNewParty, if_neg hself] at hsome
    have hnone := materialOf_newSession i ids p
    rw [materialOf] at hnone
    simp [hnone] at hsome

theorem startReceiver_settled {i : StartInput} (hnodup : i.config.newParties.Nodup)
    (h : exec (startReceiver coins) (newSession i ids) = (.ok out, t)) :
    Settled (newSession i ids) out t := by
  obtain ⟨newPaillier, material, env, dealerOut, henv, hdealer, rfl⟩ := startReceiver_eq_ok h
  have hown : Delta (newSession i ids) [env]
      ((newSession i ids).withOwnMaterial newPaillier material) := by
    refine .of_quiet rfl rfl rfl fun e he => ?_
    obtain rfl := List.mem_singleton.mp he
    exact quiet_of_material henv
  have hdue : ((newSession i ids).withOwnMaterial newPaillier material).config.isDealer →
      ((newSession i ids).withOwnMaterial newPaillier material).auxInfo.isSome ∨
        ((newSession i ids).withOwnMaterial newPaillier material).newShare.isSome →
      ((newSession i ids).withOwnMaterial newPaillier material).dealerSent := by
    rintro - (haux | hshare)
    · cases haux
    · cases hshare
  obtain ⟨hdelta, hcarries, hdealt, -, -⟩ := maybeSendDealerMessages_paid hnodup hdue hdealer
  have hproved : t.PastMaterial → t.others = [] := by
    intro hpast
    rw [others_congr hcarries.config]
    rcases maybeSendDealerMessages_cases hdealer with ⟨-, -, rfl⟩ | ⟨-, -, hall, -⟩
    · rcases hpast with hall | haux | hshare
      · exact others_of_withOwnMaterial hall
      · cases haux
      · cases hshare
    · exact others_of_withOwnMaterial hall
  refine ⟨hown.append hdelta, ⟨hdealt, fun _ hpast => .inr (hproved hpast)⟩, ?_⟩
  constructor
  · rw [hcarries.config]
    exact hnodup
  · intro hfinished
    rw [hcarries.lifecycleFinished] at hfinished
    cases hfinished
  · intro hfailed
    rw [hcarries.figure7Failure] at hfailed
    cases hfailed
  · intro hfinal
    rw [hcarries.lifecycleFinal rfl] at hfinal
    cases hfinal
  · intro hshare
    rw [hcarries.newShare] at hshare
    cases hshare
  · rw [hcarries.lifecycleOutbox]
    intro e he
    cases he

theorem start_settled {i : StartInput} (h : start i coins = .ok (s, out)) :
    ∃ ids, i.config.newParties.Nodup ∧ Settled (newSession i ids) out s := by
  obtain ⟨ids, hids, h⟩ := bind_eq_ok.mp h
  iterate 3 obtain ⟨-, h⟩ := seq_eq_ok.mp h
  have hsorted := parties_of_identifiers (mapError_eq_ok.mp hids)
  have hnodup := nodup_of_validate hsorted
  refine ⟨ids, hnodup, ?_⟩
  split at h
  · split at h
    · next out' s' hexec =>
      cases h
      exact startReceiver_settled hnodup hexec
    · cases h
  · cases h
    have hne : i.config.newParties ≠ [] := by
      intro hnil
      rw [hnil] at hsorted
      cases hsorted
    exact (Idle.refl (newSession_safe hnodup)).settled (newSession_paid hne) (by simp)

/-! ## The messages that a run has returned -/

theorem count_of_pays {hit : Envelope → Bool} {after : Bool} (h : Pays hit out false after) :
    out.countP hit = after.toNat := h

/-- Over every run of a session of any role in which no receiver material completes the handoff
of an overlap party, a receiver that has started Figure 7 has returned exactly one factor proof
for every other new party, and a dealer that has all receiver material has returned its
commitments once and one share for every other new party. No message is returned twice. -/
theorem reshare_sends_owed {i : StartInput} {coins : LifecycleOps.Coins} {out : List Envelope}
    (hstart : start i coins = .ok (s, out)) (cache : ReplayCache) (store : MemoryLifecycleStore)
    (inputs : List Input)
    (horder : Run.Along step (fun w input => ¬ input.CompletesHandoff w.session)
      ⟨s, cache, store⟩ inputs) :
    let w := Run.final step ⟨s, cache, store⟩ inputs
    let sent := out ++ (Run.outputs step ⟨s, cache, store⟩ inputs).flatten
    (i.config.isReceiver → w.session.auxInfo.isSome ∨ w.session.newShare.isSome →
      ∀ p ∈ i.config.newParties, p ≠ i.config.selfID → sent.countP (isFactorProofTo p) = 1) ∧
    (i.config.isDealer → w.session.PastMaterial → sent.countP isDealerCommitments = 1 ∧
      ∀ p ∈ i.config.newParties, p ≠ i.config.selfID → sent.countP (isShareTo p) = 1) ∧
    sent.countP isDealerCommitments ≤ 1 ∧
    ∀ p ∈ i.config.newParties, p ≠ i.config.selfID →
      sent.countP (isShareTo p) ≤ 1 ∧ sent.countP (isFactorProofTo p) ≤ 1 := by
  obtain ⟨ids, hnodup, hsettled⟩ := start_settled hstart
  have hrun : Settled (newSession i ids)
      (out ++ ([] ++ Run.outputs step ⟨s, cache, store⟩ inputs).flatten)
      (Run.final step ⟨s, cache, store⟩ inputs).session := by
    have hinit : Settled (newSession i ids) (out ++ ([] : List (List Envelope)).flatten) s := by
      simpa using hsettled
    refine Run.outputs_inv (fun outputs w => Settled (newSession i ids) (out ++ outputs.flatten)
      w.session) ?_ hinit horder
    intro outputs w input h hlast
    have hstep := step_settled h.paid h.safe hlast
    rw [List.flatten_append, ← List.append_assoc, List.flatten_singleton]
    exact ⟨h.delta.append hstep.delta, hstep.paid, hstep.safe⟩
  rw [List.nil_append] at hrun
  intro w sent
  obtain ⟨hdelta, hpaid, -⟩ := hrun
  have hconfig : w.session.config = (newSession i ids).config := hdelta.config
  have hother : ∀ p ∈ i.config.newParties, p ≠ i.config.selfID → p ∈ (newSession i ids).others := by
    intro p hp hself
    exact List.mem_filter.mpr ⟨hp, decide_eq_true hself⟩
  have hcommitments := count_of_pays hdelta.commitments
  have hshares := fun p hp hself => count_of_pays (hdelta.shares p (hother p hp hself))
  have hfactors := fun p hp hself => count_of_pays (hdelta.factors p (hother p hp hself))
  refine ⟨?_, ?_, ?_, ?_⟩
  · intro hreceiver hlater p hp hself
    have hsent : w.session.factorProofsSent = true := by
      rcases hpaid.proved (by rw [hconfig]; exact hreceiver) (.inr hlater) with hsent | hnone
      · exact hsent
      · have hmem := hother p hp hself
        rw [← others_congr hconfig, hnone] at hmem
        cases hmem
    rw [hfactors p hp hself, hsent]
    rfl
  · intro hdealer hpast
    have hsent := hpaid.dealt (by rw [hconfig]; exact hdealer) hpast
    constructor
    · rw [hcommitments, hsent]
      rfl
    · intro p hp hself
      rw [hshares p hp hself, hsent]
      rfl
  · rw [hcommitments]
    exact Bool.toNat_le _
  · intro p hp hself
    rw [hshares p hp hself, hfactors p hp hself]
    exact ⟨Bool.toNat_le _, Bool.toNat_le _⟩

end Session

/-! ## Two parties that reshare among themselves -/

/-- The delivery policies of the handoff. -/
def handoffPolicies : PolicySet :=
  [⟨protocolCGGMP21Secp256k1, reshareStartRound, payloadReshareDealerCommitments, .broadcast,
      .optional, .required, false⟩,
    ⟨protocolCGGMP21Secp256k1, reshareShareRound, payloadReshareFactorProof, .direct, .optional,
      .none, true⟩,
    ⟨protocolCGGMP21Secp256k1, reshareShareRound, payloadReshareShare, .direct, .required, .none,
      true⟩,
    ⟨protocolCGGMP21Secp256k1, reshareStartRound, payloadReshareReceiverMaterial, .broadcast,
      .optional, .required, false⟩]

section Sample

/-- Receiver material whose proofs nobody looks at. -/
def emptyMaterial : ReceiverMaterial :=
  ⟨⟨15, 16, 225⟩, ⟨[], [], [], [], [], []⟩, ⟨15, 4, 16⟩, ⟨[], [], [], []⟩⟩

/-- A handoff without cryptography: every message is well formed and verifies. A factor proof
names its prover and its verifier. -/
@[reducible] def plainReshareOps [Curve] : ReshareOps where
  Coins := Unit
  AuxInfo := Unit
  AuxResult := Unit
  KeyShare := Unit
  prepareInbound := fun _ _ _ _ => .error (.new "not in the handoff")
  preparationError := fun _ _ e => e
  unmarshalConfirmation := fun _ _ => .error (.new "not in the handoff")
  verifyConfirmation := fun _ _ => .ok ()
  attachConfirmations := fun _ _ _ => .ok ()
  marshalKeyShare := fun _ _ => .ok []
  metadata := fun _ => none
  bindFailure := fun _ _ => none
  initReceiverMaterial := fun _ _ => .ok (⟨⟨15, 16, 225⟩, 4, 4, 3, 5⟩, emptyMaterial)
  marshalReceiverMaterial := fun _ _ => .ok [1]
  deal := fun _ _ _ _ => .ok ⟨[[1]], [2], 0, fun _ => .ok [3]⟩
  proveFactor := fun c _ _ verifier _ _ => .ok [c.selfID.toUInt8, verifier.toUInt8]
  unmarshalDealerCommitments := fun _ _ => .ok ⟨[[1]], sampleID.toList⟩
  unmarshalShare := fun _ _ =>
    .ok ⟨0, 0, [], [], ⟨0, 0, 0, 0, 0, 0, 0, []⟩, [], sampleID.toList⟩
  unmarshalReceiverMaterial := fun _ _ => .ok ⟨emptyMaterial, sampleID.toList⟩
  unmarshalFactorProof := fun _ payload =>
    .ok ⟨(payload.getD 0 0).toUInt32, (payload.getD 1 0).toUInt32, emptyMaterial.publicKey,
      ⟨0, 0, 0, 0, 0, 0, 0, 0, 0, 0, 0, []⟩, sampleID.toList⟩
  validateDealerCommitments := fun _ _ _ => .ok ()
  openShare := fun _ _ _ _ => .ok 0
  verifyReceiverMaterial := fun _ _ _ => .ok ()
  verifyFactorProof := fun _ _ _ _ => .ok ()
  groupPublicKey := fun _ _ => .ok []
  startAuxInfo := fun _ _ _ _ => .ok ((), [])
  buildShare := fun _ _ _ => .error (.new "not in the handoff")

variable [Sha256] [Curve]

/-- The reshare of parties 1 and 2 to the same two parties, at one of them. -/
def overlapStart (self : PartyID) : StartInput where
  config :=
    { sourceEpoch := sampleEpoch
      sourceEpochID := sampleID.toList
      paillierBits := 3072
      oldPublicKey := []
      oldChainCode := sampleID.toList
      dealerParties := [1, 2]
      newParties := [1, 2]
      newThreshold := 2
      selfID := self
      isDealer := true
      isReceiver := true
      cfg := ⟨2, [1, 2], self, sampleID, some fun _ => .ok [1]⟩
      limits := ProtocolLimits.default
      securityParams := .default
      planHash := sampleID.toList
      provisionalIDs := ∅ }
  guard :=
    { self
      protocol := protocolCGGMP21Secp256k1
      sessionID := sampleID
      policies := handoffPolicies
      ackVerifier := some fun _ _ _ => none
      envelopeVerifier := some fun _ _ _ => none }
  oldSecret := some 0
  lease := ⟨1, ⟨[1], [1], sampleID⟩, .reshare, sampleID, .active⟩
  source := ⟨[1], [1], sampleID⟩
  targetGeneration := [2]

/-- The delivery of an envelope, with a certificate of the two parties if it is a broadcast. -/
def deliver (e : Envelope) : InboundEnvelope where
  env := e
  receiveInfo := ⟨e.sender, .confidential⟩
  broadcast :=
    if e.recipient = broadcastPartyId then
      some ⟨e.protocol, e.sessionID, e.round, e.sender, e.payloadType, e.payloadHash, e.digest,
        [1, 2], [⟨1, e.payloadHash, e.digest, []⟩, ⟨2, e.payloadHash, e.digest, []⟩]⟩
    else none

/-- The delivery of an envelope, as a call. -/
def deliverInput [ReshareOps] (coins : LifecycleOps.Coins) (e : Envelope) : Input :=
  .handle .background (deliver e) coins ⟨.none, .none, .none, .none⟩

/-- A session with an empty cache and an empty store. -/
def freshWorld [ReshareOps] (s : ReshareSession) : World ReshareSession :=
  ⟨s, ⟨∅, 8⟩, newMemoryLifecycleStore⟩

/-- A test of party 1 as it starts, with what it sends then and what party 2 sends until it has
got that. -/
def overlapCheck [EvidenceEncoding]
    (check : letI := plainReshareOps; ReshareSession → List Envelope → List Envelope → Bool) : Bool :=
  letI := plainReshareOps
  match start (overlapStart 1) (), start (overlapStart 2) () with
  | .ok (s₁, out₁), .ok (s₂, out₂) => check s₁ out₁
      (out₂ ++ (Run.outputs step (freshWorld s₂) (out₁.map (deliverInput ()))).flatten)
  | _, _ => false

theorem overlapCheck_eq_true [EvidenceEncoding]
    {check : letI := plainReshareOps; ReshareSession → List Envelope → List Envelope → Bool}
    (h : overlapCheck check = true) :
    letI := plainReshareOps
    ∃ (s₁ s₂ : ReshareSession) (out₁ out₂ : List Envelope),
      start (overlapStart 1) () = .ok (s₁, out₁) ∧ start (overlapStart 2) () = .ok (s₂, out₂) ∧
      check s₁ out₁ (out₂ ++ (Run.outputs step (freshWorld s₂)
        (out₁.map (deliverInput ()))).flatten) = true := by
  unfold overlapCheck at h
  split at h
  · next s₁ out₁ s₂ out₂ h₁ h₂ => exact ⟨s₁, s₂, out₁, out₂, h₁, h₂, h⟩
  · cases h

end Sample

/-- Delivered in the order in which party 2 sent them, its messages make party 1 send all that it
owes. -/
theorem reshare_sends_owed_in_order :
    letI := Sha256.lastBytes
    letI := Secp256k1.Model.curve
    letI : EvidenceEncoding := ⟨fun _ _ => none⟩
    letI := plainReshareOps
    ∃ (s₁ s₂ : ReshareSession) (out₁ out₂ : List Envelope),
      start (overlapStart 1) () = .ok (s₁, out₁) ∧ start (overlapStart 2) () = .ok (s₂, out₂) ∧
      let inputs := (out₂ ++ (Run.outputs step (freshWorld s₂)
        (out₁.map (deliverInput ()))).flatten).map (deliverInput ())
      let sent := out₁ ++ (Run.outputs step (freshWorld s₁) inputs).flatten
      (Run.final step (freshWorld s₁) inputs).session.auxInfo.isSome ∧
      sent.countP (isFactorProofTo 2) = 1 ∧ sent.countP isDealerCommitments = 1 ∧
      sent.countP (isShareTo 2) = 1 := by
  let := Sha256.lastBytes
  let := Secp256k1.Model.curve
  let : EvidenceEncoding := ⟨fun _ _ => none⟩
  let := plainReshareOps
  have hrun : overlapCheck (fun s₁ _ sent =>
      let inputs := sent.map (deliverInput ())
      (Run.final step (freshWorld s₁) inputs).session.auxInfo.isSome &&
        decide (Run.Along step (fun w input => ¬ input.CompletesHandoff w.session)
          (freshWorld s₁) inputs)) = true := by
    decide +kernel
  obtain ⟨s₁, s₂, out₁, out₂, h₁, h₂, hrun⟩ := overlapCheck_eq_true hrun
  obtain ⟨haux, horder⟩ := Bool.and_eq_true_iff.mp hrun
  obtain ⟨hproofs, hmessages, -⟩ :=
    reshare_sends_owed h₁ ⟨∅, 8⟩ newMemoryLifecycleStore _ (of_decide_eq_true horder)
  obtain ⟨hcommitments, hshares⟩ := hmessages rfl (.inr (.inl haux))
  exact ⟨s₁, s₂, out₁, out₂, h₁, h₂, haux, hproofs rfl (.inl haux) 2 (by decide) (by decide),
    hcommitments, hshares 2 (by decide) (by decide)⟩

/-- Party 2 gets the material of party 1 and returns its commitments, a share and a factor proof.
They reach party 1 before the material that party 2 broadcast at its start. Party 1 then starts
Figure 7 and has returned no factor proof for party 2. -/
theorem reshare_overtaken :
    letI := Sha256.lastBytes
    letI := Secp256k1.Model.curve
    letI : EvidenceEncoding := ⟨fun _ _ => none⟩
    letI := plainReshareOps
    ∃ (s₁ s₂ : ReshareSession) (out₁ out₂ : List Envelope)
      (commitments share proof material : Envelope),
      start (overlapStart 1) () = .ok (s₁, out₁) ∧ start (overlapStart 2) () = .ok (s₂, out₂) ∧
      out₂ ++ (Run.outputs step (freshWorld s₂) (out₁.map (deliverInput ()))).flatten =
        [material, commitments, share, proof] ∧
      let inputs := [commitments, share, proof, material].map (deliverInput ())
      (Run.final step (freshWorld s₁) inputs).session.auxInfo.isSome ∧
      (out₁ ++ (Run.outputs step (freshWorld s₁) inputs).flatten).countP (isFactorProofTo 2) = 0 := by
  let := Sha256.lastBytes
  let := Secp256k1.Model.curve
  let : EvidenceEncoding := ⟨fun _ _ => none⟩
  let := plainReshareOps
  have hrun : overlapCheck (fun s₁ out₁ sent =>
      let inputs := (sent.tail ++ sent.take 1).map (deliverInput ())
      decide (sent.length = 4) && ((Run.final step (freshWorld s₁) inputs).session.auxInfo.isSome &&
        (out₁ ++ (Run.outputs step (freshWorld s₁) inputs).flatten).countP
          (isFactorProofTo 2) == 0)) = true := by
    decide +kernel
  obtain ⟨s₁, s₂, out₁, out₂, h₁, h₂, hrun⟩ := overlapCheck_eq_true hrun
  simp only [Bool.and_eq_true_iff, decide_eq_true_eq, List.length_eq_four] at hrun
  obtain ⟨⟨material, commitments, share, proof, hsent⟩, haux, hcount⟩ := hrun
  rw [hsent] at haux hcount
  exact ⟨s₁, s₂, out₁, out₂, commitments, share, proof, material, h₁, h₂, hsent, haux,
    of_decide_eq_true hcount⟩

end ReshareSession

end Tss.Cggmp21
