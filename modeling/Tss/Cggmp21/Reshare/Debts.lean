import Tss.Cggmp21.Reshare.Handle

/-!
# The messages that a reshare owes

A dealer owes its commitments and one share to every other new party once it
has all receiver material, and a receiver owes every other new party a factor
proof before it starts Figure 7. The session keeps the two debts in
`dealerSent` and `factorProofsSent`: what it has returned agrees with the two
flags (`Delta`), and they are set when they have to be (`Paid`).

One arrival breaks the second half. At a party that is dealer and receiver, the
last receiver material makes it send its dealer messages, which can complete
the handoff and start Figure 7. Starting Figure 7 clears the material that the
factor proofs are made from, and they are never sent.
-/

set_option linter.unusedSectionVars false

namespace Tss.Cggmp21

open Secp256k1 Fallible Paillier Lifecycle Proc

/-! ## Kinds of envelopes -/

/-- The commitments of a dealer. -/
def isDealerCommitments (e : Envelope) : Bool := e.payloadType = payloadReshareDealerCommitments

/-- The share for a receiver. -/
def isShareTo (p : PartyID) (e : Envelope) : Bool :=
  e.payloadType = payloadReshareShare && e.recipient = p

/-- The factor proof for a receiver. -/
def isFactorProofTo (p : PartyID) (e : Envelope) : Bool :=
  e.payloadType = payloadReshareFactorProof && e.recipient = p

/-- None of the messages that are owed. -/
def Quiet (e : Envelope) : Prop :=
  e.payloadType ∉ [payloadReshareDealerCommitments, payloadReshareShare, payloadReshareFactorProof]

theorem owedPayloads_distinct :
    [payloadReshareDealerCommitments, payloadReshareShare, payloadReshareFactorProof].Nodup := by
  decide

theorem auxInfoPayloads_quiet : ∀ t ∈ auxInfoPayloads,
    t ∉ [payloadReshareDealerCommitments, payloadReshareShare, payloadReshareFactorProof] := by
  decide

theorem AuxEnvelope.quiet (e : AuxEnvelope) : Quiet e.1 :=
  auxInfoPayloads_quiet _ (by simpa [isAuxInfoPayload] using e.2)

theorem quiet_of_confirmation {e : Envelope} (h : e.payloadType = payloadKeygenConfirmation) :
    Quiet e := by
  rw [Quiet, h]
  decide

theorem quiet_of_material {e : Envelope} (h : e.payloadType = payloadReshareReceiverMaterial) :
    Quiet e := by
  rw [Quiet, h]
  decide

namespace Quiet

variable {e : Envelope}

theorem not_commitments (h : Quiet e) : isDealerCommitments e = false := by
  simp_all [Quiet, isDealerCommitments]

theorem not_share (h : Quiet e) (p : PartyID) : isShareTo p e = false := by
  simp_all [Quiet, isShareTo]

theorem not_factorProof (h : Quiet e) (p : PartyID) : isFactorProofTo p e = false := by
  simp_all [Quiet, isFactorProofTo]

end Quiet

theorem countP_eq_zero_of_quiet {hit : Envelope → Bool} (hhit : ∀ e, Quiet e → hit e = false)
    {out : List Envelope} (h : ∀ e ∈ out, Quiet e) : out.countP hit = 0 := by
  rw [List.countP_eq_zero]
  intro e he
  simp [hhit e (h e he)]

namespace ReshareSession

section Session

variable [Sha256] [Curve] [EvidenceEncoding] [ReshareOps] {s t u : ReshareSession}

/-! ## What a body does to the two debts -/

/-- The envelopes that match are as many as the flag was raised. -/
def Pays (hit : Envelope → Bool) (out : List Envelope) (before after : Bool) : Prop :=
  out.countP hit + before.toNat = after.toNat

variable {out : List Envelope}

theorem Pays.append {hit : Envelope → Bool} {out' : List Envelope} {a b c : Bool}
    (h : Pays hit out a b) (h' : Pays hit out' b c) : Pays hit (out ++ out') a c := by
  rw [Pays, List.countP_append]
  unfold Pays at h h'
  omega

theorem Pays.of_none {hit : Envelope → Bool} {a : Bool} (h : out.countP hit = 0) :
    Pays hit out a a := by
  rw [Pays, h, Nat.zero_add]

/-- The envelopes `out` are what raises the flags of `s` to those of `t`. -/
structure Delta (s : ReshareSession) (out : List Envelope) (t : ReshareSession) : Prop where
  config : t.config = s.config
  commitments : Pays isDealerCommitments out s.dealerSent t.dealerSent
  shares : ∀ p ∈ s.others, Pays (isShareTo p) out s.dealerSent t.dealerSent
  factors : ∀ p ∈ s.others, Pays (isFactorProofTo p) out s.factorProofsSent t.factorProofsSent

theorem others_congr (h : t.config = s.config) : t.others = s.others := by
  rw [others, others, h]

theorem Delta.append {out' : List Envelope} (h : Delta s out t) (h' : Delta t out' u) :
    Delta s (out ++ out') u where
  config := h'.config.trans h.config
  commitments := h.commitments.append h'.commitments
  shares := fun p hp => (h.shares p hp).append (h'.shares p (others_congr h.config ▸ hp))
  factors := fun p hp => (h.factors p hp).append (h'.factors p (others_congr h.config ▸ hp))

/-- Envelopes that are not owed, and no flag raised. -/
theorem Delta.of_quiet (hconfig : t.config = s.config) (hdealer : t.dealerSent = s.dealerSent)
    (hfactor : t.factorProofsSent = s.factorProofsSent) (hout : ∀ e ∈ out, Quiet e) :
    Delta s out t where
  config := hconfig
  commitments := by
    rw [hdealer]
    exact .of_none (countP_eq_zero_of_quiet (fun _ h => h.not_commitments) hout)
  shares := fun p _ => by
    rw [hdealer]
    exact .of_none (countP_eq_zero_of_quiet (fun _ h => h.not_share p) hout)
  factors := fun p _ => by
    rw [hfactor]
    exact .of_none (countP_eq_zero_of_quiet (fun _ h => h.not_factorProof p) hout)

/-- The receiver material is complete, or was when Figure 7 started. -/
def PastMaterial (s : ReshareSession) : Prop :=
  s.allReshareReceiverMaterialReceived ∨ s.auxInfo.isSome ∨ s.newShare.isSome

/-- The debts that are due are paid. -/
structure Paid (s : ReshareSession) : Prop where
  dealt : s.config.isDealer → s.PastMaterial → s.dealerSent
  proved : s.config.isReceiver → s.PastMaterial → s.factorProofsSent ∨ s.others = []

/-- A state that is past the material no more than `s`, with the flags of `s`. -/
theorem Paid.of_past (h : Paid s) (hconfig : t.config = s.config)
    (hdealer : t.dealerSent = s.dealerSent) (hfactor : t.factorProofsSent = s.factorProofsSent)
    (hpast : t.PastMaterial → s.PastMaterial) : Paid t where
  dealt := fun hd hp => hdealer ▸ h.dealt (hconfig ▸ hd) (hpast hp)
  proved := fun hr hp => by
    rw [hfactor, others_congr hconfig]
    exact h.proved (hconfig ▸ hr) (hpast hp)

/-! ### Storing -/

@[simp] theorem materialOf_cleanup (s : ReshareSession) (p : PartyID) :
    s.cleanupTemporaryReshareHandoff.materialOf p = none := by
  rw [materialOf, cleanupTemporaryReshareHandoff, FMap.lookup_mapVals]
  cases s.newPartyData.lookup p <;> rfl

/-- Cleaned of its material, a session is past it only if nothing was to be received. -/
theorem all_of_cleanup (h : s.cleanupTemporaryReshareHandoff.allReshareReceiverMaterialReceived) :
    s.allReshareReceiverMaterialReceived := by
  have hnone : ∀ p ∈ s.config.newParties, False := by
    intro p hp
    have := List.all_eq_true.mp h p hp
    simp at this
  rw [allReshareReceiverMaterialReceived, List.all_eq_true]
  intro p hp
  exact (hnone p hp).elim

theorem lookup_modifyNewParty (id p : PartyID) (f : ReshareNewPartyData → ReshareNewPartyData)
    (s : ReshareSession) : (s.modifyNewParty id f).newPartyData.lookup p =
      if p = id then some (f ((s.newPartyData.lookup id).getD ⟨none, none, none⟩))
      else s.newPartyData.lookup p := by
  rw [modifyNewParty, FMap.lookup_insert_ite]

theorem lookup_modifyDealer (id p : PartyID) (f : ReshareDealerPartyData → ReshareDealerPartyData)
    (s : ReshareSession) : (s.modifyDealer id f).dealerData.lookup p =
      if p = id then some (f ((s.dealerData.lookup id).getD ⟨none, none⟩))
      else s.dealerData.lookup p := by
  rw [modifyDealer, FMap.lookup_insert_ite]

/-- What an update keeps of the material, it keeps of all material. -/
theorem all_of_modifyNewParty {id : PartyID} {f : ReshareNewPartyData → ReshareNewPartyData}
    (hf : ∀ d, (f d).material = d.material)
    (h : (s.modifyNewParty id f).allReshareReceiverMaterialReceived) :
    s.allReshareReceiverMaterialReceived := by
  rw [allReshareReceiverMaterialReceived, List.all_eq_true] at h ⊢
  intro p hp
  have hsome := h p hp
  rw [materialOf, lookup_modifyNewParty] at hsome
  by_cases hid : p = id
  · subst hid
    rw [if_pos rfl, Option.bind_some, hf] at hsome
    rw [materialOf]
    cases hl : s.newPartyData.lookup p with
    | none =>
      rw [hl] at hsome
      exact hsome
    | some d =>
      rw [hl] at hsome
      exact hsome
  · rw [if_neg hid] at hsome
    exact hsome

/-! ### What a body can do -/

theorem stageReshareRetirement_eq_ok {confirmation : Option KeygenConfirmation}
    (h : exec (stageReshareRetirement confirmation) s = (.ok (), t)) :
    ∃ target, t = { s with lifecycleRetirement := some target } := by
  cases confirmation with
  | none => simp [stageReshareRetirement, exec_bind] at h
  | some confirmation =>
    rw [stageReshareRetirement, exec_get_bind] at h
    obtain ⟨target, -, h⟩ := exec_outcome_bind_ok.mp h
    cases h
    exact ⟨target, rfl⟩

theorem tryCompleteDealerOnly_cases (h : exec tryCompleteDealerOnly s = (.ok (), t)) :
    t = s ∨ (s.allReshareConfirmationsReceived ∧
      ∃ target, t = { s.cleanupTemporaryReshareHandoff with lifecycleRetirement := some target }) := by
  rw [tryCompleteDealerOnly, exec_get_bind] at h
  rcases exec_ite_ok.mp h with ⟨-, h⟩ | ⟨-, h⟩
  · obtain ⟨_, -, h⟩ := exec_outcome_bind_ok.mp h
    obtain ⟨-, h⟩ := exec_throwIf_bind_ok.mp h
    rcases exec_ite_ok.mp h with ⟨hall, h⟩ | ⟨-, h⟩
    · obtain ⟨_, -, h⟩ := exec_outcome_bind_ok.mp h
      rw [exec_modify_bind] at h
      obtain ⟨target, rfl⟩ := stageReshareRetirement_eq_ok h
      exact .inr ⟨hall, target, rfl⟩
    · cases h
      exact .inl rfl
  · cases h
    exact .inl rfl

theorem stageReshareFinal_eq_ok {share : LifecycleOps.KeyShare}
    (h : exec (stageReshareFinal share) s = (.ok (), t)) :
    t = { s with lifecycleFinal := some share } := by
  rw [stageReshareFinal, exec_get_bind] at h
  iterate 3 obtain ⟨-, h⟩ := exec_throwIf_bind_ok.mp h
  cases h
  rfl

theorem finalizeConfirmedShare_eq_ok (h : exec finalizeConfirmedShare s = (.ok (), t)) :
    ∃ share, t = { s with lifecycleFinal := some share } := by
  rw [finalizeConfirmedShare, exec_get_bind] at h
  split at h
  · cases h
  · obtain ⟨final, -, h⟩ := exec_outcome_bind_ok.mp h
    exact ⟨final, stageReshareFinal_eq_ok (exec_mapError_ok.mp h)⟩

/-- The handoff is complete. -/
def HandedOff (s : ReshareSession) : Prop :=
  s.allReshareDealerDataReceived ∧ s.allReshareReceiverMaterialReceived ∧
    s.allReshareFactorProofsReceived

variable {coins : LifecycleOps.Coins}

theorem tryComplete_cases (h : exec (tryComplete coins) s = (.ok out, t)) :
    (out = [] ∧ t = s) ∨
    (s.config.isReceiver = false ∧ out = [] ∧ s.allReshareConfirmationsReceived ∧
      ∃ target, t = { s.cleanupTemporaryReshareHandoff with lifecycleRetirement := some target }) ∨
    (s.newShare.isSome ∧ out = [] ∧ ∃ final, t = { s with lifecycleFinal := some final }) ∨
    (s.config.isReceiver ∧ s.HandedOff ∧ ∃ (auxInfo : LifecycleOps.AuxInfo) (sent : List AuxEnvelope),
      out = sent.map (·.1) ∧
        t = { s.cleanupTemporaryReshareHandoff with auxInfo := some auxInfo }) := by
  rw [tryComplete, exec_get_bind] at h
  rcases exec_ite_ok.mp h with ⟨-, h⟩ | ⟨-, h⟩
  · cases h
    exact .inl ⟨rfl, rfl⟩
  rcases exec_ite_ok.mp h with ⟨hreceiver, h⟩ | ⟨hreceiver, h⟩
  · obtain ⟨_, t', hdealer, h⟩ := exec_bind_ok.mp h
    cases h
    rcases tryCompleteDealerOnly_cases hdealer with rfl | ⟨hall, htarget⟩
    · exact .inl ⟨rfl, rfl⟩
    · exact .inr (.inl ⟨hreceiver, rfl, hall, htarget⟩)
  rcases exec_ite_ok.mp h with ⟨hshare, h⟩ | ⟨-, h⟩
  · rcases exec_ite_ok.mp h with ⟨-, h⟩ | ⟨-, h⟩
    · obtain ⟨_, t', hfinal, h⟩ := exec_bind_ok.mp h
      cases h
      exact .inr (.inr (.inl ⟨hshare, rfl, finalizeConfirmedShare_eq_ok hfinal⟩))
    · cases h
      exact .inl ⟨rfl, rfl⟩
  rcases exec_ite_ok.mp h with ⟨-, h⟩ | ⟨-, h⟩
  · cases h
    exact .inl ⟨rfl, rfl⟩
  rcases exec_ite_ok.mp h with ⟨hready, h⟩ | ⟨-, h⟩
  · rw [startReshareAuxInfo, exec_get_bind] at h
    obtain ⟨⟨auxInfo, sent⟩, -, h⟩ := exec_outcome_bind_ok.mp h
    cases h
    exact .inr (.inr (.inr ⟨by simpa using hreceiver, hready, auxInfo, sent, rfl, rfl⟩))
  · cases h
    exact .inl ⟨rfl, rfl⟩

/-- The messages of a dealer: its commitments, and a share for each of the others. -/
theorem dealerMessages_eq_ok (h : exec (dealerMessages coins) s = (.ok out, t)) :
    ∃ (dealing : Dealing) (env : Envelope) (shares : List Envelope),
      env.payloadType = payloadReshareDealerCommitments ∧
      s.others.mapM (s.dealerShareEnvelope dealing) = .ok shares ∧ out = env :: shares ∧
      t = s.modifyDealer s.config.selfID fun d =>
        ⟨some dealing.commitments,
          if s.config.isReceiver then some dealing.selfShare else d.share⟩ := by
  rw [dealerMessages, exec_get_bind] at h
  split at h
  · cases h
  · obtain ⟨dealing, -, h⟩ := exec_outcome_bind_ok.mp h
    obtain ⟨env, henv, h⟩ := exec_outcome_bind_ok.mp h
    obtain ⟨shares, hshares, h⟩ := exec_outcome_bind_ok.mp h
    iterate 2 obtain ⟨-, h⟩ := exec_throwIf_bind_ok.mp h
    cases h
    obtain ⟨signature, rfl⟩ := newEnvelope_eq_ok henv
    exact ⟨dealing, _, shares, rfl, hshares, rfl, rfl⟩

/-- `maybeSendDealerMessages` sends nothing, or sends the dealer's messages and goes on. -/
theorem maybeSendDealerMessages_cases (h : exec (maybeSendDealerMessages coins) s = (.ok out, t)) :
    (¬ (s.config.isDealer ∧ s.dealerSent = false ∧ s.allReshareReceiverMaterialReceived) ∧
      out = [] ∧ t = s) ∨
    (s.config.isDealer ∧ s.dealerSent = false ∧ s.allReshareReceiverMaterialReceived ∧
      ∃ (messages completionOut : List Envelope) (u : ReshareSession),
        exec (dealerMessages coins) s = (.ok messages, u) ∧
        exec (tryComplete coins) { u with dealerSent := true } = (.ok completionOut, t) ∧
        out = messages ++ completionOut) := by
  rw [maybeSendDealerMessages, exec_get_bind] at h
  rcases exec_ite_ok.mp h with ⟨⟨hdealer, hsent, hall⟩, h⟩ | ⟨hnot, h⟩
  · obtain ⟨messages, u, hmessages, h⟩ := exec_bind_ok.mp h
    rw [exec_modify_bind] at h
    obtain ⟨completionOut, _, hcomplete, h⟩ := exec_bind_ok.mp h
    cases h
    exact .inr ⟨hdealer, hsent, hall, messages, completionOut, u, hmessages, hcomplete, rfl⟩
  · cases h
    exact .inl ⟨hnot, rfl, rfl⟩

theorem maybeSendReceiverFactorProofs_cases
    (h : exec (maybeSendReceiverFactorProofs coins) s = (.ok out, t)) :
    (¬ (s.config.isReceiver ∧ s.factorProofsSent = false ∧
        s.allReshareReceiverMaterialReceived) ∧ out = [] ∧ t = s) ∨
    (s.config.isReceiver ∧ s.factorProofsSent = false ∧ s.allReshareReceiverMaterialReceived ∧
      s.others.mapM (s.factorProofEnvelope coins) = .ok out ∧
      t = { s with factorProofsSent := true }) := by
  rw [maybeSendReceiverFactorProofs, exec_get_bind] at h
  rcases exec_ite_ok.mp h with ⟨⟨hreceiver, hsent, hall⟩, h⟩ | ⟨hnot, h⟩
  · obtain ⟨proofs, hproofs, h⟩ := exec_outcome_bind_ok.mp h
    cases h
    exact .inr ⟨hreceiver, hsent, hall, hproofs, rfl⟩
  · cases h
    exact .inl ⟨hnot, rfl, rfl⟩

/-! ### Envelopes for each of the others -/

theorem type_of_mapM {payloadType : GoString} {f : PartyID → Except GoError Envelope}
    (hf : ∀ id e, f id = .ok e → e.payloadType = payloadType ∧ e.recipient = id) {ids : PartySet}
    (h : ids.mapM f = .ok out) : ∀ e ∈ out, e.payloadType = payloadType := by
  intro e he
  obtain ⟨id, -, hid⟩ := mapM_mem_ok h e he
  exact (hf id e hid).1

/-- Envelopes of one kind, one for each party of a list, are one for each. -/
theorem countP_recipient {payloadType : GoString} {f : PartyID → Except GoError Envelope}
    (hf : ∀ id e, f id = .ok e → e.payloadType = payloadType ∧ e.recipient = id) {ids : PartySet}
    (hids : ids.Nodup) (h : ids.mapM f = .ok out) {p : PartyID} (hp : p ∈ ids) :
    out.countP (fun e => e.payloadType = payloadType && e.recipient = p) = 1 := by
  have hmap : out.map (·.recipient) = ids := mapM_map_eq (fun id e he => (hf id e he).2) h
  have htype := type_of_mapM hf h
  calc out.countP (fun e => e.payloadType = payloadType && e.recipient = p)
      = out.countP ((· == p) ∘ (·.recipient)) := by
        apply List.countP_congr
        intro e he
        simp [htype e he]
    _ = ids.count p := by rw [← List.countP_map, hmap, List.count]
    _ = 1 := List.count_eq_one_of_mem hids hp

/-- Envelopes of one kind are none of another. -/
theorem countP_other {payloadType other : GoString} (hne : payloadType ≠ other)
    (h : ∀ e ∈ out, e.payloadType = payloadType) {hit : Envelope → Bool}
    (hhit : ∀ e, hit e = true → e.payloadType = other) : out.countP hit = 0 := by
  rw [List.countP_eq_zero]
  intro e he htrue
  exact hne ((h e he).symm.trans (hhit e htrue))

theorem dealerShareEnvelope_eq_ok {dealing : Dealing} {id : PartyID} {e : Envelope}
    (h : s.dealerShareEnvelope dealing id = .ok e) :
    e.payloadType = payloadReshareShare ∧ e.recipient = id := by
  obtain ⟨payload, -, h⟩ := bind_eq_ok.mp h
  obtain ⟨signature, rfl⟩ := newEnvelope_eq_ok h
  exact ⟨rfl, rfl⟩

theorem factorProofEnvelope_eq_ok {id : PartyID} {e : Envelope}
    (h : s.factorProofEnvelope coins id = .ok e) :
    e.payloadType = payloadReshareFactorProof ∧ e.recipient = id := by
  rw [factorProofEnvelope] at h
  split at h
  · obtain ⟨payload, -, h⟩ := bind_eq_ok.mp h
    obtain ⟨signature, rfl⟩ := newEnvelope_eq_ok h
    exact ⟨rfl, rfl⟩
  · cases h

theorem others_nodup (h : s.config.newParties.Nodup) : s.others.Nodup := h.filter _

/-- The dealer's messages pay the dealer's debt. -/
theorem dealerMessages_delta (hnodup : s.config.newParties.Nodup) (hsent : s.dealerSent = false)
    (h : exec (dealerMessages coins) s = (.ok out, t)) :
    Delta s out { t with dealerSent := true } := by
  obtain ⟨dealing, env, shares, henv, hshares, rfl, rfl⟩ := dealerMessages_eq_ok h
  have hne := owedPayloads_distinct
  simp only [List.nodup_cons, List.mem_cons, not_or, List.not_mem_nil, not_false_iff] at hne
  have hf : ∀ id e, s.dealerShareEnvelope dealing id = .ok e →
      e.payloadType = payloadReshareShare ∧ e.recipient = id :=
    fun _ _ => dealerShareEnvelope_eq_ok
  have htype := type_of_mapM hf hshares
  constructor
  · rfl
  · have hzero : shares.countP isDealerCommitments = 0 :=
      countP_other (fun h => hne.1.1 h.symm) htype fun e he => of_decide_eq_true he
    have hone : isDealerCommitments env = true := decide_eq_true henv
    rw [Pays, List.countP_cons_of_pos hone, hzero, hsent]
    rfl
  · intro p hp
    have hone := countP_recipient hf (others_nodup hnodup) hshares hp
    have hmiss : ¬ isShareTo p env = true := by
      rw [isShareTo, henv]
      simp [hne.1.1]
    rw [Pays, List.countP_cons_of_neg hmiss, hsent]
    exact congrArg (· + 0) hone
  · intro p _
    apply Pays.of_none
    have hzero : shares.countP (isFactorProofTo p) = 0 :=
      countP_other hne.2.1.1 htype fun e he => by simp_all [isFactorProofTo]
    have hmiss : ¬ isFactorProofTo p env = true := by
      rw [isFactorProofTo, henv]
      simp [hne.1.2.1]
    rw [List.countP_cons_of_neg hmiss, hzero]

/-- The factor proofs pay the receiver's debt. -/
theorem factorProofs_delta (hnodup : s.config.newParties.Nodup) (hsent : s.factorProofsSent = false)
    (h : s.others.mapM (s.factorProofEnvelope coins) = .ok out) :
    Delta s out { s with factorProofsSent := true } := by
  have hne := owedPayloads_distinct
  simp only [List.nodup_cons, List.mem_cons, not_or, List.not_mem_nil, not_false_iff] at hne
  have hf : ∀ id e, s.factorProofEnvelope coins id = .ok e →
      e.payloadType = payloadReshareFactorProof ∧ e.recipient = id :=
    fun _ _ => factorProofEnvelope_eq_ok
  have htype := type_of_mapM hf h
  constructor
  · rfl
  · apply Pays.of_none
    exact countP_other (fun h => hne.1.2.1 h.symm) htype fun e he => of_decide_eq_true he
  · intro p _
    apply Pays.of_none
    exact countP_other (fun h => hne.2.1.1 h.symm) htype fun e he => by simp_all [isShareTo]
  · intro p hp
    have hone := countP_recipient hf (others_nodup hnodup) h hp
    rw [Pays, hsent]
    exact congrArg (· + 0) hone

/-! ### Messages of the handoff -/

variable {env : Envelope}

theorem applyReshareDealerCommitments_eq_ok
    (h : exec (applyReshareDealerCommitments env) s = (.ok (), t)) :
    ∃ f, t = s.modifyDealer env.sender f := by
  rw [applyReshareDealerCommitments, exec_get_bind] at h
  obtain ⟨-, h⟩ := exec_throwIf_bind_ok.mp h
  split at h
  · cases h
  · obtain ⟨-, h⟩ := exec_throwIf_bind_ok.mp h
    obtain ⟨p, -, h⟩ := exec_outcome_bind_ok.mp h
    iterate 2 obtain ⟨_, -, h⟩ := exec_outcome_bind_ok.mp h
    cases h
    exact ⟨_, rfl⟩

theorem applyReshareShareInbound_eq_ok (h : exec (applyReshareShareInbound env) s = (.ok (), t)) :
    ∃ f, t = s.modifyDealer env.sender f := by
  rw [applyReshareShareInbound, exec_get_bind] at h
  iterate 2 obtain ⟨-, h⟩ := exec_throwIf_bind_ok.mp h
  obtain ⟨p, -, h⟩ := exec_outcome_bind_ok.mp h
  obtain ⟨_, -, h⟩ := exec_outcome_bind_ok.mp h
  split at h
  · cases h
  · obtain ⟨-, h⟩ := exec_throwIf_bind_ok.mp h
    obtain ⟨-, h⟩ := exec_throwIf_bind_ok.mp h
    obtain ⟨share, -, h⟩ := exec_outcome_bind_ok.mp h
    cases h
    exact ⟨_, rfl⟩

theorem applyReshareFactorProof_eq_ok (h : exec (applyReshareFactorProof env) s = (.ok (), t)) :
    ∃ factor, t = s.modifyNewParty env.sender fun d => { d with factor := some factor } := by
  rw [applyReshareFactorProof, exec_get_bind] at h
  obtain ⟨-, h⟩ := exec_throwIf_bind_ok.mp h
  obtain ⟨p, -, h⟩ := exec_outcome_bind_ok.mp h
  obtain ⟨-, h⟩ := exec_throwIf_bind_ok.mp h
  obtain ⟨_, -, h⟩ := exec_outcome_bind_ok.mp h
  obtain ⟨-, h⟩ := exec_throwIf_bind_ok.mp h
  split at h
  · cases h
  · obtain ⟨_, -, h⟩ := exec_outcome_bind_ok.mp h
    obtain ⟨-, h⟩ := exec_throwIf_bind_ok.mp h
    cases h
    exact ⟨_, rfl⟩

/-- Storing the material of a party drops its confirmation. -/
def storeMaterial (id : PartyID) (material : ReceiverMaterial) (s : ReshareSession) :
    ReshareSession :=
  s.modifyNewParty id fun d => ⟨some material, d.factor, none⟩

theorem materialOf_storeMaterial_of_ne {id p : PartyID} (material : ReceiverMaterial) (h : p ≠ id) :
    (s.storeMaterial id material).materialOf p = s.materialOf p := by
  rw [materialOf, storeMaterial, lookup_modifyNewParty, if_neg h]
  rfl

theorem factorOf_storeMaterial (id : PartyID) (material : ReceiverMaterial) (p : PartyID) :
    (s.storeMaterial id material).factorOf p = s.factorOf p := by
  rw [factorOf, storeMaterial, lookup_modifyNewParty, factorOf]
  by_cases h : p = id
  · subst h
    cases s.newPartyData.lookup p <;> simp
  · rw [if_neg h]

theorem confirmationOf_storeMaterial (id : PartyID) (material : ReceiverMaterial) :
    (s.storeMaterial id material).confirmationOf id = none := by
  rw [confirmationOf, storeMaterial, lookup_modifyNewParty, if_pos rfl]
  rfl

/-- Receiver material is stored, then the dealer's messages are sent, then the factor proofs. -/
theorem applyReshareReceiverMaterial_eq_ok
    (h : exec (applyReshareReceiverMaterial coins env) s = (.ok out, t)) :
    ∃ (material : ReceiverMaterial) (u : ReshareSession) (dealt proved : List Envelope),
      exec (maybeSendDealerMessages coins) (s.storeMaterial env.sender material) = (.ok dealt, u) ∧
      exec (maybeSendReceiverFactorProofs coins) u = (.ok proved, t) ∧ out = dealt ++ proved := by
  rw [applyReshareReceiverMaterial, exec_get_bind] at h
  obtain ⟨-, h⟩ := exec_throwIf_bind_ok.mp h
  split at h
  · cases h
  · obtain ⟨-, h⟩ := exec_throwIf_bind_ok.mp h
    obtain ⟨p, -, h⟩ := exec_outcome_bind_ok.mp h
    obtain ⟨_, -, h⟩ := exec_outcome_bind_ok.mp h
    obtain ⟨_, stored, hstore, h⟩ := exec_bind_ok.mp h
    obtain ⟨dealt, u, hdealt, h⟩ := exec_bind_ok.mp h
    obtain ⟨proved, _, hproved, h⟩ := exec_bind_ok.mp h
    cases h
    rw [verifyAndStoreReceiverMaterial, exec_get_bind] at hstore
    obtain ⟨-, hstore⟩ := exec_throwIf_bind_ok.mp hstore
    obtain ⟨_, -, hstore⟩ := exec_outcome_bind_ok.mp hstore
    cases hstore
    exact ⟨p.material, u, dealt, proved, hdealt, hproved, rfl⟩

/-! ### What a body leaves alone -/

/-- The fields of the outcome that a body of the handoff does not write. -/
structure Carries (s t : ReshareSession) : Prop where
  config : t.config = s.config
  completed : t.completed = s.completed
  aborted : t.aborted = s.aborted
  figure7Failure : t.figure7Failure = s.figure7Failure
  lifecycleFinished : t.lifecycleFinished = s.lifecycleFinished
  lifecycleOutbox : t.lifecycleOutbox = s.lifecycleOutbox
  newShare : t.newShare = s.newShare
  lifecycleFinal : s.newShare = none → t.lifecycleFinal = s.lifecycleFinal

theorem Carries.refl (s : ReshareSession) : Carries s s :=
  ⟨rfl, rfl, rfl, rfl, rfl, rfl, rfl, fun _ => rfl⟩

theorem Carries.trans (h : Carries s t) (h' : Carries t u) : Carries s u where
  config := h'.config.trans h.config
  completed := h'.completed.trans h.completed
  aborted := h'.aborted.trans h.aborted
  figure7Failure := h'.figure7Failure.trans h.figure7Failure
  lifecycleFinished := h'.lifecycleFinished.trans h.lifecycleFinished
  lifecycleOutbox := h'.lifecycleOutbox.trans h.lifecycleOutbox
  newShare := h'.newShare.trans h.newShare
  lifecycleFinal := fun hnone =>
    (h'.lifecycleFinal (h.newShare.trans hnone)).trans (h.lifecycleFinal hnone)

theorem tryComplete_carries (h : exec (tryComplete coins) s = (.ok out, t)) : Carries s t := by
  rcases tryComplete_cases h with ⟨-, rfl⟩ | ⟨-, -, -, target, rfl⟩ | ⟨hshare, -, final, rfl⟩ |
    ⟨-, -, auxInfo, sent, -, rfl⟩
  · exact .refl t
  · exact ⟨rfl, rfl, rfl, rfl, rfl, rfl, rfl, fun _ => rfl⟩
  · refine ⟨rfl, rfl, rfl, rfl, rfl, rfl, rfl, fun hnone => ?_⟩
    rw [hnone] at hshare
    cases hshare
  · exact ⟨rfl, rfl, rfl, rfl, rfl, rfl, rfl, fun _ => rfl⟩

/-- A retirement is staged only when all confirmations are there. -/
theorem tryComplete_retirement (h : exec (tryComplete coins) s = (.ok out, t))
    (hnot : s.config.isReceiver = true ∨ s.allReshareConfirmationsReceived = false) :
    t.lifecycleRetirement = s.lifecycleRetirement := by
  rcases tryComplete_cases h with ⟨-, rfl⟩ | ⟨hreceiver, -, hall, -⟩ | ⟨-, -, final, rfl⟩ |
    ⟨-, -, auxInfo, sent, -, rfl⟩
  · rfl
  · rw [hreceiver, hall] at hnot
    simp at hnot
  · rfl
  · rfl

/-- Completing pays no debt and makes none due that was not. -/
theorem tryComplete_paid (hpaid : Paid s) (h : exec (tryComplete coins) s = (.ok out, t)) :
    Delta s out t ∧ Paid t := by
  rcases tryComplete_cases h with ⟨rfl, rfl⟩ | ⟨-, rfl, -, target, rfl⟩ | ⟨-, rfl, final, rfl⟩ |
    ⟨-, hready, auxInfo, sent, rfl, rfl⟩
  · exact ⟨.of_quiet rfl rfl rfl (by simp), hpaid⟩
  · refine ⟨.of_quiet rfl rfl rfl (by simp), hpaid.of_past rfl rfl rfl ?_⟩
    rintro (hall | haux | hshare)
    · exact .inl (all_of_cleanup hall)
    · exact .inr (.inl haux)
    · exact .inr (.inr hshare)
  · exact ⟨.of_quiet rfl rfl rfl (by simp), hpaid.of_past rfl rfl rfl id⟩
  · refine ⟨.of_quiet rfl rfl rfl ?_, hpaid.of_past rfl rfl rfl fun _ => .inl hready.2.1⟩
    intro e he
    obtain ⟨a, -, rfl⟩ := List.mem_map.mp he
    exact a.quiet

/-! ### The arrival that overtakes the factor proofs -/

/-- At a dealer that also receives, this material is the last message of the handoff. -/
def CompletesHandoff (s : ReshareSession) (env : Envelope) : Prop :=
  s.config.isDealer = true ∧ s.config.isReceiver = true ∧ s.dealerSent = false ∧
  env.payloadType = payloadReshareReceiverMaterial ∧
  (∀ p ∈ s.config.newParties, p ≠ env.sender → (s.materialOf p).isSome) ∧
  (∀ d ∈ s.config.dealerParties, d ≠ s.config.selfID →
    (s.commitmentsOf d).isSome ∧ (s.shareOf d).isSome) ∧
  (∀ p ∈ s.others, (s.factorOf p).isSome)

-- The quantifiers range over lists: a search of all party IDs would decide them as well.
instance (env : Envelope) : Decidable (s.CompletesHandoff env) :=
  haveI {P : PartyID → Prop} [DecidablePred P] {l : List PartyID} : Decidable (∀ p ∈ l, P p) :=
    List.decidableBAll P l
  inferInstanceAs (Decidable (_ ∧ _))

/-- If the handoff is complete with this material and the dealer's own messages, it lacked
nothing else. -/
theorem completesHandoff_of_handedOff {material : ReceiverMaterial}
    {f : ReshareDealerPartyData → ReshareDealerPartyData}
    (htype : env.payloadType = payloadReshareReceiverMaterial) (hdealer : s.config.isDealer = true)
    (hreceiver : s.config.isReceiver = true) (hsent : s.dealerSent = false) (h : HandedOff {
    (s.storeMaterial env.sender material).modifyDealer s.config.selfID f with dealerSent := true }) :
    s.CompletesHandoff env := by
  obtain ⟨hdata, hmaterial, hfactors⟩ := h
  refine ⟨hdealer, hreceiver, hsent, htype, ?_, ?_, ?_⟩
  · intro p hp hne
    rw [← materialOf_storeMaterial_of_ne material hne]
    exact List.all_eq_true.mp hmaterial p hp
  · intro d hd hne
    have hboth : ((modifyDealer s.config.selfID f s).commitmentsOf d).isSome ∧
        ((modifyDealer s.config.selfID f s).shareOf d).isSome :=
      Bool.and_eq_true_iff.mp (List.all_eq_true.mp hdata d hd)
    rw [commitmentsOf, shareOf, lookup_modifyDealer, if_neg hne] at hboth
    exact hboth
  · intro p hp
    rw [← factorOf_storeMaterial env.sender material]
    exact List.all_eq_true.mp hfactors p hp

/-- After `maybeSendDealerMessages` the dealer's debt is paid, whatever was due before. Figure 7
starts in it only if the dealer's own messages complete the handoff. -/
theorem maybeSendDealerMessages_paid (hnodup : s.config.newParties.Nodup)
    (hdue : s.config.isDealer → s.auxInfo.isSome ∨ s.newShare.isSome → s.dealerSent)
    (h : exec (maybeSendDealerMessages coins) s = (.ok out, t)) :
    Delta s out t ∧ Carries s t ∧ (t.config.isDealer → t.PastMaterial → t.dealerSent) ∧
      t.factorProofsSent = s.factorProofsSent ∧
      (t.auxInfo = s.auxInfo ∨ (s.config.isDealer ∧ s.config.isReceiver ∧ s.dealerSent = false ∧
        ∃ f, HandedOff { s.modifyDealer s.config.selfID f with dealerSent := true })) := by
  rcases maybeSendDealerMessages_cases h with ⟨hnot, rfl, rfl⟩ |
    ⟨hdealer, hsent, hall, messages, completionOut, u, hmessages, hcomplete, rfl⟩
  · refine ⟨.of_quiet rfl rfl rfl (by simp), .refl t, ?_, rfl, .inl rfl⟩
    rintro hdealer (hall | hlater)
    · by_contra hsent
      exact hnot ⟨hdealer, by simpa using hsent, hall⟩
    · exact hdue hdealer hlater
  · have hdelta := dealerMessages_delta hnodup hsent hmessages
    obtain ⟨dealing, env, shares, -, -, -, rfl⟩ := dealerMessages_eq_ok hmessages
    have hcarries : Carries s { s.modifyDealer s.config.selfID (fun d =>
        ⟨some dealing.commitments, if s.config.isReceiver then some dealing.selfShare else
          d.share⟩) with dealerSent := true } :=
      ⟨rfl, rfl, rfl, rfl, rfl, rfl, rfl, fun _ => rfl⟩
    have hcarries' := hcarries.trans (tryComplete_carries hcomplete)
    rcases tryComplete_cases hcomplete with ⟨rfl, rfl⟩ | ⟨-, rfl, -, target, rfl⟩ |
      ⟨-, rfl, final, rfl⟩ | ⟨hreceiver, hready, auxInfo, sent, rfl, rfl⟩
    · rw [List.append_nil]
      exact ⟨hdelta, hcarries', fun _ _ => rfl, rfl, .inl rfl⟩
    · exact ⟨hdelta.append (.of_quiet rfl rfl rfl (by simp)), hcarries', fun _ _ => rfl, rfl,
        .inl rfl⟩
    · exact ⟨hdelta.append (.of_quiet rfl rfl rfl (by simp)), hcarries', fun _ _ => rfl, rfl,
        .inl rfl⟩
    · refine ⟨hdelta.append (.of_quiet rfl rfl rfl ?_), hcarries', fun _ _ => rfl, rfl,
        .inr ⟨hdealer, hreceiver, hsent, _, hready⟩⟩
      intro e he
      obtain ⟨a, -, rfl⟩ := List.mem_map.mp he
      exact a.quiet

theorem maybeSendReceiverFactorProofs_paid (hnodup : s.config.newParties.Nodup)
    (hdealt : s.config.isDealer → s.PastMaterial → s.dealerSent) (hdue : s.config.isReceiver →
    s.auxInfo.isSome ∨ s.newShare.isSome → s.factorProofsSent ∨ s.others = [])
    (h : exec (maybeSendReceiverFactorProofs coins) s = (.ok out, t)) :
    Delta s out t ∧ Carries s t ∧ Paid t := by
  rcases maybeSendReceiverFactorProofs_cases h with ⟨hnot, rfl, rfl⟩ |
    ⟨hreceiver, hsent, hall, hproofs, rfl⟩
  · refine ⟨.of_quiet rfl rfl rfl (by simp), .refl t, hdealt, ?_⟩
    rintro hreceiver (hall | hlater)
    · by_contra hsent
      exact hnot ⟨hreceiver, by simp_all, hall⟩
    · exact hdue hreceiver hlater
  · exact ⟨factorProofs_delta hnodup hsent hproofs, ⟨rfl, rfl, rfl, rfl, rfl, rfl, rfl, fun _ => rfl⟩,
      hdealt, fun _ _ => .inl rfl⟩

/-! ### Confirmations and retirement -/

theorem confirmationOf_cleanup (s : ReshareSession) (p : PartyID) :
    s.cleanupTemporaryReshareHandoff.confirmationOf p = s.confirmationOf p := by
  rw [confirmationOf, cleanupTemporaryReshareHandoff, FMap.lookup_mapVals, confirmationOf]
  cases s.newPartyData.lookup p <;> rfl

theorem tryComplete_confirmationOf (h : exec (tryComplete coins) s = (.ok out, t)) (p : PartyID) :
    t.confirmationOf p = s.confirmationOf p := by
  rcases tryComplete_cases h with ⟨-, rfl⟩ | ⟨-, -, -, target, rfl⟩ | ⟨-, -, final, rfl⟩ |
    ⟨-, -, auxInfo, sent, -, rfl⟩
  · rfl
  · exact confirmationOf_cleanup s p
  · rfl
  · exact confirmationOf_cleanup s p

theorem not_all_of_confirmationOf {p : PartyID} (hp : p ∈ s.config.newParties)
    (h : s.confirmationOf p = none) : s.allReshareConfirmationsReceived = false := by
  rw [allReshareConfirmationsReceived, List.all_eq_false]
  exact ⟨p, hp, by simp [h]⟩

/-- With a confirmation missing, receiver material and its consequences stage no retirement. -/
theorem receiverMaterial_retirement (hsender : env.sender ∈ s.config.newParties)
    (h : exec (applyReshareReceiverMaterial coins env) s = (.ok out, t)) :
    t.lifecycleRetirement = s.lifecycleRetirement ∧ t.confirmationOf env.sender = none := by
  obtain ⟨material, u, dealt, proved, hdealt, hproved, rfl⟩ := applyReshareReceiverMaterial_eq_ok h
  have hnone := confirmationOf_storeMaterial (s := s) env.sender material
  have hu : u.lifecycleRetirement = s.lifecycleRetirement ∧ u.confirmationOf env.sender = none := by
    rcases maybeSendDealerMessages_cases hdealt with ⟨-, -, rfl⟩ |
      ⟨-, -, -, messages, completionOut, v, hmessages, hcomplete, -⟩
    · exact ⟨rfl, hnone⟩
    · obtain ⟨dealing, dealerEnv, shares, -, -, -, rfl⟩ := dealerMessages_eq_ok hmessages
      have hmissing : (s.storeMaterial env.sender material).allReshareConfirmationsReceived = false :=
        not_all_of_confirmationOf hsender hnone
      have hretire := tryComplete_retirement hcomplete (.inr hmissing)
      have hkept := tryComplete_confirmationOf hcomplete env.sender
      exact ⟨hretire, hkept.trans hnone⟩
  rcases maybeSendReceiverFactorProofs_cases hproved with ⟨-, -, rfl⟩ | ⟨-, -, -, -, rfl⟩
  · exact hu
  · exact hu

/-! ### One message of the handoff -/

/-- Receiver material keeps the debts paid, unless it overtakes the factor proofs. -/
theorem receiverMaterial_paid (hnodup : s.config.newParties.Nodup) (hpaid : Paid s)
    (htype : env.payloadType = payloadReshareReceiverMaterial) (hlast : ¬ s.CompletesHandoff env)
    (h : exec (applyReshareReceiverMaterial coins env) s = (.ok out, t)) :
    Delta s out t ∧ Carries s t ∧ Paid t := by
  obtain ⟨material, u, dealt, proved, hdealt, hproved, rfl⟩ := applyReshareReceiverMaterial_eq_ok h
  have hstored : Delta s [] (s.storeMaterial env.sender material) :=
    .of_quiet rfl rfl rfl (by simp)
  have hcarries : Carries s (s.storeMaterial env.sender material) :=
    ⟨rfl, rfl, rfl, rfl, rfl, rfl, rfl, fun _ => rfl⟩
  have hdue : s.config.isDealer → s.auxInfo.isSome ∨ s.newShare.isSome → s.dealerSent :=
    fun hd hlater => hpaid.dealt hd (.inr hlater)
  obtain ⟨hdelta, hcarries', hdealtPaid, hfactor, haux⟩ :=
    maybeSendDealerMessages_paid (s := s.storeMaterial env.sender material) hnodup hdue hdealt
  -- Figure 7 has not started in between: that is the arrival excluded by `hlast`.
  have haux' : u.auxInfo = s.auxInfo := by
    rcases haux with haux | ⟨hdealer, hreceiver, hsent, f, hready⟩
    · exact haux
    · exact (hlast (completesHandoff_of_handedOff htype hdealer hreceiver hsent hready)).elim
  have hdue' : u.config.isReceiver → u.auxInfo.isSome ∨ u.newShare.isSome →
      u.factorProofsSent ∨ u.others = [] := by
    intro hreceiver hlater
    rw [hcarries'.config] at hreceiver
    rw [haux', hcarries'.newShare] at hlater
    rw [hfactor, others_congr hcarries'.config]
    exact hpaid.proved hreceiver (.inr hlater)
  have hnodup' : u.config.newParties.Nodup := by
    rw [hcarries'.config]
    exact hnodup
  obtain ⟨hdelta', hcarries'', hpaid'⟩ :=
    maybeSendReceiverFactorProofs_paid hnodup' hdealtPaid hdue' hproved
  exact ⟨(hstored.append hdelta).append hdelta', (hcarries.trans hcarries').trans hcarries'', hpaid'⟩

/-- A message that stores something else than material. -/
theorem stored_paid (hpaid : Paid s)
    (h : (∃ id f, t = s.modifyDealer id f) ∨
      (∃ id f, (∀ d : ReshareNewPartyData, (f d).material = d.material) ∧
        t = s.modifyNewParty id f)) :
    Delta s [] t ∧ Carries s t ∧ Paid t ∧ t.lifecycleRetirement = s.lifecycleRetirement := by
  rcases h with ⟨id, f, rfl⟩ | ⟨id, f, hf, rfl⟩
  · exact ⟨.of_quiet rfl rfl rfl (by simp), ⟨rfl, rfl, rfl, rfl, rfl, rfl, rfl, fun _ => rfl⟩,
      hpaid.of_past rfl rfl rfl fun h => h, rfl⟩
  · refine ⟨.of_quiet rfl rfl rfl (by simp), ⟨rfl, rfl, rfl, rfl, rfl, rfl, rfl, fun _ => rfl⟩,
      hpaid.of_past rfl rfl rfl ?_, rfl⟩
    rintro (hall | hlater)
    · exact .inl (all_of_modifyNewParty hf hall)
    · exact .inr hlater

/-- The payload of a message, before completion is tried. A dealer that stages its retirement
sends nothing. -/
theorem applyPayload_paid (hnodup : s.config.newParties.Nodup) (hpaid : Paid s)
    (hlast : ¬ s.CompletesHandoff env)
    (hsender : env.payloadType = payloadReshareReceiverMaterial → env.sender ∈ s.config.newParties)
    (h : exec (applyPayload coins env) s = (.ok out, t)) :
    Delta s out t ∧ Carries s t ∧ Paid t ∧ t.lifecycleRetirement = s.lifecycleRetirement ∧
      (out = [] ∨ t.allReshareConfirmationsReceived = false) := by
  rw [applyPayload] at h
  rcases exec_ite_ok.mp h with ⟨-, h⟩ | ⟨-, h⟩
  · obtain ⟨_, u, hbody, h⟩ := exec_bind_ok.mp h
    cases h
    obtain ⟨f, rfl⟩ := applyReshareDealerCommitments_eq_ok hbody
    obtain ⟨hdelta, hcarries, hpaid', hretire⟩ := stored_paid hpaid (.inl ⟨env.sender, f, rfl⟩)
    exact ⟨hdelta, hcarries, hpaid', hretire, .inl rfl⟩
  rcases exec_ite_ok.mp h with ⟨-, h⟩ | ⟨-, h⟩
  · obtain ⟨_, u, hbody, h⟩ := exec_bind_ok.mp h
    cases h
    obtain ⟨f, rfl⟩ := applyReshareShareInbound_eq_ok hbody
    obtain ⟨hdelta, hcarries, hpaid', hretire⟩ := stored_paid hpaid (.inl ⟨env.sender, f, rfl⟩)
    exact ⟨hdelta, hcarries, hpaid', hretire, .inl rfl⟩
  rcases exec_ite_ok.mp h with ⟨htype, h⟩ | ⟨-, h⟩
  · obtain ⟨hdelta, hcarries, hpaid'⟩ := receiverMaterial_paid hnodup hpaid htype hlast h
    obtain ⟨hretire, hnone⟩ := receiverMaterial_retirement (hsender htype) h
    have hmem : env.sender ∈ t.config.newParties := by
      rw [hcarries.config]
      exact hsender htype
    exact ⟨hdelta, hcarries, hpaid', hretire, .inr (not_all_of_confirmationOf hmem hnone)⟩
  rcases exec_ite_ok.mp h with ⟨-, h⟩ | ⟨-, h⟩
  · obtain ⟨_, u, hbody, h⟩ := exec_bind_ok.mp h
    cases h
    obtain ⟨factor, rfl⟩ := applyReshareFactorProof_eq_ok hbody
    have hstored : ∃ id f, (∀ d : ReshareNewPartyData, (f d).material = d.material) ∧
        s.modifyNewParty env.sender (fun d => { d with factor := some factor }) =
          s.modifyNewParty id f :=
      ⟨env.sender, fun d => { d with factor := some factor }, fun _ => rfl, rfl⟩
    obtain ⟨hdelta, hcarries, hpaid', hretire⟩ := stored_paid hpaid (.inr hstored)
    exact ⟨hdelta, hcarries, hpaid', hretire, .inl rfl⟩
  · cases h

/-- A message of the handoff, on the copy of the session. -/
theorem applyValidatedInbound_paid (hnodup : s.config.newParties.Nodup) (hpaid : Paid s)
    (hlast : ¬ s.CompletesHandoff env)
    (hsender : env.payloadType = payloadReshareReceiverMaterial → env.sender ∈ s.config.newParties)
    (h : exec (applyValidatedInbound coins env) s = (.ok out, t)) :
    Delta s out t ∧ Carries s t ∧ Paid t ∧
      (t.lifecycleRetirement = s.lifecycleRetirement ∨ out = []) := by
  obtain ⟨payloadOut, u, hpayload, h⟩ := exec_bind_ok.mp h
  obtain ⟨completionOut, _, hcomplete, h⟩ := exec_bind_ok.mp h
  cases h
  obtain ⟨hdelta, hcarries, hpaid', hretire, hsilent⟩ :=
    applyPayload_paid hnodup hpaid hlast hsender hpayload
  obtain ⟨hdelta', hpaid''⟩ := tryComplete_paid hpaid' hcomplete
  refine ⟨hdelta.append hdelta', hcarries.trans (tryComplete_carries hcomplete), hpaid'', ?_⟩
  rcases hsilent with rfl | hmissing
  · rcases tryComplete_cases hcomplete with ⟨rfl, rfl⟩ | ⟨-, rfl, -, -⟩ | ⟨-, rfl, -⟩ |
      ⟨hreceiver, -⟩
    · exact .inr rfl
    · exact .inr rfl
    · exact .inr rfl
    · exact .inl ((tryComplete_retirement hcomplete (.inl hreceiver)).trans hretire)
  · exact .inl ((tryComplete_retirement hcomplete (.inr hmissing)).trans hretire)

end Session

end ReshareSession

end Tss.Cggmp21
