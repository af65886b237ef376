import Tss.Frost.KeygenSafety
import Tss.Lib.Trace

/-!
# What a key generation session can do

`Move` lists the changes a session makes of its state, each with what was
checked for it and with the envelopes it produces. Every call is a trace of
moves (`step_trace`), so that an invariant has to be shown for the moves
only. A call that fails returns no envelope, whatever its moves produced.
-/

set_option linter.unusedSectionVars false

namespace Tss.Frost.KeygenSession

open Edwards25519 Fallible Wire

variable {F G : Type} [Field F] [DecidableEq F] [AddCommGroup G] [DecidableEq G] [Module F G]
  [Edwards25519 F G] [Sha256]

/-- The session is neither completed nor aborted. -/
def Live (s : KeygenSession F G) : Prop := s.completed = false ∧ s.aborted = false

/-- One change of the session, with the envelopes it produces. -/
inductive Move : KeygenSession F G → List Envelope → KeygenSession F G → Prop
  | deal {s : KeygenSession F G} {sender : PartyID} {slot : Round1Slot F G} {d : Dealing G}
      (hlive : s.Live) (hslot : s.round1.lookup sender = some slot)
      (hnone : slot.dealing = none)
      (hvalid : validateCommitmentsThreshold s.cfg.threshold true d.commitments = .ok ())
      (hproof : verifyFROSTKeygenProof s.cfg s.planHash sender d = .ok ()) :
      Move s [] { s with round1 := s.round1.insert sender { slot with dealing := some d } }
  | share {s : KeygenSession F G} {sender : PartyID} {slot : Round1Slot F G} {share : F}
      (hlive : s.Live) (hslot : s.round1.lookup sender = some slot) :
      Move s [] { s with round1 := s.round1.insert sender { slot with share := some share } }
  | keep {s : KeygenSession F G} {sender : PartyID} {c : KeygenConfirmation G} (hlive : s.Live)
      (hsender : c.sender = sender) :
      Move s [] { s with
        pendingConfirmations := s.pendingConfirmations.insert sender c }
  /-- A confirmation is taken, from the envelope itself or from those kept before. -/
  | confirm {s : KeygenSession F G} {sender : PartyID} {c : KeygenConfirmation G}
      (kept : FMap PartyID (KeygenConfirmation G)) (hlive : s.Live)
      (hsender : c.sender = sender ∨ s.pendingConfirmations.lookup sender = some c)
      (hkept : ∀ id c', kept.lookup id = some c' → s.pendingConfirmations.lookup id = some c') :
      Move s [] { s with
        chainCodes := s.chainCodes.insert sender c.chainCode
        confirmations := s.confirmations.insert sender c
        pendingConfirmations := kept }
  | emit {s : KeygenSession F G} {out : List Envelope} (hlive : s.Live)
      (hout : s.emitFROSTKeygenRound2 = .ok out) :
      Move s out { s with
        state := .collectingShares
        localMaterial := s.localMaterial.map fun m => { m with polynomial := none } }
  | prepare {s : KeygenSession F G} {snap : List (SnapshotEntry F G)}
      {prepared : PreparedPending F G} (hlive : s.Live)
      (hsnap : s.round1Snapshot s.cfg.parties = .ok (some snap))
      (hprep : s.preparePendingKeyMaterial snap = .ok prepared) :
      Move s [prepared.env] (commitPendingKeyShare prepared s)
  | finish {s : KeygenSession F G} {snap : List (KeygenConfirmation G)} {share : KeyShareState F G}
      (hlive : s.Live) (hsnap : s.confirmationSnapshot s.cfg.parties = .ok (some snap))
      (hshare : s.buildFinalKeyShare snap = .ok share) :
      Move s [] (commitFinalKeyShare share s)
  | abort (s : KeygenSession F G) : Move s [] s.abort
  | close (s : KeygenSession F G) : Move s [] { s with keyShare := none, closed := true }

/-- The moves of a step, which returns what they produced or fails on the way. -/
abbrev Traced (x : Proc (KeygenSession F G) GoError (List Envelope)) (s : KeygenSession F G) :
    Prop :=
  Proc.Spec (fun _ t => ∃ os, Trace Move s os t) (fun out t => Trace Move s out t) x s

/-- The moves of a step that returns no envelopes and leaves the session live. -/
abbrev TracedQuietly (x : Proc (KeygenSession F G) GoError Unit) (s : KeygenSession F G) : Prop :=
  Proc.Spec (fun _ t => ∃ os, Trace Move s os t) (fun _ t => Trace Move s [] t ∧ t.Live) x s

variable {s : KeygenSession F G}

/-- A step after a move. -/
theorem Traced.after {t : KeygenSession F G} {os : List Envelope}
    {x : Proc (KeygenSession F G) GoError (List Envelope)} (hmove : Move s os t)
    (h : Traced x t) :
    Proc.Spec (fun _ u => ∃ os, Trace Move s os u) (fun out u => Trace Move s (os ++ out) u) x t :=
  h.imp (fun _ _ ⟨os', htrace⟩ => ⟨os ++ os', .step hmove htrace⟩) fun _ _ htrace =>
    .step hmove htrace

theorem advanceConfirmations_trace (hlive : s.Live) : Traced advanceConfirmations s := by
  refine .get_bind (.outcome_bind (fun _ _ => ⟨[], .refl s⟩) fun snap hsnap => ?_)
  cases snap with
  | none => exact .of_pure (.refl s)
  | some snap =>
    refine .outcome_bind (fun _ _ => ⟨[], .refl s⟩) fun share hshare => .modify_bind (.of_pure ?_)
    exact .single (.finish hlive hsnap hshare)

theorem advanceShares_trace (hlive : s.Live) : Traced advanceShares s := by
  refine .get_bind (.outcome_bind (fun _ _ => ⟨[], .refl s⟩) fun snap hsnap => ?_)
  cases snap with
  | none => exact .of_pure (.refl s)
  | some snap =>
    refine .outcome_bind (fun _ _ => ⟨[], .refl s⟩) fun prepared hprep => .modify_bind ?_
    have hlive' : (commitPendingKeyShare prepared s).Live := hlive
    exact .bind (Traced.after (.prepare hlive hsnap hprep) (advanceConfirmations_trace hlive'))
      fun more t htrace => .of_pure htrace

theorem advanceCommitments_trace (hlive : s.Live) : Traced advanceCommitments s := by
  refine .get_bind (.outcome_bind (fun _ _ => ⟨[], .refl s⟩) fun ready _ => ?_)
  cases ready with
  | false => exact .of_pure (.refl s)
  | true =>
    refine .outcome_bind (fun _ _ => ⟨[], .refl s⟩) fun _ _ => ?_
    refine .outcome_bind (fun _ _ => ⟨[], .refl s⟩) fun out hout => .modify_bind ?_
    have hlive' : ({ s with
        state := .collectingShares
        localMaterial := s.localMaterial.map fun m => { m with polynomial := none } } :
          KeygenSession F G).Live := hlive
    exact .bind (Traced.after (.emit hlive hout) (advanceShares_trace hlive'))
      fun more t htrace => .of_pure htrace

theorem tryAdvance_trace (s : KeygenSession F G) : Traced tryAdvance s := by
  refine .get_bind ?_
  by_cases hdone : (s.completed || s.aborted) = true
  · rw [if_pos hdone]
    exact .of_pure (.refl s)
  · rw [if_neg hdone]
    have hlive : s.Live := by simpa [Live] using hdone
    cases s.state with
    | collectingCommitments => exact advanceCommitments_trace hlive
    | collectingShares => exact advanceShares_trace hlive
    | awaitingConfirmations => exact advanceConfirmations_trace hlive
    | confirmed => exact .of_pure (.refl s)
    | aborted => exact .of_pure (.refl s)

theorem promotePending_trace (hlive : s.Live) (sender : PartyID) :
    TracedQuietly (promotePendingKeygenConfirmation sender) s := by
  have hstay : Trace Move s [] s ∧ s.Live := ⟨.refl s, hlive⟩
  refine .get_bind ?_
  split
  · exact .of_pure hstay
  · next c hc =>
    have hkept : ∀ id c', (s.pendingConfirmations.erase sender).lookup id = some c' →
        s.pendingConfirmations.lookup id = some c' :=
      fun _ _ h => (FMap.lookup_erase_eq_some.mp h).2
    refine .outcome_bind (fun _ _ => ⟨[], .refl s⟩) fun slot hslot => ?_
    split
    · exact .of_pure hstay
    · refine .outcome_bind (fun _ _ => ⟨[], .refl s⟩) fun _ hreveal => ?_
      split
      · exact .of_modify ⟨.single (.confirm _ hlive (.inr hc) hkept), hlive⟩
      · refine .outcome_bind (fun _ _ => ⟨[], .refl s⟩) fun _ hverify => ?_
        exact .of_modify ⟨.single (.confirm _ hlive (.inr hc) hkept), hlive⟩

theorem apply_trace (hlive : s.Live) {base : Envelope} {tx : KeygenTransition F G}
    (hbuild : s.build base = .ok tx) : Traced (apply tx) s := by
  cases build_built hbuild with
  | duplicate => exact .of_pure (.refl s)
  | commitments slot dealing hslot hnone hvalid hproof =>
    refine .get_bind (.outcome_bind (fun _ _ => ⟨[], .refl s⟩) fun slot' hread => .modify_bind ?_)
    rw [KeygenSession.slot, hslot] at hread
    cases hread
    have hmove := Move.deal hlive hslot hnone hvalid hproof
    have hlive' (slots : FMap PartyID (Round1Slot F G)) :
        ({ s with round1 := slots } : KeygenSession F G).Live := hlive
    refine .bind (Q := fun _ t => Trace Move s [] t ∧ t.Live) (.mapError
      ((promotePending_trace (hlive' _) base.sender).imp
        (fun _ _ hmore => hmore.imp fun _ => .after hmove)
        fun _ _ h => ⟨.after hmove h.1, h.2⟩)) fun _ t h => ?_
    exact .mapError ((tryAdvance_trace t).imp
      (fun _ _ hmore => hmore.imp fun _ => h.1.trans) fun _ _ hmore => h.1.trans hmore)
  | share slot share hslot =>
    refine .get_bind (.outcome_bind (fun _ _ => ⟨[], .refl s⟩) fun slot' hread => .modify_bind ?_)
    rw [KeygenSession.slot, hslot] at hread
    cases hread
    exact .mapError (Traced.after (.share hlive hslot) (tryAdvance_trace _))
  | early slot c hslot hnone hsender =>
    exact .modify_bind (.of_pure (.single (.keep hlive hsender)))
  | confirmation slot dealing c _ _ hsender =>
    exact .modify_bind (.mapError (Traced.after (.confirm _ hlive (.inl hsender) fun _ _ => id)
      (tryAdvance_trace _)))

/-! ## Calls -/

/-- The envelopes that a call returns. -/
def returned (r : Except GoError (List Envelope)) : List Envelope := r.toOption.getD []

/-- A call is a trace of moves; it returns what they produced or nothing. -/
theorem step_trace (h : Hosted (KeygenSession F G)) (call : Call) :
    ∃ os, Trace Move h.session os (step h call).2.session ∧
      returned (step h call).1 ⊆ os := by
  have hquiet : ∀ t : KeygenSession F G, Trace Move h.session [] t →
      ∀ r : Except GoError Unit, ∃ os, Trace Move h.session os t ∧
        returned (r.map fun _ => ([] : List Envelope)) ⊆ os := by
    intro t htrace r
    refine ⟨[], htrace, ?_⟩
    rcases r with err | u <;> exact List.nil_subset _
  cases call with
  | handle ctx env =>
    have hsettle : ∀ (err : GoError) (s t : KeygenSession F G) (os : List Envelope),
        Trace Move s os t → ∃ os', Trace Move s os' (ops.settle (.error err) t) := by
      intro err s t os htrace
      unfold SessionOps.settle
      split
      · exact ⟨os, htrace⟩
      · split
        · exact ⟨_, htrace.trans (.single (.abort t))⟩
        · exact ⟨os, htrace⟩
    have hfail : ∀ (err : GoError) (t : KeygenSession F G) (os : List Envelope),
        Trace Move h.session os t → ∃ os', Trace Move h.session os' (ops.settle (.error err) t) ∧
          returned (.error err) ⊆ os' := by
      intro err t os htrace
      obtain ⟨os', htrace'⟩ := hsettle err _ t os htrace
      exact ⟨os', htrace', List.nil_subset _⟩
    have hcases := ops.handled ctx env h
    show ∃ os, Trace Move h.session os (ops.handleSessionEnvelope ctx env h).2.session ∧
      returned (ops.handleSessionEnvelope ctx env h).1 ⊆ os
    generalize (ops.handleSessionEnvelope ctx env h).1 = r at hcases ⊢
    generalize (ops.handleSessionEnvelope ctx env h).2 = h' at hcases ⊢
    cases hcases with
    | cancelled => exact ⟨[], .refl _, List.nil_subset _⟩
    | terminal => exact ⟨[], .refl _, List.nil_subset _⟩
    | rejected err => exact hfail _ _ _ (.refl _)
    | refused cache err => exact hfail _ _ _ (.refl _)
    | interrupted cache tx err => exact hfail _ _ _ (.refl _)
    | applied cache tx hcompleted haborted hvalid hbuild =>
      have hspec := apply_trace ⟨hcompleted, haborted⟩ hbuild
      show ∃ os, Trace Move h.session os (ops.settle (Proc.exec (apply tx) h.session).1
          (Proc.exec (apply tx) h.session).2) ∧
        returned (Proc.exec (apply tx) h.session).1 ⊆ os
      rcases hexec : Proc.exec (apply tx) h.session with ⟨err | out, t⟩
      · obtain ⟨os, htrace⟩ := hspec.error hexec
        exact hfail err t os htrace
      · exact ⟨out, hspec.ok hexec, List.Subset.refl _⟩
  | abort ctx reason =>
    refine hquiet (abortCall ctx reason h.session).2 ?_ _
    unfold abortCall
    split
    · exact .refl _
    · split
      · exact .refl _
      · split
        · exact .refl _
        · split
          · exact .refl _
          · exact .single (.abort _)
  | close ctx =>
    refine hquiet (closeCall ctx h.session).2 ?_ _
    unfold closeCall
    split
    · exact .refl _
    · split
      · exact .refl _
      · split
        · exact .after (.abort _) (.single (.close _))
        · exact .single (.close _)

/-- The envelopes that the calls of a run return, first to last. -/
def emitted (h : Hosted (KeygenSession F G)) (calls : List Call) : List Envelope :=
  (Run.outputs step h calls).flatMap returned

/-- A run is a trace of moves, which produced all that its calls returned. -/
theorem run_trace (h : Hosted (KeygenSession F G)) (calls : List Call) :
    ∃ os, Trace Move h.session os (Run.final step h calls).session ∧ emitted h calls ⊆ os := by
  refine Run.outputs_rel (fun _ => True)
    (fun (h : Hosted (KeygenSession F G)) outs h' =>
      ∃ os, Trace Move h.session os h'.session ∧ outs.flatMap returned ⊆ os)
    (fun _ _ _ => trivial) (fun h _ => ⟨[], .refl _, List.nil_subset _⟩)
    (fun h call outs h' _ hrest => ?_) trivial calls
  obtain ⟨os, htrace, hsub⟩ := step_trace h call
  obtain ⟨os', htrace', hsub'⟩ := hrest
  refine ⟨os ++ os', htrace.trans htrace', ?_⟩
  rw [List.flatMap_cons]
  exact List.append_subset.mpr ⟨List.subset_append_of_subset_left _ hsub,
    List.subset_append_of_subset_right _ hsub'⟩

/-- A started session is one trace away from its first state. -/
theorem startKeygen_trace {cfg : ThresholdConfig} {limits : Limits} {planHash : Bytes}
    {guard : EnvelopeGuard} {c : Contribution F} {plan : Option (TrustedDealerImportPlan G)}
    {out : List Envelope} (h : startKeygen cfg limits planHash guard c plan = .ok (s, out)) :
    ∃ material payload env rest,
      generateLocalMaterial cfg planHash c = .ok material ∧
      material.dealing.marshal limits planHash = .ok payload ∧
      newEnvelope protocolFROSTEd25519 cfg.sessionID keygenCommitmentRound cfg.self
        broadcastPartyId payloadKeygenCommitments payload = .ok env ∧
      out = env :: rest ∧ Trace Move (initial cfg limits planHash guard material plan) rest s := by
  obtain ⟨material, hmaterial, h⟩ := bind_eq_ok.mp h
  obtain ⟨payload, hpayload, h⟩ := bind_eq_ok.mp h
  obtain ⟨env, henv, h⟩ := bind_eq_ok.mp h
  have hspec := tryAdvance_trace (initial cfg limits planHash guard material plan)
  rcases hexec : Proc.exec tryAdvance (initial cfg limits planHash guard material plan) with
    ⟨err | rest, t⟩
  · rw [hexec] at h
    cases h
  · rw [hexec] at h
    cases h
    exact ⟨material, payload, env, rest, hmaterial, hpayload, henv, rfl, hspec.ok hexec⟩

end Tss.Frost.KeygenSession
