import Tss.Frost.Sign
import Tss.Lib.Lucas
import Mathlib.Tactic.NormNum.Prime
import Mathlib.Tactic.ReduceModChar

/-!
# FROST signing is correct and sound

A session signs for a key that is a share of `f`, shifted by `δ`
(`Signs f δ`). The check on a partial is one linear equation per signer
(`verifyPartial_iff`); the equations of all signers, weighted by their
Lagrange coefficients, add up to the Ed25519 equation for the group
commitment and the derived key (`verified_sum`). Nothing here depends on
who computed the partials.
-/

namespace Tss.Frost

open Edwards25519 Fallible Polynomial

namespace SignSession

variable {F G : Type} [Field F] [AddCommGroup G] [Module F G] [Edwards25519 F G]

/-- The session signs with a share of `f`, for the key derived by the shift `δ`, with
signers that the plan accepts. -/
structure Signs (s : SignSession F G) (f : F[X]) (δ : F) : Prop where
  deals : s.key.Deals f
  signers_nodup : s.signers.Nodup
  signers_mem : ∀ id ∈ s.signers, id ∈ s.key.parties
  threshold_le : s.key.threshold ≤ s.signers.length
  signers_ne_nil : s.signers ≠ []
  shift_eq : s.shift = δ
  verifyKey : s.derivation.verificationKeyBytes = pointBytes (s.key.publicKey.val + baseMult δ)

/-- Two sessions agree on what is signed, by whom and with which commitments. -/
structure SameRun (s t : SignSession F G) : Prop where
  signers : s.signers = t.signers
  message : s.message = t.message
  derivation : s.derivation = t.derivation
  commitments : s.commitments = t.commitments

/-- The session holds its two nonces, has published their commitments and has not
answered yet. -/
structure HoldsNonces (s : SignSession F G) : Prop where
  self_mem : s.key.party ∈ s.signers
  partialSent : s.partialSent = false
  nonces : ∃ d e, s.dNonce = some d ∧ s.eNonce = some e ∧
    ∃ c, s.commitments.lookup s.key.party = some c ∧
      c.D.val = (baseMult d : G) ∧ c.E.val = (baseMult e : G)

variable {s : SignSession F G} {f : F[X]} {δ : F}

theorem Signs.signers_ne_zero (hs : s.Signs f δ) : (0 : PartyID) ∉ s.signers :=
  fun h => hs.deals.parties_ne_zero (hs.signers_mem 0 h)

theorem Signs.nodup_scalars (hs : s.Signs f δ) : (s.signers.map (partyScalar F)).Nodup :=
  hs.signers_nodup.map (partyScalar_injective G)

variable [DecidableEq F]

/-- The weight of a signer among the signers of the session. -/
def weight (s : SignSession F G) (id : PartyID) : F :=
  Lagrange.coefficient (s.signers.map (partyScalar F)) (partyScalar F id)

theorem Signs.lagrange (hs : s.Signs f δ) {id : PartyID} (hid : id ∈ s.signers) :
    lagrangeCoefficientScalar id s.signers = .ok (s.weight id) :=
  lagrangeCoefficientScalar_eq G hs.signers_nodup hs.signers_ne_zero hid

/-- The weighted shifted shares add up to the shifted secret: the weights of the signers
add up to one, so the shift counts once. -/
theorem Signs.sum_weight (hs : s.Signs f δ) :
    (s.signers.map fun id => s.weight id * (f.eval (partyScalar F id) + δ)).sum =
      f.eval 0 + δ := by
  have hdegree : (f + C δ).degree < (s.signers.map (partyScalar F)).length := by
    rw [List.length_map]
    refine lt_of_le_of_lt (degree_add_le _ _) (max_lt ?_ ?_)
    · exact lt_of_lt_of_le hs.deals.degree_lt (by exact_mod_cast hs.threshold_le)
    · refine lt_of_le_of_lt degree_C_le ?_
      exact_mod_cast List.length_pos_of_ne_nil hs.signers_ne_nil
  have hsum := Lagrange.sum_coefficient_mul_eval hs.nodup_scalars hdegree
  rw [List.map_map] at hsum
  simpa [weight, Function.comp_def] using hsum

omit [Module F G] [Edwards25519 F G] in
/-- A missing or zero shift adds nothing, so the code may skip it. -/
theorem shifted_eq {M : Type} [AddCommMonoid M] [Module F M] (P B : M) :
    (if s.deltaScalar.any (· ≠ 0) then P + s.shift • B else P) = P + s.shift • B := by
  split
  · rfl
  · next h =>
    have hzero : s.shift = 0 := by
      cases hδ : s.deltaScalar with
      | none => simp [shift, hδ]
      | some a => simpa [shift, hδ] using h
    rw [hzero, zero_smul, add_zero]

variable [DecidableEq G]

/-- The check on a partial is the equation for that signer's shifted share. -/
theorem Signs.verifyPartial_iff (hs : s.Signs f δ) {id : PartyID} (hid : id ∈ s.signers)
    {c : NonceCommitment G} (hc : s.commitments.lookup id = some c) (z rho challenge : F) :
    s.verifyPartial id z rho challenge = .ok () ↔
      (baseMult z : G) = c.D.val + rho • c.E.val +
        (s.weight id * challenge) • baseMult (f.eval (partyScalar F id) + δ) := by
  obtain ⟨share, hshare, hval⟩ := hs.deals.verificationShare id (hs.signers_mem id hid)
  have hY : share.val + baseMult s.shift = (baseMult (f.eval (partyScalar F id) + δ) : G) := by
    rw [hval, hs.shift_eq, baseMult_add]
  unfold verifyPartial
  rw [hc, hshare]
  simp only [baseMult, shifted_eq, hs.lagrange hid, Except.mapError, ok_bind, rejectIf_eq_ok,
    not_not] at hY ⊢
  rw [hY]

/-- One signer's share of the group commitment, zero while a commitment is missing. -/
def nonceShare (s : SignSession F G) (rhos : FMap PartyID F) (id : PartyID) : G :=
  match s.commitments.lookup id, rhos.lookup id with
  | some c, some rho => c.D.val + rho • c.E.val
  | _, _ => 0

variable {rhos : FMap PartyID F}

omit [DecidableEq F] [DecidableEq G] [Edwards25519 F G] in
theorem nonceTerm_eq_ok {id : PartyID} {P : G} (h : s.nonceTerm rhos id = .ok P) :
    (∃ c rho, s.commitments.lookup id = some c ∧ rhos.lookup id = some rho) ∧
      P = s.nonceShare rhos id := by
  unfold nonceTerm at h
  unfold nonceShare
  split at h
  · cases h
  · next c hc =>
    split at h
    · cases h
    · next rho hrho =>
      rw [hc, hrho]
      exact ⟨⟨c, rho, rfl, rfl⟩, (Except.ok.inj h).symm⟩

variable [Sha512]

omit [DecidableEq F] in
/-- A group commitment is the sum over the signers, all of whose commitments are there. -/
theorem groupCommitment_eq_ok {R : G} (h : s.groupCommitment = .ok (R, rhos)) :
    s.commitments.keys.card = s.signers.length ∧
    (∀ id ∈ s.signers, ∃ c rho, s.commitments.lookup id = some c ∧ rhos.lookup id = some rho) ∧
    R = (s.signers.map (s.nonceShare rhos)).sum := by
  obtain ⟨_, hcard, h⟩ := bind_eq_ok.mp h
  obtain ⟨rhos', -, h⟩ := bind_eq_ok.mp h
  obtain ⟨terms, hterms, h⟩ := bind_eq_ok.mp h
  obtain ⟨R', hR, h⟩ := bind_eq_ok.mp h
  cases h
  obtain ⟨_, -, hR⟩ := bind_eq_ok.mp hR
  obtain ⟨hall, rfl⟩ := (mapM_eq_ok _ fun _ _ h => (nonceTerm_eq_ok h).2).mp hterms
  refine ⟨by simpa using hcard, fun id hid => (nonceTerm_eq_ok (hall id hid)).1, ?_⟩
  rw [← Except.ok.inj hR, List.sum_eq_foldl]

/-- The partial `z` of `id` passes the check at `s` under the group commitment `R`. -/
def Passes (s : SignSession F G) (R : G) (rhos : FMap PartyID F) (id : PartyID) (z : F) : Prop :=
  ∃ rho, rhos.lookup id = some rho ∧ s.verifyPartial id z rho (s.challenge R) = .ok ()

/-- Partials that pass the check add up to the Ed25519 equation, whoever made them. -/
theorem Signs.verified_sum (hs : s.Signs f δ) {R : G} (hR : s.groupCommitment = .ok (R, rhos))
    {z : PartyID → F} (hz : ∀ id ∈ s.signers, s.Passes R rhos id (z id)) :
    (baseMult (s.signers.map z).sum : G) =
      R + s.challenge R • (s.key.publicKey.val + baseMult δ) := by
  obtain ⟨-, hall, hsum⟩ := groupCommitment_eq_ok hR
  set c := s.challenge R
  have hterm : ∀ id ∈ s.signers, (baseMult (z id) : G) = s.nonceShare rhos id +
      baseMult (c * (s.weight id * (f.eval (partyScalar F id) + δ))) := by
    intro id hid
    obtain ⟨commitment, rho, hc, hrho⟩ := hall id hid
    obtain ⟨rho', hrho', hpass⟩ := hz id hid
    obtain rfl : rho = rho' := by simpa [hrho] using hrho'
    rw [(hs.verifyPartial_iff hid hc _ _ _).mp hpass, nonceShare, hc, hrho, smul_baseMult]
    congr 2
    ring
  calc (baseMult (s.signers.map z).sum : G)
      = (s.signers.map fun id => s.nonceShare rhos id +
          baseMult (c * (s.weight id * (f.eval (partyScalar F id) + δ)))).sum := by
        rw [baseMult_sum, List.map_congr_left hterm]
    _ = R + baseMult (c * (f.eval 0 + δ)) := by
        rw [List.sum_map_add, hsum, ← baseMult_sum, List.sum_map_mul_left, hs.sum_weight]
    _ = R + c • (s.key.publicKey.val + baseMult δ) := by
        rw [hs.deals.publicKey, ← baseMult_add, smul_baseMult]

omit [DecidableEq F] in
/-- What the sessions of a run compute from the commitments is the same for all. -/
theorem SameRun.groupCommitment_eq {t : SignSession F G} (h : s.SameRun t) :
    s.groupCommitment = t.groupCommitment := by
  have hterm : ∀ rhos, s.nonceTerm rhos = t.nonceTerm rhos := by
    intro rhos
    funext id
    simp only [nonceTerm, h.commitments]
  simp only [groupCommitment, bindingFactors, bindingInput, h.signers, h.message, h.derivation,
    h.commitments, hterm]

omit [DecidableEq F] [DecidableEq G] in
theorem SameRun.challenge_eq {t : SignSession F G} (h : s.SameRun t) (R : G) :
    s.challenge R = t.challenge R := by
  rw [challenge, challenge, h.derivation, h.message]

/-- The partial of a session that holds its nonces, in closed form. -/
theorem Signs.prepareLocalPartial_eq (hs : s.Signs f δ) (hself : s.key.party ∈ s.signers)
    (hsent : s.partialSent = false) {d e rho : F} (hd : s.dNonce = some d) (he : s.eNonce = some e)
    {R : G} (hR : s.groupCommitment = .ok (R, rhos)) (hrho : rhos.lookup s.key.party = some rho) :
    s.prepareLocalPartial = .ok (some
      { sessionID := s.sessionID
        round := signRound2
        sender := s.key.party
        payload :=
          { z := rho * e + d +
              s.weight s.key.party * s.challenge R * (f.eval (partyScalar F s.key.party) + δ)
            planHash := s.planHash } }) := by
  have hready : ¬ (s.partialSent = true ∨ s.commitments.keys.card ≠ s.signers.length) := by
    simp [hsent, (groupCommitment_eq_ok hR).1]
  have hz : ∀ z a : F, (if s.deltaScalar.any (· ≠ 0) then z + a * s.shift else z) = z + a * δ := by
    intro z a
    have h := shifted_eq (s := s) z a
    rw [smul_eq_mul, mul_comm] at h
    rw [h, hs.shift_eq]
  unfold prepareLocalPartial
  simp only [if_neg hready, hd, he, hR, ok_bind, hs.lagrange hself, Except.mapError, hrho,
    hs.deals.secret, hz]
  rw [show ∀ z w : F, z + s.weight s.key.party * s.challenge R * w +
    s.weight s.key.party * s.challenge R * δ = z + s.weight s.key.party * s.challenge R * (w + δ)
    from fun z w => by ring]
  rfl

/-- A session that holds its nonces answers as soon as there is a group commitment, and
its answer passes the check at every session of the run. -/
theorem Signs.honest_partial_passes (hs : s.Signs f δ) (hnonces : s.HoldsNonces)
    {t : SignSession F G} (ht : t.Signs f δ) (hrun : s.SameRun t) {R : G}
    (hR : t.groupCommitment = .ok (R, rhos)) :
    ∃ env, s.prepareLocalPartial = .ok (some env) ∧ env.sender = s.key.party ∧
      t.Passes R rhos s.key.party env.payload.z := by
  obtain ⟨d, e, hd, he, commitment, hc, hD, hE⟩ := hnonces.nonces
  have hself : s.key.party ∈ t.signers := hrun.signers ▸ hnonces.self_mem
  obtain ⟨-, hall, -⟩ := groupCommitment_eq_ok hR
  obtain ⟨_, rho, -, hrho⟩ := hall s.key.party hself
  have hRs : s.groupCommitment = .ok (R, rhos) := hrun.groupCommitment_eq.trans hR
  refine ⟨_, hs.prepareLocalPartial_eq hnonces.self_mem hnonces.partialSent hd he hRs hrho, rfl,
    rho, hrho, ?_⟩
  rw [ht.verifyPartial_iff hself (hrun.commitments ▸ hc), hD, hE, smul_baseMult, smul_baseMult,
    ← baseMult_add, ← baseMult_add, weight, weight, hrun.signers, hrun.challenge_eq]
  congr 1
  ring

/-! ## Aggregation -/

/-- The stored partial of a signer, zero while there is none. -/
def partialOf (s : SignSession F G) (id : PartyID) : F := (s.partials.lookup id).getD 0

/-- The signer's partial is stored and passes the check. -/
def HasPartial (s : SignSession F G) (R : G) (rhos : FMap PartyID F) (id : PartyID) : Prop :=
  id ∈ s.partials ∧ s.Passes R rhos id (s.partialOf id)

theorem aggregateStep_eq_ok {R : G} {id : PartyID} {acc out : F} :
    s.aggregateStep rhos (s.challenge R) acc id = .ok out ↔
      s.HasPartial R rhos id ∧ out = acc + s.partialOf id := by
  unfold aggregateStep HasPartial Passes partialOf
  rw [FMap.mem_iff_lookup_ne_none]
  cases s.partials.lookup id with
  | none => simp
  | some z =>
    cases rhos.lookup id with
    | none => simp
    | some rho =>
      simp [seq_eq_ok, pure, Except.pure, eq_comm (a := out)]

/-- The aggregation loop succeeds exactly on stored partials that all pass, with their sum. -/
theorem foldlM_aggregateStep {R : G} {ids : List PartyID} {acc out : F} :
    ids.foldlM (s.aggregateStep rhos (s.challenge R)) acc = .ok out ↔
      (∀ id ∈ ids, s.HasPartial R rhos id) ∧ out = acc + (ids.map s.partialOf).sum := by
  induction ids generalizing acc with
  | nil => simp [pure, Except.pure, eq_comm]
  | cons id ids ih =>
    rw [List.foldlM_cons, bind_eq_ok, List.forall_mem_cons, List.map_cons, List.sum_cons]
    simp only [aggregateStep_eq_ok, ih]
    constructor
    · rintro ⟨_, ⟨hid, rfl⟩, hall, rfl⟩
      exact ⟨⟨hid, hall⟩, add_assoc _ _ _⟩
    · rintro ⟨⟨hid, hall⟩, rfl⟩
      exact ⟨_, ⟨hid, rfl⟩, hall, (add_assoc _ _ _).symm⟩

/-- Aggregation without the final verification, which cannot fail. -/
theorem Signs.verify_aggregate (hs : s.Signs f δ) {R : G} (hR : s.groupCommitment = .ok (R, rhos))
    {z : PartyID → F} (hz : ∀ id ∈ s.signers, s.Passes R rhos id (z id)) :
    ed25519Verify G s.derivation.verificationKeyBytes s.message
      (pointBytes R ++ scalarBytes G (s.signers.map z).sum) = true := by
  have hsum := hs.verified_sum hR hz
  rw [challenge, hs.verifyKey] at hsum
  rw [hs.verifyKey, ed25519Verify_iff]
  exact hsum

omit [DecidableEq F] in
/-- A failure to compute the group commitment is never reported as a failed aggregate. -/
theorem groupCommitment_ne_aggregateInvariant :
    s.groupCommitment ≠ .error aggregateInvariantError := by
  intro h
  obtain h | ⟨_, -, h⟩ := bind_eq_error.mp h
  · cases (rejectIf_eq_error.mp h).2
  obtain h | ⟨rhos, -, h⟩ := bind_eq_error.mp h
  · obtain ⟨_, -, h⟩ := mapError_eq_error.mp h
    cases h
  obtain h | ⟨terms, -, h⟩ := bind_eq_error.mp h
  · obtain ⟨id, -, h⟩ := mapM_eq_error h
    unfold nonceTerm at h
    split at h
    · cases h
    · split at h <;> cases h
  obtain h | ⟨_, -, h⟩ := bind_eq_error.mp h
  · obtain h | ⟨_, -, h⟩ := bind_eq_error.mp h
    · cases (rejectIf_eq_error.mp h).2
    · cases h
  · cases h

omit [Sha512] in
/-- A rejected partial is reported as such. -/
theorem aggregateStep_ne_aggregateInvariant {c z : F} {id : PartyID} :
    s.aggregateStep rhos c z id ≠ .error aggregateInvariantError := by
  intro h
  unfold aggregateStep at h
  split at h
  · obtain h | ⟨_, -, h⟩ := bind_eq_error.mp h
    · obtain ⟨_, -, h⟩ := mapError_eq_error.mp h
      cases h
    · cases h
  · cases h

/-- The final verification never fails once every partial has passed. -/
theorem Signs.prepareAggregate_ne (hs : s.Signs f δ) :
    s.prepareAggregate ≠ .error aggregateInvariantError := by
  intro h
  unfold prepareAggregate at h
  split at h
  · cases h
  split at h
  · cases h
  obtain h | ⟨⟨R, rhos⟩, hR, h⟩ := bind_eq_error.mp h
  · exact groupCommitment_ne_aggregateInvariant h
  obtain h | ⟨z, hz, h⟩ := bind_eq_error.mp h
  · obtain ⟨id, -, _, h⟩ := foldlM_eq_error h
    exact aggregateStep_ne_aggregateInvariant h
  obtain ⟨hall, rfl⟩ := foldlM_aggregateStep.mp hz
  obtain h | ⟨_, -, h⟩ := bind_eq_error.mp h
  · rw [zero_add] at h
    exact (rejectIf_eq_error.mp h).1 (hs.verify_aggregate hR fun id hid => (hall id hid).2)
  · cases h

end SignSession

/-! ## A two-party run

The additive group of a prime field stands in for the curve. -/

/-- A prime above every party identifier: `3 * 2^36 + 1`. -/
theorem prime_sampleOrder : Nat.Prime 206158430209 := by
  apply prime_of_factors (22 : ZMod 206158430209) [(2, 36), (3, 1)]
  · norm_num
  · norm_num
  · norm_num
    reduce_mod_char
  · norm_num
    reduce_mod_char
    decide +kernel

abbrev SampleField := ZMod 206158430209

instance primeFact_sampleOrder : Fact (Nat.Prime 206158430209) := ⟨prime_sampleOrder⟩

theorem leNat_sample (a : SampleField) : ((leNat (leBytes 32 a.val) : Nat) : SampleField) = a := by
  have hlt : a.val < 256 ^ 32 := lt_of_lt_of_le (ZMod.val_lt a) (by norm_num)
  rw [leNat_leBytes hlt, ZMod.natCast_zmod_val]

@[reducible] def sampleCurve : Edwards25519 SampleField SampleField where
  base := 1
  base_ne_zero := one_ne_zero
  natCast_inj a b ha hb hab := by
    have h := congrArg ZMod.val hab
    rwa [ZMod.val_natCast_of_lt (by omega), ZMod.val_natCast_of_lt (by omega)] at h
  pointBytes P := leBytes 32 P.val
  length_pointBytes P := length_leBytes 32 _
  pointFromBytes b := some (leNat b : Nat)
  pointFromBytes_pointBytes P := congrArg some (leNat_sample P)
  scalarBytes a := leBytes 32 a.val
  length_scalarBytes a := length_leBytes 32 _
  scalarFromCanonical b := some (leNat b : Nat)
  scalarFromCanonical_scalarBytes a := congrArg some (leNat_sample a)
  scalarFromUniform digest := (leNat digest.toList : Nat)

@[reducible] def sampleSha512 : Sha512 := ⟨fun b => Vector.ofFn fun i : Fin 64 => b.getD i 0⟩

/-- The secret is 5, the polynomial `5 + 4 X`. -/
def sampleKey (party : PartyID) (secret : SampleField) : KeyShare SampleField SampleField where
  party := party
  threshold := 2
  parties := [1, 2]
  publicKey := ⟨5, by decide⟩
  secret := secret
  groupCommitments := [5, 4]
  partyData := ((∅ : FMap _ _).insert 1 ⟨9, by decide⟩).insert 2 ⟨13, by decide⟩

/-- The commitments to the nonces 2 and 7 of party 1, and to 11 and 6 of party 2. -/
def sampleCommitment (id : PartyID) (planHash : Bytes) : NonceCommitment SampleField :=
  if id = 1 then ⟨⟨2, by decide⟩, ⟨(7 : ℕ), by decide⟩, planHash⟩
  else ⟨⟨11, by decide⟩, ⟨6, by decide⟩, planHash⟩

/-- Both parties sign, for the key shifted by 3. -/
def sampleSession (party : PartyID) (secret d e : SampleField) :
    SignSession SampleField SampleField where
  key := sampleKey party secret
  sessionID := zero32
  message := lit "m"
  signers := [1, 2]
  derivation := ⟨leBytes 32 8⟩
  planHash := []
  commitments :=
    ((∅ : FMap _ _).insert 1 (sampleCommitment 1 [])).insert 2 (sampleCommitment 2 [])
  partials := ∅
  partialEnvelopes := ∅
  dNonce := some d
  eNonce := some e
  deltaScalar := some 3
  partialSent := false
  completed := false

theorem sampleSession_signs {party : PartyID} {secret : SampleField}
    (hvalid : @KeyShare.validateConsistencyMaterial _ _ _ _ _ _ sampleCurve
      (sampleKey party secret) = .ok ()) (d e : SampleField) :
    @SignSession.Signs _ _ _ _ _ sampleCurve (sampleSession party secret d e)
      (scalarPolynomial [5, 4]) 3 := by
  let := sampleCurve
  refine ⟨KeyShare.Deals.of_validate rfl ?_ ?_ hvalid, ?_, ?_, ?_, ?_, rfl, ?_⟩
  · show (0 : PartyID) ∉ [1, 2]
    decide
  · show [(5 : SampleField), 4] = [5 • 1, 4 • 1]
    decide +kernel
  · show [(1 : PartyID), 2].Nodup
    decide
  · exact fun id hid => hid
  · exact le_refl 2
  · exact List.cons_ne_nil 1 [2]
  · show leBytes 32 8 = leBytes 32 ((5 : SampleField) + 3 • 1).val
    decide +kernel

end Tss.Frost
