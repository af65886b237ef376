import Tss.Cggmp21.Reshare.Share
import Tss.Curve.Model
import Tss.Frost.KeygenSession

/-!
# Secret sharing on both curves

Both protocols deal a secret as the values of a polynomial and recombine
them by Lagrange weights: FROST at the party identifiers, CGGMP21 at the
evaluation points of an epoch. The dealer commits to the coefficients, and
everybody can compare a share with the commitments (`internal/shamir`,
`internal/curve/secp256k1/share.go`, `frost/ed25519/commitments.go`).
-/

namespace Tss

open Fallible

/-! ## Shares on secp256k1 -/

namespace Secp256k1

variable [Curve]

/-- `evalAtScalar`, from the highest coefficient down. -/
def evalAtScalar (poly : List Scalar) (x : Scalar) : Scalar :=
  poly.reverse.foldl (fun acc p => acc * x + p) 0

def evalAt (poly : List Scalar) (id : Scalar) : Except String Scalar := do
  rejectIf (id = 0) "shamir identifier is zero"
  pure (evalAtScalar poly id)

/-- `EvalCommitmentPoints`. A commitment that is `nil` only moves the power on. -/
def evalCommitmentPoints (commitments : List (Option Point)) (id : UInt32) : Point :=
  (commitments.foldl (fun (acc, pow) commitment =>
    match commitment with
    | none => (acc, pow * (id.toNat : Scalar))
    | some point => (acc + pow • point, pow * (id.toNat : Scalar))) ((0 : Point), (1 : Scalar))).1

def commitmentPointsFromBytes (commitments : List Bytes) : Except String (List (Option Point)) :=
  commitments.mapM fun enc => if enc = [] then .ok none else (pointFromBytes enc).map some

def verifySharePoints (commitments : List (Option Point)) (id : UInt32) (share : Scalar) :
    Except String Unit :=
  rejectIf (scalarBaseMult share ≠ evalCommitmentPoints commitments id)
    "share does not match commitments"

def verifyShare (commitments : List Bytes) (id : UInt32) (share : Scalar) : Except String Unit := do
  let points ← commitmentPointsFromBytes commitments
  verifySharePoints points id share

/-- What a vector entry commits to: `nil` and the point at infinity to zero. -/
def Commits (coeff : Scalar) (entry : Option Point) : Prop := entry.getD 0 = scalarBaseMult coeff

/-- The encoding of such an entry. -/
def Encodes (coeff : Scalar) (enc : Bytes) : Prop :=
  (enc = [] ∧ coeff = 0) ∨ pointFromBytes enc = .ok (scalarBaseMult coeff)

variable {poly : List Scalar}

theorem map_getD_of_commits {commitments : List (Option Point)}
    (h : List.Forall₂ Commits poly commitments) :
    commitments.map (·.getD 0) = poly.map (· • generator) := by
  induction h with
  | nil => rfl
  | cons hentry _ ih => rw [List.map_cons, List.map_cons, ih, hentry, scalarBaseMult]

/-- The loop over the commitments to a polynomial commits to its value. -/
theorem foldl_commitments {commitments : List (Option Point)}
    (h : List.Forall₂ Commits poly commitments) (x : Scalar) :
    ((commitments.map (·.getD 0)).foldl (fun (p : Point × Scalar) P => (p.1 + p.2 • P, p.2 * x))
      (0, 1)).1 = scalarBaseMult (evalAtScalar poly x) := by
  have hloop := Lagrange.foldl_smul_pow (generator : Point) poly x 0 1
  rw [zero_add, one_mul, zero_smul] at hloop
  rw [map_getD_of_commits h, hloop, scalarBaseMult, evalAtScalar, Lagrange.foldl_reverse_horner]

theorem evalCommitmentPoints_eq {commitments : List (Option Point)}
    (h : List.Forall₂ Commits poly commitments) (id : UInt32) :
    evalCommitmentPoints commitments id = scalarBaseMult (evalAtScalar poly id.toNat) := by
  rw [← foldl_commitments h, evalCommitmentPoints, List.foldl_map]
  congr 2
  funext p entry
  cases entry with
  | none => simp
  | some P => rfl

theorem verifySharePoints_iff {commitments : List (Option Point)}
    (h : List.Forall₂ Commits poly commitments) (id : UInt32) (share : Scalar) :
    verifySharePoints commitments id share = .ok () ↔ share = evalAtScalar poly id.toNat := by
  rw [verifySharePoints, rejectIf_eq_ok, not_not, evalCommitmentPoints_eq h,
    scalarBaseMult_injective.eq_iff]

/-- The encoded entries of a vector are parsed as entries with the same coefficients. -/
theorem commitmentPointsFromBytes_of_encodes {encoded : List Bytes}
    (h : List.Forall₂ Encodes poly encoded) :
    ∃ commitments, commitmentPointsFromBytes encoded = .ok commitments ∧
      List.Forall₂ Commits poly commitments := by
  induction h with
  | nil => exact ⟨[], rfl, .nil⟩
  | @cons coeff enc poly encoded hentry _ ih =>
    obtain ⟨commitments, hparse, hcommits⟩ := ih
    unfold commitmentPointsFromBytes at hparse ⊢
    rcases hentry with ⟨rfl, rfl⟩ | hpoint
    · refine ⟨none :: commitments, ?_, .cons ?_ hcommits⟩
      · rw [List.mapM_cons, hparse]
        rfl
      · simp [Commits, scalarBaseMult]
    · have hne : enc ≠ [] := by
        rintro rfl
        cases hpoint
      refine ⟨some (scalarBaseMult coeff) :: commitments, ?_, .cons rfl hcommits⟩
      rw [List.mapM_cons, hparse, if_neg hne, hpoint]
      rfl

end Secp256k1

open Secp256k1 Frost Edwards25519

/-! ## Recombining shares -/

/-- The weights of distinct identifiers recombine every polynomial of small degree. An epoch's
weights are defined for the signer lists in increasing order, and for no others. -/
theorem lagrange_reconstructs {F : Type} (G : Type) [Field F] [DecidableEq F] [AddCommGroup G]
    [Module F G] [Edwards25519 F G] [Curve] :
    (∀ ids : List Scalar, ids.Nodup → 0 ∉ ids → ∃ weight : Scalar → Scalar,
      (∀ id ∈ ids, Cggmp21.lagrangeCoefficientAt id ids = .ok (weight id)) ∧
      Lagrange.Reconstructs ids id weight) ∧
    (∀ ids : PartySet, ids.Nodup → 0 ∉ ids → ∃ weight : PartyID → F,
      (∀ id ∈ ids, lagrangeCoefficientScalar id ids = .ok (weight id)) ∧
      Lagrange.Reconstructs ids (partyScalar F) weight) ∧
    ∀ (e : Cggmp21.EpochContext) (signers : PartySet) (node : PartyID → Scalar),
      (∀ p ∈ signers, e.signerIdentifier p = .ok (node p)) → (signers.map node).Nodup →
      ((∀ p ∈ signers, ∃ weight, e.lagrangeCoefficient p signers = .ok weight) ↔
        0 ∉ signers ∧ signers.Pairwise (· < ·)) ∧
      (0 ∉ signers ∧ signers.Pairwise (· < ·) → ∃ weight : PartyID → Scalar,
        (∀ p ∈ signers, e.lagrangeCoefficient p signers = .ok (weight p)) ∧
        Lagrange.Reconstructs signers node weight) := by
  refine ⟨fun ids hnodup hzero => ?_, fun ids hnodup hzero => ?_,
    fun e signers node hnode hnodup => ?_⟩
  · have hids : (ids.map id).Nodup := by rwa [List.map_id]
    have hreconstructs := Lagrange.reconstructs hids
    rw [List.map_id] at hreconstructs
    exact ⟨_, fun id hid => Cggmp21.lagrangeCoefficientAt_eq hnodup hzero hid, hreconstructs⟩
  · exact ⟨_, fun id hid => lagrangeCoefficientScalar_eq G hnodup hzero hid,
      Lagrange.reconstructs (hnodup.map (partyScalar_injective G))⟩
  · have hcoefficient : 0 ∉ signers ∧ signers.Pairwise (· < ·) → ∀ p ∈ signers,
        e.lagrangeCoefficient p signers = .ok (Lagrange.coefficient (signers.map node) (node p)) := by
      intro ⟨hzero, hsorted⟩ p hp
      refine Cggmp21.EpochContext.lagrangeCoefficient_of_identifiers ?_ hnode hnodup hp
      exact validateStrictSortedIDs_eq_ok.mpr
        ⟨List.ne_nil_of_mem hp, fun id hid h => hzero (h ▸ hid), hsorted⟩
    refine ⟨⟨fun hdefined => ?_, fun h p hp => ⟨_, hcoefficient h p hp⟩⟩,
      fun h => ⟨_, hcoefficient h, Lagrange.reconstructs hnodup⟩⟩
    cases hsigners : signers with
    | nil => exact ⟨List.not_mem_nil, .nil⟩
    | cons p rest =>
      obtain ⟨weight, hweight⟩ := hdefined p (by rw [hsigners]; exact List.mem_cons_self)
      have hvalid := validateStrictSortedIDs_eq_ok.mp (seq_eq_ok.mp hweight).1
      rw [← hsigners]
      exact ⟨fun hzero => hvalid.2.1 0 hzero rfl, hvalid.2.2⟩

/-- The same identifiers in decreasing order have no weights. -/
theorem lagrangeCoefficient_descending :
    letI := Model.curve
    let e : Cggmp21.EpochContext :=
      { sid := .replicate 32 0, rid := .replicate 32 0, threshold := 2, epochID := [],
        identifiers := [⟨1, scalarBytes 1⟩, ⟨2, scalarBytes 2⟩], publicShares := [],
        auxiliaryDigest := [], sourceEpochID := none }
    e.signerIdentifier 2 = .ok 2 ∧ e.signerIdentifier 1 = .ok 1 ∧
      e.lagrangeCoefficient 1 [2, 1] = .error "party ids must be strictly increasing" := by
  decide +kernel

/-! ## Checking shares -/

/-- The point loops evaluate the commitments to a polynomial to the commitment to its value, and
a share is accepted exactly when it is the value. -/
theorem feldman_exact {F G : Type} [Field F] [AddCommGroup G] [DecidableEq G] [Module F G]
    [Edwards25519 F G] [Curve] :
    (∀ (c : F) (cs : List F) (id : PartyID) (share : F),
      Frost.evalCommitmentPoints (F := F) ((c :: cs).map (baseMult (G := G))) id =
        some (baseMult (evalScalarPolynomial (c :: cs) id)) ∧
      (verifyCommitmentShare ((c :: cs).map (baseMult (G := G))) id share = .ok () ↔
        share = evalScalarPolynomial (c :: cs) id)) ∧
    (∀ (poly : List Scalar) (commitments : List (Option Point)),
      List.Forall₂ Commits poly commitments →
      (∀ (id : UInt32) (share : Scalar),
        evalCommitmentPoints commitments id = scalarBaseMult (evalAtScalar poly id.toNat) ∧
        (verifySharePoints commitments id share = .ok () ↔
          share = evalAtScalar poly id.toNat)) ∧
      ∀ id : Scalar, id ≠ 0 → evalAt poly id = .ok (evalAtScalar poly id) ∧
        Cggmp21.evaluateCommitmentPointsAtIdentifier (commitments.map (·.getD 0))
          (scalarBytes id) = .ok (scalarBaseMult (evalAtScalar poly id))) ∧
    ∀ (poly : List Scalar) (encoded : List Bytes), List.Forall₂ Encodes poly encoded →
      ∀ (id : UInt32) (share : Scalar),
        verifyShare encoded id share = .ok () ↔ share = evalAtScalar poly id.toNat := by
  refine ⟨fun c cs id share => ?_, fun poly commitments h => ⟨fun id share => ?_, ?_⟩, ?_⟩
  · have heval := evalCommitmentPoints_map (G := G) (List.cons_ne_nil c cs) id
    rw [← evalScalarPolynomial_eq] at heval
    refine ⟨heval, ?_⟩
    simp only [verifyCommitmentShare, heval]
    rw [rejectIf_eq_ok, not_not, baseMult_injective.eq_iff]
  · exact ⟨evalCommitmentPoints_eq h id, verifySharePoints_iff h id share⟩
  · intro id hid
    constructor
    · simp [evalAt, rejectIf, hid]
    · simp only [Cggmp21.evaluateCommitmentPointsAtIdentifier,
        scalarFromBytes_eq_ok.mpr ⟨rfl, hid⟩, Cggmp21.liftText, mapError_ok, ok_bind]
      exact congrArg Except.ok (foldl_commitments h id)
  · intro poly encoded h id share
    obtain ⟨commitments, hparse, hcommits⟩ := commitmentPointsFromBytes_of_encodes h
    rw [verifyShare, hparse, ok_bind, verifySharePoints_iff hcommits]

/-- Whatever the dealer committed to, shares that pass the check at enough distinct identifiers
recombine to a logarithm of the first commitment. -/
theorem accepted_shares_recombine {F : Type} (G : Type) [Field F] [DecidableEq F] [AddCommGroup G]
    [DecidableEq G] [Module F G] [Edwards25519 F G] [Curve] :
    (∀ (points : List G) (ids : PartySet) (share : PartyID → F), ids.Nodup → 0 ∉ ids →
      points.length ≤ ids.length →
      (∀ id ∈ ids, verifyCommitmentShare points id (share id) = .ok ()) →
      ∃ weight : PartyID → F,
        (∀ id ∈ ids, lagrangeCoefficientScalar id ids = .ok (weight id)) ∧
        baseMult (ids.map fun id => weight id * share id).sum = points.headD 0) ∧
    ∀ (commitments : List Point) (ids : List Scalar) (share : Scalar → Scalar), ids.Nodup →
      0 ∉ ids → commitments.length ≤ ids.length →
      (∀ id ∈ ids, Cggmp21.evaluateCommitmentPointsAtIdentifier commitments (scalarBytes id) =
        .ok (scalarBaseMult (share id))) →
      ∃ weight : Scalar → Scalar,
        (∀ id ∈ ids, Cggmp21.lagrangeCoefficientAt id ids = .ok (weight id)) ∧
        scalarBaseMult (ids.map fun id => weight id * share id).sum = commitments.headD 0 := by
  constructor
  · intro points ids share hnodup hzero hlength hshare
    refine ⟨_, fun id hid => lagrangeCoefficientScalar_eq G hnodup hzero hid,
      (Lagrange.reconstructs (hnodup.map (partyScalar_injective G))).recombine hlength
        fun id hid => ?_⟩
    have haccepted := hshare id hid
    unfold verifyCommitmentShare at haccepted
    split at haccepted
    · cases haccepted
    · next want hwant =>
      rw [rejectIf_eq_ok, not_not] at haccepted
      exact haccepted.trans (evalCommitmentPoints_eq_some hwant)
  · intro commitments ids share hnodup hzero hlength hshare
    have hids : (ids.map id).Nodup := by rwa [List.map_id]
    have hreconstructs := Lagrange.reconstructs hids
    rw [List.map_id] at hreconstructs
    refine ⟨_, fun id hid => Cggmp21.lagrangeCoefficientAt_eq hnodup hzero hid,
      hreconstructs.recombine hlength fun id hid => ?_⟩
    have hne : id ≠ 0 := fun h => hzero (h ▸ hid)
    have haccepted := hshare id hid
    simp only [Cggmp21.evaluateCommitmentPointsAtIdentifier,
      scalarFromBytes_eq_ok.mpr ⟨rfl, hne⟩, Cggmp21.liftText, mapError_ok, ok_bind] at haccepted
    have hpoint := Lagrange.foldl_points commitments id 0 1
    rw [zero_add, one_smul] at hpoint
    exact (Except.ok.inj haccepted).symm.trans hpoint

end Tss
