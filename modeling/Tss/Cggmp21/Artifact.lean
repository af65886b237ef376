import Tss.Curve.Secp256k1
import Tss.Party

/-!
# Normalized presign artifacts (`cggmp21/secp256k1/paper_presign_artifact.go`)

The public output of Figure 8 is one pair of group elements for every
signer. `decodeCommitments` reads a list of encoded pairs: it is the loop that
the check of the artifact and that of the online signing context share.
-/

namespace Tss.Cggmp21

open Secp256k1 Fallible

structure NormalizedPresignCommitment where
  party : PartyID
  deltaTilde : Bytes
  sTilde : Bytes
deriving DecidableEq

variable [Curve]

/-- `encodePresignGroupElement`: the identity is the empty string. -/
def encodePresignGroupElement (P : Point) : Except String Bytes :=
  if P = 0 then .ok [] else pointBytes P

def decodePresignGroupElement (encoded : Bytes) : Except String Point :=
  if encoded = [] then .ok 0
  else (pointFromBytes encoded).mapError ("invalid presign group element: " ++ ·)

/-- The texts of the errors of a loop over the commitments. -/
structure CommitmentErrors where
  order : PartyID → String
  deltaTilde : PartyID → String → String
  sTilde : PartyID → String → String

/-- One iteration of a loop over the commitments: the commitment at the place of `signer`. -/
def decodeCommitment (errors : CommitmentErrors) (signer : PartyID)
    (commitment : NormalizedPresignCommitment) : Except String (Point × Point) := do
  rejectIf (commitment.party ≠ signer) (errors.order commitment.party)
  let delta ← (decodePresignGroupElement commitment.deltaTilde).mapError
    (errors.deltaTilde commitment.party)
  let s ← (decodePresignGroupElement commitment.sTilde).mapError (errors.sTilde commitment.party)
  pure (delta, s)

/-- A loop over the commitments of as many signers. -/
def decodeCommitments (errors : CommitmentErrors) (signers : PartySet)
    (commitments : List NormalizedPresignCommitment) : Except String (List (Point × Point)) :=
  (signers.zip commitments).mapM fun (signer, commitment) =>
    decodeCommitment errors signer commitment

/-- `verifyFigure10Partial`: `[sigma]Gamma = [m]DeltaTilde + [r]STilde`. -/
def verifyFigure10Partial (gamma : Point) (commitment : NormalizedPresignCommitment)
    (message littleR sigma : Scalar) : Except String Unit := do
  let _ ← (pointBytes gamma).mapError ("invalid signing Gamma: " ++ ·)
  let delta ← decodePresignGroupElement commitment.deltaTilde
  let s ← decodePresignGroupElement commitment.sTilde
  rejectIf (sigma • gamma ≠ message • delta + littleR • s) "figure 10 partial equation failed"

/-! ## Group elements -/

theorem decodePresignGroupElement_eq_ok {b : Bytes} {P : Point} :
    decodePresignGroupElement b = .ok P ↔ encodePresignGroupElement P = .ok b := by
  rw [decodePresignGroupElement, encodePresignGroupElement]
  by_cases hP : P = 0
  · subst hP
    rw [if_pos rfl, Except.ok.injEq]
    by_cases hb : b = []
    · rw [if_pos hb, hb]
      simp
    · rw [if_neg hb, mapError_eq_ok]
      constructor
      · intro h
        exact absurd rfl (pointFromBytes_ne_zero h)
      · intro h
        exact absurd h.symm hb
  · rw [if_neg hP]
    by_cases hb : b = []
    · subst hb
      rw [if_pos rfl, pointBytes_eq_ok, Except.ok.injEq]
      constructor
      · intro h
        exact absurd h.symm hP
      · rintro ⟨x, y, -, h⟩
        cases h
    · rw [if_neg hb, mapError_eq_ok, pointFromBytes_eq_ok]

/-! ## Commitment lists -/

namespace NormalizedPresignCommitment

/-- The group element encoded in `DeltaTilde`. -/
def deltaPoint (c : NormalizedPresignCommitment) : Point :=
  (decodePresignGroupElement c.deltaTilde).toOption.getD 0

/-- The group element encoded in `STilde`. -/
def sPoint (c : NormalizedPresignCommitment) : Point :=
  (decodePresignGroupElement c.sTilde).toOption.getD 0

/-- Both encodings are valid. -/
def Decodes (c : NormalizedPresignCommitment) : Prop :=
  decodePresignGroupElement c.deltaTilde = .ok c.deltaPoint ∧
    decodePresignGroupElement c.sTilde = .ok c.sPoint

end NormalizedPresignCommitment

theorem decodeCommitment_eq_ok {errors : CommitmentErrors} {signer : PartyID}
    {c : NormalizedPresignCommitment} {points : Point × Point} :
    decodeCommitment errors signer c = .ok points ↔
      (c.party = signer ∧ c.Decodes) ∧ points = (c.deltaPoint, c.sPoint) := by
  simp only [decodeCommitment, bind_eq_ok, rejectIf_eq_ok, exists_const, mapError_eq_ok, not_not,
    pure, Except.pure, Except.ok.injEq]
  constructor
  · rintro ⟨hparty, delta, hdelta, s, hs, rfl⟩
    have hd : c.deltaPoint = delta := by
      rw [NormalizedPresignCommitment.deltaPoint, hdelta]
      rfl
    have hsp : c.sPoint = s := by
      rw [NormalizedPresignCommitment.sPoint, hs]
      rfl
    exact ⟨⟨hparty, hd ▸ hdelta, hsp ▸ hs⟩, by rw [hd, hsp]⟩
  · rintro ⟨⟨hparty, hdelta, hs⟩, rfl⟩
    exact ⟨hparty, _, hdelta, _, hs, rfl⟩

omit [Curve] in
theorem forall_mem_zip_party {signers : PartySet} {cs : List NormalizedPresignCommitment}
    (hlength : cs.length = signers.length) {P : NormalizedPresignCommitment → Prop} :
    (∀ a ∈ signers.zip cs, a.2.party = a.1 ∧ P a.2) ↔
      cs.map (·.party) = signers ∧ ∀ c ∈ cs, P c := by
  induction cs generalizing signers with
  | nil =>
    obtain rfl : signers = [] := List.length_eq_zero_iff.mp hlength.symm
    simp
  | cons c cs ih =>
    obtain ⟨signer, signers, rfl⟩ := List.exists_cons_of_length_eq_add_one hlength.symm
    rw [List.zip_cons_cons, List.forall_mem_cons, ih (by simpa using hlength), List.map_cons,
      List.cons.injEq, List.forall_mem_cons]
    tauto

/-- A loop over the commitments succeeds when they stand in the order of the signers and
their elements decode. -/
theorem decodeCommitments_eq_ok {errors : CommitmentErrors} {signers : PartySet}
    {cs : List NormalizedPresignCommitment} {points : List (Point × Point)}
    (hlength : cs.length = signers.length) :
    decodeCommitments errors signers cs = .ok points ↔
      (cs.map (·.party) = signers ∧ ∀ c ∈ cs, c.Decodes) ∧
        points = cs.map fun c => (c.deltaPoint, c.sPoint) := by
  have hzip : (signers.zip cs).map Prod.snd = cs := List.map_snd_zip hlength.le
  have hsnd : (signers.zip cs).map (fun a => (a.2.deltaPoint, a.2.sPoint)) =
      cs.map fun c => (c.deltaPoint, c.sPoint) := by
    nth_rewrite 2 [← hzip]
    rw [List.map_map]
    rfl
  rw [decodeCommitments, mapM_eq_ok (fun a => (a.2.deltaPoint, a.2.sPoint))
    (fun a b h => (decodeCommitment_eq_ok.mp h).2), hsnd, ← forall_mem_zip_party hlength]
  simp only [decodeCommitment_eq_ok, and_true]

end Tss.Cggmp21
