import Tss.Frost.Payload

/-!
# Schnorr proofs over Ed25519 (`internal/zk/schnorred25519`, `internal/zk/challenge`)

The proof of knowledge of a discrete logarithm that a keygen dealer attaches
to its constant term. The challenge is derived from the transcript by
rejection sampling.
-/

set_option linter.unusedSectionVars false

namespace Tss.Frost

open Edwards25519 Fallible Wire

variable {F G : Type} [Field F] [DecidableEq F] [AddCommGroup G] [DecidableEq G] [Module F G]
  [Edwards25519 F G]

/-- `schnorred25519.Proof`. -/
structure SchnorrProof where
  commitment : Bytes
  response : Bytes
deriving DecidableEq

namespace SchnorrProof

def validate (G : Type) [AddCommGroup G] [DecidableEq G] [Module F G] [Edwards25519 F G]
    (p : SchnorrProof) : Except GoError Unit := do
  let _ ← (semanticPointFromBytes p.commitment : Except GoError (SemanticPoint G)).mapError
    (.wrap "invalid Ed25519 Schnorr commitment: %w" [])
  let _ ← (scalarFromCanonicalBytes G p.response).mapError
    (.wrap "invalid Ed25519 Schnorr response: %w" [])

def schema : Schema :=
  ⟨"Proof", "zk.schnorr-ed25519.proof", 1, [(1, "Commitment"), (2, "Response")]⟩

/-- The fields, each with a fixed length of 32. -/
def encodeFields (p : SchnorrProof) (fieldError : Nat → GoError → GoError) :
    Except GoError (List Bytes) := do
  (checkFixedLen 32 p.commitment).mapError (fieldError 0)
  (checkFixedLen 32 p.response).mapError (fieldError 1)
  pure [p.commitment, p.response]

/-- `MarshalBinary`. -/
def marshal (G : Type) [AddCommGroup G] [DecidableEq G] [Module F G] [Edwards25519 F G]
    (p : SchnorrProof) : Except GoError Bytes := do
  (p.validate G).mapError schema.marshalError
  let values ← p.encodeFields schema.fieldError
  schema.marshal values

/-- The proof as a `record` field. -/
def marshalRecord (G : Type) [AddCommGroup G] [DecidableEq G] [Module F G] [Edwards25519 F G]
    (p : SchnorrProof) : Except GoError Bytes := do
  (p.validate G).mapError (.wrap "record Validate: %w" [])
  let values ← p.encodeFields schema.recordFieldError
  schema.marshalRecord values

/-- The proof in a `record` field. -/
def unmarshalRecord (G : Type) [AddCommGroup G] [DecidableEq G] [Module F G] [Edwards25519 F G]
    (limits : FrameLimits) (raw : Bytes) : Except GoError SchnorrProof := do
  let values ← schema.unmarshalRecord limits raw
  let p : SchnorrProof := ⟨values.getD 0 [], values.getD 1 []⟩
  let _ ← p.encodeFields schema.recordFieldError
  (p.validate G).mapError (.wrap "record Proof Validate: %w" [])
  pure p

end SchnorrProof

/-- A proof that was written has fields of 32 bytes. -/
theorem SchnorrProof.marshal_eq_ok {p : SchnorrProof} {raw : Bytes} (h : p.marshal G = .ok raw) :
    p.commitment.length = 32 ∧ p.response.length = 32 ∧
      schema.marshal [p.commitment, p.response] = .ok raw := by
  obtain ⟨-, h⟩ := seq_eq_ok.mp h
  obtain ⟨values, hvalues, h⟩ := bind_eq_ok.mp h
  obtain ⟨hcommitment, hvalues⟩ := seq_eq_ok.mp hvalues
  obtain ⟨hresponse, hvalues⟩ := seq_eq_ok.mp hvalues
  cases hvalues
  rw [mapError_eq_ok, checkFixedLen, rejectIf_eq_ok, not_not] at hcommitment hresponse
  exact ⟨hcommitment, hresponse, h⟩

/-- Two proofs that are written alike are the same. -/
theorem SchnorrProof.marshal_inj {p p' : SchnorrProof} {raw : Bytes}
    (h : p.marshal G = .ok raw) (h' : p'.marshal G = .ok raw) : p = p' := by
  have hfields := Schema.marshal_inj rfl rfl (marshal_eq_ok h).2.2 (marshal_eq_ok h').2.2
  obtain ⟨commitment, response⟩ := p
  obtain ⟨commitment', response'⟩ := p'
  obtain ⟨rfl, hrest⟩ := List.cons.inj hfields
  obtain ⟨rfl, -⟩ := List.cons.inj hrest
  rfl

/-! ## The challenge -/

section Challenge

variable [Sha256]

def schnorrChallengeLabel : String := "github.com/islishude/tss/internal/zk/schnorred25519/v1"

def schnorrChallengeDerivationLabel : String :=
  "github.com/islishude/tss/internal/zk/schnorred25519/challenge/v1"

/-- `challengeCandidate`, with the top three bits of its last byte cleared. -/
def challengeCandidate (root : Bytes) (counter : UInt32) : Bytes :=
  let digest := ((Transcript.new schnorrChallengeDerivationLabel).appendBytes "root" root
    |>.appendUint32 "counter" counter).sum
  digest.set 31 (digest.getD 31 0 &&& 0x1f)

/-- `canonicalNonZeroEd25519Candidate`. -/
def canonicalNonZeroCandidate (G : Type) [AddCommGroup G] [Module F G] [Edwards25519 F G]
    (candidate : Bytes) : Option F :=
  (scalarFromCanonical G candidate).filter (· ≠ 0)

/-- `DeriveCanonicalNonZeroEd25519` with the counter limit of the proofs. -/
def deriveCanonicalNonZero (G : Type) [AddCommGroup G] [Module F G] [Edwards25519 F G]
    (root : Bytes) : Option F :=
  (List.range 256).findSome? fun counter =>
    canonicalNonZeroCandidate G (challengeCandidate root (UInt32.ofNat counter))

/-- The transcript whose digest the challenge is derived from. -/
def schnorrTranscript (domain publicKey commitment : Bytes) : Transcript.Builder :=
  (Transcript.new schnorrChallengeLabel).appendBytes "outer_domain" domain
    |>.appendBytes "public_key" publicKey
    |>.appendBytes "commitment" commitment

/-- `challenge`. -/
def schnorrChallenge (G : Type) [AddCommGroup G] [Module F G] [Edwards25519 F G]
    (domain publicKey commitment : Bytes) : Option F :=
  deriveCanonicalNonZero G (schnorrTranscript domain publicKey commitment).sum

namespace SchnorrProof

/-- `Prepare` and `Finalize` with the nonce as an input. There is no proof when no candidate
is a challenge. -/
def prove (G : Type) [AddCommGroup G] [Module F G] [Edwards25519 F G] (domain : Bytes)
    (secret nonce : F) : Option SchnorrProof :=
  let commitment := pointBytes (baseMult nonce : G)
  (schnorrChallenge G domain (pointBytes (baseMult secret : G)) commitment).map fun challenge =>
    ⟨commitment, scalarBytes G (challenge * secret + nonce)⟩

/-- `Verify`: `[mu]B = R + [c]C`. -/
def verify (G : Type) [AddCommGroup G] [DecidableEq G] [Module F G] [Edwards25519 F G]
    (domain publicKey : Bytes) (p : SchnorrProof) : Bool :=
  match (semanticPointFromBytes publicKey : Except GoError (SemanticPoint G)),
    (semanticPointFromBytes p.commitment : Except GoError (SemanticPoint G)),
    scalarFromCanonical G p.response, schnorrChallenge G domain publicKey p.commitment with
  | .ok C, .ok R, some response, some challenge =>
    (baseMult response : G) = R.val + challenge • C.val
  | _, _, _, _ => false

end SchnorrProof

/-! ## What the verifier accepts -/

/-- An accepted proof for a public key of this encoding, opened. -/
theorem SchnorrProof.verify_eq_true {domain : Bytes} {C : SemanticPoint G} {p : SchnorrProof}
    (h : p.verify G domain (pointBytes C.val) = true) :
    ∃ (R : SemanticPoint G) (response challenge : F),
      semanticPointFromBytes p.commitment = .ok R ∧
      scalarFromCanonical G p.response = some response ∧
      schnorrChallenge G domain (pointBytes C.val) p.commitment = some challenge ∧
      (baseMult response : G) = R.val + challenge • C.val := by
  unfold verify at h
  rw [semanticPointFromBytes_pointBytes] at h
  split at h
  · next C' R response challenge hC hR hresponse hchallenge =>
    cases hC
    exact ⟨R, response, challenge, hR, hresponse, hchallenge, of_decide_eq_true h⟩
  · cases h

/-- One proof that is accepted for one public key in two domains has one challenge. -/
theorem SchnorrProof.challenge_eq_of_verify {domain domain' : Bytes} {C : SemanticPoint G}
    {p : SchnorrProof} (h : p.verify G domain (pointBytes C.val) = true)
    (h' : p.verify G domain' (pointBytes C.val) = true) :
    schnorrChallenge G domain (pointBytes C.val) p.commitment =
      schnorrChallenge G domain' (pointBytes C.val) p.commitment ∧
    (schnorrChallenge G domain (pointBytes C.val) p.commitment : Option F).isSome := by
  obtain ⟨R, response, challenge, hR, hresponse, hchallenge, heq⟩ := verify_eq_true h
  obtain ⟨R', response', challenge', hR', hresponse', hchallenge', heq'⟩ := verify_eq_true h'
  rw [hR, Except.ok.injEq] at hR'
  rw [hresponse, Option.some.injEq] at hresponse'
  subst hR' hresponse'
  have hsmul : challenge • C.val = challenge' • C.val := by
    rw [heq] at heq'
    exact add_left_cancel heq'
  have hsame : challenge = challenge' := smul_left_injective F C.property hsmul
  rw [hchallenge, hchallenge', hsame]
  exact ⟨rfl, rfl⟩

/-- The proof of a dealer who knows the secret is accepted. -/
theorem SchnorrProof.verify_prove {domain : Bytes} {secret nonce : F} {p : SchnorrProof}
    (hsecret : (baseMult secret : G) ≠ 0) (hnonce : (baseMult nonce : G) ≠ 0)
    (h : prove G domain secret nonce = some p) :
    p.verify G domain (pointBytes (baseMult secret : G)) = true := by
  obtain ⟨challenge, hchallenge, rfl⟩ := Option.map_eq_some_iff.mp h
  unfold verify
  rw [semanticPointFromBytes_pointBytes ⟨baseMult secret, hsecret⟩,
    semanticPointFromBytes_pointBytes ⟨baseMult nonce, hnonce⟩, scalarFromCanonical_scalarBytes,
    hchallenge]
  simp only [decide_eq_true_eq]
  rw [smul_baseMult, ← baseMult_add, add_comm]

end Challenge

end Tss.Frost
