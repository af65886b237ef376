import Tss.Curve.Secp256k1
import Tss.Lib.Lagrange
import Tss.Party
import Tss.Transcript

/-!
# Epochs (`cggmp21/secp256k1/epoch_context.go`, `epoch_shamir.go`, `internal/shamir`)

An epoch gives every party a Shamir evaluation point, derived by hashing,
and a public share. `Deals f node` says that the shares are the values of
one polynomial at these points; interpolation over any large enough signer
set then gives its constant term (`Deals.sum_shares`).
-/

namespace Tss.Cggmp21

open Secp256k1 Fallible

/-! ## Limits -/

structure ThresholdLimits where
  maxParties : Int
  maxThreshold : Int
  maxSigners : Int
  minProductionThreshold : Int
  allowOneOfOne : Bool

/-- The parts of `Limits` that validation of public records reads. -/
structure Limits where
  threshold : ThresholdLimits
  maxPointBytes : Int

def ThresholdLimits.validateThreshold (l : ThresholdLimits) (threshold nParties : Int) :
    Except String Unit :=
  rejectIf (threshold < l.minProductionThreshold ∧
      (l.allowOneOfOne = false ∨ threshold ≠ 1 ∨ nParties ≠ 1))
    ("threshold " ++ toString threshold ++ " is below production minimum "
      ++ toString l.minProductionThreshold)

/-! ## Shamir identifiers -/

section Shamir

variable [Curve]

/-- `IdentifierFromBytes`. An `Identifier` is kept as its scalar. -/
def identifierFromBytes (b : Bytes) : Except String Scalar :=
  (scalarFromBytes b).mapError ("invalid Shamir identifier: " ++ ·)

/-- The variables of the loop in `LagrangeCoefficientAt`. -/
structure LagrangeState [Curve] where
  num : Scalar
  den : Scalar
  seen : List Scalar
  found : Bool

/-- One iteration: every other identifier is a factor of both products. -/
def lagrangeStep (id : Scalar) (st : LagrangeState) (other : Scalar) :
    Except String LagrangeState := do
  rejectIf (other = 0) "shamir identifier is zero"
  rejectIf (other ∈ st.seen) "duplicate Shamir identifier"
  pure (if other = id then { st with seen := other :: st.seen, found := true }
    else { st with
      num := st.num * other
      den := st.den * (other - id)
      seen := other :: st.seen })

def lagrangeCoefficientAt (id : Scalar) (ids : List Scalar) : Except String Scalar := do
  rejectIf (id = 0) "shamir identifier is zero"
  rejectIf (ids = []) "shamir identifier set is empty"
  let st ← ids.foldlM (lagrangeStep id) { num := 1, den := 1, seen := [], found := false }
  rejectIf (st.found = false) "target Shamir identifier is not in interpolation set"
  let inv ← (scalarInvert st.den).mapError fun _ => "non-invertible interpolation denominator"
  pure (st.num * inv)

end Shamir

/-! ## Epoch contexts -/

structure EpochPartyIdentifier where
  party : PartyID
  identifier : Bytes
deriving DecidableEq

structure EpochPublicShare where
  party : PartyID
  publicKey : Bytes
deriving DecidableEq

structure EpochContext where
  sid : Array32
  rid : Array32
  threshold : Int
  epochID : Bytes
  identifiers : List EpochPartyIdentifier
  publicShares : List EpochPublicShare
  auxiliaryDigest : Bytes
  sourceEpochID : Option Array32
deriving DecidableEq

def epochIdentifierHashLabel : String := "cggmp21-secp256k1-epoch-shamir-id"
def epochContextIDLabel : String := "cggmp21-secp256k1-epoch-context-id"
def maxEpochIdentifierCandidates : Nat := 256

/-- The candidate that `DeriveEpochIdentifier` hashes for a counter. -/
def epochIdentifierCandidate [Sha256] (sid rid : Array32) (party : PartyID) (counter : Nat) :
    Bytes :=
  ((((Transcript.new epochIdentifierHashLabel).appendBytes "sid" sid.toList).appendBytes
    "rid" rid.toList).appendUint32 "party" party).appendUint32 "counter" (UInt32.ofNat counter)
    |>.sum

/-- `deriveEpochIdentifierWithDigest`, from the remaining counters on. A candidate at or
above the order is retried with the next counter. -/
def deriveEpochIdentifierWithDigest [Curve] (digest : Nat → Bytes) :
    List Nat → Except String Bytes
  | [] => .error "derive epoch identifier: rejection sampling exhausted"
  | counter :: counters => do
    let candidate := digest counter
    rejectIf (candidate.length ≠ sha256Size)
      "derive epoch identifier: hash candidate must be 32 bytes"
    rejectIf (candidate = zero32.toList) "derive epoch identifier: hash candidate is zero"
    match identifierFromBytes candidate with
    | .ok identifier => pure (scalarBytes identifier)
    | .error _ => deriveEpochIdentifierWithDigest digest counters

def deriveEpochIdentifier [Sha256] [Curve] (sid rid : Array32) (party : PartyID) :
    Except String Bytes := do
  rejectIf (sid = zero32) "derive epoch identifier: invalid sid"
  rejectIf (rid = zero32) "derive epoch identifier: invalid rid"
  rejectIf (party = broadcastPartyId) "derive epoch identifier: party id 0 is reserved"
  deriveEpochIdentifierWithDigest (epochIdentifierCandidate sid rid party)
    (List.range maxEpochIdentifierCandidates)

namespace EpochContext

def identifier (e : EpochContext) (party : PartyID) : Option Bytes :=
  (e.identifiers.find? (·.party = party)).map (·.identifier)

def computeID [Sha256] (e : EpochContext) : Bytes :=
  let t := (((Transcript.new epochContextIDLabel).appendBytes "sid" e.sid.toList).appendBytes
    "rid" e.rid.toList).appendUint32 "threshold" (UInt32.ofNat (e.threshold % 2 ^ 32).toNat)
  let t := t.appendBool "has_source_epoch_id" e.sourceEpochID.isSome
  let t := match e.sourceEpochID with
    | none => t
    | some source => t.appendBytes "source_epoch_id" source.toList
  let t := t.appendBytes "auxiliary_digest" e.auxiliaryDigest
  let t := (e.identifiers.zip e.publicShares).foldl (fun t (id, share) =>
    (((t.appendUint32 "identifier_party" id.party).appendBytes "identifier" id.identifier
      ).appendUint32 "public_share_party" share.party).appendBytes "public_share"
      share.publicKey) t
  t.sum

/-- The loop of `validatePartyVectors`: `last` is the previous party, if any. -/
def validatePartyVectors [Sha256] [Curve] (e : EpochContext) (limits : Limits)
    (last : Option PartyID) (seen : List Scalar) :
    List (EpochPartyIdentifier × EpochPublicShare) → Except String Unit
  | [] => .ok ()
  | (identifier, publicShare) :: rest => do
    rejectIf (identifier.party = broadcastPartyId ∨ publicShare.party = broadcastPartyId)
      "epoch context: party id 0 is reserved"
    rejectIf (last.any (identifier.party ≤ ·))
      "epoch context: parties must be strictly increasing"
    rejectIf (publicShare.party ≠ identifier.party)
      ("epoch context: public share party " ++ toString publicShare.party
        ++ " does not match identifier party " ++ toString identifier.party)
    rejectIf (limits.maxPointBytes < publicShare.publicKey.length)
      ("epoch context: public share for party " ++ toString publicShare.party ++ " too large")
    let _ ← (pointFromBytes publicShare.publicKey).mapError fun err =>
      "epoch context: invalid public share for party " ++ toString publicShare.party ++ ": " ++ err
    let parsed ← (identifierFromBytes identifier.identifier).mapError fun err =>
      "epoch context: party " ++ toString identifier.party ++ ": " ++ err
    rejectIf (parsed ∈ seen) "epoch context: duplicate Shamir identifier"
    let expected ← deriveEpochIdentifier e.sid e.rid identifier.party
    rejectIf (expected ≠ identifier.identifier)
      ("epoch context: identifier mismatch for party " ++ toString identifier.party)
    validatePartyVectors e limits (some identifier.party) (parsed :: seen) rest

def validateWithLimits [Sha256] [Curve] (e : EpochContext) (limits : Limits) :
    Except String Unit := do
  rejectIf (e.sid = zero32) "epoch context: invalid sid"
  rejectIf (e.rid = zero32) "epoch context: invalid rid"
  rejectIf (e.epochID.length ≠ sha256Size) "epoch context: epoch id must be 32 bytes"
  rejectIf (e.epochID = zero32.toList) "epoch context: epoch id must be non-zero"
  rejectIf (e.auxiliaryDigest.length ≠ sha256Size)
    "epoch context: auxiliary digest must be 32 bytes"
  rejectIf (e.threshold ≤ 0 ∨ e.identifiers.length < e.threshold)
    ("epoch context: threshold " ++ toString e.threshold ++ " outside [1, "
      ++ toString e.identifiers.length ++ "]")
  rejectIf (limits.threshold.maxThreshold < e.threshold)
    ("epoch context: threshold " ++ toString e.threshold ++ " exceeds limit "
      ++ toString limits.threshold.maxThreshold)
  rejectIf (e.sourceEpochID = some zero32) "epoch context: source epoch id must be non-zero"
  rejectIf (e.sourceEpochID.any (·.toList = e.epochID))
    "epoch context: source epoch id equals epoch id"
  rejectIf (e.identifiers = [] ∨ e.identifiers.length ≠ e.publicShares.length)
    "epoch context: identifier and public-share vectors must be non-empty and equal length"
  rejectIf (limits.threshold.maxParties < e.identifiers.length)
    ("epoch context: too many parties: " ++ toString e.identifiers.length ++ " > "
      ++ toString limits.threshold.maxParties)
  e.validatePartyVectors limits none [] (e.identifiers.zip e.publicShares)
  rejectIf (e.computeID ≠ e.epochID) "epoch context: epoch id mismatch"

variable [Curve]

/-- The Shamir identifier of one signer. -/
def signerIdentifier (e : EpochContext) (signer : PartyID) : Except String Scalar :=
  match e.identifier signer with
  | none => .error ("missing epoch identifier for signer " ++ toString signer)
  | some encoded => identifierFromBytes encoded

/-- `epochLagrangeCoefficient`. -/
def lagrangeCoefficient (e : EpochContext) (party : PartyID) (signers : PartySet) :
    Except String Scalar := do
  validateStrictSortedIDs signers
  let identifiers ← signers.mapM e.signerIdentifier
  match (signers.zip identifiers).find? (·.1 = party) with
  | none => throw ("party " ++ toString party ++ " is outside signer set")
  | some (_, target) => lagrangeCoefficientAt target identifiers

/-- The parties of an epoch, in the order of the identifiers. -/
def parties (e : EpochContext) : PartySet := e.identifiers.map (·.party)

/-- One term of `epochContextGroupPublicKey`; `share` is the public share at the index of
`party`. -/
def groupKeyTerm (e : EpochContext) (party : PartyID) (share : Option EpochPublicShare) :
    Except String Point :=
  match share with
  | none => .error "epoch public shares are not in identifier order"
  | some share => do
    rejectIf (share.party ≠ party) "epoch public shares are not in identifier order"
    let point ← (pointFromBytes share.publicKey).mapError fun err =>
      "decode epoch public share " ++ toString party ++ ": " ++ err
    let coefficient ← e.lagrangeCoefficient party e.parties
    pure (coefficient • point)

/-- `epochContextGroupPublicKey`. -/
def groupPublicKey (e : EpochContext) : Except String (Point × PartySet) := do
  let terms ← e.parties.zipIdx.mapM fun (party, i) => e.groupKeyTerm party e.publicShares[i]?
  pure (addPoints terms, e.parties)

end EpochContext

/-! ## Interpolation -/

section Shamir

variable [Curve]

/-- The loop of `LagrangeCoefficientAt` multiplies up the other identifiers. -/
theorem foldlM_lagrangeStep (id : Scalar) {ids : List Scalar} {st : LagrangeState}
    (hnodup : ids.Nodup) (hzero : 0 ∉ ids) (hseen : ∀ x ∈ ids, x ∉ st.seen) :
    ids.foldlM (lagrangeStep id) st = .ok
      { num := st.num * (ids.filter (· ≠ id)).prod
        den := st.den * ((ids.filter (· ≠ id)).map (· - id)).prod
        seen := ids.reverse ++ st.seen
        found := st.found || decide (id ∈ ids) } := by
  induction ids generalizing st with
  | nil => simp [pure, Except.pure]
  | cons x ids ih =>
    obtain ⟨hx, hnodup⟩ := List.nodup_cons.mp hnodup
    obtain ⟨hx0, hzero⟩ := not_or.mp (fun h => hzero (List.mem_cons.mpr h))
    obtain ⟨hxseen, hseen⟩ := List.forall_mem_cons.mp hseen
    have hstep : lagrangeStep id st x = .ok (if x = id
        then { st with seen := x :: st.seen, found := true }
        else { st with
          num := st.num * x
          den := st.den * (x - id)
          seen := x :: st.seen }) := by
      simp [lagrangeStep, rejectIf, Ne.symm hx0, hxseen, pure, Except.pure]
    have hseen' : ∀ y ∈ ids, y ∉ x :: st.seen := by
      intro y hy hmem
      obtain rfl | hmem := List.mem_cons.mp hmem
      · exact hx hy
      · exact hseen y hy hmem
    rw [List.foldlM_cons, hstep, ok_bind]
    by_cases hid : x = id
    · rw [if_pos hid, ih hnodup hzero hseen']
      simp [hid]
    · rw [if_neg hid, ih hnodup hzero hseen']
      simp [hid, Ne.symm hid, mul_assoc]

/-- `LagrangeCoefficientAt` computes the weight of the identifier. -/
theorem lagrangeCoefficientAt_eq {id : Scalar} {ids : List Scalar} (hnodup : ids.Nodup)
    (hzero : 0 ∉ ids) (hid : id ∈ ids) :
    lagrangeCoefficientAt id ids = .ok (Lagrange.coefficient ids id) := by
  have hid0 : id ≠ 0 := fun h => hzero (h ▸ hid)
  have hne : ids ≠ [] := List.ne_nil_of_mem hid
  have hden : ((ids.filter (· ≠ id)).map (· - id)).prod ≠ 0 := by
    apply List.prod_ne_zero
    intro hmem
    obtain ⟨x, hx, hsub⟩ := List.mem_map.mp hmem
    exact of_decide_eq_true (List.mem_filter.mp hx).2 (sub_eq_zero.mp hsub)
  rw [lagrangeCoefficientAt, foldlM_lagrangeStep id hnodup hzero (fun _ _ => List.not_mem_nil)]
  simp only [one_mul, Bool.false_or, decide_eq_true hid, ok_bind, rejectIf, hid0, hne, if_false,
    scalarInvert_eq_ok.mpr ⟨hden, rfl⟩, mapError_ok, reduceCtorEq]
  rfl

namespace EpochContext

/-- The epoch deals the values of `f`: party `p` has the evaluation point `node p`, and its
public share is the value there. -/
structure Deals (e : EpochContext) (f : Polynomial Scalar) (node : PartyID → Scalar) : Prop where
  identifier : ∀ p ∈ e.parties, e.identifier p = some (scalarBytes (node p))
  node_ne_zero : ∀ p ∈ e.parties, node p ≠ 0
  node_injOn : ∀ p ∈ e.parties, ∀ q ∈ e.parties, node p = node q → p = q
  publicShare : ∀ share ∈ e.publicShares,
    pointFromBytes share.publicKey = .ok (scalarBaseMult (f.eval (node share.party)))
  degree : f.degree < e.threshold.toNat

variable {e : EpochContext} {f : Polynomial Scalar} {node : PartyID → Scalar} {signers : PartySet}

theorem signerIdentifier_ne_zero {p : PartyID} {x : Scalar} (h : e.signerIdentifier p = .ok x) :
    x ≠ 0 := by
  unfold signerIdentifier at h
  split at h
  · cases h
  · rw [identifierFromBytes, mapError_eq_ok] at h
    exact (scalarFromBytes_eq_ok.mp h).2

/-- The signers' identifiers only have to be distinct. -/
theorem lagrangeCoefficient_of_identifiers (hsorted : validateStrictSortedIDs signers = .ok ())
    (hnode : ∀ p ∈ signers, e.signerIdentifier p = .ok (node p)) (hnodup : (signers.map node).Nodup)
    {p : PartyID} (hp : p ∈ signers) :
    e.lagrangeCoefficient p signers = .ok (Lagrange.coefficient (signers.map node) (node p)) := by
  have hfind : (signers.zip (signers.map node)).find? (·.1 = p) = some (p, node p) := by
    clear hsorted hnode hnodup
    induction signers with
    | nil => cases hp
    | cons q signers ih =>
      rw [List.map_cons, List.zip_cons_cons, List.find?_cons]
      by_cases hq : q = p
      · simp [hq]
      · simpa [hq] using ih ((List.mem_cons.mp hp).resolve_left (Ne.symm hq))
  have hzero : (0 : Scalar) ∉ signers.map node := by
    intro hmem
    obtain ⟨q, hq, hzero⟩ := List.mem_map.mp hmem
    exact signerIdentifier_ne_zero (hnode q hq) hzero
  rw [lagrangeCoefficient, hsorted, ok_bind, mapM_of_ok hnode, ok_bind, hfind]
  exact lagrangeCoefficientAt_eq hnodup hzero (List.mem_map_of_mem hp)

namespace Deals

theorem signerIdentifier_eq (h : e.Deals f node) {p : PartyID} (hp : p ∈ e.parties) :
    e.signerIdentifier p = .ok (node p) := by
  rw [signerIdentifier, h.identifier p hp]
  show identifierFromBytes _ = _
  rw [identifierFromBytes, scalarFromBytes_eq_ok.mpr ⟨rfl, h.node_ne_zero p hp⟩, mapError_ok]

theorem nodup_nodes (h : e.Deals f node) (hnodup : signers.Nodup)
    (hsub : ∀ p ∈ signers, p ∈ e.parties) : (signers.map node).Nodup :=
  hnodup.map_on fun p hp q hq => h.node_injOn p (hsub p hp) q (hsub q hq)

theorem lagrangeCoefficient_eq (h : e.Deals f node)
    (hsorted : validateStrictSortedIDs signers = .ok ())
    (hsub : ∀ p ∈ signers, p ∈ e.parties) {p : PartyID} (hp : p ∈ signers) :
    e.lagrangeCoefficient p signers = .ok (Lagrange.coefficient (signers.map node) (node p)) :=
  lagrangeCoefficient_of_identifiers hsorted (fun q hq => h.signerIdentifier_eq (hsub q hq))
    (h.nodup_nodes (nodup_of_validate hsorted) hsub) hp

/-- The weighted shares of a large enough signer set add up to the dealt secret. -/
theorem sum_shares (h : e.Deals f node) (hnodup : signers.Nodup)
    (hsub : ∀ p ∈ signers, p ∈ e.parties) (hthreshold : e.threshold.toNat ≤ signers.length) :
    (signers.map fun p =>
      Lagrange.coefficient (signers.map node) (node p) * f.eval (node p)).sum = f.eval 0 := by
  have hdegree : f.degree < signers.length :=
    h.degree.trans_le (by exact_mod_cast hthreshold)
  exact (Lagrange.reconstructs (h.nodup_nodes hnodup hsub)).1 f hdegree

end Deals

/-- The parties of accepted vectors are increasing and stand at the same places in both. -/
theorem validatePartyVectors_spec [Sha256] {limits : Limits} {last : Option PartyID}
    {seen : List Scalar} {pairs : List (EpochPartyIdentifier × EpochPublicShare)}
    (h : e.validatePartyVectors limits last seen pairs = .ok ()) :
    (∀ a ∈ pairs, a.1.party ≠ 0 ∧ a.2.party = a.1.party) ∧
      (last.toList ++ pairs.map (·.1.party)).Pairwise (· < ·) := by
  induction pairs generalizing last seen with
  | nil => cases last <;> simp
  | cons a pairs ih =>
    obtain ⟨identifier, publicShare⟩ := a
    simp only [validatePartyVectors, bind_eq_ok, exists_const, rejectIf_eq_ok, not_or, not_not] at h
    obtain ⟨⟨hzero, -⟩, hlast, hparty, -, _, -, _, -, -, _, -, -, hrest⟩ := h
    obtain ⟨hall, hpairwise⟩ := ih hrest
    refine ⟨List.forall_mem_cons.mpr ⟨⟨hzero, hparty⟩, hall⟩, ?_⟩
    cases last with
    | none => exact hpairwise
    | some last =>
      have hlt : last < identifier.party := by simpa using hlast
      exact pairwise_lt_cons_cons.mpr ⟨hlt, hpairwise⟩

theorem validateWithLimits_spec [Sha256] {limits : Limits}
    (h : e.validateWithLimits limits = .ok ()) :
    validateStrictSortedIDs e.parties = .ok () ∧ e.publicShares.map (·.party) = e.parties ∧
      1 ≤ e.threshold ∧ e.threshold ≤ e.parties.length := by
  simp only [validateWithLimits, bind_eq_ok, exists_const, rejectIf_eq_ok, not_or, not_not,
    not_le, not_lt] at h
  obtain ⟨-, -, -, -, -, ⟨hpos, hle⟩, -, -, -, ⟨hne, hlength⟩, -, _, hvectors, -⟩ := h
  obtain ⟨hall, hpairwise⟩ := validatePartyVectors_spec hvectors
  have hfst : (e.identifiers.zip e.publicShares).map (·.1) = e.identifiers :=
    List.map_fst_zip hlength.le
  have hsnd : (e.identifiers.zip e.publicShares).map (·.2) = e.publicShares :=
    List.map_snd_zip hlength.ge
  have hparties : (e.identifiers.zip e.publicShares).map (·.1.party) = e.parties := by
    rw [parties, ← hfst, List.map_map, hfst]
    rfl
  have hshares : e.publicShares.map (·.party) =
      (e.identifiers.zip e.publicShares).map (·.2.party) := by
    nth_rewrite 1 [← hsnd]
    rw [List.map_map]
    rfl
  refine ⟨validateStrictSortedIDs_eq_ok.mpr ⟨?_, ?_, ?_⟩, ?_, hpos, ?_⟩
  · rwa [parties, ne_eq, List.map_eq_nil_iff]
  · rw [← hparties]
    intro id hid
    obtain ⟨a, ha, rfl⟩ := List.mem_map.mp hid
    exact (hall a ha).1
  · rwa [← hparties]
  · rw [hshares, ← hparties]
    exact List.map_congr_left fun a ha => (hall a ha).2
  · rw [parties, List.length_map]
    exact hle

/-- The public shares of a valid dealt epoch reconstruct the key of the dealt secret. -/
theorem Deals.groupPublicKey_eq [Sha256] {limits : Limits} (h : e.Deals f node)
    (hvalid : e.validateWithLimits limits = .ok ()) :
    e.groupPublicKey = .ok (scalarBaseMult (f.eval 0), e.parties) := by
  obtain ⟨hsorted, hshares, hpos, hle⟩ := validateWithLimits_spec hvalid
  have hterm : ∀ a ∈ e.parties.zipIdx, e.groupKeyTerm a.1 e.publicShares[a.2]? =
      .ok ((Lagrange.coefficient (e.parties.map node) (node a.1) * f.eval (node a.1)) •
        generator) := by
    rintro ⟨party, i⟩ hmem
    have hparty : e.parties[i]? = some party := List.mk_mem_zipIdx_iff_getElem?.mp hmem
    rw [← hshares, List.getElem?_map, Option.map_eq_some_iff] at hparty
    obtain ⟨share, hshare, rfl⟩ := hparty
    have hin : share ∈ e.publicShares := List.mem_of_getElem? hshare
    have hmem : share.party ∈ e.parties := hshares ▸ List.mem_map_of_mem hin
    have hcoefficient := h.lagrangeCoefficient_eq hsorted (fun _ hp => hp) hmem
    show e.groupKeyTerm share.party e.publicShares[i]? = _
    rw [hshare]
    simp [groupKeyTerm, rejectIf, h.publicShare share hin, hcoefficient, scalarBaseMult, smul_smul,
      pure, Except.pure]
  have hterms : e.parties.zipIdx.mapM (fun (party, i) => e.groupKeyTerm party e.publicShares[i]?) =
      .ok (e.parties.map fun p =>
        (Lagrange.coefficient (e.parties.map node) (node p) * f.eval (node p)) • generator) := by
    have hmap : ∀ g : PartyID → Point,
        e.parties.zipIdx.map (fun a => g a.1) = e.parties.map g := by
      intro g
      nth_rewrite 2 [← List.zipIdx_map_fst 0 e.parties]
      rw [List.map_map]
      rfl
    rw [mapM_of_ok hterm]
    exact congrArg Except.ok (hmap fun p =>
      (Lagrange.coefficient (e.parties.map node) (node p) * f.eval (node p)) • generator)
  have hsum := h.sum_shares (nodup_of_validate hsorted) (fun _ hp => hp) (by omega)
  rw [groupPublicKey, hterms, ok_bind, addPoints_eq_sum]
  show Except.ok _ = _
  rw [← hsum, scalarBaseMult, List.sum_smul, List.map_map]
  rfl

end EpochContext

/-- A first candidate that is a canonical scalar is the identifier. -/
theorem deriveEpochIdentifier_of_lt [Sha256] {sid rid : Array32} {party : PartyID}
    (hsid : sid ≠ zero32) (hrid : rid ≠ zero32) (hparty : party ≠ broadcastPartyId)
    (hpos : 0 < beNat (epochIdentifierCandidate sid rid party 0))
    (hlt : beNat (epochIdentifierCandidate sid rid party 0) < order) :
    identifierFromBytes (epochIdentifierCandidate sid rid party 0) =
        .ok (beNat (epochIdentifierCandidate sid rid party 0) : Scalar) ∧
      deriveEpochIdentifier sid rid party = .ok (epochIdentifierCandidate sid rid party 0) := by
  have hlength : (epochIdentifierCandidate sid rid party 0).length = sha256Size := length_sha256 _
  have hrange : List.range maxEpochIdentifierCandidates = 0 :: (List.range 255).map Nat.succ :=
    List.range_succ_eq_map
  rw [deriveEpochIdentifier, hrange, deriveEpochIdentifierWithDigest]
  generalize epochIdentifierCandidate sid rid party 0 = candidate at *
  have hscalar := scalarFromBytes_of_lt hlength hpos hlt
  have hidentifier : identifierFromBytes candidate = .ok (beNat candidate : Scalar) := by
    rw [identifierFromBytes, hscalar, mapError_ok]
  have hbytes : scalarBytes (beNat candidate : Scalar) = candidate :=
    (scalarFromBytes_eq_ok.mp hscalar).1.symm
  have hzero : candidate ≠ zero32.toList := by
    rintro rfl
    revert hpos
    decide
  refine ⟨hidentifier, ?_⟩
  simp [rejectIf, hsid, hrid, hparty, hzero, hlength, hidentifier, hbytes, pure, Except.pure]

/-! ## An epoch of two parties -/

/-- The generator, encoded. -/
def encodedGenerator : Bytes := (pointBytes generator).toOption.getD []

theorem pointBytes_generator : pointBytes generator = .ok encodedGenerator := by
  obtain ⟨b, hb⟩ := pointBytes_isOk.mpr Curve.generator_ne_zero
  rw [encodedGenerator, hb]
  rfl

theorem length_encodedGenerator : encodedGenerator.length = pubkeyLength := by
  obtain ⟨x, y, -, hb⟩ := pointBytes_eq_ok.mp pointBytes_generator
  rw [hb, List.length_cons, length_fieldBytes]
  rfl

def sampleID : Array32 := Vector.replicate 32 1

def sampleIdentifier [Sha256] (party : PartyID) : Bytes :=
  epochIdentifierCandidate sampleID sampleID party 0

/-- Parties 1 and 2 share the secret 1 by a constant polynomial. -/
def sampleEpoch [Sha256] : EpochContext :=
  let e : EpochContext :=
    { sid := sampleID
      rid := sampleID
      threshold := 2
      epochID := []
      identifiers := [⟨1, sampleIdentifier 1⟩, ⟨2, sampleIdentifier 2⟩]
      publicShares := [⟨1, encodedGenerator⟩, ⟨2, encodedGenerator⟩]
      auxiliaryDigest := zero32.toList
      sourceEpochID := none }
  { e with epochID := e.computeID }

def sampleLimits : Limits where
  threshold := ⟨16, 16, 16, 2, false⟩
  maxPointBytes := 33

omit [Curve] in
theorem sampleIdentifier_bounds {party : PartyID} (hparty : party = 1 ∨ party = 2) :
    letI := Sha256.lastBytes
    0 < beNat (sampleIdentifier party) ∧ beNat (sampleIdentifier party) < 2 ^ 255 := by
  obtain rfl | rfl := hparty <;> decide +kernel

/-- The evaluation point of a party of the sample epoch. -/
def sampleNode [Sha256] (party : PartyID) : Scalar := (beNat (sampleIdentifier party) : Scalar)

theorem sampleIdentifier_lt {party : PartyID} (hparty : party = 1 ∨ party = 2) :
    letI := Sha256.lastBytes
    beNat (sampleIdentifier party) < order := by
  have hbound := (sampleIdentifier_bounds hparty).2
  have := Curve.lt_two_mul_order
  omega

theorem sampleIdentifier_derived {party : PartyID} (hparty : party = 1 ∨ party = 2) :
    letI := Sha256.lastBytes
    identifierFromBytes (sampleIdentifier party) = .ok (sampleNode party) ∧
      deriveEpochIdentifier sampleID sampleID party = .ok (sampleIdentifier party) := by
  let := Sha256.lastBytes
  have hid : sampleID ≠ zero32 := by decide
  have hne : party ≠ broadcastPartyId := by
    obtain rfl | rfl := hparty <;> decide
  exact deriveEpochIdentifier_of_lt hid hid hne (sampleIdentifier_bounds hparty).1
    (sampleIdentifier_lt hparty)

theorem sampleNode_ne :
    letI := Sha256.lastBytes
    sampleNode 1 ≠ sampleNode 2 := by
  let := Sha256.lastBytes
  intro h
  have hval := congrArg ZMod.val h
  rw [sampleNode, sampleNode, ZMod.val_natCast_of_lt (sampleIdentifier_lt (.inl rfl)),
    ZMod.val_natCast_of_lt (sampleIdentifier_lt (.inr rfl))] at hval
  revert hval
  decide +kernel

theorem sampleEpoch_vectors :
    letI := Sha256.lastBytes
    sampleEpoch.validatePartyVectors sampleLimits none []
      (sampleEpoch.identifiers.zip sampleEpoch.publicShares) = .ok () := by
  let := Sha256.lastBytes
  have hpoint := pointFromBytes_eq_ok.mpr pointBytes_generator
  have hlength := length_encodedGenerator
  obtain ⟨hparse1, hderive1⟩ := sampleIdentifier_derived (.inl rfl)
  obtain ⟨hparse2, hderive2⟩ := sampleIdentifier_derived (.inr rfl)
  have hne := sampleNode_ne
  show EpochContext.validatePartyVectors _ _ _ _
    [(⟨1, sampleIdentifier 1⟩, ⟨1, encodedGenerator⟩),
      (⟨2, sampleIdentifier 2⟩, ⟨2, encodedGenerator⟩)] = _
  have hsid : sampleEpoch.sid = sampleID := rfl
  have hrid : sampleEpoch.rid = sampleID := rfl
  simp [EpochContext.validatePartyVectors, rejectIf, broadcastPartyId, sampleLimits, pubkeyLength,
    hpoint, hlength, hparse1, hparse2, hsid, hrid, hderive1, hderive2, hne.symm]

theorem sampleEpoch_computeID [Sha256] : sampleEpoch.computeID = sampleEpoch.epochID := rfl

theorem sampleEpoch_epochID [Sha256] : ∃ b, sampleEpoch.epochID = sha256 b := ⟨_, rfl⟩

theorem sampleEpoch_validates :
    letI := Sha256.lastBytes
    sampleEpoch.validateWithLimits sampleLimits = .ok () := by
  let := Sha256.lastBytes
  have hid : sampleID ≠ zero32 := by decide
  have hepoch : ∀ b, sha256 b ≠ zero32.toList := by
    intro b h
    have hhead := congrArg List.head? h
    have hone : (sha256 b).head? = some 1 := by
      show (Vector.ofFn fun i : Fin 32 => if i = 0 then (1 : UInt8)
        else b.reverse.getD (31 - i) 0).toList.head? = some 1
      simp [List.head?_eq_getElem?]
    rw [hone] at hhead
    revert hhead
    decide
  obtain ⟨b, hb⟩ := sampleEpoch_epochID
  have hsid : sampleEpoch.sid = sampleID := rfl
  have hrid : sampleEpoch.rid = sampleID := rfl
  have haux : sampleEpoch.auxiliaryDigest.length = sha256Size := rfl
  have hthreshold : sampleEpoch.threshold = 2 := rfl
  have hsource : sampleEpoch.sourceEpochID = none := rfl
  have hidentifiers : sampleEpoch.identifiers.length = 2 := rfl
  have hshares : sampleEpoch.publicShares.length = 2 := rfl
  have hne : sampleEpoch.identifiers ≠ [] := List.cons_ne_nil _ _
  rw [EpochContext.validateWithLimits, sampleEpoch_vectors, sampleEpoch_computeID, hb]
  simp [rejectIf, hsid, hrid, hid, hepoch b, haux, hthreshold, hsource, hidentifiers, hshares, hne,
    sampleLimits]

theorem sampleEpoch_deals :
    letI := Sha256.lastBytes
    sampleEpoch.Deals (Polynomial.C 1) sampleNode := by
  let := Sha256.lastBytes
  have hparties : ∀ p ∈ sampleEpoch.parties, p = 1 ∨ p = 2 := by
    intro p hp
    have : p ∈ [1, 2] := hp
    simpa using this
  have hscalar : ∀ p ∈ sampleEpoch.parties,
      sampleIdentifier p = scalarBytes (sampleNode p) ∧ sampleNode p ≠ 0 := by
    intro p hp
    have hparse := (sampleIdentifier_derived (hparties p hp)).1
    exact scalarFromBytes_eq_ok.mp (mapError_eq_ok.mp hparse)
  refine ⟨?_, fun p hp => (hscalar p hp).2, ?_, ?_, ?_⟩
  · intro p hp
    rw [← (hscalar p hp).1]
    obtain rfl | rfl := hparties p hp <;> rfl
  · intro p hp q hq hnode
    have hne := sampleNode_ne
    obtain rfl | rfl := hparties p hp <;> obtain rfl | rfl := hparties q hq
    · rfl
    · exact absurd hnode hne
    · exact absurd hnode.symm hne
    · rfl
  · intro share hshare
    have hkey : share.publicKey = encodedGenerator := by
      have : share ∈ [(⟨1, encodedGenerator⟩ : EpochPublicShare), ⟨2, encodedGenerator⟩] := hshare
      obtain rfl | rfl : share = ⟨1, encodedGenerator⟩ ∨ share = ⟨2, encodedGenerator⟩ := by
        simpa using this
      · rfl
      · rfl
    rw [hkey, Polynomial.eval_C, scalarBaseMult, one_smul]
    exact pointFromBytes_eq_ok.mpr pointBytes_generator
  · have htwo : (0 : WithBot ℕ) < (2 : ℕ) := by decide
    exact Polynomial.degree_C_le.trans_lt htwo

end Shamir

end Tss.Cggmp21
