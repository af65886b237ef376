import Tss.Frost.Curve
import Tss.Lib.FMap
import Tss.Lib.Fallible
import Tss.Lib.Lagrange

/-!
# Key shares and interpolation (`frost/ed25519/keyshare.go`, `scalar_poly.go`, `commitments.go`)

A key share holds the local value of a secret polynomial and everybody's
verification share. `Deals f` says that a key is one share of `f`; the
consistency check of the source, run on the commitments to the
coefficients of `f`, establishes it (`Deals.of_validate`).
-/

namespace Tss.Frost

open Edwards25519 Polynomial Fallible

variable {F G : Type} [Field F] [DecidableEq F] [AddCommGroup G] [DecidableEq G] [Module F G]
  [Edwards25519 F G]

/-! ## Interpolation -/

/-- The errors of `lagrangeCoefficientScalar`. -/
inductive LagrangeError where
  /-- `party id 0 is reserved` -/
  | reserved
  /-- `duplicate party id %d` -/
  | duplicate (id : PartyID)
  /-- `party id %d not in interpolation set` -/
  | notInSet (id : PartyID)
  /-- `non-invertible interpolation denominator` -/
  | nonInvertible
deriving DecidableEq

/-- The variables of the loop in `lagrangeCoefficientScalar`. -/
structure LagrangeState (F : Type) where
  seen : List PartyID
  num : F
  den : F

/-- One iteration: `other` is a factor of both products unless it is `id` itself. -/
def lagrangeStep (id : PartyID) (st : LagrangeState F) (other : PartyID) :
    Except LagrangeError (LagrangeState F) :=
  if other = 0 then .error .reserved
  else if other ∈ st.seen then .error (.duplicate other)
  else if other = id then .ok { st with seen := other :: st.seen }
  else
    .ok { seen := other :: st.seen
          num := st.num * partyScalar F other
          den := st.den * (partyScalar F other - partyScalar F id) }

def lagrangeCoefficientScalar (id : PartyID) (ids : PartySet) : Except LagrangeError F := do
  rejectIf (id = 0) .reserved
  let st : LagrangeState F ← ids.foldlM (lagrangeStep id) { seen := [], num := 1, den := 1 }
  rejectIf (id ∉ st.seen) (.notInSet id)
  rejectIf (st.den = 0) .nonInvertible
  pure (st.num * st.den⁻¹)

/-- `evalScalarPolynomial`, from the highest coefficient down. -/
def evalScalarPolynomial (coeffs : List F) (id : PartyID) : F :=
  coeffs.reverse.foldl (fun acc coeff => acc * partyScalar F id + coeff) 0

/-- `evalCommitmentPoints`: the powers of the identifier are kept next to the sum. -/
def evalCommitmentPoints (points : List G) (id : PartyID) : Option G :=
  if points = [] then none
  else some (points.foldl (fun (acc, pow) point => (acc + pow • point, pow * partyScalar F id))
    ((0, 1) : G × F)).1

/-! ## Key shares -/

/-- `keyShareState`, without the chain code, the transcript data and the keygen
confirmations, which signing does not read. A share, like any semantic point, is not
the identity. -/
structure KeyShare (F G : Type) [AddCommGroup G] where
  party : PartyID
  threshold : Nat
  parties : PartySet
  publicKey : SemanticPoint G
  secret : F
  groupCommitments : List G
  /-- `PartyData`, of which signing reads the verification shares. -/
  partyData : FMap PartyID (SemanticPoint G)

/-- `verificationSharePoint`, over `partyDataFor`. -/
def KeyShare.verificationSharePoint (k : KeyShare F G) (id : PartyID) :
    Option (SemanticPoint G) :=
  if id ∈ k.parties then k.partyData.lookup id else none

/-- The errors of the consistency check. -/
inductive ConsistencyError where
  /-- `group public key does not match first group commitment` -/
  | publicKey
  /-- `cannot evaluate commitments for party %d` -/
  | evaluate (id : PartyID)
  /-- `verification share for party %d does not match group commitments` -/
  | verificationShare (id : PartyID)
  /-- `missing verification share for local party` -/
  | missingLocal
  /-- `secret share inconsistent with verification share` -/
  | secretShare
deriving DecidableEq

/-- `GroupCommitments.Eval`: a verification share, so not the identity. -/
def groupCommitmentsEval (points : List G) (id : PartyID) : Option (SemanticPoint G) :=
  (evalCommitmentPoints (F := F) points id).bind newSemanticPointFromPoint

/-- The check on one party's verification share. -/
def KeyShare.checkShare (k : KeyShare F G) (id : PartyID) : Except ConsistencyError Unit :=
  match groupCommitmentsEval (F := F) k.groupCommitments id with
  | none => .error (.evaluate id)
  | some expected => rejectIf (k.partyData.lookup id ≠ some expected) (.verificationShare id)

def KeyShare.validateConsistencyMaterial (k : KeyShare F G) : Except ConsistencyError Unit := do
  rejectIf (k.groupCommitments.head? ≠ some k.publicKey.val) .publicKey
  k.parties.forM k.checkShare
  match k.verificationSharePoint k.party with
  | none => throw .missingLocal
  | some wantPub => rejectIf ((baseMult k.secret : G) ≠ wantPub.val) .secretShare

/-- The key is one share of `f`: the secrets are values of `f` at the party identifiers
and the public points are theirs. -/
structure KeyShare.Deals (k : KeyShare F G) (f : F[X]) : Prop where
  degree_lt : f.degree < k.threshold
  parties_ne_zero : (0 : PartyID) ∉ k.parties
  secret : k.secret = f.eval (partyScalar F k.party)
  publicKey : k.publicKey.val = (baseMult (f.eval 0) : G)
  verificationShare : ∀ id ∈ k.parties, ∃ Y, k.verificationSharePoint id = some Y ∧
    Y.val = (baseMult (f.eval (partyScalar F id)) : G)

/-! ## The loops compute what they are for -/

section Interpolation

omit [DecidableEq F] in
theorem lagrangeStep_ok {id other : PartyID} {st : LagrangeState F} (hother : other ≠ 0)
    (hseen : other ∉ st.seen) :
    lagrangeStep id st other = .ok
      { seen := other :: st.seen
        num := st.num * if other = id then 1 else partyScalar F other
        den := st.den * if other = id then 1 else partyScalar F other - partyScalar F id } := by
  unfold lagrangeStep
  rw [if_neg hother, if_neg hseen]
  split <;> simp

omit [DecidableEq F] in
/-- The loop over distinct non-zero identifiers multiplies up the factors of the
coefficient. -/
theorem foldlM_lagrangeStep {id : PartyID} (ids : PartySet) (st : LagrangeState F)
    (hids : ids.Nodup) (hzero : (0 : PartyID) ∉ ids) (hseen : ∀ other ∈ ids, other ∉ st.seen) :
    ids.foldlM (lagrangeStep id) st = .ok
      { seen := ids.reverse ++ st.seen
        num := st.num * ((ids.filter (· ≠ id)).map (partyScalar F)).prod
        den := st.den *
          ((ids.filter (· ≠ id)).map fun other => partyScalar F other - partyScalar F id).prod } := by
  induction ids generalizing st with
  | nil => simp [pure, Except.pure]
  | cons other ids ih =>
    obtain ⟨hnotMem, hids⟩ := List.nodup_cons.mp hids
    rw [List.mem_cons, not_or] at hzero
    rw [List.foldlM_cons, lagrangeStep_ok (Ne.symm hzero.1) (hseen other List.mem_cons_self)]
    show ids.foldlM (lagrangeStep id) _ = _
    rw [ih _ hids hzero.2]
    · by_cases h : other = id
      · simp [h]
      · simp [h, mul_assoc]
    · intro party hparty
      rw [List.mem_cons, not_or]
      exact ⟨fun h => hnotMem (h ▸ hparty), hseen party (List.mem_cons_of_mem _ hparty)⟩

/-- On a list of distinct non-zero identifiers that holds `id`, the coefficient is the
Lagrange weight of `id` for the value at zero. -/
theorem lagrangeCoefficientScalar_eq (G : Type) [AddCommGroup G] [Module F G] [Edwards25519 F G]
    {id : PartyID} {ids : PartySet} (hids : ids.Nodup) (hzero : (0 : PartyID) ∉ ids)
    (hid : id ∈ ids) :
    lagrangeCoefficientScalar id ids =
      .ok (Lagrange.coefficient (ids.map (partyScalar F)) (partyScalar F id)) := by
  have hinj := partyScalar_injective (F := F) G
  have hfilter : (ids.map (partyScalar F)).filter (· ≠ partyScalar F id) =
      (ids.filter (· ≠ id)).map (partyScalar F) := by
    rw [List.filter_map]
    congr 1
    apply List.filter_congr
    intro other _
    simp [hinj.eq_iff]
  have hden : ((ids.filter (· ≠ id)).map fun other => partyScalar F other - partyScalar F id).prod
      ≠ 0 := by
    apply List.prod_ne_zero
    simp only [List.mem_map, List.mem_filter, not_exists, not_and]
    rintro other ⟨-, hne⟩ heq
    exact (of_decide_eq_true hne) (hinj (sub_eq_zero.mp heq))
  have hne : id ≠ 0 := fun h => hzero (h ▸ hid)
  unfold lagrangeCoefficientScalar
  rw [foldlM_lagrangeStep ids _ hids hzero (by simp)]
  simp only [rejectIf, hne, if_false, List.append_nil, one_mul, bind, Except.bind, pure,
    Except.pure, List.mem_reverse, hid, not_true_eq_false, hden, Lagrange.coefficient, hfilter,
    List.map_map]
  rfl

end Interpolation

section Commitments

omit [DecidableEq F] [DecidableEq G]

/-- The polynomial with the given coefficients, constant term first. -/
noncomputable def scalarPolynomial (coeffs : List F) : F[X] :=
  coeffs.foldr (fun coeff p => C coeff + X * p) 0

@[simp] theorem scalarPolynomial_nil : scalarPolynomial ([] : List F) = 0 := rfl

@[simp] theorem scalarPolynomial_cons (coeff : F) (coeffs : List F) :
    scalarPolynomial (coeff :: coeffs) = C coeff + X * scalarPolynomial coeffs := rfl

theorem eval_scalarPolynomial (coeffs : List F) (x : F) :
    (scalarPolynomial coeffs).eval x = coeffs.foldr (fun c v => c + x * v) 0 := by
  induction coeffs with
  | nil => simp
  | cons coeff coeffs ih => simp [ih]

theorem evalScalarPolynomial_eq (coeffs : List F) (id : PartyID) :
    evalScalarPolynomial coeffs id = (scalarPolynomial coeffs).eval (partyScalar F id) := by
  rw [evalScalarPolynomial, Lagrange.foldl_reverse_horner, eval_scalarPolynomial]

theorem degree_scalarPolynomial_lt (coeffs : List F) :
    (scalarPolynomial coeffs).degree < coeffs.length := by
  rw [degree_lt_iff_coeff_zero]
  induction coeffs with
  | nil => simp
  | cons coeff coeffs ih =>
    intro m hm
    cases m with
    | zero => simp at hm
    | succ m =>
      have hrest := ih m (by simpa using hm)
      simpa [coeff_C] using hrest

/-- The loop over the commitments to `coeffs` commits to the value of the polynomial. -/
theorem evalCommitmentPoints_map {coeffs : List F} (hne : coeffs ≠ []) (id : PartyID) :
    evalCommitmentPoints (F := F) (coeffs.map (baseMult (G := G))) id =
      some (baseMult ((scalarPolynomial coeffs).eval (partyScalar F id))) := by
  have hloop := Lagrange.foldl_smul_pow (base : G) coeffs (partyScalar F id) 0 1
  rw [zero_add, one_mul, zero_smul, ← eval_scalarPolynomial] at hloop
  rw [evalCommitmentPoints, if_neg (by simpa using hne)]
  exact congrArg some hloop

omit [Edwards25519 F G] in
theorem evalCommitmentPoints_eq_some {points : List G} {id : PartyID} {P : G}
    (h : evalCommitmentPoints (F := F) points id = some P) :
    P = Lagrange.pointEval (partyScalar F id) points := by
  unfold evalCommitmentPoints at h
  split at h
  · cases h
  · rw [Option.some.injEq, Lagrange.foldl_points, zero_add, one_smul] at h
    exact h.symm

variable [DecidableEq G]

theorem newSemanticPointFromPoint_val {P : G} {Y : SemanticPoint G}
    (h : newSemanticPointFromPoint P = some Y) : Y.val = P := by
  unfold newSemanticPointFromPoint at h
  split at h
  · exact (congrArg Subtype.val (Option.some.inj h)).symm
  · cases h

/-- What the consistency check establishes. -/
theorem KeyShare.validateConsistencyMaterial_ok (k : KeyShare F G)
    (h : k.validateConsistencyMaterial = .ok ()) :
    k.groupCommitments.head? = some k.publicKey.val ∧
    (∀ id ∈ k.parties, ∃ Y, groupCommitmentsEval (F := F) k.groupCommitments id = some Y ∧
      k.partyData.lookup id = some Y) ∧
    ∃ wantPub, k.verificationSharePoint k.party = some wantPub ∧
      (baseMult k.secret : G) = wantPub.val := by
  obtain ⟨_, hhead, h⟩ := bind_eq_ok.mp h
  obtain ⟨_, hshares, h⟩ := bind_eq_ok.mp h
  refine ⟨by simpa using hhead, ?_, ?_⟩
  · intro id hid
    have hcheck := forM_eq_ok.mp hshares id hid
    unfold checkShare at hcheck
    split at hcheck
    · cases hcheck
    · next Y heval => exact ⟨Y, heval, by simpa using hcheck⟩
  · split at h
    · cases h
    · next wantPub hlocal => exact ⟨wantPub, hlocal, by simpa using h⟩

/-- The secret of a key that passes the consistency check lies on the committed polynomial. -/
theorem KeyShare.evalCommitmentPoints_party {k : KeyShare F G}
    (h : k.validateConsistencyMaterial = .ok ()) :
    evalCommitmentPoints (F := F) k.groupCommitments k.party = some (baseMult k.secret) := by
  obtain ⟨-, hshares, wantPub, hlocal, hbase⟩ := k.validateConsistencyMaterial_ok h
  unfold verificationSharePoint at hlocal
  split at hlocal
  · next hmem =>
    obtain ⟨Y, heval, hlookup⟩ := hshares k.party hmem
    rw [hlocal, Option.some.injEq] at hlookup
    obtain ⟨P, hP, hY⟩ := Option.bind_eq_some_iff.mp heval
    rw [hP, hbase, hlookup, newSemanticPointFromPoint_val hY]
  · cases hlocal

/-- A key that passes the consistency check and whose group commitments are those to
`coeffs` is a share of that polynomial. -/
theorem KeyShare.Deals.of_validate {k : KeyShare F G} {coeffs : List F}
    (hlength : coeffs.length = k.threshold) (hzero : (0 : PartyID) ∉ k.parties)
    (hcommitments : k.groupCommitments = coeffs.map baseMult)
    (hvalid : k.validateConsistencyMaterial = .ok ()) : k.Deals (scalarPolynomial coeffs) := by
  obtain ⟨hhead, hshares, hsecret⟩ := k.validateConsistencyMaterial_ok hvalid
  have hne : coeffs ≠ [] := by
    rintro rfl
    simp [hcommitments] at hhead
  have hshare : ∀ id ∈ k.parties, ∃ Y, k.verificationSharePoint id = some Y ∧
      Y.val = (baseMult ((scalarPolynomial coeffs).eval (partyScalar F id)) : G) := by
    intro id hid
    obtain ⟨Y, heval, hlookup⟩ := hshares id hid
    rw [groupCommitmentsEval, hcommitments, evalCommitmentPoints_map hne] at heval
    refine ⟨Y, by rw [verificationSharePoint, if_pos hid, hlookup], ?_⟩
    exact newSemanticPointFromPoint_val heval
  refine ⟨hlength ▸ degree_scalarPolynomial_lt coeffs, hzero, ?_, ?_, hshare⟩
  · obtain ⟨wantPub, hlocal, hbase⟩ := hsecret
    have hmem : k.party ∈ k.parties := by
      by_contra hnot
      simp [verificationSharePoint, hnot] at hlocal
    obtain ⟨Y, hY, hval⟩ := hshare k.party hmem
    rw [hlocal, Option.some.injEq] at hY
    apply baseMult_injective (G := G)
    rw [hbase, hY, hval]
  · cases coeffs with
    | nil => exact absurd rfl hne
    | cons coeff coeffs =>
      rw [hcommitments] at hhead
      simpa using (Option.some.inj hhead).symm

end Commitments

end Tss.Frost
