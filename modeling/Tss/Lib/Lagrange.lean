import Mathlib.LinearAlgebra.Lagrange
import Mathlib.Algebra.BigOperators.Group.List.Basic
import Mathlib.Algebra.Module.BigOperators
import Mathlib.Tactic.FieldSimp

/-!
# Reconstructing a polynomial at zero

A threshold scheme combines the values of one polynomial at distinct
nodes into its constant term. A program computes the weight of a node as
a product of the other nodes over a product of differences; `coefficient`
is that quotient over a list of nodes, and `reconstructs` is what it is
for. A commitment to a polynomial is evaluated by powers of the node, its
value by Horner's rule; `foldl_smul_pow` says that they agree. The weights
also recombine polynomials whose coefficients are points (`recombine`).
-/

namespace Tss.Lagrange

open Polynomial

variable {F : Type} [Field F] [DecidableEq F]

/-- The weight of the node `x` among `xs` for the value at zero. -/
def coefficient (xs : List F) (x : F) : F :=
  (xs.filter (· ≠ x)).prod * ((xs.filter (· ≠ x)).map (· - x)).prod⁻¹

/-- The weight is the value at zero of the Lagrange basis polynomial of the node. -/
theorem coefficient_eq_eval_basis {xs : List F} (hxs : xs.Nodup) (x : F) :
    coefficient xs x = (Lagrange.basis xs.toFinset id x).eval 0 := by
  have hset : xs.toFinset.erase x = (xs.filter (· ≠ x)).toFinset := by
    ext y
    simp [and_comm]
  have hprod : ∀ f : F → F, ∏ y ∈ xs.toFinset.erase x, f y = ((xs.filter (· ≠ x)).map f).prod := by
    intro f
    rw [hset, List.prod_toFinset f (hxs.filter _)]
  have hfactor : ∀ y ∈ xs.toFinset.erase x,
      ((Lagrange.basisDivisor x y : F[X])).eval 0 = y * (y - x)⁻¹ := by
    intro y hy
    have hne : x ≠ y := (Finset.ne_of_mem_erase hy).symm
    have hxy : x - y ≠ 0 := sub_ne_zero.mpr hne
    have hyx : y - x ≠ 0 := sub_ne_zero.mpr hne.symm
    simp only [Lagrange.basisDivisor, eval_mul, eval_C, eval_sub, eval_X]
    field_simp
    ring
  calc coefficient xs x
      = (∏ y ∈ xs.toFinset.erase x, y) * (∏ y ∈ xs.toFinset.erase x, (y - x))⁻¹ := by
        rw [hprod (fun y => y), hprod (· - x), coefficient, List.map_id']
    _ = ∏ y ∈ xs.toFinset.erase x, y * (y - x)⁻¹ := by
        rw [← Finset.prod_inv_distrib, ← Finset.prod_mul_distrib]
    _ = (Lagrange.basis xs.toFinset id x).eval 0 := by
        rw [Lagrange.basis, eval_prod]
        exact (Finset.prod_congr rfl hfactor).symm

/-- The weighted values of a polynomial of small degree add up to its value at zero. -/
theorem sum_coefficient_mul_eval {xs : List F} (hxs : xs.Nodup) {f : F[X]}
    (hf : f.degree < xs.length) :
    (xs.map fun x => coefficient xs x * f.eval x).sum = f.eval 0 := by
  have hcard : f.degree < xs.toFinset.card := by rwa [List.toFinset_card_of_nodup hxs]
  have hinterp := Lagrange.eq_interpolate (Set.injOn_id (xs.toFinset : Set F)) hcard
  have heval := congrArg (Polynomial.eval 0) hinterp
  rw [Lagrange.interpolate_apply, eval_finsetSum] at heval
  rw [heval, List.sum_toFinset _ hxs]
  congr 1
  apply List.map_congr_left
  intro x _
  rw [coefficient_eq_eval_basis hxs, eval_mul, eval_C, mul_comm]
  rfl

/-- The weights recombine the values of any polynomial of small degree, so they add up to one. -/
def Reconstructs {ι : Type} (ids : List ι) (node weight : ι → F) : Prop :=
  (∀ f : F[X], f.degree < ids.length →
    (ids.map fun i => weight i * f.eval (node i)).sum = f.eval 0) ∧
  (ids ≠ [] → (ids.map weight).sum = 1)

theorem reconstructs {ι : Type} {ids : List ι} {node : ι → F} (h : (ids.map node).Nodup) :
    Reconstructs ids node fun i => coefficient (ids.map node) (node i) := by
  have hsum : ∀ f : F[X], f.degree < ids.length →
      (ids.map fun i => coefficient (ids.map node) (node i) * f.eval (node i)).sum = f.eval 0 := by
    intro f hf
    have hall := sum_coefficient_mul_eval h (f := f) (by rwa [List.length_map])
    rwa [List.map_map] at hall
  refine ⟨hsum, fun hne => ?_⟩
  have hone := hsum 1 (by simpa using List.length_pos_iff.mpr hne)
  simpa using hone

/-! ## Polynomials by their coefficients -/

omit [DecidableEq F]

theorem foldl_reverse_horner (coeffs : List F) (x : F) :
    coeffs.reverse.foldl (fun acc c => acc * x + c) 0 = coeffs.foldr (fun c v => c + x * v) 0 := by
  rw [List.foldl_reverse]
  congr 1
  funext c v
  ring

/-- A loop over the multiples of `B` by the coefficients, with the powers of `x` next to the
sum, gives the multiple by the value at `x`. -/
theorem foldl_smul_pow {G : Type} [AddCommGroup G] [Module F G] (B : G) (coeffs : List F)
    (x acc pow : F) :
    ((coeffs.map (· • B)).foldl (fun (p : G × F) P => (p.1 + p.2 • P, p.2 * x)) (acc • B, pow)).1 =
      (acc + pow * coeffs.foldr (fun c v => c + x * v) 0) • B := by
  induction coeffs generalizing acc pow with
  | nil => simp
  | cons c coeffs ih =>
    have hstep : acc • B + pow • c • B = (acc + pow * c) • B := by rw [smul_smul, ← add_smul]
    rw [List.map_cons, List.foldl_cons, hstep, ih, List.foldr_cons]
    congr 1
    ring

/-! ## Points as coefficients -/

section Points

variable {G : Type} [AddCommGroup G] [Module F G]

/-- The value at `x` of the polynomial with the points as coefficients. -/
def pointEval (x : F) (points : List G) : G := points.foldr (fun P v => P + x • v) 0

theorem foldl_points (points : List G) (x : F) (acc : G) (pow : F) :
    (points.foldl (fun (p : G × F) P => (p.1 + p.2 • P, p.2 * x)) (acc, pow)).1 =
      acc + pow • pointEval x points := by
  induction points generalizing acc pow with
  | nil => simp [pointEval]
  | cons P points ih =>
    rw [List.foldl_cons, ih, add_assoc, mul_smul, ← smul_add]
    rfl

variable {ι : Type} {ids : List ι} {node weight : ι → F} {points : List G}

/-- The values recombine to the head, and times a power of the node to zero. -/
theorem Reconstructs.sum_pow_smul (h : Reconstructs ids node weight) (points : List G) {k : ℕ}
    (hk : k + points.length ≤ ids.length) :
    (ids.map fun i => (weight i * node i ^ k) • pointEval (node i) points).sum =
      if k = 0 then points.headD 0 else 0 := by
  induction points generalizing k with
  | nil => simp [pointEval]
  | cons P points ih =>
    rw [List.length_cons] at hk
    have hdegree : (X ^ k : F[X]).degree < ids.length := by
      rw [degree_X_pow]
      exact_mod_cast (by omega : k < ids.length)
    have hpow := h.1 _ hdegree
    have hrest := ih (k := k + 1) (by omega)
    simp only [eval_pow, eval_X] at hpow
    rw [if_neg k.succ_ne_zero] at hrest
    calc (ids.map fun i => (weight i * node i ^ k) • pointEval (node i) (P :: points)).sum
        = (ids.map fun i => (weight i * node i ^ k) • P +
            (weight i * node i ^ (k + 1)) • pointEval (node i) points).sum := by
          simp only [pointEval, List.foldr_cons, smul_add, smul_smul, pow_succ, mul_assoc]
      _ = (0 ^ k : F) • P := by
          rw [List.sum_map_add, hrest, add_zero, ← hpow, List.sum_smul, List.map_map]
          rfl
      _ = if k = 0 then P else 0 := by
          split <;> simp [*]

/-- Enough values of a polynomial in the exponent recombine to a logarithm of its head. -/
theorem Reconstructs.recombine (h : Reconstructs ids node weight)
    (hlength : points.length ≤ ids.length) {B : G} {share : ι → F}
    (hshare : ∀ i ∈ ids, share i • B = pointEval (node i) points) :
    (ids.map fun i => weight i * share i).sum • B = points.headD 0 := by
  have hsum := (h.sum_pow_smul points (k := 0) (by omega)).trans (if_pos rfl)
  rw [List.sum_smul, List.map_map, ← hsum]
  refine congrArg List.sum (List.map_congr_left fun i hi => ?_)
  rw [Function.comp_apply, mul_smul, hshare i hi, pow_zero, mul_one]

end Points

end Tss.Lagrange
