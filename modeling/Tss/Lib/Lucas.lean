import Mathlib.NumberTheory.LucasPrimality

/-!
# Primality from a factored predecessor

Lucas' test for a number whose predecessor is given as a product of prime
powers.
-/

namespace Tss

/-- A prime divisor of a product of prime powers is one of the primes. -/
theorem mem_of_dvd_prod_pow {factors : List (ℕ × ℕ)} (hprime : ∀ f ∈ factors, f.1.Prime) {q : ℕ}
    (hq : q.Prime) (hdvd : q ∣ (factors.map fun f => f.1 ^ f.2).prod) :
    ∃ f ∈ factors, q = f.1 := by
  obtain ⟨x, hx, hqx⟩ := (Prime.dvd_prod_iff hq.prime).mp hdvd
  obtain ⟨f, hf, rfl⟩ := List.mem_map.mp hx
  exact ⟨f, hf, (Nat.prime_dvd_prime_iff_eq hq (hprime f hf)).mp (hq.dvd_of_dvd_pow hqx)⟩

/-- Lucas' test: `a` has order `p - 1`. -/
theorem prime_of_factors {p : ℕ} (a : ZMod p) (factors : List (ℕ × ℕ))
    (hfactors : p - 1 = (factors.map fun f => f.1 ^ f.2).prod)
    (hprime : ∀ f ∈ factors, f.1.Prime) (hone : a ^ (p - 1) = 1)
    (horder : ∀ f ∈ factors, a ^ ((p - 1) / f.1) ≠ 1) : p.Prime := by
  apply lucas_primality p a hone
  intro q hq hdvd
  rw [hfactors] at hdvd
  obtain ⟨f, hf, rfl⟩ := mem_of_dvd_prod_pow hprime hq hdvd
  exact horder f hf

end Tss
