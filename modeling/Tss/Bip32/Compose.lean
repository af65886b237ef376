import Tss.Bip32.Derivation
import Tss.Curve.Model
import Tss.Frost.Correctness

/-!
# Derivations compose

A derivation is a walk: from the place that the key and the chain code
stand for, one step per index, adding the tweaks (`Scheme`). Both schemes
are instances, so a path can be cut anywhere; and every step moves the
public point by its tweak.
-/

namespace Tss.Bip32util

open Fallible

/-! ## Derivations as walks -/

/-- What a derivation returns, in terms of where a walk ends. -/
structure Ends {K T : Type} (publicKey chainCode : K → Bytes) (shiftBytes : T → Bytes) (k : K)
    (t : T) (used : DerivationPath) (r : DerivationResult) : Prop where
  publicKey : r.childPublicKey = publicKey k
  chainCode : r.childChainCode = chainCode k
  shift : r.additiveShift = shiftBytes t
  resolvedPath : r.resolvedPath = used

/-- A derivation that is a walk between places. -/
structure Scheme (K T : Type) [AddMonoid T] where
  derive : Bytes → Bytes → DerivationPath → Except GoError DerivationResult
  step : K → UInt32 → K → T → UInt32 → Prop
  /-- The place of a key and a chain code that a derivation starts from. -/
  start : Bytes → Bytes → K → Prop
  publicKey : K → Bytes
  chainCode : K → Bytes
  shiftBytes : T → Bytes
  /-- A derivation can start from every place that another comes to. -/
  restart : ∀ pk cc k, start pk cc k → ∀ p k' t used, Walk step k p k' t used →
    start (publicKey k') (chainCode k') k'
  walk_of_derive : ∀ pk cc path r, derive pk cc path = .ok r →
    path.length ≤ maxDepth ∧ ∃ k k' t used, start pk cc k ∧ Walk step k path k' t used ∧
      Ends publicKey chainCode shiftBytes k' t used r
  derive_of_walk : ∀ pk cc k path k' t used, path.length ≤ maxDepth → start pk cc k →
    Walk step k path k' t used →
    ∃ r, derive pk cc path = .ok r ∧ Ends publicKey chainCode shiftBytes k' t used r
  start_unique : ∀ pk cc k k', start pk cc k → start pk cc k' → k = k'

/-- The two derivations of a path that is cut in two, against the one of the whole path: `add`
adds the shifts. -/
structure Composes (derive : Bytes → Bytes → DerivationPath → Except GoError DerivationResult)
    (add : Bytes → Bytes → Bytes → Prop) (pk cc : Bytes) (p q : DerivationPath) : Prop where
  /-- The whole path, and then its two parts. -/
  split : ∀ r, derive pk cc (p ++ q) = .ok r →
    ∃ r₁ r₂, derive pk cc p = .ok r₁ ∧ derive r₁.childPublicKey r₁.childChainCode q = .ok r₂ ∧
      r₂.childPublicKey = r.childPublicKey ∧ r₂.childChainCode = r.childChainCode ∧
      r.resolvedPath = r₁.resolvedPath ++ r₂.resolvedPath ∧
      add r₁.additiveShift r₂.additiveShift r.additiveShift
  /-- The two parts, and then the whole path. -/
  join : ∀ r₁ r₂, (p ++ q).length ≤ maxDepth → derive pk cc p = .ok r₁ →
    derive r₁.childPublicKey r₁.childChainCode q = .ok r₂ → ∃ r, derive pk cc (p ++ q) = .ok r

namespace Scheme

variable {K T : Type} [AddMonoid T] (s : Scheme K T)

theorem composes {add : Bytes → Bytes → Bytes → Prop}
    (hadd : ∀ t₁ t₂, add (s.shiftBytes t₁) (s.shiftBytes t₂) (s.shiftBytes (t₁ + t₂)))
    (pk cc : Bytes) (p q : DerivationPath) : Composes s.derive add pk cc p q where
  split := by
    intro r hr
    obtain ⟨hdepth, k, k'', t, used, hstart, hwalk, hends⟩ := s.walk_of_derive _ _ _ _ hr
    rw [List.length_append] at hdepth
    obtain ⟨k', t₁, t₂, used₁, used₂, hp, hq, rfl, rfl⟩ := hwalk.split
    obtain ⟨r₁, hr₁, hends₁⟩ := s.derive_of_walk pk cc k p k' t₁ used₁ (by omega) hstart hp
    have hrestart := s.restart pk cc k hstart p k' t₁ used₁ hp
    obtain ⟨r₂, hr₂, hends₂⟩ := s.derive_of_walk _ _ k' q k'' t₂ used₂ (by omega) hrestart hq
    refine ⟨r₁, r₂, hr₁, ?_, ?_, ?_, ?_, ?_⟩
    · rw [hends₁.publicKey, hends₁.chainCode]
      exact hr₂
    · rw [hends₂.publicKey, hends.publicKey]
    · rw [hends₂.chainCode, hends.chainCode]
    · rw [hends.resolvedPath, hends₁.resolvedPath, hends₂.resolvedPath]
    · rw [hends.shift, hends₁.shift, hends₂.shift]
      exact hadd t₁ t₂
  join := by
    intro r₁ r₂ hdepth hr₁ hr₂
    obtain ⟨-, k, k', t₁, used₁, hstart, hp, hends₁⟩ := s.walk_of_derive _ _ _ _ hr₁
    rw [hends₁.publicKey, hends₁.chainCode] at hr₂
    obtain ⟨-, l, k'', t₂, used₂, hstart₂, hq, -⟩ := s.walk_of_derive _ _ _ _ hr₂
    -- the second walk starts where the first has ended
    obtain rfl := s.start_unique _ _ _ _ hstart₂ (s.restart pk cc k hstart p k' t₁ used₁ hp)
    obtain ⟨r, hr, -⟩ := s.derive_of_walk pk cc k (p ++ q) k'' (t₁ + t₂) (used₁ ++ used₂) hdepth
      hstart (hp.append hq)
    exact ⟨r, hr⟩

end Scheme

theorem checkChainCode_eq_ok {chainCode : Bytes} :
    checkChainCode chainCode = .ok () ↔ chainCode.length = chainCodeSize := by
  simp only [checkChainCode, seq_eq_ok, rejectIf_eq_ok, not_not]
  constructor
  · intro h
    exact h.2
  · intro h
    exact ⟨by rw [h]; decide, h⟩

/-! ## secp256k1 -/

section Secp256k1

open Secp256k1

variable [Curve]

section Child

variable [Sha512] {cfg : DeriveConfig} {parentPub parentChain : Bytes} {child : SecpChild}

/-- What the loop returns: the first index, if any, whose child is a point. -/
theorem deriveSecp256k1ChildFrom_eq_ok {P : Point} {remaining : Nat} {idx : UInt32}
    (h : deriveSecp256k1ChildFrom cfg P parentPub parentChain remaining idx = .ok child) :
    pointBytes (P + scalarBaseMult child.tweak) = .ok child.childPub ∧
      child.childChain.length = chainCodeSize := by
  induction remaining generalizing idx with
  | zero => cases h
  | succ remaining ih =>
    rw [deriveSecp256k1ChildFrom] at h
    dsimp only at h
    split at h
    · cases h
    · next hsize =>
      rw [not_not] at hsize
      split at h
      · split at h
        · exact ih h
        · cases h
      · split at h
        · split at h
          · exact ih h
          · cases h
        · split at h
          · cases h
          · next hbytes =>
            cases h
            refine ⟨hbytes, ?_⟩
            rw [List.length_drop, hsize]
            rfl

theorem deriveSecp256k1Child_eq_ok {idx : UInt32}
    (h : deriveSecp256k1Child cfg parentPub parentChain idx = .ok child) :
    ∃ P, pointFromBytes parentPub = .ok P ∧
      pointFromBytes child.childPub = .ok (P + scalarBaseMult child.tweak) ∧
      child.childChain.length = chainCodeSize := by
  unfold deriveSecp256k1Child at h
  split at h
  · cases h
  · next P hP =>
    obtain ⟨hbytes, hchain⟩ := deriveSecp256k1ChildFrom_eq_ok h
    exact ⟨P, hP, pointFromBytes_eq_ok.mpr hbytes, hchain⟩

/-- One index: the place is the encoded key and the chain code. -/
def secpStep (cfg : DeriveConfig) (k : Bytes × Bytes) (idx : UInt32) (k' : Bytes × Bytes)
    (tweak : Scalar) (used : UInt32) : Prop :=
  idx < hardenedKeyStart ∧ ∃ child, deriveSecp256k1Child cfg k.1 k.2 idx = .ok child ∧
    k' = (child.childPub, child.childChain) ∧ tweak = child.tweak ∧ used = child.usedIdx

/-- Where a derivation can start. -/
structure SecpStart (cfg : DeriveConfig) (pk cc : Bytes) (k : Bytes × Bytes) : Prop where
  place : k = (pk, cc)
  chainCode : cc.length = chainCodeSize
  publicKey : ∃ P, pointFromBytes pk = .ok P
  mode : cfg.invalidChildMode.valid = true

/-- Every place a walk comes to is one to start from. -/
theorem SecpStart.restart {pk cc : Bytes} {k k' : Bytes × Bytes} {path used : DerivationPath}
    {t : Scalar} (h : SecpStart cfg pk cc k) (hwalk : Walk (secpStep cfg) k path k' t used) :
    SecpStart cfg k'.1 k'.2 k' := by
  apply hwalk.inv (P := fun k => SecpStart cfg k.1 k.2 k)
  · rintro k i k' t j hk ⟨-, child, hchild, rfl, -, -⟩
    obtain ⟨P, -, hpoint, hlength⟩ := deriveSecp256k1Child_eq_ok hchild
    exact ⟨rfl, hlength, ⟨_, hpoint⟩, hk.mode⟩
  · obtain ⟨rfl, hchain, hkey, hmode⟩ := h
    exact ⟨rfl, hchain, hkey, hmode⟩

end Child

variable [Sha256] [Sha512] [Ripemd160]

/-- The variables of the loop. -/
def secpAccumulator : Accumulator SecpWalk (Bytes × Bytes) UInt32 Scalar where
  place w := (w.parentPub, w.parentChain)
  sum := SecpWalk.cumShift
  used := SecpWalk.resolvedPath

theorem SecpWalk.step_eq_ok {cfg : DeriveConfig} {w w' : SecpWalk} {i : Nat} {idx : UInt32} :
    w.step cfg i idx = .ok w' ↔ idx < hardenedKeyStart ∧ ∃ child,
      deriveSecp256k1Child cfg w.parentPub w.parentChain idx = .ok child ∧
      w' = ⟨child.childPub, child.childChain, w.cumShift + child.tweak,
        w.resolvedPath ++ [child.usedIdx], computeFingerprint w.parentPub, child.usedIdx⟩ := by
  rw [SecpWalk.step, seq_eq_ok, rejectIf_eq_ok, UInt32.not_le]
  simp only [bind_eq_ok, mapError_eq_ok, pure, Except.pure, Except.ok.injEq, eq_comm (a := w')]

variable {path : DerivationPath}

theorem walk_of_secpRun {cfg : DeriveConfig} {w w' : SecpWalk} (h : w.run cfg path = .ok w') :
    ∃ t used, Walk (secpStep cfg) (w.parentPub, w.parentChain) path (w'.parentPub, w'.parentChain)
        t used ∧
      w'.cumShift = w.cumShift + t ∧ w'.resolvedPath = w.resolvedPath ++ used := by
  have hstep : ∀ w i idx w', SecpWalk.step cfg w i idx = .ok w' → ∃ t j,
      secpStep cfg (secpAccumulator.place w) idx (secpAccumulator.place w') t j ∧
        secpAccumulator.Moves w (secpAccumulator.place w') t [j] w' := by
    intro w i idx w' hstep
    obtain ⟨hlt, child, hchild, rfl⟩ := SecpWalk.step_eq_ok.mp hstep
    exact ⟨child.tweak, child.usedIdx, ⟨hlt, child, hchild, rfl, rfl, rfl⟩, rfl, rfl, rfl⟩
  obtain ⟨t, used, hwalk, hmove⟩ := walk_of_loop secpAccumulator hstep h
  exact ⟨t, used, hwalk, hmove.sum, hmove.used⟩

theorem secpRun_of_walk {cfg : DeriveConfig} {w : SecpWalk} {used : DerivationPath}
    {k : Bytes × Bytes} {t : Scalar}
    (h : Walk (secpStep cfg) (w.parentPub, w.parentChain) path k t used) :
    ∃ w', w.run cfg path = .ok w' ∧ (w'.parentPub, w'.parentChain) = k ∧
      w'.cumShift = w.cumShift + t ∧ w'.resolvedPath = w.resolvedPath ++ used := by
  have hstep : ∀ w i idx k t j, secpStep cfg (secpAccumulator.place w) idx k t j →
      ∃ w', SecpWalk.step cfg w i idx = .ok w' ∧ secpAccumulator.Moves w k t [j] w' := by
    rintro w i idx k t j ⟨hlt, child, hchild, rfl, rfl, rfl⟩
    exact ⟨_, SecpWalk.step_eq_ok.mpr ⟨hlt, child, hchild, rfl⟩, rfl, rfl, rfl⟩
  obtain ⟨w', hrun, hmove⟩ := loop_of_walk (w := w) (i := 0) secpAccumulator hstep h
  exact ⟨w', hrun, hmove.place, hmove.sum, hmove.used⟩

variable {opts : List DeriveOption}

/-- The checks before the walk. -/
theorem deriveSecp256k1_start {pk cc : Bytes} {r : DerivationResult}
    (h : deriveSecp256k1 pk cc path opts = .ok r) :
    SecpStart (resolveDeriveConfig opts) pk cc (pk, cc) := by
  obtain ⟨hchain, h⟩ := seq_eq_ok.mp h
  obtain ⟨P, hP, h⟩ := bind_eq_ok.mp h
  obtain ⟨hmode, -⟩ := seq_eq_ok.mp h
  rw [mapError_eq_ok] at hP
  rw [DeriveConfig.checkMode, rejectIf_eq_ok, not_not] at hmode
  exact ⟨rfl, checkChainCode_eq_ok.mp hchain, ⟨P, hP⟩, hmode⟩

/-- A derivation is the checks and a walk. -/
theorem walk_of_deriveSecp256k1 {pk cc : Bytes} {r : DerivationResult}
    (h : deriveSecp256k1 pk cc path opts = .ok r) :
    path.length ≤ maxDepth ∧ ∃ k' t used,
      Walk (secpStep (resolveDeriveConfig opts)) (pk, cc) path k' t used ∧
      Ends Prod.fst Prod.snd scalarBytes k' t used r := by
  obtain ⟨-, h⟩ := seq_eq_ok.mp h
  obtain ⟨-, -, h⟩ := bind_eq_ok.mp h
  obtain ⟨-, h⟩ := seq_eq_ok.mp h
  split at h
  · next hnil =>
    cases h
    subst hnil
    exact ⟨Nat.zero_le _, (pk, cc), 0, [], .nil _, rfl, rfl, rfl, rfl⟩
  · obtain ⟨hdepth, h⟩ := seq_eq_ok.mp h
    rw [rejectIf_eq_ok, not_lt] at hdepth
    obtain ⟨w, hrun, h⟩ := bind_eq_ok.mp h
    cases h
    obtain ⟨t, used, hwalk, hsum, hused⟩ := walk_of_secpRun hrun
    rw [zero_add] at hsum
    rw [List.nil_append] at hused
    exact ⟨hdepth, _, t, used, hwalk, rfl, rfl, congrArg scalarBytes hsum, hused⟩

theorem deriveSecp256k1_of_walk {pk cc : Bytes} {used : DerivationPath} {k k' : Bytes × Bytes}
    {t : Scalar} (hdepth : path.length ≤ maxDepth)
    (hstart : SecpStart (resolveDeriveConfig opts) pk cc k)
    (hwalk : Walk (secpStep (resolveDeriveConfig opts)) k path k' t used) :
    ∃ r, deriveSecp256k1 pk cc path opts = .ok r ∧
      Ends Prod.fst Prod.snd scalarBytes k' t used r := by
  obtain ⟨rfl, hchain, ⟨P, hP⟩, hmode⟩ := hstart
  have hmode' : (resolveDeriveConfig opts).checkMode = .ok () := by
    rw [DeriveConfig.checkMode, rejectIf_eq_ok, not_not]
    exact hmode
  unfold deriveSecp256k1
  simp only [checkChainCode_eq_ok.mpr hchain, hP, mapError_ok, ok_bind, hmode']
  by_cases hnil : path = []
  · subst hnil
    cases hwalk
    rw [if_pos rfl]
    exact ⟨_, rfl, rfl, rfl, rfl, rfl⟩
  · obtain ⟨w, hrun, rfl, hsum, hused⟩ := secpRun_of_walk
      (w := ⟨pk, cc, 0, [], Vector.replicate 4 0, 0⟩) hwalk
    rw [zero_add] at hsum
    rw [List.nil_append] at hused
    have hdepth' : ¬ maxDepth < path.length := by omega
    simp only [if_neg hnil, rejectIf, if_neg hdepth', ok_bind, hrun]
    exact ⟨_, rfl, rfl, rfl, congrArg scalarBytes hsum, hused⟩

/-- BIP32 over secp256k1. -/
def secpScheme (opts : List DeriveOption) : Scheme (Bytes × Bytes) Scalar where
  derive pk cc path := deriveSecp256k1 pk cc path opts
  step := secpStep (resolveDeriveConfig opts)
  start := SecpStart (resolveDeriveConfig opts)
  publicKey := Prod.fst
  chainCode := Prod.snd
  shiftBytes := scalarBytes
  restart _ _ _ h _ _ _ _ hwalk := h.restart hwalk
  walk_of_derive pk cc path r h := by
    obtain ⟨hdepth, k', t, used, hwalk, hends⟩ := walk_of_deriveSecp256k1 h
    exact ⟨hdepth, (pk, cc), k', t, used, deriveSecp256k1_start h, hwalk, hends⟩
  derive_of_walk _ _ _ _ _ _ _ hdepth hstart hwalk := deriveSecp256k1_of_walk hdepth hstart hwalk
  start_unique _ _ _ _ h h' := h.place.trans h'.place.symm

/-- The child's key is the parent's key moved by the shift. -/
theorem deriveSecp256k1_displacement {pk cc : Bytes} {r : DerivationResult}
    (h : deriveSecp256k1 pk cc path opts = .ok r) :
    ∃ P t, pointFromBytes pk = .ok P ∧ scalarFromBytesAllowZero r.additiveShift = .ok t ∧
      pointFromBytes r.childPublicKey = .ok (P + scalarBaseMult t) := by
  obtain ⟨-, k', t, used, hwalk, hends⟩ := walk_of_deriveSecp256k1 h
  have hstart := deriveSecp256k1_start h
  obtain ⟨P, hP⟩ := hstart.publicKey
  obtain ⟨Q, hQ⟩ := (hstart.restart hwalk).publicKey
  -- the point of a place, zero where there is none
  let val (k : Bytes × Bytes) : Point := (pointFromBytes k.1).toOption.getD 0
  let φ : Scalar →+ Point :=
    { toFun := scalarBaseMult
      map_zero' := zero_smul _ _
      map_add' := fun a b => add_smul a b _ }
  have hstep : ∀ k i k' t j, secpStep (resolveDeriveConfig opts) k i k' t j →
      val k' = val k + φ t := by
    rintro k i k' t j ⟨-, child, hchild, rfl, rfl, -⟩
    obtain ⟨P, hP, hchildP, -⟩ := deriveSecp256k1Child_eq_ok hchild
    show (pointFromBytes child.childPub).toOption.getD 0 = (pointFromBytes k.1).toOption.getD 0 + _
    rw [hP, hchildP]
    rfl
  have hmoved : val k' = val (pk, cc) + φ t := hwalk.displacement val φ hstep
  have hval : Q = P + scalarBaseMult t := by
    show Q = P + φ t
    have hval' : val k' = Q := by
      show (pointFromBytes k'.1).toOption.getD 0 = Q
      rw [hQ]
      rfl
    have hval : val (pk, cc) = P := by
      show (pointFromBytes pk).toOption.getD 0 = P
      rw [hP]
      rfl
    rw [← hval', hmoved, hval]
  refine ⟨P, t, hP, ?_, ?_⟩
  · rw [hends.shift]
    exact scalarFromBytesAllowZero_eq_ok.mpr rfl
  · rw [hends.publicKey, hQ, hval]

end Secp256k1

/-! ## Ed25519 -/

section Ed25519

open Frost Frost.Edwards25519

variable {F G : Type} [Field F] [AddCommGroup G] [DecidableEq G] [Module F G] [Edwards25519 F G]

/-- Only canonical encodings are parsed. -/
theorem pointBytes_of_semanticPoint {b : Bytes} {P : SemanticPoint G}
    (h : semanticPointFromBytes b = .ok P) : pointBytes P.val = b := by
  obtain ⟨Q, hQ, h⟩ := bind_eq_ok.mp h
  obtain ⟨-, hQ⟩ := seq_eq_ok.mp hQ
  split at hQ
  · cases hQ
  · obtain ⟨hcanonical, hQ⟩ := seq_eq_ok.mp hQ
    cases hQ
    rw [rejectIf_eq_ok, not_not] at hcanonical
    rw [newSemanticPointFromPoint] at h
    split at h
    · cases h
    · next Y hY =>
      cases h
      split at hY
      · cases hY
        exact hcanonical
      · cases hY

section Child

variable [Sha512] {cfg : DeriveConfig} {parentPub parentChain : Bytes} {child : EdChild F}

/-- What the loop returns: the first index, if any, whose child is not the identity. -/
theorem deriveEd25519ChildFrom_eq_ok {P : G} {remaining : Nat} {idx : UInt32}
    (h : deriveEd25519ChildFrom G cfg P parentPub parentChain remaining idx = .ok child) :
    P + (baseMult child.tweak : G) ≠ 0 ∧ child.childChain.length = chainCodeSize := by
  induction remaining generalizing idx with
  | zero => cases h
  | succ remaining ih =>
    rw [deriveEd25519ChildFrom] at h
    obtain ⟨-, h⟩ := seq_eq_ok.mp h
    obtain ⟨candidate, -, h⟩ := bind_eq_ok.mp h
    split at h
    · split at h
      · exact ih h
      · cases h
    · next hne =>
      obtain ⟨hsize, h⟩ := seq_eq_ok.mp h
      cases h
      rw [rejectIf_eq_ok, not_not] at hsize
      refine ⟨hne, ?_⟩
      rw [List.length_drop, hsize]
      rfl

theorem deriveEd25519Child_eq_ok {idx : UInt32}
    (h : deriveEd25519Child G cfg parentPub parentChain idx = .ok child) :
    ∃ P : SemanticPoint G, semanticPointFromBytes parentPub = .ok P ∧
      P.val + (baseMult child.tweak : G) ≠ 0 ∧ child.childChain.length = chainCodeSize := by
  obtain ⟨P, hP, h⟩ := bind_eq_ok.mp h
  rw [mapError_eq_ok] at hP
  exact ⟨P, hP, deriveEd25519ChildFrom_eq_ok h⟩

variable (G) in
/-- One index: the place is the point and the chain code. -/
def edStep (cfg : DeriveConfig) (k : G × Bytes) (idx : UInt32) (k' : G × Bytes) (tweak : F)
    (used : UInt32) : Prop :=
  idx < hardenedKeyStart ∧ ∃ child : EdChild F,
    deriveEd25519Child G cfg (pointBytes k.1) k.2 idx = .ok child ∧
    k' = (k.1 + baseMult child.tweak, child.childChain) ∧ tweak = child.tweak ∧
    used = child.usedIdx

/-- Where a derivation can start. -/
structure EdStart (cfg : DeriveConfig) (pk cc : Bytes) (k : G × Bytes) : Prop where
  chain : k.2 = cc
  chainCode : cc.length = chainCodeSize
  publicKey : ∃ P : SemanticPoint G, semanticPointFromBytes pk = .ok P ∧ P.val = k.1
  mode : cfg.invalidChildMode.valid = true

/-- Every place a walk comes to is one to start from. -/
theorem EdStart.restart {pk cc : Bytes} {k k' : G × Bytes} {path used : DerivationPath} {t : F}
    (h : EdStart cfg pk cc k) (hwalk : Walk (edStep G cfg) k path k' t used) :
    EdStart cfg (pointBytes k'.1) k'.2 k' := by
  apply hwalk.inv (P := fun k => EdStart cfg (pointBytes k.1) k.2 k)
  · rintro k i k' t j hk ⟨-, child, hchild, rfl, -, -⟩
    obtain ⟨P, hP, hne, hlength⟩ := deriveEd25519Child_eq_ok hchild
    obtain ⟨Q, hQ, hval⟩ := hk.publicKey
    rw [hQ] at hP
    cases hP
    rw [hval] at hne
    exact ⟨rfl, hlength, ⟨⟨_, hne⟩, semanticPointFromBytes_pointBytes ⟨_, hne⟩, rfl⟩, hk.mode⟩
  · obtain ⟨hchain, hlength, ⟨P, hP, hval⟩, hmode⟩ := h
    refine ⟨rfl, hchain ▸ hlength, ⟨P, ?_, hval⟩, hmode⟩
    rw [← hval]
    exact semanticPointFromBytes_pointBytes P

end Child

variable [Sha256] [Sha512] [Ripemd160]

/-- The variables of the loop. -/
def edAccumulator : Accumulator (EdWalk F G) (G × Bytes) UInt32 F where
  place w := (w.parentPoint, w.parentChain)
  sum := EdWalk.cumShift
  used := EdWalk.resolvedPath

theorem EdWalk.step_eq_ok {cfg : DeriveConfig} {w w' : EdWalk F G} {i : Nat} {idx : UInt32} :
    w.step cfg i idx = .ok w' ↔ idx < hardenedKeyStart ∧ ∃ child : EdChild F,
      deriveEd25519Child G cfg (pointBytes w.parentPoint) w.parentChain idx = .ok child ∧
      w' = ⟨w.parentPoint + baseMult child.tweak, child.childChain, w.cumShift + child.tweak,
        w.resolvedPath ++ [child.usedIdx], computeFingerprint (pointBytes w.parentPoint),
        child.usedIdx⟩ := by
  rw [EdWalk.step, seq_eq_ok, rejectIf_eq_ok, UInt32.not_le]
  simp only [bind_eq_ok, mapError_eq_ok, pure, Except.pure, Except.ok.injEq, eq_comm (a := w')]

variable {path : DerivationPath}

theorem walk_of_edRun {cfg : DeriveConfig} {w w' : EdWalk F G} (h : w.run cfg path = .ok w') :
    ∃ t used, Walk (edStep G cfg) (w.parentPoint, w.parentChain) path
        (w'.parentPoint, w'.parentChain) t used ∧
      w'.cumShift = w.cumShift + t ∧ w'.resolvedPath = w.resolvedPath ++ used := by
  have hstep : ∀ (w : EdWalk F G) i idx w', EdWalk.step cfg w i idx = .ok w' → ∃ t j,
      edStep G cfg (edAccumulator.place w) idx (edAccumulator.place w') t j ∧
        edAccumulator.Moves w (edAccumulator.place w') t [j] w' := by
    intro w i idx w' hstep
    obtain ⟨hlt, child, hchild, rfl⟩ := EdWalk.step_eq_ok.mp hstep
    exact ⟨child.tweak, child.usedIdx, ⟨hlt, child, hchild, rfl, rfl, rfl⟩, rfl, rfl, rfl⟩
  obtain ⟨t, used, hwalk, hmove⟩ := walk_of_loop edAccumulator hstep h
  exact ⟨t, used, hwalk, hmove.sum, hmove.used⟩

theorem edRun_of_walk {cfg : DeriveConfig} {w : EdWalk F G} {used : DerivationPath} {k : G × Bytes}
    {t : F} (h : Walk (edStep G cfg) (w.parentPoint, w.parentChain) path k t used) :
    ∃ w', w.run cfg path = .ok w' ∧ (w'.parentPoint, w'.parentChain) = k ∧
      w'.cumShift = w.cumShift + t ∧ w'.resolvedPath = w.resolvedPath ++ used := by
  have hstep : ∀ (w : EdWalk F G) i idx k t j, edStep G cfg (edAccumulator.place w) idx k t j →
      ∃ w', EdWalk.step cfg w i idx = .ok w' ∧ edAccumulator.Moves w k t [j] w' := by
    rintro w i idx k t j ⟨hlt, child, hchild, rfl, rfl, rfl⟩
    exact ⟨_, EdWalk.step_eq_ok.mpr ⟨hlt, child, hchild, rfl⟩, rfl, rfl, rfl⟩
  obtain ⟨w', hrun, hmove⟩ := loop_of_walk (w := w) (i := 0) edAccumulator hstep h
  exact ⟨w', hrun, hmove.place, hmove.sum, hmove.used⟩

/-- The public key of a place. -/
def edPublicKey (k : G × Bytes) : Bytes := pointBytes k.1

/-- A derivation is the checks and a walk. The master path returns 32 zero bytes as its shift. -/
theorem walk_of_deriveEd25519 (hzero : scalarBytes G (0 : F) = List.replicate 32 0) {pk cc : Bytes}
    {opts : List DeriveOption} {r : DerivationResult}
    (h : deriveEd25519KhovratovichLaw G pk cc path opts = .ok r) :
    path.length ≤ maxDepth ∧ ∃ k k' t used, EdStart (resolveDeriveConfig opts) pk cc k ∧
      Walk (edStep G (resolveDeriveConfig opts)) k path k' t used ∧
      Ends edPublicKey Prod.snd (scalarBytes G) k' t used r := by
  obtain ⟨hchain, h⟩ := seq_eq_ok.mp h
  obtain ⟨P, hP, h⟩ := bind_eq_ok.mp h
  obtain ⟨hmode, h⟩ := seq_eq_ok.mp h
  rw [mapError_eq_ok] at hP
  rw [DeriveConfig.checkMode, rejectIf_eq_ok, not_not] at hmode
  have hstart : EdStart (resolveDeriveConfig opts) pk cc (P.val, cc) :=
    ⟨rfl, checkChainCode_eq_ok.mp hchain, ⟨P, hP, rfl⟩, hmode⟩
  split at h
  · next hnil =>
    cases h
    subst hnil
    exact ⟨Nat.zero_le _, (P.val, cc), (P.val, cc), 0, [], hstart, .nil _,
      (pointBytes_of_semanticPoint hP).symm, rfl, hzero.symm, rfl⟩
  · obtain ⟨hdepth, h⟩ := seq_eq_ok.mp h
    rw [rejectIf_eq_ok, not_lt] at hdepth
    obtain ⟨w, hrun, h⟩ := bind_eq_ok.mp h
    cases h
    obtain ⟨t, used, hwalk, hsum, hused⟩ := walk_of_edRun hrun
    rw [zero_add] at hsum
    rw [List.nil_append] at hused
    exact ⟨hdepth, _, _, t, used, hstart, hwalk, rfl, rfl, congrArg (scalarBytes G) hsum, hused⟩

theorem deriveEd25519_of_walk (hzero : scalarBytes G (0 : F) = List.replicate 32 0) {pk cc : Bytes}
    {used : DerivationPath} {opts : List DeriveOption} {k k' : G × Bytes} {t : F}
    (hdepth : path.length ≤ maxDepth) (hstart : EdStart (resolveDeriveConfig opts) pk cc k)
    (hwalk : Walk (edStep G (resolveDeriveConfig opts)) k path k' t used) :
    ∃ r, deriveEd25519KhovratovichLaw G pk cc path opts = .ok r ∧
      Ends edPublicKey Prod.snd (scalarBytes G) k' t used r := by
  obtain ⟨hplace, hchain, ⟨P, hP, hval⟩, hmode⟩ := hstart
  have hk : k = (P.val, cc) := Prod.ext hval.symm hplace
  have hmode' : (resolveDeriveConfig opts).checkMode = .ok () := by
    rw [DeriveConfig.checkMode, rejectIf_eq_ok, not_not]
    exact hmode
  rw [hk] at hwalk
  unfold deriveEd25519KhovratovichLaw
  simp only [checkChainCode_eq_ok.mpr hchain, hP, mapError_ok, ok_bind, hmode']
  by_cases hnil : path = []
  · subst hnil
    cases hwalk
    rw [if_pos rfl]
    exact ⟨_, rfl, (pointBytes_of_semanticPoint hP).symm, rfl, hzero.symm, rfl⟩
  · obtain ⟨w, hrun, rfl, hsum, hused⟩ := edRun_of_walk
      (w := ⟨P.val, cc, 0, [], Vector.replicate 4 0, 0⟩) hwalk
    rw [zero_add] at hsum
    rw [List.nil_append] at hused
    have hdepth' : ¬ maxDepth < path.length := by omega
    simp only [if_neg hnil, rejectIf, if_neg hdepth', ok_bind, hrun]
    exact ⟨_, rfl, rfl, rfl, congrArg (scalarBytes G) hsum, hused⟩

variable (G) in
/-- The Khovratovich-Law construction. -/
def edScheme (hzero : scalarBytes G (0 : F) = List.replicate 32 0) (opts : List DeriveOption) :
    Scheme (G × Bytes) F where
  derive pk cc path := deriveEd25519KhovratovichLaw G pk cc path opts
  step := edStep G (resolveDeriveConfig opts)
  start := EdStart (resolveDeriveConfig opts)
  publicKey := edPublicKey
  chainCode := Prod.snd
  shiftBytes := scalarBytes G
  restart _ _ _ h _ _ _ _ hwalk := h.restart hwalk
  walk_of_derive _ _ _ _ h := walk_of_deriveEd25519 hzero h
  derive_of_walk _ _ _ _ _ _ _ hdepth hstart hwalk :=
    deriveEd25519_of_walk hzero hdepth hstart hwalk
  start_unique pk cc k k' h h' := by
    obtain ⟨P, hP, hval⟩ := h.publicKey
    obtain ⟨P', hP', hval'⟩ := h'.publicKey
    rw [hP] at hP'
    cases hP'
    exact Prod.ext (hval.symm.trans hval') (h.chain.trans h'.chain.symm)

/-- The child's key is the parent's key moved by the shift. -/
theorem deriveEd25519_displacement (hzero : scalarBytes G (0 : F) = List.replicate 32 0)
    {pk cc : Bytes} {opts : List DeriveOption} {r : DerivationResult}
    (h : deriveEd25519KhovratovichLaw G pk cc path opts = .ok r) :
    ∃ (P Q : SemanticPoint G) (t : F), semanticPointFromBytes pk = .ok P ∧
      scalarFromCanonicalBytes G r.additiveShift = .ok t ∧
      semanticPointFromBytes r.childPublicKey = .ok Q ∧ Q.val = P.val + baseMult t := by
  obtain ⟨-, k, k', t, used, hstart, hwalk, hends⟩ := walk_of_deriveEd25519 hzero h
  obtain ⟨P, hP, hval⟩ := hstart.publicKey
  obtain ⟨Q, hQ, hval'⟩ := (hstart.restart hwalk).publicKey
  let φ : F →+ G :=
    { toFun := baseMult
      map_zero' := zero_smul _ _
      map_add' := baseMult_add }
  have hstep : ∀ k i k' t j, edStep G (resolveDeriveConfig opts) k i k' t j →
      k'.1 = k.1 + φ t := by
    rintro k i k' t j ⟨-, child, -, rfl, rfl, -⟩
    rfl
  have hmoved : k'.1 = k.1 + φ t := hwalk.displacement Prod.fst φ hstep
  refine ⟨P, Q, t, hP, ?_, ?_, ?_⟩
  · rw [hends.shift, scalarFromCanonicalBytes, scalarFromCanonical_scalarBytes]
  · rw [hends.publicKey]
    exact hQ
  · rw [hval', hmoved, hval]
    rfl

end Ed25519

/-! ## Both schemes -/

section Both

variable [Secp256k1.Curve] {F : Type} (G : Type) [Field F] [AddCommGroup G] [DecidableEq G]
  [Module F G] [Frost.Edwards25519 F G] [Sha256] [Sha512] [Ripemd160]

/-- The third encoding is the sum of the first two, modulo the group order. -/
def SecpShiftsAdd (a b c : Bytes) : Prop :=
  ∃ s t : Secp256k1.Scalar, Secp256k1.scalarFromBytesAllowZero a = .ok s ∧
    Secp256k1.scalarFromBytesAllowZero b = .ok t ∧
    Secp256k1.scalarFromBytesAllowZero c = .ok (s + t)

/-- The third encoding is the sum of the first two, modulo the group order. -/
def EdShiftsAdd (a b c : Bytes) : Prop :=
  ∃ s t : F, Frost.scalarFromCanonicalBytes G a = .ok s ∧
    Frost.scalarFromCanonicalBytes G b = .ok t ∧ Frost.scalarFromCanonicalBytes G c = .ok (s + t)

/-- A path can be cut anywhere, in both schemes and every mode, and the child's key is always the
parent's key moved by the shift. -/
theorem derivation_composes
    (hzero : Frost.Edwards25519.scalarBytes G (0 : F) = List.replicate 32 0)
    (opts : List DeriveOption) (pk cc : Bytes) (p q : DerivationPath) :
    (Composes (deriveSecp256k1 · · · opts) SecpShiftsAdd pk cc p q ∧
      ∀ r, deriveSecp256k1 pk cc p opts = .ok r →
        ∃ P t, Secp256k1.pointFromBytes pk = .ok P ∧
          Secp256k1.scalarFromBytesAllowZero r.additiveShift = .ok t ∧
          Secp256k1.pointFromBytes r.childPublicKey = .ok (P + Secp256k1.scalarBaseMult t)) ∧
    (Composes (deriveEd25519KhovratovichLaw G · · · opts) (EdShiftsAdd G) pk cc p q ∧
      ∀ r, deriveEd25519KhovratovichLaw G pk cc p opts = .ok r →
        ∃ (P Q : Frost.SemanticPoint G) (t : F), Frost.semanticPointFromBytes pk = .ok P ∧
          Frost.scalarFromCanonicalBytes G r.additiveShift = .ok t ∧
          Frost.semanticPointFromBytes r.childPublicKey = .ok Q ∧
          Q.val = P.val + Frost.baseMult t) := by
  refine ⟨⟨?_, fun r => deriveSecp256k1_displacement⟩,
    ⟨?_, fun r => deriveEd25519_displacement hzero⟩⟩
  · apply (secpScheme opts).composes
    intro s t
    exact ⟨s, t, Secp256k1.scalarFromBytesAllowZero_eq_ok.mpr rfl,
      Secp256k1.scalarFromBytesAllowZero_eq_ok.mpr rfl,
      Secp256k1.scalarFromBytesAllowZero_eq_ok.mpr rfl⟩
  · apply (edScheme G hzero opts).composes
    have hread : ∀ s : F, Frost.scalarFromCanonicalBytes G (Frost.Edwards25519.scalarBytes G s) =
        .ok s := by
      intro s
      rw [Frost.scalarFromCanonicalBytes, Frost.Edwards25519.scalarFromCanonical_scalarBytes]
    intro s t
    exact ⟨s, t, hread s, hread t, hread (s + t)⟩

end Both

/-- The first twenty bytes. -/
@[reducible] def Ripemd160.firstBytes : Ripemd160 :=
  ⟨fun b => Vector.ofFn fun i : Fin 20 => b.getD i 0⟩

/-- Two indices below a key of the sample curve, at once and one by one. -/
theorem derivation_composes_sample :
    letI := Secp256k1.Model.curve
    letI := Frost.sampleCurve
    letI := Frost.sampleSha512
    letI := Sha256.firstBytes
    letI := Ripemd160.firstBytes
    ∃ r r₁ r₂,
      deriveEd25519KhovratovichLaw Frost.SampleField (leBytes 32 5) (List.replicate 32 1) [0, 7]
        [.invalidChildMode .skipInvalidChild] = .ok r ∧
      deriveEd25519KhovratovichLaw Frost.SampleField (leBytes 32 5) (List.replicate 32 1) [0]
        [.invalidChildMode .skipInvalidChild] = .ok r₁ ∧
      deriveEd25519KhovratovichLaw Frost.SampleField r₁.childPublicKey r₁.childChainCode [7]
        [.invalidChildMode .skipInvalidChild] = .ok r₂ ∧
      r₂.childPublicKey = r.childPublicKey := by
  let := Secp256k1.Model.curve
  let := Frost.sampleCurve
  let := Frost.sampleSha512
  let := Sha256.firstBytes
  let := Ripemd160.firstBytes
  have hok : (deriveEd25519KhovratovichLaw Frost.SampleField (leBytes 32 5) (List.replicate 32 1)
      [0, 7] [.invalidChildMode .skipInvalidChild]).isOk = true := by
    decide +kernel
  cases hr : deriveEd25519KhovratovichLaw Frost.SampleField (leBytes 32 5) (List.replicate 32 1)
      [0, 7] [.invalidChildMode .skipInvalidChild] with
  | error err =>
    rw [hr] at hok
    cases hok
  | ok r =>
    obtain ⟨-, hcomposes, -⟩ := derivation_composes Frost.SampleField (by decide +kernel)
      [.invalidChildMode .skipInvalidChild] (leBytes 32 5) (List.replicate 32 1) [0] [7]
    obtain ⟨r₁, r₂, hr₁, hr₂, hkey, -⟩ := hcomposes.split r hr
    exact ⟨r, r₁, r₂, rfl, hr₁, hr₂, hkey⟩

end Tss.Bip32util
