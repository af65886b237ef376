import Tss.Lifecycle.Invariant
import Tss.Lifecycle.Validate

/-!
# The validator accepts well-formed stores

One lemma per sub-validator: what `WF` says about a record family is what
the validator checks of it. The counting loops are where the two differ
in form: a count of one current generation per key, of anchors on active
leases and of active fences is a bijection with an index map.
-/

namespace Tss.Lifecycle

open MemoryLifecycleStore Verdict

variable [Sha256] {s : MemoryLifecycleStore}

theorem WF.isCurrentLocked (h : WF s) {b : GenerationBinding}
    (hb : s.current.lookup b.keyID = some b) : s.isCurrentLocked b = true :=
  isCurrentLocked_iff.mpr ⟨hb, (h.generations.index hb).2⟩

theorem WF.validate_tombstones (h : WF s) : validateMemoryLifecycleTombstones s = 0 := by
  simp only [validateMemoryLifecycleTombstones, range_eq_zero, corruptIf_eq_zero]
  intro key x hx
  have := h.tombstones.record hx
  tauto

/-- Exactly one stored generation of an indexed key is current. -/
theorem WF.currentCount_eq_one (h : WF s) {k : GoString} {b : GenerationBinding}
    (hk : s.current.lookup k = some b) : currentCount s k = 1 := by
  obtain ⟨rfl, r, hr, hst⟩ := h.generations.index hk
  refine FMap.count_eq_one hr (by simp [hst]) fun b' r' hr' hp => ?_
  simp only [Bool.and_eq_true, decide_eq_true_eq] at hp
  have := (h.generations.live hr' hp.1).1
  rw [hp.2, hk] at this
  exact (Option.some.inj this).symm

theorem WF.validate_generations (h : WF s) : validateMemoryLifecycleGenerations s = 0 := by
  simp only [validateMemoryLifecycleGenerations, andThen_eq_zero, range_eq_zero, corruptIf_eq_zero]
  refine ⟨fun k b hk => ?_, fun b r hb => ?_, fun k b hk => ?_⟩
  · obtain ⟨hkey, r, hr, -⟩ := h.generations.index hk
    have := (h.generations.binding hr).1
    simp [hkey, this]
  · obtain ⟨hval, hbind⟩ := h.generations.binding hb
    refine ⟨by simp [hval, hbind], ?_⟩
    split
    · next hst => simpa using h.generations.live hb hst
    · next hst =>
      have hret : r.status = .retired := by cases hs : r.status <;> simp_all
      simpa using h.generations.retired hb hret
  · simpa using h.currentCount_eq_one hk

/-! ## Leases -/

theorem WF.lease_count (h : WF s) : s.leasesByToken.size = s.leaseBySession.size := by
  rw [← FMap.count_true]
  refine FMap.count_eq_size (fun _ lease => lease.sessionID) ?_ ?_ ?_
  · intro x l hl _
    exact Finmap.mem_iff.mpr ⟨x, (h.leases.lease hl).2.2.2.1⟩
  · intro x l y l' hl _ hl' _ he
    have hx := (h.leases.lease hl).2.2.2.1
    have hy := (h.leases.lease hl').2.2.2.1
    rw [show l.sessionID = l'.sessionID from he, hy] at hx
    exact (Option.some.inj hx).symm
  · intro i hi
    obtain ⟨x, hx⟩ := Finmap.mem_iff.mp hi
    obtain ⟨l, hl, hses⟩ := h.leases.session hx
    exact ⟨x, l, hl, rfl, hses⟩

theorem WF.receiver_count (h : WF s) : validatedReceiverAnchors s = s.reshareReceivers.size := by
  refine FMap.count_eq_size (fun token _ => token) ?_ ?_ ?_
  · intro x l _ hp
    simp only [Bool.and_eq_true, decide_eq_true_eq] at hp
    exact hp.2
  · intro x l y l' _ _ _ _ he
    exact he
  · intro x hx
    obtain ⟨a, ha⟩ := Finmap.mem_iff.mp hx
    obtain ⟨-, l, hl, hst, -⟩ := h.receivers.anchor ha
    exact ⟨x, l, hl, by simp [hst, hx], rfl⟩

theorem WF.validate_storedLease (h : WF s) {x : Nat} {l : RunLease}
    (hl : s.leasesByToken.lookup x = some l) : validateStoredLease s x l = 0 := by
  obtain ⟨htok, hval, hnext, hses, hst⟩ := h.leases.lease hl
  simp only [validateStoredLease, andThen_eq_zero, corruptIf_eq_zero]
  refine ⟨by simp [htok, hval, hnext], by simp [hses], ?_⟩
  cases hs : l.state <;> simp_all [RunLeaseState.stored]

theorem WF.validate_receiverLease (h : WF s) {x : Nat} {l : RunLease}
    {a : ReshareReceiverAnchor} (hfresh : ReceiverNamesFresh s)
    (hl : s.leasesByToken.lookup x = some l)
    (ha : s.reshareReceivers.lookup x = some a) : validateReceiverLease s l a = 0 := by
  obtain ⟨hval, l', hl', -, hkind, hsrc, hses⟩ := h.receivers.anchor ha
  obtain ⟨hcur, hfree, -⟩ := h.receivers.vacant ha
  obtain rfl : l' = l := Option.some.inj (hl'.symm.trans hl)
  have hname := hasKeyGenerationLocked_eq_false.mpr ⟨hfresh.fresh ha, hfree⟩
  rw [hsrc] at hcur hname
  -- a pending attempt or an active fence needs a current generation
  have hquiet : s.hasNonTerminalAttemptForKeyLocked l'.binding.keyID = false := by
    refine hasNonTerminalAttemptForKeyLocked_eq_false.mpr fun i r hi hkey => ?_
    by_contra hpend
    have := h.attempts.pending hi (by simpa using hpend)
    rw [hkey, hcur] at this
    cases this
  have hunfenced : l'.binding.keyID ∉ s.cutoverByKey := by
    intro hmem
    obtain ⟨y, hy⟩ := Finmap.mem_iff.mp hmem
    obtain ⟨c, hc, hact, hkey⟩ := h.cutovers.index hy
    have hst := h.cutovers.state hc
    simp only [CutoverStateOk, hact] at hst
    rw [← hkey, hst.2.1.current] at hcur
    cases hcur
  simp only [validateReceiverLease, andThen_eq_zero, corruptIf_eq_zero]
  refine ⟨by simp [hval, hkind, hsrc, hses], ?_, hunfenced⟩
  simp [FMap.mem_iff_lookup_ne_none, hcur, hname, hquiet]

/-- An exclusive active lease is the only active lease of its key. -/
theorem WF.activeLeaseCount_eq_one (h : WF s) {x : Nat} {l : RunLease}
    (hl : s.leasesByToken.lookup x = some l) (hst : l.state = .active)
    (hex : exclusiveLeaseRunKind l.kind = true) : activeLeaseCount s l.binding.keyID = 1 := by
  refine FMap.count_eq_one hl (by simp [hst]) fun y l' hl' hp => ?_
  simp only [Bool.and_eq_true, decide_eq_true_eq] at hp
  exact h.active.exclusive hl hst hex hl' hp.1 hp.2

theorem WF.validate_leases (h : WF s) (hfresh : ReceiverNamesFresh s) :
    validateMemoryLifecycleLeases s = 0 := by
  simp only [validateMemoryLifecycleLeases, andThen_eq_zero, range_eq_zero, corruptIf_eq_zero]
  refine ⟨by simp [h.lease_count], fun x l hl => ⟨h.validate_storedLease hl, ?_⟩,
    by simp [h.receiver_count], fun x l hl => ?_⟩
  · split
    · next hst =>
      rw [corruptIf_eq_zero]
      intro hmem
      obtain ⟨a, ha⟩ := Finmap.mem_iff.mp hmem
      obtain ⟨-, l', hl', hact, -⟩ := h.receivers.anchor ha
      exact hst (Option.some.inj (hl'.symm.trans hl) ▸ hact)
    · next hst =>
      rw [not_not] at hst
      split
      · next a ha => exact h.validate_receiverLease hfresh hl ha
      · next hnone =>
        have hrecv : x ∉ s.reshareReceivers := FMap.notMem_iff_lookup.mpr hnone
        split
        · next hkind =>
          have hfree := h.active.keygen hl hst hrecv hkind
          rw [corruptIf_eq_zero, not_or]
          refine ⟨fun hmem => ?_, by simpa [hasGenerationForKeyLocked_eq_false] using hfree⟩
          obtain ⟨b, hb⟩ := Finmap.mem_iff.mp hmem
          obtain ⟨hkey, r, hr, -⟩ := h.generations.index hb
          exact hfree b r hr hkey
        · next hkind => simp [h.isCurrentLocked (h.active.bound hl hst hrecv hkind)]
  · rintro ⟨hst, hex, hcount⟩
    exact hcount (h.activeLeaseCount_eq_one hl hst hex)

/-- The validator looks up every receiver's target name among the tombstones. -/
theorem ReceiverNamesFresh.of_validate (h : WF s) (hv : validateMemoryLifecycleLeases s = 0) :
    ReceiverNamesFresh s where
  fresh {x a} ha := by
    obtain ⟨-, l, hl, hact, -, hsrc, -⟩ := h.receivers.anchor ha
    simp only [validateMemoryLifecycleLeases, andThen_eq_zero, range_eq_zero] at hv
    have hlease := (hv.2.1 x l hl).2
    simp only [hact, ne_eq, not_true_eq_false, if_false, ha, validateReceiverLease,
      andThen_eq_zero, corruptIf_eq_zero, not_or] at hlease
    rw [hsrc]
    exact (hasKeyGenerationLocked_eq_false.mp (by simpa using hlease.2.1.2.1)).1

theorem WF.validate_leaseEffects (h : WF s) (hch : ChildrenStored s) :
    validateMemoryLifecycleLeaseEffects s = 0 := by
  simp only [validateMemoryLifecycleLeaseEffects, range_eq_zero]
  intro x e he
  obtain ⟨htok, l, hl, hst, hok⟩ := h.effects.effect he
  simp only [hl, andThen_eq_zero, corruptIf_eq_zero]
  refine ⟨by simp [htok, hst], ?_⟩
  unfold EffectOk at hok
  cases hk : e.kind with
  | presign =>
    simp only [hk] at hok ⊢
    obtain ⟨h₁, h₂, -, -, h₅, h₆, p, hp, -⟩ := hok
    simp [h₁, h₂, h₅, h₆, FMap.mem_iff_lookup_ne_none, hp]
  | cutover =>
    simp only [hk] at hok ⊢
    obtain ⟨h₁, h₂, h₃, c, hc, hs, ht⟩ := hok
    simp [h₁, h₂, h₃, hc, hs, ht]
  | refreshFailed =>
    simp only [hk] at hok ⊢
    obtain ⟨h₁, h₂, -, -, d, hd, hs, hr⟩ := hok
    simp [h₁, h₂, hd, hs, hr]
  | childGeneration =>
    simp only [hk] at hok ⊢
    obtain ⟨h₁, h₂, -, h₄, h₅, h₆, h₇⟩ := hok
    obtain ⟨r, hr⟩ := hch.child he hk
    simp [h₁, h₂, h₄, h₅, h₆, h₇, FMap.mem_iff_lookup_ne_none, hr]
  | reshareReceiverGeneration =>
    simp only [hk] at hok ⊢
    obtain ⟨h₁, h₂, -, h₄, h₅, h₆, h₇, h₈, r, hr⟩ := hok
    simp [h₁, h₂, h₄, h₅, h₆, h₇, h₈, FMap.mem_iff_lookup_ne_none, hr]
  | retirement =>
    simp only [hk] at hok ⊢
    obtain ⟨h₁, h₂, -, h₄, r, hr, hret⟩ := hok
    obtain ⟨hb, hm⟩ := h.generations.retired hr hret
    simp [h₁, h₂, h₄, hr, hret, hb, hm]

/-- The validator looks for the generation of every child effect. -/
theorem ChildrenStored.of_validate (h : WF s) (hv : validateMemoryLifecycleLeaseEffects s = 0) :
    ChildrenStored s where
  child {x e} he hk := by
    obtain ⟨-, l, hl, -⟩ := h.effects.effect he
    simp only [validateMemoryLifecycleLeaseEffects, range_eq_zero] at hv
    have heff := hv x e he
    simp only [hl, hk, andThen_eq_zero, corruptIf_eq_zero, not_or, not_not] at heff
    obtain ⟨-, -, -, -, -, -, -, hmem⟩ := heff
    exact Finmap.mem_iff.mp hmem

theorem WF.validate_refreshDisabled (h : WF s) : validateMemoryLifecycleRefreshDisabled s = 0 := by
  simp only [validateMemoryLifecycleRefreshDisabled, range_eq_zero, andThen_eq_zero,
    corruptIf_eq_zero]
  intro k d hd
  obtain ⟨hkey, hid, hreason, ⟨hnone, y, hy, -⟩ | ⟨x, l, e, hx, -, -, he, hkind⟩⟩ :=
    h.disabled.record hd
  · have htomb : s.tombstonedLocked .session d.sessionID.toList = true :=
      decide_eq_true (Finmap.mem_iff.mpr ⟨y, hy⟩)
    simp [hkey, hid, hreason, hnone, htomb]
  · simp [hkey, hid, hreason, hx, he, hkind]

/-! ## Presigns and attempts -/

theorem WF.validate_storedPresign (h : WF s) {id : GoString} {p : StoredPresign}
    (hp : s.presigns.lookup id = some p) : validateStoredPresign s id p = 0 := by
  have hst := h.presigns.state hp
  unfold validateStoredPresign
  unfold PresignStateOk at hst
  cases hstate : p.state with
  | available =>
    simp only [hstate] at hst
    obtain ⟨hcur, hblob, -, hatt, hreason, hdig⟩ := hst
    simp [h.isCurrentLocked hcur, hblob, hatt, hreason, hdig]
  | claimed =>
    simp only [hstate] at hst
    obtain ⟨hcur, hblob, hmeta, hatt, hreason, a, ha, hb, hid, hab⟩ := hst
    simp [h.isCurrentLocked hcur, hblob, hmeta, hatt, hreason, ha, hb, hid, hab]
  | burned =>
    simp only [hstate] at hst
    obtain ⟨hblob, hmeta, hreason, hburned⟩ := hst
    simp only [andThen_eq_zero, corruptIf_eq_zero]
    refine ⟨by simp [hblob, hmeta, hreason], ?_⟩
    rintro ⟨hatt, hall⟩
    obtain ⟨a, ha, hb, hid, hterm⟩ := hburned hatt
    simp [ha, hb, hid, hterm] at hall

theorem WF.validate_presigns (h : WF s) : validateMemoryLifecyclePresigns s = 0 := by
  simp only [validateMemoryLifecyclePresigns, range_eq_zero, andThen_eq_zero, corruptIf_eq_zero]
  intro id p hp
  refine ⟨by simp [h.presigns.record hp], ?_, h.validate_storedPresign hp⟩
  rw [Bool.not_eq_true, hasConflictingPresignArtifactLocked_eq_false]
  intro id' p' hp' hne he
  exact hne (h.presigns.artifact hp' hp he)

theorem ProgressOk.validate {a : SignAttemptRecord} (h : ProgressOk a) :
    validateStoredAttemptProgress a = 0 := by
  obtain ⟨hd, hc, hpend, hclear, hdig, hmeta⟩ := h
  have hab : a.aborted = true → a.terminal = true := by
    intro hab
    simp [SignAttemptRecord.terminal, hab]
  simp only [validateStoredAttemptProgress, andThen_eq_zero, corruptIf_eq_zero]
  refine ⟨?_, ?_, ?_, ?_, hmeta⟩
  · have hd' : a.delivered = (a.delivery ≠ [] : Bool) := Bool.eq_iff_iff.mpr (by simpa using hd)
    have hc' : a.completed = (a.completion ≠ [] : Bool) := Bool.eq_iff_iff.mpr (by simpa using hc)
    exact not_or.mpr ⟨not_not.mpr hd', not_not.mpr hc'⟩
  · rintro ⟨hterm, -, hout⟩
    exact hpend (by simpa using hterm) hout
  · rintro ⟨hterm | haborted, hout⟩
    · exact hout (hclear hterm)
    · exact hout (hclear (hab haborted))
  · rintro ⟨hout, hne⟩
    exact hne (hdig hout)

theorem WF.validate_storedAttempt (h : WF s) {id : GoString} {a : SignAttemptRecord}
    (ha : s.attempts.lookup id = some a) : validateStoredAttempt s id a = 0 := by
  obtain ⟨hid, hbind, hint, hpid, hdig⟩ := h.attempts.record ha
  obtain ⟨x, l, hx, hl, hlb, hlk⟩ := h.attempts.lease ha
  obtain ⟨p, hp, hpb, hpa, habort, hlive⟩ := h.attempts.presign ha
  simp only [validateStoredAttempt, andThen_eq_zero, corruptIf_eq_zero]
  refine ⟨by simp [hid], by simp [hbind, hint, hpid, hdig], ?_, ?_, ?_, ?_,
    (h.attempts.progress ha).validate⟩
  · simp [sessionLease, hx, hl, hlb, hlk]
  · rintro ⟨hpend, hcur⟩
    simp [h.isCurrentLocked (h.attempts.pending ha (by simpa using hpend))] at hcur
  · simp [hp, hpb, hpa, hid]
  · split
    · next hab => simp [hp, habort hab]
    · next hab =>
      obtain ⟨hreason, hstate⟩ := hlive (by simpa using hab)
      rcases hstate with hst | ⟨hterm, hst⟩
      · simp [hreason, hp, hst]
      · simp [hreason, hp, hst, hterm]

theorem WF.validate_attempts (h : WF s) : validateMemoryLifecycleAttempts s = 0 := by
  simp only [validateMemoryLifecycleAttempts, range_eq_zero]
  intro id a ha
  exact h.validate_storedAttempt ha

/-! ## Cutovers -/

/-- The active fences are the indexed ones, one for each key. -/
theorem WF.activeCutovers_eq (h : WF s) : activeCutovers s = s.cutoverByKey.size := by
  have hidx : ∀ {x c}, s.cutoversByToken.lookup x = some c → c.state = .active →
      s.cutoverByKey.lookup c.fence.source.keyID = some x := by
    intro x c hc hact
    have hst := h.cutovers.state hc
    simp only [CutoverStateOk, hact] at hst
    rw [hst.1, (h.cutovers.record hc).1]
  refine FMap.count_eq_size (fun _ c => c.fence.source.keyID) ?_ ?_ ?_
  · intro x c hc hact
    exact Finmap.mem_iff.mpr ⟨x, hidx hc (of_decide_eq_true hact)⟩
  · intro x c y c' hc hact hc' hact' he
    have hx := hidx hc (of_decide_eq_true hact)
    have hy := hidx hc' (of_decide_eq_true hact')
    rw [show c.fence.source.keyID = c'.fence.source.keyID from he, hy] at hx
    exact (Option.some.inj hx).symm
  · intro k hk
    obtain ⟨x, hx⟩ := Finmap.mem_iff.mp hk
    obtain ⟨c, hc, hact, hkey⟩ := h.cutovers.index hx
    exact ⟨x, c, hc, decide_eq_true hact, hkey⟩

theorem WF.validate_storedCutover (h : WF s) {x : Nat} {c : StoredCutover}
    (hc : s.cutoversByToken.lookup x = some c) : validateStoredCutover s x c = 0 := by
  obtain ⟨htok, hnext, hfence⟩ := h.cutovers.record hc
  have hst := h.cutovers.state hc
  simp only [validateStoredCutover, andThen_eq_zero, corruptIf_eq_zero]
  refine ⟨by simp [htok, hnext, hfence], ?_⟩
  unfold CutoverStateOk at hst
  cases hstate : c.state with
  | active =>
    simp only [hstate] at hst ⊢
    obtain ⟨hidx, hf, hb, hm, hr⟩ := hst
    have htarget : c.fence.target ∉ s.generations := by
      intro hmem
      obtain ⟨r, hgen⟩ := Finmap.mem_iff.mp hmem
      exact hf.name _ r hgen rfl rfl
    have hidle := hasActiveLeaseForKeyLocked_eq_false.mpr fun y l hl => hf.idle hl
    have hquiet := hasNonTerminalAttemptLocked_eq_false.mpr fun i a ha => hf.quiet ha
    simp [hidx, htok, h.isCurrentLocked hf.current, htarget, hidle, hquiet, hb, hm, hr]
  | committed =>
    simp only [hstate] at hst ⊢
    obtain ⟨hb, hm, hr, ⟨src, hsrc, hret⟩, tgt, htgt, hdig⟩ := hst
    simp only [validateCommittedCutover, andThen_eq_zero, corruptIf_eq_zero]
    refine ⟨by simp [hb, hm, hr], by simp [hsrc, hret, FMap.mem_iff_lookup_ne_none, htgt], ?_⟩
    simpa [htgt] using hdig
  | aborted =>
    simp only [hstate] at hst ⊢
    simp [hst]

theorem WF.validate_cutovers (h : WF s) : validateMemoryLifecycleCutovers s = 0 := by
  simp only [validateMemoryLifecycleCutovers, andThen_eq_zero, range_eq_zero, corruptIf_eq_zero]
  refine ⟨fun x c hc => h.validate_storedCutover hc, ?_⟩
  simp [h.activeCutovers_eq]

/-- A well-formed store passes the load-time validator exactly when the children it
derived are stored with it and no tombstone has the digest of a receiver's target. -/
theorem WF.validates_iff (h : WF s) :
    Validates s ↔ ChildrenStored s ∧ ReceiverNamesFresh s := by
  simp only [Validates, validateMemoryLifecycleStateForKey, andThen_eq_zero, failIf_eq_zero,
    not_not]
  constructor
  · rintro ⟨-, -, hlease, heff, -⟩
    exact ⟨.of_validate h heff, .of_validate h hlease⟩
  · rintro ⟨hch, hfresh⟩
    exact ⟨trivial, h.validate_generations, h.validate_leases hfresh, h.validate_leaseEffects hch,
      h.validate_refreshDisabled, h.validate_presigns, h.validate_attempts, h.validate_cutovers,
      h.validate_tombstones⟩

end Tss.Lifecycle
