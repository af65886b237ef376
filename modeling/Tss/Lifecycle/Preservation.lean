import Tss.Lifecycle.Invariant
import Tss.Lifecycle.Operations

/-!
# The elementary changes keep the invariant

Every operation is one of a few elementary changes or several of them in
a row: install a generation, add a lease, finish one, record its effect,
add or burn a presign, claim it, fence, unfence, retire. Each lemma here
says that one such change leads from a well-formed store to a
well-formed later one (`Advances`). A composite operation passes through
well-formed stores only, so its own proof is a chain of these lemmas.
-/

namespace Tss.Lifecycle

open MemoryLifecycleStore

variable [Sha256] {s t u : MemoryLifecycleStore}

/-- `t` is a well-formed later state of `s`. -/
structure Advances (s t : MemoryLifecycleStore) : Prop where
  evolves : Evolves s t
  wf : WF t

theorem Advances.refl (h : WF s) : Advances s s := ⟨.refl s, h⟩

theorem Advances.next (h : Advances s t) (k : WF t → Advances t u) : Advances s u :=
  ⟨h.evolves.trans (k h.wf).evolves, (k h.wf).wf⟩

/-- The empty store is well formed: every clause is about a stored record. -/
theorem WF.new : WF newMemoryLifecycleStore := by
  refine ⟨⟨?_, ?_, ?_, ?_, ?_⟩, ⟨?_, ?_⟩, ⟨?_, ?_, ?_⟩, ⟨?_, ?_⟩, ⟨?_⟩, ⟨?_⟩,
    ⟨?_, ?_, ?_⟩, ⟨?_, ?_, ?_, ?_, ?_⟩, ⟨?_, ?_, ?_⟩, ⟨?_⟩⟩ <;> intros <;>
    simp_all [newMemoryLifecycleStore]

/-! ## The changes -/

namespace MemoryLifecycleStore

variable (s : MemoryLifecycleStore)

/-- A lease under its token and session, with the anchors as they then are. -/
def addLease (l : RunLease) (receivers : FMap Nat ReshareReceiverAnchor) : MemoryLifecycleStore :=
  { s with
    leasesByToken := s.leasesByToken.insert l.token l
    leaseBySession := s.leaseBySession.insert l.sessionID l.token
    reshareReceivers := receivers
    nextLeaseToken := l.token }

/-- The lease `l` stored at `x` ends in state `st`. -/
def finishLease (x : Nat) (l : RunLease) (st : RunLeaseState)
    (receivers : FMap Nat ReshareReceiverAnchor) : MemoryLifecycleStore :=
  { s with
    leasesByToken := s.leasesByToken.insert x { l with state := st }
    reshareReceivers := receivers }

def addEffect (x : Nat) (e : StoredLeaseEffect) : MemoryLifecycleStore :=
  { s with leaseEffects := s.leaseEffects.insert x e }

def disableRefresh (d : RefreshDisabledRecord) (x : Nat) : MemoryLifecycleStore :=
  { s with
    refreshDisabled := s.refreshDisabled.insert d.keyID d
    leaseEffects := s.leaseEffects.insert x
      { leaseToken := x, kind := .refreshFailed, reason := d.reason } }

def putPresign (id : GoString) (p : StoredPresign) : MemoryLifecycleStore :=
  { s with presigns := s.presigns.insert id p }

/-- A cutover record is rewritten and its key's fence index set or cleared. -/
def putCutover (x : Nat) (c : StoredCutover) (fences : FMap GoString Nat) :
    MemoryLifecycleStore :=
  { s with cutoversByToken := s.cutoversByToken.insert x c, cutoverByKey := fences }

/-- The current generation `b` of its key is retired, and the presigns of its epoch burned. -/
def retireCurrent (b : GenerationBinding) (r : GenerationRecord) : MemoryLifecycleStore :=
  { s with
    generations := s.generations.insert b { r with status := .retired, blob := [], metadata := [] }
    current := s.current.erase b.keyID
    presigns := (s.burnEpochPresignsLocked b.keyID b.epochID).presigns }

def putAttempt (id : GoString) (a : SignAttemptRecord) : MemoryLifecycleStore :=
  { s with attempts := s.attempts.insert id a }

end MemoryLifecycleStore

/-! ## Facts about keys -/

variable {x : Nat} {l : RunLease} {b : GenerationBinding}

/-- On a key with a current generation every active lease runs on it. -/
theorem WF.active_on_current (h : WF s) (hl : s.leasesByToken.lookup x = some l)
    (hact : l.state = .active) (hcur : s.current.lookup l.binding.keyID = some b) :
    l.binding = b ∧ x ∉ s.reshareReceivers := by
  have hrecv : x ∉ s.reshareReceivers := by
    rw [FMap.notMem_iff_lookup]
    cases ha : s.reshareReceivers.lookup x with
    | none => rfl
    | some a =>
      obtain ⟨-, l', hl', -, -, hsrc, -⟩ := h.receivers.anchor ha
      obtain rfl : l = l' := Option.some.inj (hl.symm.trans hl')
      have hvac := (h.receivers.vacant ha).1
      rw [hsrc, hcur] at hvac
      cases hvac
  have hkind : l.kind ≠ .keygen := by
    intro hk
    obtain ⟨hb, r, hr, -⟩ := h.generations.index hcur
    exact h.active.keygen hl hact hrecv hk b r hr hb
  have hbound := h.active.bound hl hact hrecv hkind
  exact ⟨Option.some.inj (hbound.symm.trans hcur), hrecv⟩

/-- A fenced key has a current generation. -/
theorem WF.unfenced_of_vacant (h : WF s) {k : GoString} (hcur : s.current.lookup k = none) :
    s.cutoverByKey.lookup k = none := by
  cases hf : s.cutoverByKey.lookup k with
  | none => rfl
  | some x =>
    obtain ⟨c, hc, hact, rfl⟩ := h.cutovers.index hf
    have hst := h.cutovers.state hc
    rw [CutoverStateOk, hact] at hst
    rw [hst.2.1.current] at hcur
    cases hcur

variable {c : StoredCutover}

theorem WF.fence_of_active (h : WF s) (hc : s.cutoversByToken.lookup x = some c)
    (hact : c.state = .active) :
    s.cutoverByKey.lookup c.fence.source.keyID = some x ∧ Fenced s c.fence := by
  have hst := h.cutovers.state hc
  rw [CutoverStateOk, hact] at hst
  rw [(h.cutovers.record hc).1] at hst
  exact ⟨hst.1, hst.2.1⟩

theorem WF.fence_keyID (h : WF s) (hc : s.cutoversByToken.lookup x = some c) :
    c.fence.target.keyID = c.fence.source.keyID := by
  have hv := (validateCutoverFence_eq_none.mp (h.cutovers.record hc).2.2).2
  exact (validateCutoverBindings_eq_none.mp hv).2.2.1.symm

/-! ## Installing a generation -/

omit [Sha256] in
theorem GenerationsOk.install {generations : FMap GenerationBinding GenerationRecord}
    {current : FMap GoString GenerationBinding} (h : GenerationsOk generations current)
    {r : GenerationRecord} (hv : r.binding.validate = none) (hst : r.status = .current)
    (hblob : r.blob ≠ []) (hcur : current.lookup r.binding.keyID = none)
    (hname : NameFree generations r.binding.keyID r.binding.keyGeneration) :
    GenerationsOk (generations.insert r.binding r) (current.insert r.binding.keyID r.binding) where
  binding := fun hx => FMap.insert_cases hx ⟨hv, rfl⟩ h.binding
  live := by
    refine fun hx => FMap.insert_cases hx (fun _ => ⟨Finmap.lookup_insert _, hblob⟩)
      fun hb hlive => ?_
    obtain ⟨hidx, hne⟩ := h.live hb hlive
    exact ⟨FMap.lookup_insert_of_none hcur hidx, hne⟩
  retired := fun hx => FMap.insert_cases hx (fun hret => nomatch hst.symm.trans hret) h.retired
  index := by
    refine fun hx => FMap.insert_cases hx ⟨rfl, r, Finmap.lookup_insert _, hst⟩ fun hk => ?_
    obtain ⟨rfl, r', hr', hlive⟩ := h.index hk
    refine ⟨rfl, r', FMap.lookup_insert_ne ?_ hr', hlive⟩
    rintro rfl
    cases hcur.symm.trans hk
  name hb hb' hkey hgen := by
    rcases FMap.lookup_insert_eq_some.mp hb with ⟨rfl, rfl⟩ | ⟨-, hb⟩ <;>
      rcases FMap.lookup_insert_eq_some.mp hb' with ⟨rfl, rfl⟩ | ⟨-, hb'⟩
    · rfl
    · exact absurd hgen.symm (hname _ _ hb' hkey.symm)
    · exact absurd hgen (hname _ _ hb hkey)
    · exact h.name hb hb' hkey hgen

omit [Sha256] in
theorem NameFree.insert {generations : FMap GenerationBinding GenerationRecord}
    {keyID keyGeneration : GoString} (h : NameFree generations keyID keyGeneration)
    (r : GenerationRecord) (hb : b.keyID = keyID → b.keyGeneration ≠ keyGeneration) :
    NameFree (generations.insert b r) keyID keyGeneration := by
  intro b' r' hr'
  exact FMap.insert_cases hr' hb (h _ _)

/-- A new generation on a key that has no current one and no active lease. -/
theorem WF.install (h : WF s) {r : GenerationRecord} (hv : r.binding.validate = none)
    (hst : r.status = .current) (hblob : r.blob ≠ [])
    (hcur : s.current.lookup r.binding.keyID = none)
    (hname : NameFree s.generations r.binding.keyID r.binding.keyGeneration)
    (hidle : ∀ {x l}, s.leasesByToken.lookup x = some l → l.binding.keyID = r.binding.keyID →
      l.state ≠ .active) : Advances s (s.installGeneration r) := by
  have hcur' : ∀ {k b}, s.current.lookup k = some b →
      (s.current.insert r.binding.keyID r.binding).lookup k = some b :=
    FMap.lookup_insert_of_none hcur
  have hev : Evolves s (s.installGeneration r) :=
    { Evolves.refl s with
      generation := fun {b q} hb => by
        refine ⟨q, FMap.lookup_insert_ne ?_ hb, .inl rfl⟩
        rintro rfl
        exact hname _ _ hb rfl rfl
      newEffect := .inl }
  refine ⟨hev, { h with
    generations := h.generations.install hv hst hblob hcur hname
    active := ⟨?_, ?_, h.active.exclusive⟩
    receivers := ⟨h.receivers.anchor, ?_⟩
    effects := h.effects.mono hev rfl
    disabled := h.disabled.mono hev rfl fun _ hnone _ => hnone
    presigns := h.presigns.mono hcur' rfl rfl
    attempts := h.attempts.mono hev hcur' rfl rfl
    cutovers := h.cutovers.mono hev rfl rfl ?_ }⟩
  · intro x l hl hact hrecv hk b q
    exact fun hb => FMap.insert_cases hb (fun hkey => hidle hl hkey.symm hact)
      (h.active.keygen hl hact hrecv hk _ _)
  · intro x l hl hact hrecv hk
    exact hcur' (h.active.bound hl hact hrecv hk)
  · intro x a ha
    obtain ⟨hvac, hfree, htomb⟩ := h.receivers.vacant ha
    obtain ⟨-, l, hl, hact, -, hsrc, -⟩ := h.receivers.anchor ha
    have hkey : a.source.keyID ≠ r.binding.keyID := fun hkey => hidle hl (hsrc ▸ hkey) hact
    refine ⟨(Finmap.lookup_insert_of_ne _ hkey).trans hvac, ?_, htomb⟩
    exact NameFree.insert hfree r fun hk => absurd hk.symm hkey
  · intro x c hc hact hf
    have hkey : c.fence.source.keyID ≠ r.binding.keyID := by
      intro hkey
      cases hcur.symm.trans (hkey ▸ hf.current)
    refine { hf with current := hcur' hf.current, name := hf.name.insert r fun hk => ?_ }
    exact absurd ((h.fence_keyID hc).symm.trans hk.symm) hkey

/-! ## Leases -/

omit [Sha256] in
theorem LeasesOk.add {leases : FMap Nat RunLease} {sessions : FMap SessionID Nat} {next : Nat}
    (h : LeasesOk leases sessions next) (htok : l.token = next + 1) (hact : l.state = .active)
    (hval : validateRunLease l = none) (hsess : sessions.lookup l.sessionID = none) :
    LeasesOk (leases.insert l.token l) (sessions.insert l.sessionID l.token) l.token where
  lease := by
    refine fun hx => FMap.insert_cases hx
      ⟨rfl, hval, Nat.le_refl _, Finmap.lookup_insert _, hact ▸ trivial⟩ fun hx => ?_
    obtain ⟨h₁, h₂, h₃, h₄, h₅⟩ := h.lease hx
    exact ⟨h₁, h₂, by omega, FMap.lookup_insert_of_none hsess h₄, h₅⟩
  session := by
    refine fun hx => FMap.insert_cases hx ⟨l, Finmap.lookup_insert _, rfl⟩ fun hi => ?_
    obtain ⟨l', hl', hs⟩ := h.session hi
    refine ⟨l', FMap.lookup_insert_ne ?_ hl', hs⟩
    have := (h.lease hl').2.2.1
    omega

omit [Sha256] in
theorem LeasesOk.fresh {leases : FMap Nat RunLease} {sessions : FMap SessionID Nat} {next : Nat}
    (h : LeasesOk leases sessions next) (hx : next < x) : leases.lookup x = none := by
  cases hl : leases.lookup x with
  | none => rfl
  | some l =>
    have := (h.lease hl).2.2.1
    omega

/-- A new lease, possibly with a receiver anchor. The hypotheses are what admission
checks: an unused session, an unfenced key, no incompatible lease. -/
theorem WF.addLease (h : WF s) (receivers : FMap Nat ReshareReceiverAnchor)
    (htok : l.token = s.nextLeaseToken + 1) (hact : l.state = .active)
    (hval : validateRunLease l = none) (hsess : s.leaseBySession.lookup l.sessionID = none)
    (htomb : s.tombstonedLocked .session l.sessionID.toList = false)
    (hfen : s.cutoverByKey.lookup l.binding.keyID = none) (hexcl : ∀ {x l'}, s.leasesByToken.lookup
    x = some l' → l'.state = .active → l'.binding.keyID = l.binding.keyID → exclusiveLeaseRunKind
    l.kind = false ∧ exclusiveLeaseRunKind l'.kind = false) (hkeygen : l.token ∉ receivers → l.kind
    = .keygen → ∀ b r, s.generations.lookup b = some r → b.keyID ≠ l.binding.keyID) (hbound :
    l.token ∉ receivers → l.kind ≠ .keygen → s.current.lookup l.binding.keyID = some l.binding)
    (hold : ∀ x, x ≠ l.token → receivers.lookup x = s.reshareReceivers.lookup x) (hnew : ∀ a,
    receivers.lookup l.token = some a → a.validate = none ∧ l.kind = .reshare ∧ a.source = l.binding
    ∧ a.sessionID = l.sessionID ∧ s.current.lookup a.source.keyID = none ∧ s.hasKeyGenerationLocked
    a.source.keyID a.targetKeyGeneration = false) :
    Advances s (s.addLease l receivers) := by
  have hfresh : s.leasesByToken.lookup l.token = none := h.leases.fresh (by omega)
  have hne : ∀ {x l'}, s.leasesByToken.lookup x = some l' → x ≠ l.token := by
    rintro x l' hx rfl
    cases hfresh.symm.trans hx
  have hmem : ∀ {x l'}, s.leasesByToken.lookup x = some l' → x ∉ receivers →
      x ∉ s.reshareReceivers := by
    intro x l' hx hnot
    rw [FMap.notMem_iff_lookup] at hnot ⊢
    rwa [hold x (hne hx)] at hnot
  have hev : Evolves s (s.addLease l receivers) :=
    { Evolves.refl s with
      lease := fun {x l'} hx => ⟨l', FMap.lookup_insert_of_none hfresh hx, .inl rfl⟩
      session := FMap.lookup_insert_of_none hsess
      nextLease := by
        change s.nextLeaseToken ≤ l.token
        omega
      newLease := fun {x l'} hx hle => by
        rcases FMap.lookup_insert_eq_some.mp hx with ⟨rfl, -⟩ | ⟨-, hx⟩
        · omega
        · exact ⟨l', hx⟩ }
  refine ⟨hev, { h with
    leases := h.leases.add htok hact hval hsess
    active := ⟨?_, ?_, ?_⟩
    receivers := ⟨?_, ?_⟩
    effects := h.effects.mono hev rfl
    disabled := h.disabled.mono hev rfl ?_
    presigns := h.presigns.mono id rfl rfl
    attempts := h.attempts.mono hev id rfl rfl
    cutovers := h.cutovers.mono hev rfl rfl ?_ }⟩
  · exact fun hx => FMap.insert_cases hx (fun _ => hkeygen) fun hx hact' hrecv =>
      h.active.keygen hx hact' (hmem hx hrecv)
  · exact fun hx => FMap.insert_cases hx (fun _ => hbound) fun hx hact' hrecv =>
      h.active.bound hx hact' (hmem hx hrecv)
  · intro x l₁ y l₂ hx hact₁ hex hy hact₂ hkey
    rcases FMap.lookup_insert_eq_some.mp hx with ⟨rfl, rfl⟩ | ⟨-, hx⟩ <;>
      rcases FMap.lookup_insert_eq_some.mp hy with ⟨rfl, rfl⟩ | ⟨-, hy⟩
    · rfl
    · cases hex.symm.trans (hexcl hy hact₂ hkey).1
    · cases hex.symm.trans (hexcl hx hact₁ hkey.symm).2
    · exact h.active.exclusive hx hact₁ hex hy hact₂ hkey
  · intro x a ha
    by_cases hx : x = l.token
    · subst hx
      obtain ⟨h₁, h₂, h₃, h₄, -⟩ := hnew a ha
      exact ⟨h₁, l, Finmap.lookup_insert _, hact, h₂, h₃, h₄⟩
    · obtain ⟨h₁, l', hl', hrest⟩ := h.receivers.anchor ((hold x hx).symm.trans ha)
      exact ⟨h₁, l', FMap.lookup_insert_ne hx hl', hrest⟩
  · intro x a ha
    by_cases hx : x = l.token
    · subst hx
      obtain ⟨-, -, -, -, hvac, hname⟩ := hnew a ha
      obtain ⟨hnone, hfree⟩ := hasKeyGenerationLocked_eq_false.mp hname
      refine ⟨hvac, hfree, fun q hq => ?_⟩
      exact absurd (Finmap.mem_iff.mpr ⟨q, hq⟩) ((tombstonedLocked_eq_false s).mp hnone)
    · exact h.receivers.vacant ((hold x hx).symm.trans ha)
  · intro i hnone htomb'
    refine (Finmap.lookup_insert_of_ne _ ?_).trans hnone
    rintro rfl
    cases htomb.symm.trans htomb'
  · intro x c hc hcact hf
    refine { hf with idle := fun hx => FMap.insert_cases hx (fun hkey => ?_) hf.idle }
    cases hfen.symm.trans (hkey ▸ (h.fence_of_active hc hcact).1)

/-- The states a run ends in. -/
def RunLeaseState.terminal : RunLeaseState → Prop
  | .completed | .aborted => True
  | _ => False

omit [Sha256] in
theorem RunLeaseState.terminal.ne_active {st : RunLeaseState} (h : st.terminal) :
    st ≠ .active := by
  rintro rfl
  exact h

omit [Sha256] in
theorem LeasesOk.finish {leases : FMap Nat RunLease} {sessions : FMap SessionID Nat} {next : Nat}
    (h : LeasesOk leases sessions next) (hl : leases.lookup x = some l) {st : RunLeaseState}
    (hst : st.terminal) :
    LeasesOk (leases.insert x { l with state := st }) sessions next where
  lease := by
    refine fun hx => FMap.insert_cases hx ?_ h.lease
    obtain ⟨h₁, h₂, h₃, h₄, -⟩ := h.lease hl
    obtain ⟨v₁, -, v₃⟩ := validateRunLease_eq_none.mp h₂
    refine ⟨h₁, validateRunLease_eq_none.mpr ⟨v₁, ?_, v₃⟩, h₃, h₄, ?_⟩
    · rintro rfl
      exact hst
    · cases st <;> trivial
  session hi := by
    obtain ⟨l', hl', hs⟩ := h.session hi
    rw [← hs]
    exact FMap.entry_cases hl' hl ⟨_, Finmap.lookup_insert _, rfl⟩ fun hne =>
      ⟨_, FMap.lookup_insert_ne hne hl', rfl⟩

/-- An active lease ends; if it had a receiver anchor, that goes too. -/
theorem WF.finish (h : WF s) (st : RunLeaseState) (receivers : FMap Nat ReshareReceiverAnchor)
    (hl : s.leasesByToken.lookup x = some l) (hact : l.state = .active) (hst : st.terminal)
    (hgone : receivers.lookup x = none)
    (hold : ∀ y, y ≠ x → receivers.lookup y = s.reshareReceivers.lookup y) :
    Advances s (s.finishLease x l st receivers) := by
  have hback : ∀ {y l'}, (s.leasesByToken.insert x { l with state := st }).lookup y = some l' →
      l'.state = .active → y ≠ x ∧ s.leasesByToken.lookup y = some l' := by
    intro y l' hy hact'
    rcases FMap.lookup_insert_eq_some.mp hy with ⟨rfl, rfl⟩ | hy
    · exact absurd hact' hst.ne_active
    · exact hy
  have hmem : ∀ {y}, y ≠ x → y ∉ receivers → y ∉ s.reshareReceivers := by
    intro y hy hnot
    rw [FMap.notMem_iff_lookup] at hnot ⊢
    rwa [hold y hy] at hnot
  have hanchor : ∀ {y a}, receivers.lookup y = some a → y ≠ x ∧
      s.reshareReceivers.lookup y = some a := by
    intro y a ha
    by_cases hy : y = x
    · cases hgone.symm.trans (hy ▸ ha)
    · exact ⟨hy, (hold y hy).symm.trans ha⟩
  have hev : Evolves s (s.finishLease x l st receivers) :=
    { Evolves.refl s with
      lease := fun hx => FMap.entry_cases hx hl
        ⟨_, Finmap.lookup_insert _, .inr ⟨hact, st, hst.ne_active, rfl⟩⟩ fun hne =>
        ⟨_, FMap.lookup_insert_ne hne hx, .inl rfl⟩
      newLease := fun hx => FMap.insert_cases hx (fun _ => ⟨l, hl⟩) fun hy _ => ⟨_, hy⟩ }
  refine ⟨hev, { h with
    leases := h.leases.finish hl hst
    active := ⟨?_, ?_, ?_⟩
    receivers := ⟨?_, ?_⟩
    effects := h.effects.mono hev rfl
    disabled := h.disabled.mono hev rfl fun _ hnone _ => hnone
    presigns := h.presigns.mono id rfl rfl
    attempts := h.attempts.mono hev id rfl rfl
    cutovers := h.cutovers.mono hev rfl rfl ?_ }⟩
  · intro y l' hy hact' hrecv hk
    obtain ⟨hyx, hy⟩ := hback hy hact'
    exact h.active.keygen hy hact' (hmem hyx hrecv) hk
  · intro y l' hy hact' hrecv hk
    obtain ⟨hyx, hy⟩ := hback hy hact'
    exact h.active.bound hy hact' (hmem hyx hrecv) hk
  · intro y l₁ z l₂ hy hact₁ hex hz hact₂ hkey
    exact h.active.exclusive (hback hy hact₁).2 hact₁ hex (hback hz hact₂).2 hact₂ hkey
  · intro y a ha
    obtain ⟨hyx, ha⟩ := hanchor ha
    obtain ⟨h₁, l', hl', hrest⟩ := h.receivers.anchor ha
    exact ⟨h₁, l', FMap.lookup_insert_ne hyx hl', hrest⟩
  · intro y a ha
    exact h.receivers.vacant (hanchor ha).2
  · intro y c _ _ hf
    exact { hf with idle := fun hz hkey hact' => hf.idle (hback hz hact').2 hkey hact' }

/-! ## Lease effects -/

/-- A terminal lease records what it did. -/
theorem WF.addEffect (h : WF s) {e : StoredLeaseEffect} (hnone : s.leaseEffects.lookup x = none)
    (hl : s.leasesByToken.lookup x = some l) (hst : l.state ≠ .active) (htok : e.leaseToken = x)
    (hok : EffectOk s l e)
    (hchild : e.kind = .childGeneration → ∃ r, s.generations.lookup e.target = some r) :
    Advances s (s.addEffect x e) := by
  have hev : Evolves s (s.addEffect x e) :=
    { Evolves.refl s with
      effect := FMap.lookup_insert_of_none hnone
      newEffect := fun hx => FMap.insert_cases hx (.inr hchild) .inl }
  refine ⟨hev, { h with
    receivers := ⟨h.receivers.anchor, h.receivers.vacant⟩
    effects := ⟨fun hx => FMap.insert_cases hx ⟨htok, l, hl, hst, hok.mono hev⟩ fun {y e'} hy => ?_⟩
    disabled := h.disabled.mono hev rfl fun _ hnone _ => hnone
    presigns := h.presigns.mono id rfl rfl
    attempts := h.attempts.mono hev id rfl rfl
    cutovers := h.cutovers.mono hev rfl rfl fun _ _ hf => { hf with } }⟩
  obtain ⟨h₁, l', hl', hst', hok'⟩ := h.effects.effect hy
  exact ⟨h₁, l', hl', hst', hok'.mono hev⟩

/-- A failed refresh disables its key. Marker and effect refer to each other, so
they are one change. -/
theorem WF.disableRefresh (h : WF s) {d : RefreshDisabledRecord}
    (hnone : s.leaseEffects.lookup x = none) (hdis : s.refreshDisabled.lookup d.keyID = none)
    (hl : s.leasesByToken.lookup x = some l) (hst : l.state = .aborted) (hkind : l.kind = .refresh)
    (hkey : d.keyID = l.binding.keyID) (hsess : d.sessionID = l.sessionID)
    (hreason : validateLifecycleReason d.reason = none) :
    Advances s (s.disableRefresh d x) := by
  have hev : Evolves s (s.disableRefresh d x) :=
    { Evolves.refl s with
      effect := FMap.lookup_insert_of_none hnone
      disabled := FMap.lookup_insert_of_none hdis
      newEffect := fun hx => FMap.insert_cases hx (.inr fun hk => nomatch hk) .inl }
  obtain ⟨-, hval, -, hidx, -⟩ := h.leases.lease hl
  refine ⟨hev, { h with
    receivers := ⟨h.receivers.anchor, h.receivers.vacant⟩
    effects := ⟨fun hx => FMap.insert_cases hx ?_ fun {y e'} hy => ?_⟩
    disabled := ⟨fun hx => FMap.insert_cases hx ?_ fun {k d'} hk => ?_⟩
    presigns := h.presigns.mono id rfl rfl
    attempts := h.attempts.mono hev id rfl rfl
    cutovers := h.cutovers.mono hev rfl rfl fun _ _ hf => { hf with } }⟩
  · refine ⟨rfl, l, hl, by simp [hst], hkind, hst, rfl, rfl, d, ?_, hsess, rfl⟩
    rw [← hkey]
    exact Finmap.lookup_insert _
  · obtain ⟨h₁, l', hl', hst', hok'⟩ := h.effects.effect hy
    exact ⟨h₁, l', hl', hst', hok'.mono hev⟩
  · refine ⟨rfl, ?_, hreason, .inr ⟨x, l, _, ?_, hl, hkey.symm, Finmap.lookup_insert _, rfl⟩⟩
    · rw [hsess]
      exact (validateRunLease_eq_none.mp hval).2.2.2.2
    · rw [hsess]
      exact hidx
  · obtain ⟨h₁, h₂, h₃, hor⟩ := h.disabled.record hk
    refine ⟨h₁, h₂, h₃, hor.imp id ?_⟩
    rintro ⟨y, l', e', hy, hl', hkey', he', hk'⟩
    exact ⟨y, l', e', hy, hl', hkey', hev.effect he', hk'⟩

/-! ## Presigns and attempts -/

/-- A change of attempts and presigns only. Besides the two families themselves,
only the fences look at them: a pending attempt may not appear on a fenced key. -/
theorem WF.signing (h : WF s) {attempts : FMap GoString SignAttemptRecord}
    {presigns : FMap GoString StoredPresign}
    (hev : Evolves s { s with attempts := attempts, presigns := presigns })
    (hp : PresignsOk { s with attempts := attempts, presigns := presigns })
    (ha : AttemptsOk { s with attempts := attempts, presigns := presigns })
    (hquiet : ∀ {i a}, attempts.lookup i = some a → a.terminal = false →
      s.cutoverByKey.lookup a.binding.keyID = none ∨
        ∃ a', s.attempts.lookup i = some a' ∧ a'.binding = a.binding ∧ a'.terminal = false) :
    Advances s { s with attempts := attempts, presigns := presigns } := by
  refine ⟨hev, { h with
    receivers := ⟨h.receivers.anchor, h.receivers.vacant⟩
    effects := h.effects.mono hev rfl
    disabled := h.disabled.mono hev rfl fun _ hnone _ => hnone
    presigns := hp
    attempts := ha
    cutovers := h.cutovers.mono hev rfl rfl fun {x c} hc hact hf =>
      { hf with quiet := fun {i a} hi hsrc => ?_ } }⟩
  by_contra hterm
  rcases hquiet hi (by simpa using hterm) with hfen | ⟨a', ha', hb, hpend⟩
  · cases hfen.symm.trans (hsrc ▸ (h.fence_of_active hc hact).1)
  · cases hpend.symm.trans (hf.quiet ha' (hb.trans hsrc))

variable {id : GoString} {p : StoredPresign}

/-- A new available presign. -/
theorem WF.addPresign (h : WF s) (hnone : s.presigns.lookup id = none)
    (hid : validateLifecycleIdentifier id = none) (hval : p.binding.validate = none)
    (hok : PresignStateOk s id p) (hav : p.state = .available)
    (huniq : ∀ {id' p'}, s.presigns.lookup id' = some p' → p'.artifactDigest ≠ p.artifactDigest) :
    Advances s (s.putPresign id p) := by
  have hev : Evolves s (s.putPresign id p) :=
    { Evolves.refl s with
      presign := fun hp' => ⟨_, FMap.lookup_insert_of_none hnone hp', rfl, rfl, fun _ => rfl⟩ }
  have hdigest : p.artifactDigest.length = sha256Size := by
    rw [PresignStateOk, hav] at hok
    rw [hok.2.2.2.2.2, length_sha256]
  refine h.signing hev ⟨fun hx => FMap.insert_cases hx ⟨hid, hval, hdigest⟩ h.presigns.record,
    fun hx => FMap.insert_cases hx hok h.presigns.state, ?_⟩
    ⟨h.attempts.record, h.attempts.progress, h.attempts.lease_mono hev, h.attempts.pending,
      fun hi => ?_⟩ fun hi hterm => .inr ⟨_, hi, rfl, hterm⟩
  · intro id₁ p₁ id₂ p₂ hp₁ hp₂ hd
    rcases FMap.lookup_insert_eq_some.mp hp₁ with ⟨rfl, rfl⟩ | ⟨-, hq₁⟩ <;>
      rcases FMap.lookup_insert_eq_some.mp hp₂ with ⟨rfl, rfl⟩ | ⟨-, hq₂⟩
    · rfl
    · exact absurd hd.symm (huniq hq₂)
    · exact absurd hd (huniq hq₁)
    · exact h.presigns.artifact hq₁ hq₂ hd
  · obtain ⟨p', hp', hrest⟩ := h.attempts.presign hi
    exact ⟨p', FMap.lookup_insert_of_none hnone hp', hrest⟩

omit [Sha256] in
/-- The presign stored under `id` moves on: identity and digest stay, and it does
not become available. -/
theorem evolves_putPresign (p' : StoredPresign) (attempts : FMap GoString SignAttemptRecord)
    (hp : s.presigns.lookup id = some p) (hb : p'.binding = p.binding)
    (hd : p'.artifactDigest = p.artifactDigest) (hst : p'.state ≠ .available) (hatt : ∀ {i a},
    s.attempts.lookup i = some a → ∃ a', attempts.lookup i = some a' ∧ a'.binding = a.binding ∧
    a'.presignID = a.presignID ∧ a'.intent = a.intent ∧ a'.outboxDigest = a.outboxDigest) :
    Evolves s { s with attempts := attempts, presigns := s.presigns.insert id p' } :=
  { Evolves.refl s with
    presign := fun hx => FMap.entry_cases hx hp
      ⟨_, Finmap.lookup_insert _, hb, hd, fun hav => absurd hav hst⟩ fun hne =>
      ⟨_, FMap.lookup_insert_ne hne hx, rfl, rfl, fun _ => rfl⟩
    attempt := hatt }

/-- Artifact digests stay unique when a presign keeps its own. -/
theorem PresignsOk.artifact_insert (h : PresignsOk s) {p' : StoredPresign}
    (hp : s.presigns.lookup id = some p) (hd : p'.artifactDigest = p.artifactDigest)
    {i j : GoString} {q r : StoredPresign} (hq : (s.presigns.insert id p').lookup i = some q)
    (hr : (s.presigns.insert id p').lookup j = some r) (heq : q.artifactDigest = r.artifactDigest) :
    i = j := by
  rcases FMap.lookup_insert_eq_some.mp hq with ⟨rfl, rfl⟩ | ⟨-, hq'⟩ <;>
    rcases FMap.lookup_insert_eq_some.mp hr with ⟨rfl, rfl⟩ | ⟨-, hr'⟩
  · rfl
  · exact h.artifact hp hr' (hd.symm.trans heq)
  · exact h.artifact hq' hp (heq.trans hd)
  · exact h.artifact hq' hr' heq

theorem PresignsOk.record_insert (h : PresignsOk s) {p' : StoredPresign}
    (hp : s.presigns.lookup id = some p) (hb : p'.binding = p.binding)
    (hd : p'.artifactDigest = p.artifactDigest) {i : GoString} {q : StoredPresign} :
    (s.presigns.insert id p').lookup i = some q → validateLifecycleIdentifier i = none ∧
      q.binding.validate = none ∧ q.artifactDigest.length = sha256Size := by
  refine fun hx => FMap.insert_cases hx ?_ h.record
  rw [hb, hd]
  exact h.record hp

variable {a : SignAttemptRecord}

omit [Sha256] in
/-- The presign of an attempt is claimed or burned. -/
theorem AttemptPresignOk.not_available (h : AttemptPresignOk a p) : p.state ≠ .available := by
  intro hav
  cases hab : a.aborted with
  | true => simpa [hav] using (h.2.2.1 hab).1
  | false => simpa [hav] using (h.2.2.2 hab).2

/-- An available presign is burned outside any attempt. -/
theorem WF.burn (h : WF s) {reason : GoString} (hp : s.presigns.lookup id = some p)
    (hav : p.state = .available) (hreason : validateLifecycleReason reason = none) :
    Advances s (s.putPresign id (burnPresignRecord reason p)) := by
  have hst := h.presigns.state hp
  rw [PresignStateOk, hav] at hst
  have hev := evolves_putPresign (burnPresignRecord reason p) s.attempts hp rfl rfl
    (by simp [burnPresignRecord]) fun hi => ⟨_, hi, rfl, rfl, rfl, rfl⟩
  refine h.signing hev ⟨h.presigns.record_insert hp (by rfl) (by rfl),
    fun hx => FMap.insert_cases hx ⟨rfl, rfl, hreason, fun hne => absurd hst.2.2.2.1 hne⟩
      h.presigns.state, h.presigns.artifact_insert hp (by rfl)⟩
    ⟨h.attempts.record, h.attempts.progress, h.attempts.lease_mono hev, h.attempts.pending,
      fun hi => ?_⟩ fun hi hterm => .inr ⟨_, hi, rfl, hterm⟩
  obtain ⟨p', hp', hok⟩ := h.attempts.presign hi
  refine ⟨p', FMap.lookup_insert_ne ?_ hp', hok⟩
  intro hid
  obtain rfl : p = p' := Option.some.inj (hp.symm.trans (hid ▸ hp'))
  exact hok.not_available hav

/-- A new attempt claims an available presign. -/
theorem WF.claim (h : WF s) {i : GoString} (hp : s.presigns.lookup id = some p)
    (hav : p.state = .available) (hnone : s.attempts.lookup i = none) (hi : a.intent.attemptID = i)
    (hval : a.intent.validate = none) (hb : a.binding = p.binding) (hid : a.presignID = id)
    (hlen : a.outboxDigest.length = sha256Size) (hprog : ProgressOk a) (hpend : a.terminal = false)
    (hreason : a.abortReason = []) (hlease : ∃ x l, s.leaseBySession.lookup a.intent.sessionID =
    some x ∧ s.leasesByToken.lookup x = some l ∧ l.binding = a.binding ∧ l.kind = .sign)
    (hfen : s.cutoverByKey.lookup a.binding.keyID = none) :
    Advances s ((s.putAttempt i a).putPresign id
      { p with state := .claimed, attemptID := i, blob := [], metadata := [] }) := by
  have hst := h.presigns.state hp
  rw [PresignStateOk, hav] at hst
  obtain ⟨hidok, hbok, -⟩ := h.presigns.record hp
  have hab : a.aborted = false := by
    simpa using (Bool.or_eq_false_iff.mp hpend).1
  have hine : i ≠ [] := by
    rw [← hi]
    exact validateLifecycleText_ne_nil (SignAttemptIntent.validate_attemptID hval)
  have hold : ∀ {j a'}, s.attempts.lookup j = some a' →
      (s.attempts.insert i a).lookup j = some a' := FMap.lookup_insert_of_none hnone
  have hev := evolves_putPresign
    { p with state := .claimed, attemptID := i, blob := [], metadata := [] }
    (s.attempts.insert i a) hp rfl rfl (by simp)
    fun hj => ⟨_, hold hj, rfl, rfl, rfl, rfl⟩
  refine h.signing hev ⟨h.presigns.record_insert hp (by rfl) (by rfl),
    fun hx => FMap.insert_cases hx ?_ ?_, h.presigns.artifact_insert hp (by rfl)⟩
    ⟨fun hx => FMap.insert_cases hx ⟨hi, hb ▸ hbok, hval, hid ▸ hidok, hlen⟩ h.attempts.record,
      fun hx => FMap.insert_cases hx hprog h.attempts.progress,
      fun hx => FMap.insert_cases hx hlease h.attempts.lease,
      fun hx => FMap.insert_cases hx (fun _ => hb ▸ hst.1) h.attempts.pending,
      fun hx => FMap.insert_cases hx ?_ ?_⟩
    (fun hx => FMap.insert_cases hx (fun _ => .inl hfen) fun ha' hterm => .inr ⟨_, ha', rfl, hterm⟩)
  · exact ⟨hst.1, rfl, rfl, hine, hst.2.2.2.2.1, a, Finmap.lookup_insert _, hb, hid, hab⟩
  · intro id' p' hq
    exact (h.presigns.state hq).mono (fun hcur => hcur) fun ha' _ =>
      ⟨_, hold ha', rfl, rfl, rfl, fun ht => ht⟩
  · rw [hid]
    refine ⟨_, Finmap.lookup_insert _, hb.symm, hi.symm, ?_, fun _ => ⟨hreason, .inl rfl⟩⟩
    intro habt
    cases hab.symm.trans habt
  · intro j a' ha'
    obtain ⟨q, hq, hok⟩ := h.attempts.presign ha'
    refine ⟨q, FMap.lookup_insert_ne ?_ hq, hok⟩
    intro heq
    obtain rfl : p = q := Option.some.inj (hp.symm.trans (heq ▸ hq))
    exact hok.not_available hav

omit [Sha256] in
theorem SignAttemptRecord.terminal_withProgress (value : Bytes) (kind : AttemptProgressKind)
    (h : a.terminal = true) :
    (a.withProgress value kind).terminal = true := by
  cases kind <;> grind [SignAttemptRecord.terminal, SignAttemptRecord.withProgress]

omit [Sha256] in
/-- Recording progress changes the evidence and, at the end, the outbox, nothing else. -/
theorem progress_frame (a : SignAttemptRecord) (value : Bytes) (kind : AttemptProgressKind) :
    let a' := clearAttemptSecretsIfTerminal (a.withProgress value kind)
    a'.binding = a.binding ∧ a'.presignID = a.presignID ∧ a'.intent = a.intent ∧
      a'.outboxDigest = a.outboxDigest ∧ a'.aborted = a.aborted ∧
      a'.abortReason = a.abortReason ∧ (a.terminal = true → a'.terminal = true) := by
  refine ⟨?_, ?_, ?_, ?_, ?_, ?_, fun h => ?_⟩
  case refine_7 =>
    have hterm := SignAttemptRecord.terminal_withProgress value kind h
    rw [clearAttemptSecretsIfTerminal, if_pos hterm]
    exact hterm
  all_goals
    unfold clearAttemptSecretsIfTerminal
    split <;> cases kind <;> rfl

theorem ProgressOk.record (h : ProgressOk a) {value : Bytes} (hv : value ≠ [])
    (kind : AttemptProgressKind) :
    ProgressOk (clearAttemptSecretsIfTerminal (a.withProgress value kind)) := by
  obtain ⟨hd, hc, hpend, hclear, hdig, hmeta⟩ := h
  have hterm := SignAttemptRecord.terminal_withProgress (a := a) value kind
  unfold clearAttemptSecretsIfTerminal
  by_cases ht : (a.withProgress value kind).terminal = true
  · rw [if_pos ht]
    refine ⟨?_, ?_, fun hf => ?_, fun _ => rfl, by simp, ?_⟩
    · cases kind <;> simp [SignAttemptRecord.withProgress, hv, hd]
    · cases kind <;> simp [SignAttemptRecord.withProgress, hv, hc]
    · exact absurd (ht.symm.trans hf) (by decide)
    · cases kind <;> exact hmeta
  · rw [if_neg ht]
    have hbefore : a.terminal = false := by
      by_contra hne
      exact ht (hterm (by simpa using hne))
    have hout : (a.withProgress value kind).exactOutbox = a.exactOutbox := by cases kind <;> rfl
    refine ⟨?_, ?_, fun _ => hout ▸ hpend hbefore, fun h => absurd h ht, ?_, ?_⟩
    · cases kind <;> simp [SignAttemptRecord.withProgress, hv, hd]
    · cases kind <;> simp [SignAttemptRecord.withProgress, hv, hc]
    · intro hne
      rw [hout]
      cases kind <;> exact hdig (hout ▸ hne)
    · cases kind <;> exact hmeta

/-- An attempt records delivery or completion evidence. -/
theorem WF.progress (h : WF s) {i : GoString} (hi : s.attempts.lookup i = some a) {value : Bytes}
    (hv : value ≠ []) (kind : AttemptProgressKind) :
    Advances s (s.putAttempt i (clearAttemptSecretsIfTerminal (a.withProgress value kind))) := by
  obtain ⟨hb, hid, hint, hout, hab, hreason, hterm⟩ := progress_frame a value kind
  have hprog := (h.attempts.progress hi).record hv kind
  generalize clearAttemptSecretsIfTerminal (a.withProgress value kind) = a' at *
  have hback : a'.terminal = false → a.terminal = false := by
    intro hpend
    by_contra hne
    cases hpend.symm.trans (hterm (by simpa using hne))
  have hev : Evolves s (s.putAttempt i a') :=
    { Evolves.refl s with
      attempt := fun hx => FMap.entry_cases hx hi
        ⟨_, Finmap.lookup_insert _, hb, hid, hint, hout⟩ fun hne =>
        ⟨_, FMap.lookup_insert_ne hne hx, rfl, rfl, rfl, rfl⟩ }
  refine h.signing hev ⟨h.presigns.record, fun hp => ?_, h.presigns.artifact⟩
    ⟨fun hx => FMap.insert_cases hx ?_ h.attempts.record,
      fun hx => FMap.insert_cases hx hprog h.attempts.progress,
      fun hx => FMap.insert_cases hx ?_ h.attempts.lease,
      fun hx => FMap.insert_cases hx ?_ h.attempts.pending,
      fun hx => FMap.insert_cases hx ?_ h.attempts.presign⟩
    (fun hx => FMap.insert_cases hx (fun hpend => .inr ⟨a, hi, hb.symm, hback hpend⟩)
      fun hq hpend => .inr ⟨_, hq, rfl, hpend⟩)
  · -- the attempt a presign names is this one or untouched
    exact (h.presigns.state hp).mono (fun hcur => hcur) fun hq _ =>
      FMap.entry_cases hq hi ⟨_, Finmap.lookup_insert _, hb, hid, hab, hterm⟩ fun hne =>
        ⟨_, FMap.lookup_insert_ne hne hq, rfl, rfl, rfl, fun ht => ht⟩
  · rw [hb, hid, hint, hout]
    exact h.attempts.record hi
  · rw [hb, hint]
    exact h.attempts.lease hi
  · intro hpend
    rw [hb]
    exact h.attempts.pending hi (hback hpend)
  · obtain ⟨p, hp, p₁, p₂, p₃, p₄⟩ := h.attempts.presign hi
    rw [hid]
    refine ⟨p, hp, p₁.trans hb.symm, p₂.trans (by rw [hint]), ?_, ?_⟩
    · rw [hab, hreason]
      exact p₃
    · rw [hab, hreason]
      exact fun hf => ⟨(p₄ hf).1, (p₄ hf).2.imp id fun hbt => ⟨hterm hbt.1, hbt.2⟩⟩

/-- A pending attempt is aborted and its presign burned. -/
theorem WF.abortAttempt (h : WF s) {i reason : GoString} (hi : s.attempts.lookup i = some a)
    (hpend : a.terminal = false) (hp : s.presigns.lookup a.presignID = some p)
    (hreason : validateLifecycleReason reason = none) :
    Advances s ((s.putAttempt i
        { a with aborted := true, abortReason := reason, exactOutbox := [] }).putPresign
      a.presignID { p with state := .burned, reason := reason }) := by
  obtain ⟨hid, -⟩ := h.attempts.record hi
  obtain ⟨p', hp', hst, hatt, hb⟩ := h.attempts.claimed hi hpend
  obtain rfl : p = p' := Option.some.inj (hp.symm.trans hp')
  have hclaimed := h.presigns.state hp
  rw [PresignStateOk, hst] at hclaimed
  generalize ha' : ({ a with aborted := true, abortReason := reason, exactOutbox := [] } :
    SignAttemptRecord) = a'
  have hterm : a'.terminal = true := by rw [← ha']; rfl
  have hev := evolves_putPresign { p with state := .burned, reason := reason }
    (s.attempts.insert i a') hp rfl rfl (by simp)
    fun hx => FMap.entry_cases hx hi
      ⟨_, Finmap.lookup_insert _, ha' ▸ ⟨rfl, rfl, rfl, rfl⟩⟩ fun hne =>
      ⟨_, FMap.lookup_insert_ne hne hx, rfl, rfl, rfl, rfl⟩
  have hlate : ∀ {P : Prop}, a'.terminal = false → P := fun hf => nomatch hterm.symm.trans hf
  have hprog : ProgressOk a' := by
    obtain ⟨hd, hc, -, -, -, hm⟩ := h.attempts.progress hi
    subst ha'
    exact ⟨hd, hc, hlate, fun _ => rfl, fun hne => absurd rfl hne, hm⟩
  refine h.signing hev ⟨h.presigns.record_insert hp (by rfl) (by rfl), ?_,
    h.presigns.artifact_insert hp (by rfl)⟩
    ⟨fun hx => FMap.insert_cases hx (ha' ▸ (h.attempts.record hi :)) h.attempts.record,
      fun hx => FMap.insert_cases hx hprog h.attempts.progress,
      fun hx => FMap.insert_cases hx (ha' ▸ (h.attempts.lease hi :)) h.attempts.lease,
      fun hx => FMap.insert_cases hx hlate h.attempts.pending, ?_⟩
    (fun hx => FMap.insert_cases hx hlate fun hq hq' => .inr ⟨_, hq, rfl, hq'⟩)
  · intro id q hq
    rcases FMap.lookup_insert_eq_some.mp hq with ⟨rfl, rfl⟩ | ⟨hne, hq⟩
    · refine ⟨hclaimed.2.1, hclaimed.2.2.1, hreason, fun _ => ⟨a', ?_, ?_, ?_, hterm⟩⟩
      · rw [show (_ : StoredPresign).attemptID = i from hatt]
        exact Finmap.lookup_insert _
      · subst ha'
        exact hb.symm
      · subst ha'
        rfl
    · -- no other presign names this attempt
      refine (h.presigns.state hq).mono (fun hcur => hcur) fun {b} hb' hid' =>
        ⟨b, FMap.lookup_insert_ne (fun heq => ?_) hb', rfl, rfl, rfl, fun ht => ht⟩
      obtain rfl : a = b := Option.some.inj (hi.symm.trans (heq ▸ hb'))
      exact hne hid'.symm
  · intro j q hq
    rcases FMap.lookup_insert_eq_some.mp hq with ⟨rfl, rfl⟩ | ⟨hne, hq⟩
    · subst ha'
      exact ⟨_, Finmap.lookup_insert _, hb, hatt.trans hid.symm, fun _ => ⟨rfl, hreason⟩,
        fun hf => absurd hf (by simp)⟩
    · obtain ⟨r, hr, hok⟩ := h.attempts.presign hq
      refine ⟨r, FMap.lookup_insert_ne ?_ hr, hok⟩
      -- the presign points back at one attempt only
      intro heq
      obtain rfl : p = r := Option.some.inj (hp.symm.trans (heq ▸ hr))
      exact hne ((h.attempts.record hq).1.symm.trans (hok.2.1.symm.trans hatt))

/-! ## Fences -/

/-- A change of cutovers and fences only. -/
theorem WF.fencing (h : WF s) {fences : FMap GoString Nat}
    (hev : Evolves s (s.putCutover x c fences)) (hc : CutoversOk (s.putCutover x c fences)) :
    Advances s (s.putCutover x c fences) :=
  ⟨hev, { h with
    receivers := ⟨h.receivers.anchor, h.receivers.vacant⟩
    effects := h.effects.mono hev rfl
    disabled := h.disabled.mono hev rfl fun _ hnone _ => hnone
    presigns := h.presigns.mono id rfl rfl
    attempts := h.attempts.mono hev id rfl rfl
    cutovers := hc }⟩

/-- A new fence. -/
theorem WF.addFence (h : WF s) {f : CutoverFence} (htok : f.token = s.nextCutoverToken + 1)
    (hval : validateCutoverFence f = none)
    (hfree : s.cutoverByKey.lookup f.source.keyID = none) (hf : Fenced s f) :
    Advances s (s.addFence f) := by
  have hne : ∀ {x c}, s.cutoversByToken.lookup x = some c → x ≠ f.token := by
    intro x c hc
    have := (h.cutovers.record hc).2.1
    omega
  have hev : Evolves s (s.addFence f) :=
    { Evolves.refl s with
      cutover := fun hc =>
        ⟨_, FMap.lookup_insert_ne (hne hc) hc, rfl, fun _ => rfl⟩
      nextCutover := by
        change s.nextCutoverToken ≤ f.token
        omega
      newCutover := fun {x c} hc hle => by
        rcases FMap.lookup_insert_eq_some.mp hc with ⟨rfl, -⟩ | ⟨-, hc⟩
        · omega
        · exact ⟨c, hc⟩ }
  refine ⟨hev, { h with
    receivers := ⟨h.receivers.anchor, h.receivers.vacant⟩
    effects := h.effects.mono hev rfl
    disabled := h.disabled.mono hev rfl fun _ hnone _ => hnone
    presigns := h.presigns.mono id rfl rfl
    attempts := h.attempts.mono hev id rfl rfl
    cutovers := ⟨fun hx => FMap.insert_cases hx ⟨rfl, Nat.le_refl _, hval⟩ fun hc => ?_,
      fun hx => FMap.insert_cases hx ⟨Finmap.lookup_insert _, { hf with }, rfl, rfl, rfl⟩
        fun hc => ?_,
      fun hx => FMap.insert_cases hx ⟨_, Finmap.lookup_insert _, rfl, rfl⟩ fun hk => ?_⟩ }⟩
  · obtain ⟨h₁, h₂, h₃⟩ := h.cutovers.record hc
    exact ⟨h₁, h₂.trans hev.nextCutover, h₃⟩
  · exact (h.cutovers.state hc).mono hev fun _ hidx hf' =>
      ⟨FMap.lookup_insert_of_none hfree hidx, { hf' with }⟩
  · obtain ⟨c, hc, hact, hkey⟩ := h.cutovers.index hk
    exact ⟨c, FMap.lookup_insert_ne (hne hc) hc, hact, hkey⟩

omit [Sha256] in
/-- A cutover record keeps its fence and stops being active, or never was. -/
theorem evolves_putCutover (c' : StoredCutover) (fences : FMap GoString Nat)
    (hc : s.cutoversByToken.lookup x = some c) (hf : c'.fence = c.fence) (hst : c'.state ≠ .active) :
    Evolves s (s.putCutover x c' fences) :=
  { Evolves.refl s with
    cutover := fun hx => FMap.entry_cases hx hc
      ⟨_, Finmap.lookup_insert _, hf, fun hact => absurd hact hst⟩ fun hne =>
      ⟨_, FMap.lookup_insert_ne hne hx, rfl, fun _ => rfl⟩
    newCutover := fun hx => FMap.insert_cases hx (fun _ => ⟨c, hc⟩) fun hq _ => ⟨_, hq⟩ }

/-- A fence is given up. -/
theorem WF.unfence (h : WF s) {reason : GoString} (hc : s.cutoversByToken.lookup x = some c)
    (hact : c.state = .active) (hreason : validateLifecycleReason reason = none) :
    Advances s (s.putCutover x { c with state := .aborted, reason := reason }
      (s.cutoverByKey.erase c.fence.source.keyID)) := by
  obtain ⟨hidx, -⟩ := h.fence_of_active hc hact
  have hst := h.cutovers.state hc
  rw [CutoverStateOk, hact] at hst
  have hev := evolves_putCutover { c with state := .aborted, reason := reason }
    (s.cutoverByKey.erase c.fence.source.keyID) hc rfl (by simp)
  refine h.fencing hev ⟨fun hx => FMap.insert_cases hx (h.cutovers.record hc :) h.cutovers.record,
    fun {y q} hq => ?_, fun {k y} hk => ?_⟩
  · rcases FMap.lookup_insert_eq_some.mp hq with ⟨rfl, rfl⟩ | ⟨hne, hq⟩
    · exact ⟨hst.2.2.1, hst.2.2.2.1, hreason⟩
    · refine (h.cutovers.state hq).mono hev fun hq' hidx' hf => ⟨?_, { hf with }⟩
      refine FMap.lookup_erase_eq_some.mpr ⟨fun hk => ?_, hidx'⟩
      have hy := (h.fence_of_active hq hq').1
      exact hne (Option.some.inj (hidx.symm.trans (hk ▸ hy))).symm
  · obtain ⟨hne, hk⟩ := FMap.lookup_erase_eq_some.mp hk
    obtain ⟨q, hq, hq', hkey⟩ := h.cutovers.index hk
    refine ⟨q, FMap.lookup_insert_ne ?_ hq, hq', hkey⟩
    rintro rfl
    obtain rfl : c = q := Option.some.inj (hc.symm.trans hq)
    exact hne hkey.symm

/-- A cutover that is no longer active is recorded as committed. -/
theorem WF.recordCommitted (h : WF s) {c' : StoredCutover}
    (hc : s.cutoversByToken.lookup x = some c) (hact : c.state ≠ .active) (hf : c'.fence = c.fence)
    (hst : c'.state = .committed) (hok : CutoverStateOk s c') :
    Advances s (s.putCutover x c' s.cutoverByKey) := by
  have hev := evolves_putCutover c' s.cutoverByKey hc hf (by simp [hst])
  have hok' := hok.mono hev fun hact' => absurd hact' (by simp [hst])
  refine h.fencing hev
    ⟨fun hx => FMap.insert_cases hx (hf ▸ h.cutovers.record hc) h.cutovers.record,
    fun hx => FMap.insert_cases hx hok' fun hq =>
      (h.cutovers.state hq).mono hev fun _ hidx hf' => ⟨hidx, { hf' with }⟩, fun {k y} hk => ?_⟩
  · obtain ⟨q, hq, hq', hkey⟩ := h.cutovers.index hk
    refine ⟨q, FMap.lookup_insert_ne ?_ hq, hq', hkey⟩
    rintro rfl
    obtain rfl : c = q := Option.some.inj (hc.symm.trans hq)
    exact hact hq'

/-! ## Retiring the current generation -/

omit [Sha256] in
theorem burnEpochPresign_frame (attempts : FMap GoString SignAttemptRecord) (keyID : GoString)
    (epochID : EpochID) (p : StoredPresign) :
    let p' := burnEpochPresign attempts keyID epochID p
    p'.binding = p.binding ∧ p'.artifactDigest = p.artifactDigest ∧
      p'.attemptID = p.attemptID ∧ (p'.state = .available → p' = p) := by
  unfold burnEpochPresign burnPresignRecord
  repeat' split
  all_goals simp_all

omit [Sha256] in
theorem burnEpochPresign_burned (attempts : FMap GoString SignAttemptRecord) (keyID : GoString)
    (epochID : EpochID) (h : p.state = .burned) :
    burnEpochPresign attempts keyID epochID p = p := by
  simp [burnEpochPresign, h]

omit [Sha256] in
theorem lookup_burnEpochPresigns {q : StoredPresign}
    (h : (s.burnEpochPresignsLocked b.keyID b.epochID).presigns.lookup id = some q) :
    ∃ p, s.presigns.lookup id = some p ∧
      q = burnEpochPresign s.attempts b.keyID b.epochID p := by
  rw [burnEpochPresignsLocked, FMap.lookup_mapVals] at h
  obtain ⟨p, hp, rfl⟩ := Option.map_eq_some_iff.mp h
  exact ⟨p, hp, rfl⟩

omit [Sha256] in
theorem lookup_burnEpochPresigns_of (h : s.presigns.lookup id = some p) :
    (s.burnEpochPresignsLocked b.keyID b.epochID).presigns.lookup id =
      some (burnEpochPresign s.attempts b.keyID b.epochID p) := by
  rw [burnEpochPresignsLocked, FMap.lookup_mapVals, h]
  rfl

omit [Sha256] in
theorem validate_generationCutoverReason :
    validateLifecycleReason generationCutoverReason = none := by
  decide

/-- A presign of the retired epoch ends burned; every other one is untouched and,
if it is still in use, on another key. -/
theorem PresignStateOk.retire (h : WF s) (hcur : s.current.lookup b.keyID = some b)
    (hquiet : ∀ {i a}, s.attempts.lookup i = some a → a.binding = b → a.terminal = true)
    (hp : s.presigns.lookup id = some p) (hattempts : t.attempts = s.attempts)
    (hcurrent : t.current = s.current.erase b.keyID) :
    PresignStateOk t id (burnEpochPresign s.attempts b.keyID b.epochID p) := by
  have hst := h.presigns.state hp
  by_cases hin : p.binding.keyID ≠ b.keyID ∨ p.binding.epochID ≠ b.epochID
  · rw [burnEpochPresign, if_pos hin]
    refine hst.mono (fun hlook => ?_) fun ha _ => ⟨_, hattempts ▸ ha, rfl, rfl, rfl, fun ht => ht⟩
    rw [hcurrent]
    refine FMap.lookup_erase_eq_some.mpr ⟨fun heq => ?_, hlook⟩
    rw [heq, hcur] at hlook
    cases hlook
    exact hin.elim (fun hk => hk rfl) fun he => he rfl
  · rw [burnEpochPresign, if_neg hin]
    rw [PresignStateOk] at hst
    cases hstate : p.state with
    | available =>
      simp only [hstate] at hst ⊢
      exact ⟨rfl, rfl, validate_generationCutoverReason, fun hne => absurd hst.2.2.2.1 hne⟩
    | claimed =>
      simp only [hstate] at hst ⊢
      obtain ⟨hlook, hblob, hmeta, -, -, a, ha, hab, hid, -⟩ := hst
      -- the claiming attempt signs under the generation that is being retired
      have hterm : a.terminal = true := by
        refine hquiet ha (hab.trans ?_)
        rw [not_or, not_not] at hin
        rw [hin.1, hcur] at hlook
        exact (Option.some.inj hlook).symm
      simp only [ha, hterm, if_true]
      exact ⟨hblob, hmeta, validate_generationCutoverReason,
        fun _ => ⟨a, hattempts ▸ ha, hab, hid, hterm⟩⟩
    | burned =>
      simp only [hstate] at hst ⊢
      rw [PresignStateOk, hstate, hattempts]
      exact hst

omit [Sha256] in
theorem AttemptPresignOk.retire (h : AttemptPresignOk a p)
    {attempts : FMap GoString SignAttemptRecord} (ha : attempts.lookup a.intent.attemptID = some a)
    (keyID : GoString) (epochID : EpochID) :
    AttemptPresignOk a (burnEpochPresign attempts keyID epochID p) := by
  obtain ⟨hb, -, hatt, -⟩ := burnEpochPresign_frame attempts keyID epochID p
  refine ⟨hb.trans h.1, hatt.trans h.2.1, fun hab => ?_, fun hab => ?_⟩
  · rw [burnEpochPresign_burned _ _ _ (h.2.2.1 hab).1]
    exact h.2.2.1 hab
  · have hlook : attempts.lookup p.attemptID = some a := h.2.1 ▸ ha
    obtain ⟨hreason, hst | hst⟩ := h.2.2.2 hab
    · refine ⟨hreason, ?_⟩
      unfold burnEpochPresign
      split
      · exact .inl hst
      · simp only [hst, hlook]
        split
        · next hterm => exact .inr ⟨hterm, rfl⟩
        · exact .inl hst
    · rw [burnEpochPresign_burned _ _ _ hst.2]
      exact ⟨hreason, .inr hst⟩

/-- The current generation of an unfenced key without active leases is retired. -/
theorem WF.retire (h : WF s) {r : GenerationRecord} (hr : s.generations.lookup b = some r)
    (hlive : r.status = .current) (hidle : ∀ {x l}, s.leasesByToken.lookup x = some l →
    l.binding.keyID = b.keyID → l.state ≠ .active)
    (hquiet : ∀ {i a}, s.attempts.lookup i = some a → a.binding = b → a.terminal = true)
    (hfen : s.cutoverByKey.lookup b.keyID = none) : Advances s (s.retireCurrent b r) := by
  obtain ⟨hcur, -⟩ := h.generations.live hr hlive
  have hgen : ∀ {b' q}, (s.generations.insert b
      { r with status := .retired, blob := [], metadata := [] }).lookup b' = some q →
      ∃ q', s.generations.lookup b' = some q' := fun hx =>
    FMap.insert_cases hx ⟨r, hr⟩ fun hq => ⟨_, hq⟩
  have hkeep : ∀ {k b'}, k ≠ b.keyID → s.current.lookup k = some b' →
      (s.current.erase b.keyID).lookup k = some b' := fun hk hb' =>
    FMap.lookup_erase_eq_some.mpr ⟨hk, hb'⟩
  have hev : Evolves s (s.retireCurrent b r) :=
    { Evolves.refl s with
      generation := fun hx => FMap.entry_cases hx hr ⟨_, Finmap.lookup_insert _, .inr rfl⟩
        fun hne => ⟨_, FMap.lookup_insert_ne hne hx, .inl rfl⟩
      presign := fun {id p} hp => by
        obtain ⟨f₁, f₂, -, f₄⟩ := burnEpochPresign_frame s.attempts b.keyID b.epochID p
        exact ⟨_, lookup_burnEpochPresigns_of hp, f₁, f₂, f₄⟩
      newEffect := .inl }
  refine ⟨hev, { h with
    generations := ⟨fun hx =>
        FMap.insert_cases hx (h.generations.binding hr :) h.generations.binding, ?_,
      fun hx => FMap.insert_cases hx (fun _ => ⟨rfl, rfl⟩) h.generations.retired, ?_, ?_⟩
    active := ⟨?_, ?_, h.active.exclusive⟩
    receivers := ⟨h.receivers.anchor, fun {x a} ha => ?_⟩
    effects := h.effects.mono hev rfl
    disabled := h.disabled.mono hev rfl fun _ hnone _ => hnone
    presigns := ⟨?_, ?_, ?_⟩
    attempts := ⟨h.attempts.record, h.attempts.progress, h.attempts.lease_mono hev, ?_, ?_⟩
    cutovers := h.cutovers.mono hev rfl rfl fun {x c} hc hact hf => ?_ }⟩
  · intro b' q hq hlive'
    rcases FMap.lookup_insert_eq_some.mp hq with ⟨rfl, rfl⟩ | ⟨hne, hq⟩
    · cases hlive'
    · obtain ⟨hidx, hblob⟩ := h.generations.live hq hlive'
      refine ⟨hkeep (fun hk => hne ?_) hidx, hblob⟩
      exact (Option.some.inj (hcur.symm.trans (hk ▸ hidx))).symm
  · intro k b' hk
    obtain ⟨hne, hk⟩ := FMap.lookup_erase_eq_some.mp hk
    obtain ⟨rfl, q, hq, hlive'⟩ := h.generations.index hk
    exact ⟨rfl, q, FMap.lookup_insert_ne (fun he => hne (he ▸ rfl)) hq, hlive'⟩
  · intro b₁ b₂ r₁ r₂ h₁ h₂
    obtain ⟨q₁, hq₁⟩ := hgen h₁
    obtain ⟨q₂, hq₂⟩ := hgen h₂
    exact h.generations.name hq₁ hq₂
  · intro x l hl hact hrecv hk b' q hq
    obtain ⟨q', hq'⟩ := hgen hq
    exact h.active.keygen hl hact hrecv hk b' q' hq'
  · intro x l hl hact hrecv hk
    exact hkeep (fun hkey => hidle hl hkey hact) (h.active.bound hl hact hrecv hk)
  · obtain ⟨hvac, hfree, htomb⟩ := h.receivers.vacant ha
    refine ⟨?_, fun b' q hq => ?_, htomb⟩
    · rw [show (s.retireCurrent b r).current = s.current.erase b.keyID from rfl,
        FMap.lookup_erase_ite, hvac, ite_self]
    · obtain ⟨q', hq'⟩ := hgen hq
      exact hfree b' q' hq'
  · intro id q hq
    obtain ⟨p, hp, rfl⟩ := lookup_burnEpochPresigns hq
    obtain ⟨f₁, f₂, -⟩ := burnEpochPresign_frame s.attempts b.keyID b.epochID p
    rw [f₁, f₂]
    exact h.presigns.record hp
  · intro id q hq
    obtain ⟨p, hp, rfl⟩ := lookup_burnEpochPresigns hq
    exact PresignStateOk.retire h hcur hquiet hp rfl rfl
  · intro id₁ q₁ id₂ q₂ h₁ h₂ hd
    obtain ⟨p₁, hp₁, rfl⟩ := lookup_burnEpochPresigns h₁
    obtain ⟨p₂, hp₂, rfl⟩ := lookup_burnEpochPresigns h₂
    rw [(burnEpochPresign_frame _ _ _ p₁).2.1, (burnEpochPresign_frame _ _ _ p₂).2.1] at hd
    exact h.presigns.artifact hp₁ hp₂ hd
  · intro i a ha hpend
    have hlook := h.attempts.pending ha hpend
    refine hkeep (fun hk => ?_) hlook
    rw [hk, hcur] at hlook
    rw [hquiet ha (Option.some.inj hlook).symm] at hpend
    cases hpend
  · intro i a ha
    obtain ⟨p, hp, hok⟩ := h.attempts.presign ha
    exact ⟨_, lookup_burnEpochPresigns_of hp, hok.retire ((h.attempts.record ha).1 ▸ ha) _ _⟩
  · refine { hf with current := hkeep (fun hk => ?_) hf.current, name := fun b' q hq => ?_ }
    · cases hfen.symm.trans (hk ▸ (h.fence_of_active hc hact).1)
    · obtain ⟨q', hq'⟩ := hgen hq
      exact hf.name b' q' hq'

/-- A cutover commits: the fence is given up, its source retired, its target `r`
installed, and the record marked. -/
theorem WF.commitFence (h : WF s) {c' : StoredCutover} {source r : GenerationRecord}
    (hc : s.cutoversByToken.lookup c.fence.token = some c) (hact : c.state = .active)
    (hsrc : s.generations.lookup c.fence.source = some source) (hlive : source.status = .current)
    (hr : r.binding = c.fence.target) (hcur : r.status = .current) (hblob : r.blob ≠ [])
    (hf : c'.fence = c.fence) (hst : c'.state = .committed) (hreason : c'.reason = [])
    (hdig : c'.targetBlobDigest = sha256 r.blob ∧ c'.targetMetadataDigest = sha256 r.metadata) :
    Advances s { s with
      generations := (s.generations.insert c.fence.target r).insert c.fence.source
        { source with status := .retired, blob := [], metadata := [] }
      current := s.current.insert c.fence.source.keyID c.fence.target
      presigns := (s.burnEpochPresignsLocked c.fence.source.keyID c.fence.source.epochID).presigns
      cutoversByToken := s.cutoversByToken.insert c.fence.token c'
      cutoverByKey := s.cutoverByKey.erase c.fence.source.keyID } := by
  obtain ⟨-, hv⟩ := validateCutoverFence_eq_none.mp (h.cutovers.record hc).2.2
  obtain ⟨-, htgt, hkey, hgen, -⟩ := validateCutoverBindings_eq_none.mp hv
  obtain ⟨-, hfence⟩ := h.fence_of_active hc hact
  have hne : c.fence.target ≠ c.fence.source := fun he => hgen (by rw [he])
  have hrkey : r.binding.keyID = c.fence.source.keyID := by rw [hr, hkey]
  have hvacant : (s.current.erase c.fence.source.keyID).lookup r.binding.keyID = none := by
    rw [hrkey]
    exact Finmap.lookup_erase _ _
  have hchain := (((h.unfence hc hact validate_generationCutoverReason).next fun h₁ =>
    h₁.retire hsrc hlive hfence.idle hfence.quiet (Finmap.lookup_erase _ _)).next fun h₂ =>
    h₂.install (hr ▸ htgt) hcur hblob hvacant
      (hr ▸ hfence.name.insert _ fun _ => hgen) fun hl hk => hfence.idle hl (hk.trans hrkey)).next
    fun h₃ => h₃.recordCommitted (x := c.fence.token) (Finmap.lookup_insert _) (by simp) hf hst ?_
  · -- the chain of changes and the one assignment are the same store
    convert hchain using 1
    simp only [installGeneration, retireCurrent, putCutover, MemoryLifecycleStore.mk.injEq,
      Finmap.insert_insert, hr, hkey, FMap.insert_erase, true_and, and_true]
    exact ⟨Finmap.insert_insert_of_ne _ hne, rfl⟩
  · rw [CutoverStateOk, hst, hf]
    refine ⟨hdig.1 ▸ length_sha256 _, hdig.2 ▸ length_sha256 _, hreason, ?_, r, ?_, fun _ => hdig⟩
    · exact ⟨_, FMap.lookup_insert_ne (hr ▸ hne.symm) (Finmap.lookup_insert _), rfl⟩
    · exact hr ▸ Finmap.lookup_insert _

end Tss.Lifecycle
