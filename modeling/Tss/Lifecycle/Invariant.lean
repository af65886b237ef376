import Tss.Lifecycle.Store

/-!
# The invariant of a lifecycle store

`WF` is what holds between two calls, one structure per record family.
It is stated for any store, tombstones included, so that the same
invariant serves the memory store, whose tombstone map stays empty, and
the stores a file lineage is loaded into.

`Evolves s t` says that `t` is a later state of `s`: no record has
disappeared, and each has moved only forward. Most clauses of `WF` only
ask that a record they refer to is still there, so they are monotone
along `Evolves`.
-/

namespace Tss.Lifecycle

open MemoryLifecycleStore

/-! ## Generations and leases -/

/-- No stored generation of the key has this name. -/
def NameFree (generations : FMap GenerationBinding GenerationRecord)
    (keyID keyGeneration : GoString) : Prop :=
  ∀ b r, generations.lookup b = some r → b.keyID = keyID → b.keyGeneration ≠ keyGeneration

structure GenerationsOk (generations : FMap GenerationBinding GenerationRecord)
    (current : FMap GoString GenerationBinding) : Prop where
  binding : ∀ {b r}, generations.lookup b = some r → b.validate = none ∧ r.binding = b
  live : ∀ {b r}, generations.lookup b = some r → r.status = .current →
    current.lookup b.keyID = some b ∧ r.blob ≠ []
  retired : ∀ {b r}, generations.lookup b = some r → r.status = .retired →
    r.blob = [] ∧ r.metadata = []
  index : ∀ {k b}, current.lookup k = some b →
    b.keyID = k ∧ ∃ r, generations.lookup b = some r ∧ r.status = .current
  name : ∀ {b b' r r'}, generations.lookup b = some r → generations.lookup b' = some r' →
    b.keyID = b'.keyID → b.keyGeneration = b'.keyGeneration → b = b'

/-- A state a stored lease can be in. -/
def RunLeaseState.stored : RunLeaseState → Prop
  | .active | .completed | .aborted => True
  | _ => False

structure LeasesOk (leases : FMap Nat RunLease) (sessions : FMap SessionID Nat) (next : Nat) :
    Prop where
  lease : ∀ {x l}, leases.lookup x = some l → l.token = x ∧ validateRunLease l = none ∧
    x ≤ next ∧ sessions.lookup l.sessionID = some x ∧ l.state.stored
  session : ∀ {i x}, sessions.lookup i = some x →
    ∃ l, leases.lookup x = some l ∧ l.sessionID = i

/-- An active lease that is not a receiver's runs on a key without generations
(keygen) or on the current generation; an exclusive one runs alone on its key. -/
structure ActiveLeasesOk (leases : FMap Nat RunLease) (receivers : FMap Nat ReshareReceiverAnchor)
    (generations : FMap GenerationBinding GenerationRecord)
    (current : FMap GoString GenerationBinding) : Prop where
  keygen : ∀ {x l}, leases.lookup x = some l → l.state = .active → x ∉ receivers →
    l.kind = .keygen → ∀ b r, generations.lookup b = some r → b.keyID ≠ l.binding.keyID
  bound : ∀ {x l}, leases.lookup x = some l → l.state = .active → x ∉ receivers →
    l.kind ≠ .keygen → current.lookup l.binding.keyID = some l.binding
  exclusive : ∀ {x l y l'}, leases.lookup x = some l → l.state = .active →
    exclusiveLeaseRunKind l.kind = true → leases.lookup y = some l' → l'.state = .active →
    l'.binding.keyID = l.binding.keyID → y = x

/-- A receiver anchor belongs to an active reshare lease on a key with no current
generation, and the key has not used its target name. -/
structure ReceiversOk [Sha256] (s : MemoryLifecycleStore) : Prop where
  anchor : ∀ {x a}, s.reshareReceivers.lookup x = some a → a.validate = none ∧
    ∃ l, s.leasesByToken.lookup x = some l ∧ l.state = .active ∧ l.kind = .reshare ∧
      a.source = l.binding ∧ a.sessionID = l.sessionID
  vacant : ∀ {x a}, s.reshareReceivers.lookup x = some a →
    s.current.lookup a.source.keyID = none ∧
      NameFree s.generations a.source.keyID a.targetKeyGeneration ∧
      ∀ t, s.tombstones.lookup (lifecycleTombstoneMapKey .generationName
          (lifecycleTombstoneHash .generationName
            (generationNameTombstoneIdentifier a.source.keyID a.targetKeyGeneration))) = some t →
        t.keyID ≠ a.source.keyID

/-- No tombstone, of whatever key, has the digest of a receiver's target name. -/
structure ReceiverNamesFresh [Sha256] (s : MemoryLifecycleStore) : Prop where
  fresh : ∀ {x a}, s.reshareReceivers.lookup x = some a →
    s.tombstonedLocked .generationName
      (generationNameTombstoneIdentifier a.source.keyID a.targetKeyGeneration) = false

/-! ## Lease effects -/

/-- What an effect says about its lease and the record it created, when that record
belongs to the lease's own key. A child's first generation belongs to another key:
`ChildrenStored` is about it. -/
def EffectOk (s : MemoryLifecycleStore) (lease : RunLease) (e : StoredLeaseEffect) : Prop :=
  match e.kind with
  | .presign =>
    lease.kind = .presign ∧ lease.state = .completed ∧ e.target = .zero ∧ e.cutoverToken = 0 ∧
      validateLifecycleIdentifier e.presignID = none ∧ e.digest.length = sha256Size ∧
      ∃ p, s.presigns.lookup e.presignID = some p ∧ p.binding = lease.binding
  | .cutover =>
    cutoverLeaseRunKind lease.kind = true ∧ lease.state = .completed ∧
      e.target.keyID = lease.binding.keyID ∧
      ∃ c, s.cutoversByToken.lookup e.cutoverToken = some c ∧ c.fence.source = lease.binding ∧
        c.fence.target = e.target
  | .refreshFailed =>
    lease.kind = .refresh ∧ lease.state = .aborted ∧ e.target = .zero ∧ e.cutoverToken = 0 ∧
      ∃ d, s.refreshDisabled.lookup lease.binding.keyID = some d ∧
        d.sessionID = lease.sessionID ∧ d.reason = e.reason
  | .childGeneration =>
    lease.kind = .childDerivation ∧ lease.state = .completed ∧ e.cutoverToken = 0 ∧
      e.target.keyID ≠ lease.binding.keyID ∧ e.target.epochID ≠ lease.binding.epochID ∧
      e.target.validate = none ∧ e.digest.length = sha256Size
  | .reshareReceiverGeneration =>
    lease.kind = .reshare ∧ lease.state = .completed ∧ e.cutoverToken = 0 ∧
      e.target.keyID = lease.binding.keyID ∧
      e.target.keyGeneration ≠ lease.binding.keyGeneration ∧
      e.target.epochID ≠ lease.binding.epochID ∧ e.target.validate = none ∧
      e.digest.length = sha256Size ∧ ∃ r, s.generations.lookup e.target = some r
  | .retirement =>
    lease.kind = .reshare ∧ lease.state = .completed ∧ e.cutoverToken = 0 ∧
      validateCutoverBindings lease.binding e.target = none ∧
      ∃ r, s.generations.lookup lease.binding = some r ∧ r.status = .retired

/-- An effect stands on a terminal lease and what it created is stored. -/
structure EffectsOk (s : MemoryLifecycleStore) : Prop where
  effect : ∀ {x e}, s.leaseEffects.lookup x = some e → e.leaseToken = x ∧
    ∃ l, s.leasesByToken.lookup x = some l ∧ l.state ≠ .active ∧ EffectOk s l e

/-- The generation a child derivation installed under another key is still stored. -/
structure ChildrenStored (s : MemoryLifecycleStore) : Prop where
  child : ∀ {x e}, s.leaseEffects.lookup x = some e → e.kind = .childGeneration →
    ∃ r, s.generations.lookup e.target = some r

/-- A refresh-disabled key remembers the session that failed, through its lease
effect or, once that was compacted away, through the session's tombstone. -/
structure DisabledOk [Sha256] (s : MemoryLifecycleStore) : Prop where
  record : ∀ {k d}, s.refreshDisabled.lookup k = some d → d.keyID = k ∧ idValid d.sessionID = true ∧
    validateLifecycleReason d.reason = none ∧
    ((s.leaseBySession.lookup d.sessionID = none ∧
        ∃ x, s.tombstones.lookup (lifecycleTombstoneMapKey .session
          (lifecycleTombstoneHash .session d.sessionID.toList)) = some x ∧ x.keyID = k) ∨
      ∃ x l e, s.leaseBySession.lookup d.sessionID = some x ∧ s.leasesByToken.lookup x = some l ∧
        l.binding.keyID = k ∧ s.leaseEffects.lookup x = some e ∧ e.kind = .refreshFailed)

/-! ## Presigns and attempts -/

/-- The part of a presign's record its state decides. -/
def PresignStateOk [Sha256] (s : MemoryLifecycleStore) (id : GoString) (p : StoredPresign) :
    Prop :=
  match p.state with
  | .available =>
    s.current.lookup p.binding.keyID = some p.binding ∧ p.blob ≠ [] ∧ p.metadata ≠ [] ∧
      p.attemptID = [] ∧ p.reason = [] ∧ p.artifactDigest = sha256 p.metadata
  | .claimed =>
    s.current.lookup p.binding.keyID = some p.binding ∧ p.blob = [] ∧ p.metadata = [] ∧
      p.attemptID ≠ [] ∧ p.reason = [] ∧
      ∃ a, s.attempts.lookup p.attemptID = some a ∧ a.binding = p.binding ∧ a.presignID = id ∧
        a.aborted = false
  | .burned =>
    p.blob = [] ∧ p.metadata = [] ∧ validateLifecycleReason p.reason = none ∧
      (p.attemptID ≠ [] → ∃ a, s.attempts.lookup p.attemptID = some a ∧ a.binding = p.binding ∧
        a.presignID = id ∧ a.terminal = true)

structure PresignsOk [Sha256] (s : MemoryLifecycleStore) : Prop where
  record : ∀ {id p}, s.presigns.lookup id = some p → validateLifecycleIdentifier id = none ∧
    p.binding.validate = none ∧ p.artifactDigest.length = sha256Size
  state : ∀ {id p}, s.presigns.lookup id = some p → PresignStateOk s id p
  artifact : ∀ {id p id' p'}, s.presigns.lookup id = some p → s.presigns.lookup id' = some p' →
    p.artifactDigest = p'.artifactDigest → id = id'

/-- The outbox and evidence an attempt keeps. -/
structure ProgressOk [Sha256] (a : SignAttemptRecord) : Prop where
  delivered : a.delivered = true ↔ a.delivery ≠ []
  completed : a.completed = true ↔ a.completion ≠ []
  pending : a.terminal = false → a.exactOutbox ≠ []
  cleared : a.terminal = true → a.exactOutbox = []
  digest : a.exactOutbox ≠ [] → a.outboxDigest = sha256 a.exactOutbox
  metadata : a.presignMetadata ≠ []

/-- An attempt's presign points back at it, claimed while the attempt can still
be aborted and burned once it was. -/
def AttemptPresignOk (a : SignAttemptRecord) (p : StoredPresign) : Prop :=
  p.binding = a.binding ∧ p.attemptID = a.intent.attemptID ∧
    (a.aborted = true → p.state = .burned ∧ validateLifecycleReason a.abortReason = none) ∧
    (a.aborted = false → a.abortReason = [] ∧
      (p.state = .claimed ∨ (a.terminal = true ∧ p.state = .burned)))

structure AttemptsOk [Sha256] (s : MemoryLifecycleStore) : Prop where
  record : ∀ {id a}, s.attempts.lookup id = some a → a.intent.attemptID = id ∧
    a.binding.validate = none ∧ a.intent.validate = none ∧
    validateLifecycleIdentifier a.presignID = none ∧ a.outboxDigest.length = sha256Size
  progress : ∀ {id a}, s.attempts.lookup id = some a → ProgressOk a
  lease : ∀ {id a}, s.attempts.lookup id = some a →
    ∃ x l, s.leaseBySession.lookup a.intent.sessionID = some x ∧
      s.leasesByToken.lookup x = some l ∧ l.binding = a.binding ∧ l.kind = .sign
  pending : ∀ {id a}, s.attempts.lookup id = some a → a.terminal = false →
    s.current.lookup a.binding.keyID = some a.binding
  presign : ∀ {id a}, s.attempts.lookup id = some a →
    ∃ p, s.presigns.lookup a.presignID = some p ∧ AttemptPresignOk a p

/-! ## Cutovers -/

/-- What an active fence keeps: its source stays current, its target's name unused,
its key without active leases and its source without pending attempts. -/
structure Fenced (s : MemoryLifecycleStore) (f : CutoverFence) : Prop where
  current : s.current.lookup f.source.keyID = some f.source
  name : NameFree s.generations f.target.keyID f.target.keyGeneration
  idle : ∀ {x l}, s.leasesByToken.lookup x = some l → l.binding.keyID = f.source.keyID →
    l.state ≠ .active
  quiet : ∀ {i a}, s.attempts.lookup i = some a → a.binding = f.source → a.terminal = true

/-- The part of a cutover's record its state decides. -/
def CutoverStateOk [Sha256] (s : MemoryLifecycleStore) (c : StoredCutover) : Prop :=
  match c.state with
  | .active =>
    s.cutoverByKey.lookup c.fence.source.keyID = some c.fence.token ∧ Fenced s c.fence ∧
      c.targetBlobDigest = [] ∧ c.targetMetadataDigest = [] ∧ c.reason = []
  | .committed =>
    c.targetBlobDigest.length = sha256Size ∧ c.targetMetadataDigest.length = sha256Size ∧
      c.reason = [] ∧
      (∃ r, s.generations.lookup c.fence.source = some r ∧ r.status = .retired) ∧
      ∃ r, s.generations.lookup c.fence.target = some r ∧
        (r.status = .current → c.targetBlobDigest = sha256 r.blob ∧
          c.targetMetadataDigest = sha256 r.metadata)
  | .aborted =>
    c.targetBlobDigest = [] ∧ c.targetMetadataDigest = [] ∧
      validateLifecycleReason c.reason = none

structure CutoversOk [Sha256] (s : MemoryLifecycleStore) : Prop where
  record : ∀ {x c}, s.cutoversByToken.lookup x = some c → c.fence.token = x ∧
    x ≤ s.nextCutoverToken ∧ validateCutoverFence c.fence = none
  state : ∀ {x c}, s.cutoversByToken.lookup x = some c → CutoverStateOk s c
  index : ∀ {k x}, s.cutoverByKey.lookup k = some x →
    ∃ c, s.cutoversByToken.lookup x = some c ∧ c.state = .active ∧ c.fence.source.keyID = k

structure TombstonesOk (tombstones : FMap GoString StoredLifecycleTombstone) : Prop where
  record : ∀ {key x}, tombstones.lookup key = some x → x.identifierHash.length = sha256Size * 2 ∧
    validateLifecycleIdentifier x.keyID = none ∧ x.digest.length = sha256Size ∧ x.state ≠ [] ∧
    key = lifecycleTombstoneMapKey x.ns x.identifierHash

/-- A well-formed store. -/
structure WF [Sha256] (s : MemoryLifecycleStore) : Prop where
  generations : GenerationsOk s.generations s.current
  leases : LeasesOk s.leasesByToken s.leaseBySession s.nextLeaseToken
  active : ActiveLeasesOk s.leasesByToken s.reshareReceivers s.generations s.current
  receivers : ReceiversOk s
  effects : EffectsOk s
  disabled : DisabledOk s
  presigns : PresignsOk s
  attempts : AttemptsOk s
  cutovers : CutoversOk s
  tombstones : TombstonesOk s.tombstones

/-! ## Evolution -/

/-- `t` is a later state of `s`: what `s` stores, `t` still stores, and what only `t`
stores has a fresh token or, as a child, is stored under its own key. -/
structure Evolves (s t : MemoryLifecycleStore) : Prop where
  generation : ∀ {b r}, s.generations.lookup b = some r → ∃ r', t.generations.lookup b = some r' ∧
    (r' = r ∨ r' = { r with status := .retired, blob := [], metadata := [] })
  lease : ∀ {x l}, s.leasesByToken.lookup x = some l → ∃ l', t.leasesByToken.lookup x = some l' ∧
    (l' = l ∨ (l.state = .active ∧ ∃ st, st ≠ .active ∧ l' = { l with state := st }))
  session : ∀ {i x}, s.leaseBySession.lookup i = some x → t.leaseBySession.lookup i = some x
  effect : ∀ {x e}, s.leaseEffects.lookup x = some e → t.leaseEffects.lookup x = some e
  disabled : ∀ {k d}, s.refreshDisabled.lookup k = some d → t.refreshDisabled.lookup k = some d
  presign : ∀ {id p}, s.presigns.lookup id = some p → ∃ p', t.presigns.lookup id = some p' ∧
    p'.binding = p.binding ∧ p'.artifactDigest = p.artifactDigest ∧
    (p'.state = .available → p' = p)
  attempt : ∀ {id a}, s.attempts.lookup id = some a → ∃ a', t.attempts.lookup id = some a' ∧
    a'.binding = a.binding ∧ a'.presignID = a.presignID ∧ a'.intent = a.intent ∧
    a'.outboxDigest = a.outboxDigest
  cutover : ∀ {x c}, s.cutoversByToken.lookup x = some c →
    ∃ c', t.cutoversByToken.lookup x = some c' ∧ c'.fence = c.fence ∧
      (c'.state = .active → c' = c)
  tombstones : t.tombstones = s.tombstones
  nextLease : s.nextLeaseToken ≤ t.nextLeaseToken
  nextCutover : s.nextCutoverToken ≤ t.nextCutoverToken
  newLease : ∀ {x l}, t.leasesByToken.lookup x = some l → x ≤ s.nextLeaseToken →
    ∃ l₀, s.leasesByToken.lookup x = some l₀
  newCutover : ∀ {x c}, t.cutoversByToken.lookup x = some c → x ≤ s.nextCutoverToken →
    ∃ c₀, s.cutoversByToken.lookup x = some c₀
  newEffect : ∀ {x e}, t.leaseEffects.lookup x = some e → s.leaseEffects.lookup x = some e ∨
    (e.kind = .childGeneration → ∃ r, t.generations.lookup e.target = some r)

variable {s t u : MemoryLifecycleStore}

theorem Evolves.refl (s : MemoryLifecycleStore) : Evolves s s where
  generation h := ⟨_, h, .inl rfl⟩
  lease h := ⟨_, h, .inl rfl⟩
  session h := h
  effect h := h
  disabled h := h
  presign h := ⟨_, h, rfl, rfl, fun _ => rfl⟩
  attempt h := ⟨_, h, rfl, rfl, rfl, rfl⟩
  cutover h := ⟨_, h, rfl, fun _ => rfl⟩
  tombstones := rfl
  nextLease := Nat.le_refl _
  nextCutover := Nat.le_refl _
  newLease h _ := ⟨_, h⟩
  newCutover h _ := ⟨_, h⟩
  newEffect h := .inl h

theorem Evolves.trans (h : Evolves s t) (k : Evolves t u) : Evolves s u where
  generation hb := by
    obtain ⟨r', hr', hcase⟩ := h.generation hb
    obtain ⟨r'', hr'', hcase'⟩ := k.generation hr'
    refine ⟨r'', hr'', ?_⟩
    rcases hcase with rfl | rfl
    · exact hcase'
    · exact .inr (hcase'.elim id id)
  lease hx := by
    obtain ⟨l', hl', hcase⟩ := h.lease hx
    obtain ⟨l'', hl'', hcase'⟩ := k.lease hl'
    refine ⟨l'', hl'', ?_⟩
    rcases hcase with rfl | ⟨hact, st, hst, rfl⟩
    · exact hcase'
    · rcases hcase' with rfl | ⟨hact', -⟩
      · exact .inr ⟨hact, st, hst, rfl⟩
      · exact absurd hact' hst
  session hi := k.session (h.session hi)
  effect hx := k.effect (h.effect hx)
  disabled hk := k.disabled (h.disabled hk)
  presign hp := by
    obtain ⟨p', hp', hb, hd, hav⟩ := h.presign hp
    obtain ⟨p'', hp'', hb', hd', hav'⟩ := k.presign hp'
    refine ⟨p'', hp'', hb'.trans hb, hd'.trans hd, fun hst => ?_⟩
    obtain rfl := hav' hst
    exact hav hst
  attempt ha := by
    obtain ⟨a', ha', h₁, h₂, h₃, h₄⟩ := h.attempt ha
    obtain ⟨a'', ha'', k₁, k₂, k₃, k₄⟩ := k.attempt ha'
    exact ⟨a'', ha'', k₁.trans h₁, k₂.trans h₂, k₃.trans h₃, k₄.trans h₄⟩
  cutover hc := by
    obtain ⟨c', hc', hf, hact⟩ := h.cutover hc
    obtain ⟨c'', hc'', hf', hact'⟩ := k.cutover hc'
    refine ⟨c'', hc'', hf'.trans hf, fun hst => ?_⟩
    obtain rfl := hact' hst
    exact hact hst
  tombstones := k.tombstones.trans h.tombstones
  nextLease := h.nextLease.trans k.nextLease
  nextCutover := h.nextCutover.trans k.nextCutover
  newLease hx hle := by
    obtain ⟨l, hl⟩ := k.newLease hx (hle.trans h.nextLease)
    exact h.newLease hl hle
  newCutover hx hle := by
    obtain ⟨c, hc⟩ := k.newCutover hx (hle.trans h.nextCutover)
    exact h.newCutover hc hle
  newEffect hx := by
    rcases k.newEffect hx with ht | hnew
    · refine (h.newEffect ht).imp id fun hnew hk => ?_
      obtain ⟨r, hr⟩ := hnew hk
      obtain ⟨r', hr', -⟩ := k.generation hr
      exact ⟨r', hr'⟩
    · exact .inr hnew

/-! ## What evolution keeps -/

theorem Evolves.generation_retired (h : Evolves s t) {b : GenerationBinding}
    {r : GenerationRecord} (hb : s.generations.lookup b = some r) (hr : r.status = .retired) :
    ∃ r', t.generations.lookup b = some r' ∧ r'.status = .retired := by
  obtain ⟨r', hr', rfl | rfl⟩ := h.generation hb
  · exact ⟨r', hr', hr⟩
  · exact ⟨_, hr', rfl⟩

theorem Evolves.lease_terminal (h : Evolves s t) {x : Nat} {l : RunLease}
    (hx : s.leasesByToken.lookup x = some l) (hl : l.state ≠ .active) :
    t.leasesByToken.lookup x = some l := by
  obtain ⟨l', hl', rfl | ⟨hact, -⟩⟩ := h.lease hx
  · exact hl'
  · exact absurd hact hl

theorem Evolves.lease_run (h : Evolves s t) {x : Nat} {l : RunLease}
    (hx : s.leasesByToken.lookup x = some l) :
    ∃ l', t.leasesByToken.lookup x = some l' ∧ l'.binding = l.binding ∧ l'.kind = l.kind := by
  obtain ⟨l', hl', rfl | ⟨-, st, -, rfl⟩⟩ := h.lease hx
  · exact ⟨l', hl', rfl, rfl⟩
  · exact ⟨_, hl', rfl, rfl⟩

theorem EffectOk.mono (h : Evolves s t) {l : RunLease} {e : StoredLeaseEffect}
    (he : EffectOk s l e) : EffectOk t l e := by
  unfold EffectOk at he ⊢
  cases hk : e.kind with
  | presign =>
    simp only [hk] at he ⊢
    obtain ⟨h₁, h₂, h₃, h₄, h₅, h₆, p, hp, hb⟩ := he
    obtain ⟨p', hp', hb', -⟩ := h.presign hp
    exact ⟨h₁, h₂, h₃, h₄, h₅, h₆, p', hp', hb'.trans hb⟩
  | cutover =>
    simp only [hk] at he ⊢
    obtain ⟨h₁, h₂, h₃, c, hc, hs, ht⟩ := he
    obtain ⟨c', hc', hf, -⟩ := h.cutover hc
    exact ⟨h₁, h₂, h₃, c', hc', hf ▸ hs, hf ▸ ht⟩
  | refreshFailed =>
    simp only [hk] at he ⊢
    obtain ⟨h₁, h₂, h₃, h₄, d, hd, hrest⟩ := he
    exact ⟨h₁, h₂, h₃, h₄, d, h.disabled hd, hrest⟩
  | childGeneration =>
    simp only [hk] at he ⊢
    exact he
  | reshareReceiverGeneration =>
    simp only [hk] at he ⊢
    obtain ⟨h₁, h₂, h₃, h₄, h₅, h₆, h₇, h₈, r, hr⟩ := he
    obtain ⟨r', hr', -⟩ := h.generation hr
    exact ⟨h₁, h₂, h₃, h₄, h₅, h₆, h₇, h₈, r', hr'⟩
  | retirement =>
    simp only [hk] at he ⊢
    obtain ⟨h₁, h₂, h₃, h₄, r, hr, hst⟩ := he
    exact ⟨h₁, h₂, h₃, h₄, h.generation_retired hr hst⟩

theorem EffectsOk.mono (h : Evolves s t) (heff : t.leaseEffects = s.leaseEffects)
    (he : EffectsOk s) : EffectsOk t where
  effect hx := by
    rw [heff] at hx
    obtain ⟨hx', l, hl, hst, hok⟩ := he.effect hx
    exact ⟨hx', l, h.lease_terminal hl hst, hst, hok.mono h⟩

theorem ReceiverNamesFresh.of_no_tombstones [Sha256] (h : s.tombstones = ∅) :
    ReceiverNamesFresh s where
  fresh _ := by
    rw [tombstonedLocked_eq_false, h]
    exact Finmap.notMem_empty

theorem ChildrenStored.new : ChildrenStored newMemoryLifecycleStore where
  child hx := nomatch hx

theorem ChildrenStored.mono (h : Evolves s t) (hs : ChildrenStored s) : ChildrenStored t where
  child hx hk := by
    rcases h.newEffect hx with hold | hnew
    · obtain ⟨r, hr⟩ := hs.child hold hk
      obtain ⟨r', hr', -⟩ := h.generation hr
      exact ⟨r', hr'⟩
    · exact hnew hk

/-- New sessions must not reuse the tombstoned one a disabled key remembers. -/
theorem DisabledOk.mono [Sha256] (h : Evolves s t) (hdis : t.refreshDisabled = s.refreshDisabled)
    (hsess : ∀ i, s.leaseBySession.lookup i = none → s.tombstonedLocked .session i.toList = true →
      t.leaseBySession.lookup i = none) (hd : DisabledOk s) : DisabledOk t where
  record hk := by
    rw [hdis] at hk
    obtain ⟨h₁, h₂, h₃, ⟨hnone, y, hy, hkey⟩ | ⟨x, l, e, hx, hl, hkey, he, hkind⟩⟩ := hd.record hk
    · have htomb : s.tombstonedLocked .session _ = true := decide_eq_true (Finmap.mem_iff.mpr ⟨y, hy⟩)
      exact ⟨h₁, h₂, h₃, .inl ⟨hsess _ hnone htomb, y, h.tombstones ▸ hy, hkey⟩⟩
    · obtain ⟨l', hl', hb, -⟩ := h.lease_run hl
      exact ⟨h₁, h₂, h₃, .inr ⟨x, l', e, h.session hx, hl', hb ▸ hkey, h.effect he, hkind⟩⟩

/-- The lease an attempt signs under stays. -/
theorem AttemptsOk.lease_mono [Sha256] (h : Evolves s t) (ha : AttemptsOk s) {id : GoString}
    {a : SignAttemptRecord} (hid : s.attempts.lookup id = some a) :
    ∃ x l, t.leaseBySession.lookup a.intent.sessionID = some x ∧
      t.leasesByToken.lookup x = some l ∧ l.binding = a.binding ∧ l.kind = .sign := by
  obtain ⟨x, l, hx, hl, hb, hk⟩ := ha.lease hid
  obtain ⟨l', hl', hb', hk'⟩ := h.lease_run hl
  exact ⟨x, l', h.session hx, hl', hb'.trans hb, hk'.trans hk⟩

/-- A terminal cutover's record stays as it is; an active one needs its fence kept. -/
theorem CutoverStateOk.mono [Sha256] (h : Evolves s t) {c : StoredCutover}
    (hok : CutoverStateOk s c)
    (hactive : c.state = .active →
      s.cutoverByKey.lookup c.fence.source.keyID = some c.fence.token → Fenced s c.fence →
      t.cutoverByKey.lookup c.fence.source.keyID = some c.fence.token ∧ Fenced t c.fence) :
    CutoverStateOk t c := by
  unfold CutoverStateOk at hok ⊢
  cases hstate : c.state with
  | active =>
    simp only [hstate] at hok ⊢
    obtain ⟨hidx, hf⟩ := hactive hstate hok.1 hok.2.1
    exact ⟨hidx, hf, hok.2.2⟩
  | committed =>
    simp only [hstate] at hok ⊢
    obtain ⟨h₁, h₂, h₃, ⟨r, hr, hret⟩, r', hr', hdig⟩ := hok
    refine ⟨h₁, h₂, h₃, h.generation_retired hr hret, ?_⟩
    obtain ⟨q, hq, rfl | rfl⟩ := h.generation hr'
    · exact ⟨q, hq, hdig⟩
    · exact ⟨_, hq, by simp⟩
  | aborted => simpa only [hstate] using hok

theorem CutoversOk.mono [Sha256] (h : Evolves s t) (hcut : t.cutoversByToken = s.cutoversByToken)
    (hfen : t.cutoverByKey = s.cutoverByKey)
    (hfenced : ∀ {x c}, s.cutoversByToken.lookup x = some c → c.state = .active →
      Fenced s c.fence → Fenced t c.fence) (hc : CutoversOk s) : CutoversOk t where
  record hx := by
    rw [hcut] at hx
    obtain ⟨h₁, h₂, h₃⟩ := hc.record hx
    exact ⟨h₁, h₂.trans h.nextCutover, h₃⟩
  state hx := by
    rw [hcut] at hx
    exact (hc.state hx).mono h fun hact hidx hf => ⟨hfen ▸ hidx, hfenced hx hact hf⟩
  index hk := by
    rw [hfen] at hk
    rw [hcut]
    exact hc.index hk

/-- A presign's state depends on the current index at its own key and on the attempt it names,
which may have moved on. -/
theorem PresignStateOk.mono [Sha256] {id : GoString} {p : StoredPresign} (h : PresignStateOk s id p)
    (hcur : s.current.lookup p.binding.keyID = some p.binding →
      t.current.lookup p.binding.keyID = some p.binding)
    (hatt : ∀ {a}, s.attempts.lookup p.attemptID = some a → a.presignID = id →
      ∃ a', t.attempts.lookup p.attemptID = some a' ∧ a'.binding = a.binding ∧
        a'.presignID = a.presignID ∧ a'.aborted = a.aborted ∧
        (a.terminal = true → a'.terminal = true)) :
    PresignStateOk t id p := by
  unfold PresignStateOk at h ⊢
  cases hstate : p.state with
  | available =>
    simp only [hstate] at h ⊢
    exact ⟨hcur h.1, h.2⟩
  | claimed =>
    simp only [hstate] at h ⊢
    obtain ⟨h₁, h₂, h₃, h₄, h₅, a, ha, hb, hid, hab⟩ := h
    obtain ⟨a', ha', hb', hid', hab', -⟩ := hatt ha hid
    exact ⟨hcur h₁, h₂, h₃, h₄, h₅, a', ha', hb'.trans hb, hid'.trans hid, hab'.trans hab⟩
  | burned =>
    simp only [hstate] at h ⊢
    obtain ⟨h₁, h₂, h₃, hor⟩ := h
    refine ⟨h₁, h₂, h₃, fun hne => ?_⟩
    obtain ⟨a, ha, hb, hid, hterm⟩ := hor hne
    obtain ⟨a', ha', hb', hid', -, hterm'⟩ := hatt ha hid
    exact ⟨a', ha', hb'.trans hb, hid'.trans hid, hterm' hterm⟩

/-- The current index only grew, and presigns and attempts are as before. -/
theorem PresignsOk.mono [Sha256] (hp : PresignsOk s)
    (hcur : ∀ {k b}, s.current.lookup k = some b → t.current.lookup k = some b)
    (hpre : t.presigns = s.presigns) (hatt : t.attempts = s.attempts) : PresignsOk t where
  record h := hp.record (hpre ▸ h)
  state h := (hp.state (hpre ▸ h)).mono hcur fun ha _ => ⟨_, hatt ▸ ha, rfl, rfl, rfl, id⟩
  artifact h h' := hp.artifact (hpre ▸ h) (hpre ▸ h')

/-- The presign of a pending attempt is claimed by it. -/
theorem AttemptsOk.claimed [Sha256] (h : AttemptsOk s) {i : GoString} {a : SignAttemptRecord}
    (hi : s.attempts.lookup i = some a) (hpend : a.terminal = false) :
    ∃ p, s.presigns.lookup a.presignID = some p ∧ p.state = .claimed ∧ p.attemptID = i ∧
      p.binding = a.binding := by
  obtain ⟨p, hp, hb, hatt, -, hlive⟩ := h.presign hi
  have hab : a.aborted = false := (Bool.or_eq_false_iff.mp hpend).1
  refine ⟨p, hp, ?_, hatt.trans (h.record hi).1, hb⟩
  rcases (hlive hab).2 with hst | ⟨hterm, -⟩
  · exact hst
  · rw [hpend] at hterm
    cases hterm

theorem AttemptsOk.mono [Sha256] (h : Evolves s t)
    (hcur : ∀ {k b}, s.current.lookup k = some b → t.current.lookup k = some b)
    (hpre : t.presigns = s.presigns) (hatt : t.attempts = s.attempts) (ha : AttemptsOk s) :
    AttemptsOk t where
  record hi := ha.record (hatt ▸ hi)
  progress hi := ha.progress (hatt ▸ hi)
  lease hi := ha.lease_mono h (hatt ▸ hi)
  pending hi hterm := hcur (ha.pending (hatt ▸ hi) hterm)
  presign hi := by
    rw [hpre]
    exact ha.presign (hatt ▸ hi)

end Tss.Lifecycle
