import Tss.Lifecycle.Accepts
import Tss.Lifecycle.Steps

/-!
# Whole histories of the memory store

What a run from the empty store can never do, in any order of calls and
with any arguments. Each result is a step lemma, then the induction over
the run through the rules of `Tss.Lib.Run`.
-/

namespace Tss.Lifecycle

open Proc MemoryLifecycleStore

variable [Sha256] {s t : MemoryLifecycleStore}

/-! ## The two ends of a run -/

/-- Every state a run passes through is a later state of the ones before. -/
theorem evolves_along {before ops : List Op} (h : before <+: ops) :
    Evolves (runOps newMemoryLifecycleStore before) (runOps newMemoryLifecycleStore ops) := by
  obtain ⟨after, rfl⟩ := h
  rw [runOps, runOps, Run.final_append]
  exact runOps_evolves (runOps_wf WF.new before) after

/-- The load-time validator accepts every state the operations produce. -/
theorem runOps_validates (ops : List Op) : Validates (runOps newMemoryLifecycleStore ops) := by
  have hev := runOps_evolves WF.new ops
  exact (runOps_wf WF.new ops).validates_iff.mpr
    ⟨.mono hev .new, .of_no_tombstones hev.tombstones⟩

/-- A call that returns an error leaves every map and counter as it was. -/
theorem failed_call_changes_nothing (ops : List Op) (op : Op) (e : LifecycleError)
    (hfail : (step (runOps newMemoryLifecycleStore ops) op).1 = .error e) :
    (step (runOps newMemoryLifecycleStore ops) op).2 = runOps newMemoryLifecycleStore ops :=
  step_failed (runOps_wf WF.new ops) (Prod.ext hfail rfl)

omit [Sha256] in
/-- An abort of an attempt that was never created fails. -/
theorem failed_abort_changes_nothing :
    letI := Sha256.firstBytes
    letI op : Op := .abortAttempt none
      ⟨⟨lit "key", lit "1", Vector.replicate 32 1⟩, lit "p", lit "a", List.replicate 32 1⟩ (lit "r")
    (step (runOps newMemoryLifecycleStore []) op).1 = .error .attemptNotFound ∧
      (step (runOps newMemoryLifecycleStore []) op).2 = runOps newMemoryLifecycleStore [] :=
  ⟨by decide +kernel, @failed_call_changes_nothing Sha256.firstBytes [] _ .attemptNotFound
    (by decide +kernel)⟩

/-! ## Presigns are used once -/

/-- The output of a `CommitSignAttempt` that created an attempt on the presign. -/
def createdOn (presignID : GoString) : Except LifecycleError Response → Bool
  | .ok (.commit commit) => commit.status = .created && commit.record.presignID = presignID
  | _ => false

/-- A stored presign that is no longer available: claimed or burned. -/
def Spent (presignID : GoString) (s : MemoryLifecycleStore) : Prop :=
  ∃ p, s.presigns.lookup presignID = some p ∧ p.state ≠ .available

omit [Sha256] in
theorem Spent.mono (h : Evolves s t) {id : GoString} (hs : Spent id s) : Spent id t := by
  obtain ⟨p, hp, hst⟩ := hs
  obtain ⟨p', hp', -, -, hav⟩ := h.presign hp
  refine ⟨p', hp', fun hst' => ?_⟩
  rw [hav hst'] at hst'
  exact hst hst'

/-- Only `CommitSignAttempt` reports a commit. -/
theorem step_commit {op : Op} {c : AttemptCommit} (h : (step s op).1 = .ok (.commit c)) :
    ∃ ctx binding presignID intent exactOutbox,
      exec (commitSignAttempt ctx binding presignID intent exactOutbox) s =
        (.ok c, (step s op).2) := by
  have hstep : exec op.call s = (.ok (.commit c), (step s op).2) := Prod.ext h rfl
  cases op <;> simp only [Op.call, exec_map_ok, reduceCtorEq, and_false, exists_false,
    Response.commit.injEq] at hstep
  obtain ⟨c', hok, rfl⟩ := hstep
  exact ⟨_, _, _, _, _, hok⟩

/-- A created attempt found its presign available and left it claimed. -/
theorem createdOn_spends {op : Op} {id : GoString} (h : createdOn id (step s op).1 = true) :
    ¬ Spent id s ∧ Spent id (step s op).2 := by
  obtain ⟨c, hc, hcreated, rfl⟩ : ∃ c, (step s op).1 = .ok (.commit c) ∧ c.status = .created ∧
      c.record.presignID = id := by
    unfold createdOn at h
    split at h
    · next c hc => exact ⟨c, hc, by simpa using h⟩
    · cases h
  obtain ⟨ctx, binding, presignID, intent, outbox, hok⟩ := step_commit hc
  obtain ⟨-, -, -, -, -, -, -, hcase⟩ := commitSignAttempt_ok.mp hok
  rcases hcase with ⟨_, -, -, rfl, -⟩ | ⟨-, -, -, -, p, hp, -, hst, rfl, ht⟩
  · cases hcreated
  · refine ⟨fun ⟨q, hq, hne⟩ => hne ?_, ?_⟩
    · exact Option.some.inj (hq.symm.trans hp) ▸ hst
    · rw [ht]
      exact ⟨_, Finmap.lookup_insert _, by simp⟩

/-- A spent presign has no secret material left and is not handed out. -/
theorem Spent.cleared (h : WF s) {id : GoString} (hs : Spent id s) :
    (∃ p, s.presigns.lookup id = some p ∧ p.blob = [] ∧ p.metadata = []) ∧
      ∀ ctx binding r, (step s (.preparePresignCandidate ctx binding id)).1 ≠ .ok r := by
  obtain ⟨p, hp, hne⟩ := hs
  have hst := h.presigns.state hp
  refine ⟨⟨p, hp, ?_⟩, fun ctx binding r hr => ?_⟩
  · unfold PresignStateOk at hst
    cases hstate : p.state with
    | available => exact absurd hstate hne
    | claimed =>
      simp only [hstate] at hst
      exact ⟨hst.2.1, hst.2.2.1⟩
    | burned =>
      simp only [hstate] at hst
      exact ⟨hst.1, hst.2.1⟩
  · have hstep : exec (Op.preparePresignCandidate ctx binding id).call s = (.ok r, _) :=
      Prod.ext hr rfl
    simp only [Op.call, exec_map_ok] at hstep
    obtain ⟨c, hok, -⟩ := hstep
    obtain ⟨-, -, -, -, -, q, hq, -, hav, -⟩ := preparePresignCandidate_ok.mp hok
    exact hne (Option.some.inj (hq.symm.trans hp) ▸ hav)

/-- A presign is used once: at most one attempt is ever created on it; once it is
claimed or burned its blob is never handed out again and its stored secrets stay
empty; and no two presigns ever stored, at any two moments, share an artifact digest. -/
theorem presign_one_use (ops : List Op) (id : GoString) :
    ((Run.outputs step newMemoryLifecycleStore ops).countP (createdOn id) ≤ 1) ∧
    (∀ before, before <+: ops → Spent id (runOps newMemoryLifecycleStore before) →
      Spent id (runOps newMemoryLifecycleStore ops) ∧
      (∃ p, (runOps newMemoryLifecycleStore ops).presigns.lookup id = some p ∧
        p.blob = [] ∧ p.metadata = []) ∧
      ∀ ctx binding r, (step (runOps newMemoryLifecycleStore ops)
        (.preparePresignCandidate ctx binding id)).1 ≠ .ok r) ∧
    ∀ before before' id' p p', before <+: ops → before' <+: ops →
      (runOps newMemoryLifecycleStore before).presigns.lookup id = some p →
      (runOps newMemoryLifecycleStore before').presigns.lookup id' = some p' →
      p.artifactDigest = p'.artifactDigest → id = id' := by
  refine ⟨?_, fun before hpre hs => ?_, fun before before' id' p p' hpre hpre' hp hp' he => ?_⟩
  · exact Run.countP_outputs_le_one WF (Spent id) (createdOn id)
      (fun s op h => (step_advances h op).wf)
      (fun s op h hs => hs.mono (step_advances h op).evolves)
      (fun s op _ => createdOn_spends) WF.new ops
  · have hs' := hs.mono (evolves_along hpre)
    exact ⟨hs', hs'.cleared (runOps_wf WF.new ops)⟩
  · -- both are still stored at the end of the run, with the digests they had
    obtain ⟨q, hq, -, hd, -⟩ := (evolves_along hpre).presign hp
    obtain ⟨q', hq', -, hd', -⟩ := (evolves_along hpre').presign hp'
    exact (runOps_wf WF.new ops).presigns.artifact hq hq' (hd.trans (he.trans hd'.symm))

/-! ## Generations only move forward -/

/-- The call commits or aborts exactly this fence. -/
def Op.Resolves (fence : CutoverFence) : Op → Prop
  | .commitCutover _ f _ _ => f = fence
  | .abortCutover _ f _ => f = fence
  | _ => False

/-- A new fence takes a token no stored one has. -/
theorem WF.lookup_addFence (h : WF s) {x : Nat} {c new : StoredCutover}
    (hc : s.cutoversByToken.lookup x = some c) :
    (s.cutoversByToken.insert (s.nextCutoverToken + 1) new).lookup x = some c := by
  have := (h.cutovers.record hc).2.1
  rw [Finmap.lookup_insert_of_ne _ (by omega)]
  exact hc

/-- No other successful call touches a stored fence. -/
theorem Op.call_keeps_fence (h : WF s) {op : Op} {r : Response}
    (hok : exec op.call s = (.ok r, t)) {x : Nat} {c : StoredCutover}
    (hc : s.cutoversByToken.lookup x = some c) :
    t.cutoversByToken.lookup x = some c ∨ op.Resolves c.fence := by
  cases op <;> simp only [Op.call, exec_map_ok] at hok <;> obtain ⟨a, hok, -⟩ := hok
  case installInitialGeneration =>
    obtain ⟨-, -, -, -, -, -, ⟨-, -, -, -, -, rfl⟩ | ⟨-, -, -, -, rfl⟩⟩ :=
      installInitialGeneration_ok.mp hok <;> exact .inl hc
  case loadCurrentGeneration =>
    obtain ⟨-, -, _, -, -, -, rfl⟩ := loadCurrentGeneration_ok.mp hok
    exact .inl hc
  case acquireRunLease =>
    obtain ⟨-, -, -, -, -, -, ⟨_, -, -, -, -, -, -, -, rfl⟩ | ⟨-, -, -, rfl⟩⟩ :=
      acquireRunLease_ok.mp hok <;> exact .inl hc
  case acquireReshareReceiverLease =>
    obtain ⟨-, -, -, ⟨_, -, -, -, -, rfl⟩ | ⟨-, -, -, -, -, -, -, rfl⟩⟩ :=
      acquireReshareReceiverLease_ok.mp hok <;> exact .inl hc
  case queryRunLease =>
    obtain ⟨-, -, -, -, -, _, -, -, -, -, -, rfl⟩ := queryRunLease_ok.mp hok
    exact .inl hc
  case finishRunLease =>
    obtain ⟨-, -, -, _, -, -, ⟨-, rfl⟩ | ⟨-, -, -, rfl⟩⟩ := finishRunLease_ok.mp hok <;>
      exact .inl hc
  case markProtocolRefreshFailed =>
    obtain ⟨-, -, -, -, -, ⟨_, -, -, -, -, -, -, rfl⟩ | ⟨-, _, -, -, -, -, -, rfl⟩⟩ :=
      markProtocolRefreshFailed_ok.mp hok <;> exact .inl hc
  case commitAvailablePresignFromLease =>
    obtain ⟨-, -, -, -, -, -, -, -, -, -,
      ⟨_, _, -, -, -, -, -, -, -, -, rfl⟩ | ⟨-, _, -, -, -, -, -, -, -, rfl⟩⟩ :=
      commitAvailablePresignFromLease_ok.mp hok <;> exact .inl hc
  case preparePresignCandidate =>
    obtain ⟨-, -, -, -, -, _, -, -, -, -, rfl⟩ := preparePresignCandidate_ok.mp hok
    exact .inl hc
  case commitSignAttempt =>
    obtain ⟨-, -, -, -, -, -, -, ⟨_, -, -, -, rfl⟩ | ⟨-, -, -, -, _, -, -, -, -, rfl⟩⟩ :=
      commitSignAttempt_ok.mp hok <;> exact .inl hc
  case queryAttemptOutcome =>
    obtain ⟨-, -, -, -, -, rfl⟩ := queryAttemptOutcome_ok.mp hok
    exact .inl hc
  case markAttemptDelivered =>
    obtain ⟨-, -, -, _, -, -, -, ⟨-, -, -, rfl⟩ | ⟨-, -, rfl⟩⟩ :=
      recordAttemptProgress_ok.mp hok <;> exact .inl hc
  case completeAttempt =>
    obtain ⟨-, -, -, _, -, -, -, ⟨-, -, -, rfl⟩ | ⟨-, -, rfl⟩⟩ :=
      recordAttemptProgress_ok.mp hok <;> exact .inl hc
  case abortAttempt =>
    obtain ⟨-, -, -, _, -, -, ⟨-, -, -, rfl⟩ | ⟨-, -, _, -, -, -, rfl⟩⟩ :=
      abortAttempt_ok.mp hok <;> exact .inl hc
  case burnPresign =>
    obtain ⟨-, -, -, -, _, -, -, ⟨-, -, rfl⟩ | ⟨-, rfl⟩⟩ := burnPresign_ok.mp hok <;> exact .inl hc
  case beginCutover =>
    obtain ⟨-, -, ⟨_, _, -, -, -, -, -, -, rfl⟩ | ⟨-, -, -, -, -, rfl, rfl⟩⟩ :=
      beginCutover_ok.mp hok
    · exact .inl hc
    · exact .inl (h.lookup_addFence hc)
  case beginCutoverFromLease =>
    obtain ⟨-, -, -, -, -, ⟨_, _, -, -, -, -, -, -, -, -, rfl⟩ |
      ⟨-, _, -, -, -, -, -, -, -, -, rfl, rfl⟩⟩ := beginCutoverFromLease_ok.mp hok
    · exact .inl hc
    · exact .inl (h.lookup_addFence hc)
  case commitRetirementFromLease =>
    obtain ⟨-, -, -, -, -, ⟨_, _, -, -, -, -, -, -, -, -, rfl⟩ |
      ⟨-, _, _, -, -, -, -, -, -, -, -, -, -, -, rfl⟩⟩ := commitRetirementFromLease_ok.mp hok <;>
      exact .inl hc
  case commitCutover ctx fence targetBlob targetMetadata =>
    obtain ⟨-, -, -, -, c', hc', rfl, ⟨-, -, -, -, -, rfl⟩ | ⟨-, -, -, -, -, -, _, -, -, -, rfl⟩⟩ :=
      commitCutover_ok.mp hok
    · exact .inl hc
    · by_cases hx : x = c'.fence.token
      · rw [hx, hc'] at hc
        exact .inr (Option.some.inj hc ▸ rfl)
      · exact .inl ((Finmap.lookup_insert_of_ne _ hx).trans hc)
  case abortCutover ctx fence reason =>
    obtain ⟨-, -, -, c', hc', rfl, ⟨-, -, rfl⟩ | ⟨-, -, rfl⟩⟩ := abortCutover_ok.mp hok
    · exact .inl hc
    · by_cases hx : x = c'.fence.token
      · rw [hx, hc'] at hc
        exact .inr (Option.some.inj hc ▸ rfl)
      · exact .inl ((Finmap.lookup_insert_of_ne _ hx).trans hc)
  case commitInitialGenerationFromLease =>
    obtain ⟨-, -, -, -, -, -, -, -, -, ⟨_, -, -, -, -, -, -, -, -, rfl⟩ |
      ⟨-, _, -, -, -, -, -, -, -, -, -, -, rfl⟩⟩ := commitInitialGenerationFromLease_ok.mp hok <;>
      exact .inl hc
  case commitInitialGenerationFromReshareLease =>
    obtain ⟨-, -, -, -, -, -, -, -, -, -, ⟨_, -, -, -, -, -, -, -, -, -, rfl⟩ |
      ⟨-, _, _, -, -, -, -, -, -, -, -, -, -, -, -, -, rfl⟩⟩ :=
      commitInitialGenerationFromReshareLease_ok.mp hok <;> exact .inl hc

theorem step_keeps_fence (h : WF s) {x : Nat} {c : StoredCutover}
    (hc : s.cutoversByToken.lookup x = some c) (op : Op)
    (hop : op.Resolves c.fence → ∃ e, (step s op).1 = .error e) :
    (step s op).2.cutoversByToken.lookup x = some c := by
  cases hres : (step s op).1 with
  | error e =>
    rw [step_failed h (Prod.ext hres rfl : step s op = (.error e, (step s op).2))]
    exact hc
  | ok r =>
    rcases op.call_keeps_fence h (Prod.ext hres rfl : exec op.call s = (.ok r, (step s op).2)) hc
      with hkeep | hresolves
    · exact hkeep
    · obtain ⟨e, he⟩ := hop hresolves
      rw [hres] at he
      cases he

/-- While no call on exactly this fence succeeds, its record stays. -/
theorem runOps_keeps_fence (h : WF s) {x : Nat} {c : StoredCutover}
    (hc : s.cutoversByToken.lookup x = some c) (ops : List Op)
    (hops : ∀ before op after, ops = before ++ op :: after → op.Resolves c.fence →
      ∃ e, (step (runOps s before) op).1 = .error e) :
    (runOps s ops).cutoversByToken.lookup x = some c := by
  induction ops generalizing s with
  | nil => exact hc
  | cons op ops ih =>
    refine ih (step_advances h op).wf (step_keeps_fence h hc op (hops [] op ops rfl)) ?_
    intro before op' after hsplit
    exact hops (op :: before) op' after (by rw [hsplit]; rfl)

/-- Generation history is monotone. A stored generation stays stored; while it is
current it is the record that was installed, once retired it stays retired and
empty; names are unique among the stored generations of a key; and a key with an
active fence keeps the fence and its source until a call on exactly that fence
succeeds. -/
theorem generation_history (before after : List Op) :
    (∀ b r, (runOps newMemoryLifecycleStore before).generations.lookup b = some r →
      ∃ r', (runOps newMemoryLifecycleStore (before ++ after)).generations.lookup b = some r' ∧
        (r'.status = .current → r' = r) ∧
        (r'.status = .retired → r'.blob = [] ∧ r'.metadata = []) ∧
        (r'.status = .current ↔
          (runOps newMemoryLifecycleStore (before ++ after)).current.lookup b.keyID = some b)) ∧
    (∀ b b' r r', (runOps newMemoryLifecycleStore before).generations.lookup b = some r →
      (runOps newMemoryLifecycleStore before).generations.lookup b' = some r' →
      b.keyID = b'.keyID → b.keyGeneration = b'.keyGeneration → b = b') ∧
    ∀ x c, (runOps newMemoryLifecycleStore before).cutoversByToken.lookup x = some c →
      c.state = .active →
      (∀ mid op rest, after = mid ++ op :: rest → op.Resolves c.fence →
        ∃ e, (step (runOps newMemoryLifecycleStore (before ++ mid)) op).1 = .error e) →
      (runOps newMemoryLifecycleStore (before ++ after)).current.lookup c.fence.source.keyID =
          some c.fence.source ∧
        (runOps newMemoryLifecycleStore (before ++ after)).cutoversByToken.lookup x = some c := by
  have hbefore := runOps_wf WF.new before
  have hafter := runOps_wf WF.new (before ++ after)
  refine ⟨fun b r hb => ?_, fun b b' r r' hb hb' => hbefore.generations.name hb hb',
    fun x c hc hact hops => ?_⟩
  · obtain ⟨r', hr', hcase⟩ := (evolves_along (List.prefix_append before after)).generation hb
    refine ⟨r', hr', fun hst => ?_, hafter.generations.retired hr', fun hst => ?_, fun hcur => ?_⟩
    · rcases hcase with rfl | rfl
      · rfl
      · cases hst
    · exact (hafter.generations.live hr' hst).1
    · obtain ⟨-, q, hq, hst⟩ := hafter.generations.index hcur
      exact Option.some.inj (hq.symm.trans hr') ▸ hst
  · have hsplit : ∀ mid, runOps newMemoryLifecycleStore (before ++ mid) =
        runOps (runOps newMemoryLifecycleStore before) mid := fun mid =>
      Run.final_append step _ before mid
    have hkept : (runOps newMemoryLifecycleStore (before ++ after)).cutoversByToken.lookup x =
        some c := by
      rw [hsplit]
      refine runOps_keeps_fence hbefore hc after fun mid op rest he hres => ?_
      rw [← hsplit]
      exact hops mid op rest he hres
    have hst := hafter.cutovers.state hkept
    simp only [CutoverStateOk, hact] at hst
    exact ⟨hst.2.1.current, hkept⟩

/-! ## Leases -/

/-- A lease stays stored, and only its state changes, once, from active. A session never gets a
second lease. A lease of an exclusive kind is the only active one of its key. A key whose refresh
failed gets no lease for a refresh again. -/
theorem lease_history (before after : List Op) :
    let s := runOps newMemoryLifecycleStore before
    let t := runOps newMemoryLifecycleStore (before ++ after)
    (∀ x l, s.leasesByToken.lookup x = some l → ∃ state,
      t.leasesByToken.lookup x = some { l with state } ∧ (l.state ≠ .active → state = l.state)) ∧
    (∀ x l y l', s.leasesByToken.lookup x = some l → t.leasesByToken.lookup y = some l' →
      l'.sessionID = l.sessionID → y = x) ∧
    (∀ x l y l', t.leasesByToken.lookup x = some l → l.state = .active →
      exclusiveLeaseRunKind l.kind = true → t.leasesByToken.lookup y = some l' →
      l'.state = .active → l'.binding.keyID = l.binding.keyID → y = x) ∧
    ∀ binding, binding.keyID ∈ s.refreshDisabled → ∀ ctx sessionID,
      ∃ e, (step t (.acquireRunLease ctx binding .refresh sessionID)).1 = .error e := by
  intro s t
  have hwf : WF t := runOps_wf WF.new (before ++ after)
  have hev : Evolves s t := evolves_along (List.prefix_append before after)
  have hkept : ∀ x l, s.leasesByToken.lookup x = some l → ∃ state,
      t.leasesByToken.lookup x = some { l with state } ∧
        (l.state ≠ .active → state = l.state) := by
    intro x l hl
    obtain ⟨l', hl', rfl | ⟨hactive, state, -, rfl⟩⟩ := hev.lease hl
    · exact ⟨l'.state, hl', fun _ => rfl⟩
    · exact ⟨state, hl', fun hnot => absurd hactive hnot⟩
  refine ⟨hkept, ?_, fun x l y l' => hwf.active.exclusive, ?_⟩
  · intro x l y l' hl hl' hsession
    obtain ⟨state, hx, -⟩ := hkept x l hl
    -- the index of sessions has one token for both
    have hindex := (hwf.leases.lease hl').2.2.2.1
    rw [hsession, (hwf.leases.lease hx).2.2.2.1] at hindex
    exact (Option.some.inj hindex).symm
  · intro binding hmem ctx sessionID
    cases hr : step t (.acquireRunLease ctx binding .refresh sessionID) with
    | mk r u =>
      cases r with
      | error e => exact ⟨e, rfl⟩
      | ok r =>
        obtain ⟨_, hok, -⟩ := exec_map_ok.mp hr
        obtain ⟨-, -, -, -, -, hfree, -⟩ := acquireRunLease_ok.mp hok
        obtain ⟨d, hd⟩ := Finmap.mem_iff.mp hmem
        exact absurd (Finmap.mem_iff.mpr ⟨d, hev.disabled hd⟩) (hfree rfl)

end Tss.Lifecycle
