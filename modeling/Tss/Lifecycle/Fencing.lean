import Tss.Lifecycle.Corruption
import Tss.Lifecycle.History

/-!
# A fenced cutover can be finished

While a fence is active its key is frozen: no call takes a lease on the
key, adds a presign or an attempt to it or installs a generation under
it, except the commit of that fence. The six checks `CommitCutover` makes
before it switches generations therefore all pass, whatever ran since the
fence was taken.
-/

namespace Tss.Lifecycle

open Proc MemoryLifecycleStore

variable [Sha256] {s t : MemoryLifecycleStore}

/-! ## What a call adds -/

/-- The call commits exactly this fence. -/
def Op.Commits (fence : CutoverFence) : Op → Prop
  | .commitCutover _ f _ _ => f = fence
  | _ => False

/-- What a call adds to a key, it adds while the key has no fence; only the commit
of a fence installs a generation on a fenced key. -/
structure Adds (op : Op) (s t : MemoryLifecycleStore) : Prop where
  lease : FMap.AddsOnly (fun _ l => l.binding.keyID ∉ s.cutoverByKey)
    s.leasesByToken t.leasesByToken
  presign : FMap.AddsOnly (fun _ p => p.binding.keyID ∉ s.cutoverByKey) s.presigns t.presigns
  attempt : FMap.AddsOnly (fun _ a => a.binding.keyID ∉ s.cutoverByKey) s.attempts t.attempts
  generation : FMap.AddsOnly
    (fun b _ => b.keyID ∉ s.cutoverByKey ∨ ∃ x c, s.cutoverByKey.lookup b.keyID = some x ∧
      s.cutoversByToken.lookup x = some c ∧ op.Commits c.fence)
    s.generations t.generations

omit [Sha256] in
theorem Adds.refl (op : Op) (s : MemoryLifecycleStore) : Adds op s s :=
  ⟨.refl, .refl, .refl, .refl⟩

theorem WF.notMem_cutoverByKey (h : WF s) {k : GoString} (hcur : k ∉ s.current) :
    k ∉ s.cutoverByKey := by
  rw [FMap.notMem_iff_lookup] at hcur ⊢
  exact h.unfenced_of_vacant hcur

theorem acquireRunLease_adds (h : WF s) {op : Op} {ctx : Context} {binding : GenerationBinding}
    {kind : RunKind} {sessionID : SessionID} {r : RunLease}
    (hok : exec (acquireRunLease ctx binding kind sessionID) s = (.ok r, t)) : Adds op s t := by
  obtain ⟨-, -, -, -, -, -, ⟨_, -, -, -, -, -, -, -, rfl⟩ | ⟨-, hadm, rfl, rfl⟩⟩ :=
    acquireRunLease_ok.mp hok
  · exact .refl op t
  · have hfree : binding.keyID ∉ s.cutoverByKey := by
      rcases runLeaseAdmission_eq_none.mp hadm with ⟨-, hcur, -⟩ | ⟨-, -, hfen, -⟩
      · exact h.notMem_cutoverByKey hcur
      · exact hfen
    exact { Adds.refl op s with lease := .insert .refl hfree }

theorem Op.call_adds (h : WF s) {op : Op} {r : Response} (hok : exec op.call s = (.ok r, t)) :
    Adds op s t := by
  have hrefl := Adds.refl op s
  cases op <;> obtain ⟨a, hok, -⟩ := exec_map_ok.mp hok
  case installInitialGeneration =>
    obtain ⟨-, -, -, -, -, -, ⟨-, -, -, -, -, rfl⟩ | ⟨hcur, -, -, rfl, rfl⟩⟩ :=
      installInitialGeneration_ok.mp hok
    · exact hrefl
    · have hfree := h.notMem_cutoverByKey (FMap.notMem_iff_lookup.mpr hcur)
      exact { hrefl with generation := .insert .refl (.inl hfree) }
  case loadCurrentGeneration =>
    obtain ⟨-, -, _, -, -, -, rfl⟩ := loadCurrentGeneration_ok.mp hok
    exact hrefl
  case acquireRunLease => exact acquireRunLease_adds h hok
  case acquireReshareReceiverLease =>
    obtain ⟨-, -, -, ⟨_, -, -, -, -, rfl⟩ | ⟨-, -, -, hfen, -, -, rfl, rfl⟩⟩ :=
      acquireReshareReceiverLease_ok.mp hok
    · exact hrefl
    · exact { hrefl with lease := .insert .refl hfen }
  case queryRunLease =>
    obtain ⟨-, -, -, -, -, _, -, -, -, -, -, rfl⟩ := queryRunLease_ok.mp hok
    exact hrefl
  case finishRunLease =>
    obtain ⟨-, -, -, _, hl, -, ⟨-, rfl⟩ | ⟨-, -, -, rfl⟩⟩ := finishRunLease_ok.mp hok
    · exact hrefl
    · exact { hrefl with lease := .update .refl hl }
  case markProtocolRefreshFailed =>
    obtain ⟨-, -, -, -, -, ⟨_, -, -, -, -, -, -, rfl⟩ | ⟨-, _, hl, -, -, -, -, rfl⟩⟩ :=
      markProtocolRefreshFailed_ok.mp hok
    · exact hrefl
    · exact { hrefl with lease := .update .refl hl }
  case commitAvailablePresignFromLease =>
    obtain ⟨-, -, -, -, -, -, -, -, -, -,
      ⟨_, _, -, -, -, -, -, -, -, -, rfl⟩ | ⟨-, _, hl, -, -, -, hfen, -, -, rfl⟩⟩ :=
      commitAvailablePresignFromLease_ok.mp hok
    · exact hrefl
    · exact { hrefl with lease := .update .refl hl, presign := .insert .refl hfen }
  case preparePresignCandidate =>
    obtain ⟨-, -, -, -, -, _, -, -, -, -, rfl⟩ := preparePresignCandidate_ok.mp hok
    exact hrefl
  case commitSignAttempt =>
    obtain ⟨-, -, -, -, -, -, -, ⟨_, -, -, -, rfl⟩ | ⟨-, -, hfen, -, _, hp, -, -, rfl, rfl⟩⟩ :=
      commitSignAttempt_ok.mp hok
    · exact hrefl
    · exact { hrefl with attempt := .insert .refl hfen, presign := .update .refl hp }
  case queryAttemptOutcome =>
    obtain ⟨-, -, -, -, -, rfl⟩ := queryAttemptOutcome_ok.mp hok
    exact hrefl
  case markAttemptDelivered =>
    obtain ⟨-, -, -, _, ha, -, -, ⟨-, -, -, rfl⟩ | ⟨-, -, rfl⟩⟩ := recordAttemptProgress_ok.mp hok
    · exact hrefl
    · exact { hrefl with attempt := .update .refl ha }
  case completeAttempt =>
    obtain ⟨-, -, -, _, ha, -, -, ⟨-, -, -, rfl⟩ | ⟨-, -, rfl⟩⟩ := recordAttemptProgress_ok.mp hok
    · exact hrefl
    · exact { hrefl with attempt := .update .refl ha }
  case abortAttempt =>
    obtain ⟨-, -, -, _, ha, -, ⟨-, -, -, rfl⟩ | ⟨-, -, _, hp, -, -, rfl⟩⟩ := abortAttempt_ok.mp hok
    · exact hrefl
    · exact { hrefl with attempt := .update .refl ha, presign := .update .refl hp }
  case burnPresign =>
    obtain ⟨-, -, -, -, _, hp, -, ⟨-, -, rfl⟩ | ⟨-, rfl⟩⟩ := burnPresign_ok.mp hok
    · exact hrefl
    · exact { hrefl with presign := .update .refl hp }
  case beginCutover =>
    obtain ⟨-, -, ⟨_, _, -, -, -, -, -, -, rfl⟩ | ⟨-, -, -, -, -, -, rfl⟩⟩ :=
      beginCutover_ok.mp hok
    · exact hrefl
    · exact ⟨.refl, .refl, .refl, .refl⟩
  case beginCutoverFromLease =>
    obtain ⟨-, -, -, -, -, ⟨_, _, -, -, -, -, -, -, -, -, rfl⟩ |
      ⟨-, _, hl, -, -, -, -, -, -, -, -, rfl⟩⟩ := beginCutoverFromLease_ok.mp hok
    · exact hrefl
    · exact { hrefl with lease := .update .refl hl }
  case commitRetirementFromLease =>
    obtain ⟨-, -, -, -, -, ⟨_, _, -, -, -, -, -, -, -, -, rfl⟩ |
      ⟨-, _, _, hl, -, -, -, -, -, -, -, -, hg, -, rfl⟩⟩ := commitRetirementFromLease_ok.mp hok
    · exact hrefl
    · exact { hrefl with
        lease := .update .refl hl, presign := .mapVals _, generation := .update .refl hg }
  case commitCutover ctx fence targetBlob targetMetadata =>
    obtain ⟨-, -, -, -, c, hc, rfl, ⟨-, -, -, -, -, rfl⟩ |
      ⟨-, hidx, -, -, -, -, _, hg, -, -, rfl⟩⟩ := commitCutover_ok.mp hok
    · exact hrefl
    · have hkey := h.fence_keyID hc
      exact { hrefl with
        presign := .mapVals _
        generation := .update (.insert .refl (.inr ⟨_, c, hkey ▸ hidx, hc, rfl⟩)) hg }
  case abortCutover =>
    obtain ⟨-, -, -, _, -, -, ⟨-, -, rfl⟩ | ⟨-, -, rfl⟩⟩ := abortCutover_ok.mp hok
    · exact hrefl
    · exact ⟨.refl, .refl, .refl, .refl⟩
  case commitInitialGenerationFromLease =>
    obtain ⟨-, -, -, -, -, -, -, -, -, ⟨_, -, -, -, -, -, -, -, -, rfl⟩ |
      ⟨-, _, hl, -, -, -, -, hcur, -, -, -, rfl, rfl⟩⟩ := commitInitialGenerationFromLease_ok.mp hok
    · exact hrefl
    · exact { hrefl with
        lease := .update .refl hl
        generation := .insert .refl (.inl (h.notMem_cutoverByKey hcur)) }
  case commitInitialGenerationFromReshareLease =>
    obtain ⟨-, -, -, -, -, -, -, -, -, -, ⟨_, -, -, -, -, -, -, -, -, -, rfl⟩ |
      ⟨-, _, _, hl, -, -, -, -, -, -, hcur, -, -, -, -, rfl, rfl⟩⟩ :=
      commitInitialGenerationFromReshareLease_ok.mp hok
    · exact hrefl
    · exact { hrefl with
        lease := .update .refl hl
        generation := .insert .refl (.inl (h.notMem_cutoverByKey hcur)) }

theorem step_adds (h : WF s) (op : Op) : Adds op s (step s op).2 := by
  rcases hr : step s op with ⟨e | r, t⟩
  · obtain rfl := step_failed h hr
    exact .refl op t
  · exact op.call_adds h hr

/-! ## A frozen key -/

/-- Nothing was added to the key, and its leases are as they were. -/
structure Frozen (keyID : GoString) (s t : MemoryLifecycleStore) : Prop where
  lease : ∀ {x l}, t.leasesByToken.lookup x = some l → l.binding.keyID = keyID →
    s.leasesByToken.lookup x = some l ∧ l.state ≠ .active
  presign : ∀ {id p}, t.presigns.lookup id = some p → p.binding.keyID = keyID → id ∈ s.presigns
  attempt : ∀ {id a}, t.attempts.lookup id = some a → a.binding.keyID = keyID → id ∈ s.attempts
  generation : ∀ {b r}, t.generations.lookup b = some r → b.keyID = keyID → b ∈ s.generations

/-- An active fence freezes its key for every call but its own commit. -/
theorem WF.frozen (h : WF s) {x : Nat} {c : StoredCutover}
    (hc : s.cutoversByToken.lookup x = some c) (hact : c.state = .active) {op : Op}
    (hop : ¬ op.Commits c.fence) : Frozen c.fence.source.keyID s (step s op).2 := by
  obtain ⟨hkey, hfenced⟩ := h.fence_of_active hc hact
  have hmem : c.fence.source.keyID ∈ s.cutoverByKey := Finmap.mem_iff.mpr ⟨x, hkey⟩
  have hadds := step_adds h op
  refine ⟨fun {y l} hl hk => ?_, fun hp hk => ?_, fun ha hk => ?_, fun {b r} hb hk => ?_⟩
  · have hold : y ∈ s.leasesByToken :=
      (hadds.lease y l hl).resolve_right fun hfree => hfree (hk ▸ hmem)
    obtain ⟨l₀, hl₀⟩ := Finmap.mem_iff.mp hold
    obtain ⟨l', hl', hb, -⟩ := (step_advances h op).evolves.lease_run hl₀
    obtain rfl : l = l' := Option.some.inj (hl.symm.trans hl')
    have hidle := hfenced.idle hl₀ (hb ▸ hk)
    have hsame := (step_advances h op).evolves.lease_terminal hl₀ hidle
    obtain rfl : l = l₀ := Option.some.inj (hl.symm.trans hsame)
    exact ⟨hl₀, hidle⟩
  · exact (hadds.presign _ _ hp).resolve_right fun hfree => hfree (hk ▸ hmem)
  · exact (hadds.attempt _ _ ha).resolve_right fun hfree => hfree (hk ▸ hmem)
  · rcases hadds.generation b r hb with hold | hfree | ⟨y, c', hy, hc', hcommits⟩
    · exact hold
    · exact absurd (hk ▸ hmem) hfree
    · -- the only fence on the key is `c`'s
      rw [hk, hkey] at hy
      cases hy
      obtain rfl : c = c' := Option.some.inj (hc.symm.trans hc')
      exact absurd hcommits hop

/-! ## The commit -/

omit [Sha256] in
theorem burnEpochPresign_not_available (attempts : FMap GoString SignAttemptRecord)
    {keyID : GoString} {epochID : EpochID} {p : StoredPresign} (hk : p.binding.keyID = keyID)
    (he : p.binding.epochID = epochID) :
    (burnEpochPresign attempts keyID epochID p).state ≠ .available := by
  unfold burnEpochPresign burnPresignRecord
  rw [if_neg (by simp [hk, he])]
  repeat' split
  all_goals simp_all

/-- An active fence passes every check of its commit. -/
theorem WF.commitCutover_succeeds (h : WF s) {f : CutoverFence} {c : StoredCutover}
    (hc : s.cutoversByToken.lookup f.token = some c) (hf : c.fence = f) (hact : c.state = .active)
    {blob metadata : Bytes} (hblob : validateLifecycleBlob blob true = none)
    (hmeta : validateLifecycleBlob metadata false = none) :
    ∃ t, exec (commitCutover none f blob metadata) s =
        (.ok { binding := f.target, blob, metadata, status := .current }, t) ∧
      t.current.lookup f.source.keyID = some f.target ∧
      ∀ id p, t.presigns.lookup id = some p → p.binding.keyID = f.source.keyID →
        p.binding.epochID = f.source.epochID → p.state ≠ .available := by
  subst hf
  obtain ⟨hkey, hfenced⟩ := h.fence_of_active hc hact
  obtain ⟨-, r, hr, hstatus⟩ := h.generations.index hfenced.current
  have hnew : c.fence.target ∉ s.generations := by
    rw [FMap.notMem_iff_lookup]
    cases hg : s.generations.lookup c.fence.target with
    | none => rfl
    | some g => exact absurd rfl (hfenced.name _ g hg rfl)
  refine ⟨_, commitCutover_ok.mpr ⟨rfl, (h.cutovers.record hc).2.2, hblob, hmeta, c, hc, rfl,
    .inr ⟨hact, hkey, isCurrentLocked_iff.mpr ⟨hfenced.current, r, hr, hstatus⟩, ?_, ?_, hnew, r,
      hr, hstatus, rfl, rfl⟩⟩, Finmap.lookup_insert _, fun id p hp hk he => ?_⟩
  · rw [hasActiveLeaseLocked_eq_false]
    intro x l hl hb
    exact hfenced.idle hl (hb ▸ rfl)
  · rw [hasNonTerminalAttemptLocked_eq_false]
    intro i a ha hb
    exact hfenced.quiet ha hb
  · obtain ⟨q, -, rfl⟩ := lookup_burnEpochPresigns hp
    have hbinding := (burnEpochPresign_frame s.attempts c.fence.source.keyID
      c.fence.source.epochID q).1
    rw [hbinding] at hk he
    exact burnEpochPresign_not_available s.attempts hk he

/-- A call that returns a fence leaves it stored. -/
theorem step_fence {op : Op} {f : CutoverFence} (hok : (step s op).1 = .ok (.fence f))
    (h : WF s) : ∃ c, (step s op).2.cutoversByToken.lookup f.token = some c ∧ c.fence = f := by
  have hstep : exec op.call s = (.ok (.fence f), (step s op).2) := Prod.ext hok rfl
  cases op <;> simp only [Op.call, exec_map_ok, reduceCtorEq, and_false, exists_false,
    Response.fence.injEq] at hstep <;> obtain ⟨f', hbegin, rfl⟩ := hstep
  case beginCutover =>
    obtain ⟨-, -, ⟨x, c, -, hc, -, -, -, rfl, ht⟩ | ⟨-, -, -, -, -, -, ht⟩⟩ :=
      beginCutover_ok.mp hbegin <;> rw [ht]
    · exact ⟨c, (h.cutovers.record hc).1 ▸ hc, rfl⟩
    · exact ⟨_, Finmap.lookup_insert _, rfl⟩
  case beginCutoverFromLease =>
    obtain ⟨-, -, -, -, -, ⟨_, c, -, -, -, -, hc, -, -, rfl, ht⟩ |
      ⟨-, _, -, -, -, -, -, -, -, -, -, ht⟩⟩ := beginCutoverFromLease_ok.mp hbegin <;> rw [ht]
    · exact ⟨c, (h.cutovers.record hc).1 ▸ hc, rfl⟩
    · exact ⟨_, Finmap.lookup_insert _, rfl⟩

/-- A fenced cutover can be finished: whatever ran since a call returned the fence,
while its record is active the commit succeeds with any blob and metadata the size
limit allows, makes the target current and leaves no available presign of the source
epoch; and until then no other call takes a lease on the key, adds a presign or an
attempt to it or installs a generation under it. -/
theorem fenced_cutover_finishes (before after : List Op) (op : Op) (f : CutoverFence)
    (hbegin : (step (runOps newMemoryLifecycleStore before) op).1 = .ok (.fence f))
    (c : StoredCutover)
    (hc : (runOps newMemoryLifecycleStore (before ++ op :: after)).cutoversByToken.lookup
      f.token = some c) (hact : c.state = .active) :
    (∀ blob metadata, validateLifecycleBlob blob true = none →
      validateLifecycleBlob metadata false = none →
      let commit := step (runOps newMemoryLifecycleStore (before ++ op :: after))
        (.commitCutover none f blob metadata)
      commit.1 = .ok (.generation
          { binding := f.target, blob, metadata, status := .current }) ∧
        commit.2.current.lookup f.source.keyID = some f.target ∧
        ∀ id p, commit.2.presigns.lookup id = some p → p.binding.keyID = f.source.keyID →
          p.binding.epochID = f.source.epochID → p.state ≠ .available) ∧
    ∀ other : Op, ¬ other.Commits f →
      Frozen f.source.keyID (runOps newMemoryLifecycleStore (before ++ op :: after))
        (step (runOps newMemoryLifecycleStore (before ++ op :: after)) other).2 := by
  have hwf := runOps_wf WF.new (before ++ op :: after)
  -- the record the call left is the one found at the end of the run
  have hfence : c.fence = f := by
    have hbefore := runOps_wf WF.new before
    obtain ⟨c₀, hc₀, hf₀⟩ := step_fence hbegin hbefore
    have hev := runOps_evolves (step_advances hbefore op).wf after
    obtain ⟨c₁, hc₁, hf₁, -⟩ := hev.cutover hc₀
    rw [runOps, Run.final_append, Run.final_cons] at hc
    exact Option.some.inj (hc.symm.trans hc₁) ▸ hf₁.trans hf₀
  refine ⟨fun blob metadata hblob hmeta => ?_, fun other hother => ?_⟩
  · obtain ⟨t, hok, hcur, hpre⟩ := hwf.commitCutover_succeeds hc hfence hact hblob hmeta
    have hstep : step (runOps newMemoryLifecycleStore (before ++ op :: after))
        (.commitCutover none f blob metadata) =
          (.ok (.generation { binding := f.target, blob, metadata, status := .current }), t) :=
      exec_map_ok.mpr ⟨_, hok, rfl⟩
    rw [hstep]
    exact ⟨rfl, hcur, hpre⟩
  · subst hfence
    exact hwf.frozen hc hact hother

/-- A key with one generation and one presign. -/
def presignedRun : List Op :=
  [.installInitialGeneration none (sampleBinding 1) [1] [],
   .acquireRunLease none (sampleBinding 1) .presign (Vector.replicate 32 7),
   .commitAvailablePresignFromLease none
     ⟨1, sampleBinding 1, .presign, Vector.replicate 32 7, .active⟩ (lit "p") [1] [2]]

omit [Sha256] in
theorem presignedRun_cutover_finishes :
    letI := Sha256.firstBytes
    letI commit := step (runOps newMemoryLifecycleStore
      (presignedRun ++ Op.beginCutover none (sampleBinding 1) (sampleBinding 2) :: []))
      (.commitCutover none ⟨1, sampleBinding 1, sampleBinding 2⟩ [3] [])
    commit.1 = .ok (.generation
        { binding := sampleBinding 2, blob := [3], metadata := [], status := .current }) ∧
      commit.2.current.lookup (sampleBinding 1).keyID = some (sampleBinding 2) ∧
      ∀ id p, commit.2.presigns.lookup id = some p →
        p.binding.keyID = (sampleBinding 1).keyID →
        p.binding.epochID = (sampleBinding 1).epochID → p.state ≠ .available :=
  (@fenced_cutover_finishes Sha256.firstBytes presignedRun [] _ ⟨1, sampleBinding 1, sampleBinding 2⟩
    (by decide +kernel) { fence := ⟨1, sampleBinding 1, sampleBinding 2⟩, state := .active }
    (by decide +kernel) rfl).1 [3] [] (by decide) (by decide)

end Tss.Lifecycle
