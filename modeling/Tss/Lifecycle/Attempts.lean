import Tss.Lifecycle.Fencing

/-!
# Attempt records only grow

Delivery, completion and abort may reach an attempt in any order and any
number of times. `Grows a a'` is the order in which its record moves: what
was recorded stays recorded, and a terminal record does not move at all.
-/

namespace Tss.Lifecycle

open Proc MemoryLifecycleStore

variable {s t : MemoryLifecycleStore}

namespace SignAttemptRecord

/-- `a'` is a later record of the attempt `a` records. -/
structure Grows (a a' : SignAttemptRecord) : Prop where
  binding : a'.binding = a.binding
  presignID : a'.presignID = a.presignID
  intent : a'.intent = a.intent
  presignMetadata : a'.presignMetadata = a.presignMetadata
  outboxDigest : a'.outboxDigest = a.outboxDigest
  delivered : a.delivered = true → a'.delivered = true ∧ a'.delivery = a.delivery
  completed : a.completed = true → a'.completed = true ∧ a'.completion = a.completion
  aborted : a.aborted = true → a'.aborted = true
  terminal : a.terminal = true → a' = a

theorem Grows.refl (a : SignAttemptRecord) : Grows a a where
  binding := rfl
  presignID := rfl
  intent := rfl
  presignMetadata := rfl
  outboxDigest := rfl
  delivered h := ⟨h, rfl⟩
  completed h := ⟨h, rfl⟩
  aborted h := h
  terminal _ := rfl

theorem Grows.trans {a b c : SignAttemptRecord} (h : Grows a b) (k : Grows b c) : Grows a c where
  binding := k.binding.trans h.binding
  presignID := k.presignID.trans h.presignID
  intent := k.intent.trans h.intent
  presignMetadata := k.presignMetadata.trans h.presignMetadata
  outboxDigest := k.outboxDigest.trans h.outboxDigest
  delivered hd := by
    obtain ⟨hb, he⟩ := h.delivered hd
    obtain ⟨hc, he'⟩ := k.delivered hb
    exact ⟨hc, he'.trans he⟩
  completed hd := by
    obtain ⟨hb, he⟩ := h.completed hd
    obtain ⟨hc, he'⟩ := k.completed hb
    exact ⟨hc, he'.trans he⟩
  aborted ha := k.aborted (h.aborted ha)
  terminal ht := by
    obtain rfl := h.terminal ht
    exact k.terminal ht

/-- Evidence of one kind is recorded on an attempt that has none of that kind. -/
theorem grows_progress {a : SignAttemptRecord} (hab : a.aborted = false) (value : Bytes)
    (kind : AttemptProgressKind) (hnew : a.recorded kind = false) :
    Grows a (clearAttemptSecretsIfTerminal (a.withProgress value kind)) := by
  -- an attempt with one kind of evidence missing is not terminal
  have hpending : a.terminal = false := by
    cases kind <;> simp_all [SignAttemptRecord.terminal, SignAttemptRecord.recorded]
  refine ⟨?_, ?_, ?_, ?_, ?_, fun hd => ?_, fun hc => ?_, fun ha => ?_, fun ht => ?_⟩
  case refine_8 => exact absurd (ha.symm.trans hab) (by decide)
  case refine_9 => exact absurd (ht.symm.trans hpending) (by decide)
  all_goals
    unfold clearAttemptSecretsIfTerminal
    split <;> cases kind <;>
      simp_all [SignAttemptRecord.withProgress, SignAttemptRecord.recorded]

theorem grows_abort {a : SignAttemptRecord} (hpending : a.terminal = false) (reason : GoString) :
    Grows a { a with aborted := true, abortReason := reason, exactOutbox := [] } :=
  { Grows.refl a with
    aborted := fun _ => rfl
    terminal := fun ht => absurd (ht.symm.trans hpending) (by decide) }

end SignAttemptRecord

/-! ## Steps and runs -/

/-- Every attempt of `s` is still in `t`, with a later record. -/
def AttemptsGrow (s t : MemoryLifecycleStore) : Prop :=
  ∀ id a, s.attempts.lookup id = some a → ∃ a', t.attempts.lookup id = some a' ∧ a.Grows a'

theorem AttemptsGrow.of_eq (h : t.attempts = s.attempts) : AttemptsGrow s t :=
  fun _ a ha => ⟨a, h ▸ ha, .refl a⟩

theorem AttemptsGrow.insert {i : GoString} {new : SignAttemptRecord}
    (hatt : t.attempts = s.attempts.insert i new)
    (hnew : ∀ a, s.attempts.lookup i = some a → a.Grows new) : AttemptsGrow s t := by
  intro id a ha
  rw [hatt, FMap.lookup_insert_ite]
  split
  · next he => exact ⟨new, rfl, hnew a (he ▸ ha)⟩
  · exact ⟨a, ha, .refl a⟩

theorem AttemptsGrow.trans {u : MemoryLifecycleStore} (h : AttemptsGrow s t)
    (k : AttemptsGrow t u) : AttemptsGrow s u := by
  intro id a ha
  obtain ⟨b, hb, hab⟩ := h id a ha
  obtain ⟨c, hc, hbc⟩ := k id b hb
  exact ⟨c, hc, hab.trans hbc⟩

theorem recordAttemptProgress_grows {ctx : Context} {query : AttemptQuery} {value : Bytes}
    {kind : AttemptProgressKind} {r : SignAttemptRecord}
    (hok : exec (recordAttemptProgress ctx query value kind) s = (.ok r, t)) :
    AttemptsGrow s t := by
  obtain ⟨-, -, -, a, ha, -, hab, ⟨-, -, -, rfl⟩ | ⟨hnew, rfl, rfl⟩⟩ :=
    recordAttemptProgress_ok.mp hok
  · exact .of_eq rfl
  · refine .insert rfl fun b hb => ?_
    obtain rfl : a = b := Option.some.inj (ha.symm.trans hb)
    exact SignAttemptRecord.grows_progress hab value kind hnew

theorem abortAttempt_grows {ctx : Context} {query : AttemptQuery} {reason : GoString}
    {r : SignAttemptRecord} (hok : exec (abortAttempt ctx query reason) s = (.ok r, t)) :
    AttemptsGrow s t := by
  obtain ⟨-, -, -, a, ha, -, ⟨-, -, -, rfl⟩ | ⟨hpending, rfl, _, -, -, -, rfl⟩⟩ :=
    abortAttempt_ok.mp hok
  · exact .of_eq rfl
  · refine .insert rfl fun b hb => ?_
    obtain rfl : a = b := Option.some.inj (ha.symm.trans hb)
    exact SignAttemptRecord.grows_abort hpending reason

variable [Sha256]

theorem commitSignAttempt_grows {ctx : Context} {binding : GenerationBinding}
    {presignID : GoString} {intent : SignAttemptIntent} {exactOutbox : Bytes} {r : AttemptCommit}
    (hok : exec (commitSignAttempt ctx binding presignID intent exactOutbox) s = (.ok r, t)) :
    AttemptsGrow s t := by
  obtain ⟨-, -, -, -, -, -, -, ⟨_, -, -, -, rfl⟩ | ⟨hnone, -, -, -, _, -, -, -, -, rfl⟩⟩ :=
    commitSignAttempt_ok.mp hok
  · exact .of_eq rfl
  · refine .insert rfl fun b hb => ?_
    rw [hnone] at hb
    cases hb

/-- Only the four calls above write attempts. -/
theorem Op.call_grows {op : Op} {r : Response} (hok : exec op.call s = (.ok r, t)) :
    AttemptsGrow s t := by
  cases op <;> obtain ⟨a, hok, -⟩ := exec_map_ok.mp hok
  case commitSignAttempt => exact commitSignAttempt_grows hok
  case markAttemptDelivered => exact recordAttemptProgress_grows hok
  case completeAttempt => exact recordAttemptProgress_grows hok
  case abortAttempt => exact abortAttempt_grows hok
  all_goals refine .of_eq ?_
  case installInitialGeneration =>
    obtain ⟨-, -, -, -, -, -, ⟨-, -, -, -, -, rfl⟩ | ⟨-, -, -, -, rfl⟩⟩ :=
      installInitialGeneration_ok.mp hok <;> rfl
  case loadCurrentGeneration =>
    obtain ⟨-, -, _, -, -, -, rfl⟩ := loadCurrentGeneration_ok.mp hok
    rfl
  case acquireRunLease =>
    obtain ⟨-, -, -, -, -, -, ⟨_, -, -, -, -, -, -, -, rfl⟩ | ⟨-, -, -, rfl⟩⟩ :=
      acquireRunLease_ok.mp hok <;> rfl
  case acquireReshareReceiverLease =>
    obtain ⟨-, -, -, ⟨_, -, -, -, -, rfl⟩ | ⟨-, -, -, -, -, -, -, rfl⟩⟩ :=
      acquireReshareReceiverLease_ok.mp hok <;> rfl
  case queryRunLease =>
    obtain ⟨-, -, -, -, -, _, -, -, -, -, -, rfl⟩ := queryRunLease_ok.mp hok
    rfl
  case finishRunLease =>
    obtain ⟨-, -, -, _, -, -, ⟨-, rfl⟩ | ⟨-, -, -, rfl⟩⟩ := finishRunLease_ok.mp hok <;> rfl
  case markProtocolRefreshFailed =>
    obtain ⟨-, -, -, -, -, ⟨_, -, -, -, -, -, -, rfl⟩ | ⟨-, _, -, -, -, -, -, rfl⟩⟩ :=
      markProtocolRefreshFailed_ok.mp hok <;> rfl
  case commitAvailablePresignFromLease =>
    obtain ⟨-, -, -, -, -, -, -, -, -, -,
      ⟨_, _, -, -, -, -, -, -, -, -, rfl⟩ | ⟨-, _, -, -, -, -, -, -, -, rfl⟩⟩ :=
      commitAvailablePresignFromLease_ok.mp hok <;> rfl
  case preparePresignCandidate =>
    obtain ⟨-, -, -, -, -, _, -, -, -, -, rfl⟩ := preparePresignCandidate_ok.mp hok
    rfl
  case queryAttemptOutcome =>
    obtain ⟨-, -, -, -, -, rfl⟩ := queryAttemptOutcome_ok.mp hok
    rfl
  case burnPresign =>
    obtain ⟨-, -, -, -, _, -, -, ⟨-, -, rfl⟩ | ⟨-, rfl⟩⟩ := burnPresign_ok.mp hok <;> rfl
  case beginCutover =>
    obtain ⟨-, -, ⟨_, _, -, -, -, -, -, -, rfl⟩ | ⟨-, -, -, -, -, -, rfl⟩⟩ :=
      beginCutover_ok.mp hok <;> rfl
  case beginCutoverFromLease =>
    obtain ⟨-, -, -, -, -, ⟨_, _, -, -, -, -, -, -, -, -, rfl⟩ |
      ⟨-, _, -, -, -, -, -, -, -, -, -, rfl⟩⟩ := beginCutoverFromLease_ok.mp hok <;> rfl
  case commitRetirementFromLease =>
    obtain ⟨-, -, -, -, -, ⟨_, _, -, -, -, -, -, -, -, -, rfl⟩ |
      ⟨-, _, _, -, -, -, -, -, -, -, -, -, -, -, rfl⟩⟩ := commitRetirementFromLease_ok.mp hok <;>
      rfl
  case commitCutover =>
    obtain ⟨-, -, -, -, _, -, -, ⟨-, -, -, -, -, rfl⟩ | ⟨-, -, -, -, -, -, _, -, -, -, rfl⟩⟩ :=
      commitCutover_ok.mp hok <;> rfl
  case abortCutover =>
    obtain ⟨-, -, -, _, -, -, ⟨-, -, rfl⟩ | ⟨-, -, rfl⟩⟩ := abortCutover_ok.mp hok <;> rfl
  case commitInitialGenerationFromLease =>
    obtain ⟨-, -, -, -, -, -, -, -, -, ⟨_, -, -, -, -, -, -, -, -, rfl⟩ |
      ⟨-, _, -, -, -, -, -, -, -, -, -, -, rfl⟩⟩ := commitInitialGenerationFromLease_ok.mp hok <;>
      rfl
  case commitInitialGenerationFromReshareLease =>
    obtain ⟨-, -, -, -, -, -, -, -, -, -, ⟨_, -, -, -, -, -, -, -, -, -, rfl⟩ |
      ⟨-, _, _, -, -, -, -, -, -, -, -, -, -, -, -, -, rfl⟩⟩ :=
      commitInitialGenerationFromReshareLease_ok.mp hok <;> rfl

theorem step_attemptsGrow (h : WF s) (op : Op) : AttemptsGrow s (step s op).2 := by
  rcases hr : step s op with ⟨e | r, t⟩
  · obtain rfl := step_failed h hr
    exact .of_eq rfl
  · exact Op.call_grows hr

theorem runOps_attemptsGrow (h : WF s) (ops : List Op) : AttemptsGrow s (runOps s ops) :=
  Run.final_rel WF AttemptsGrow (fun _ op h => (step_advances h op).wf) (fun _ => .of_eq rfl)
    (fun _ _ _ => .trans) (fun _ op h => step_attemptsGrow h op) h ops

/-- Attempt records are append-only: an attempt of an earlier state is still stored
at the end of the run, with a record that only grew; and in every state the exact
outbox is there, with its digest, just while the attempt is not terminal. -/
theorem attempts_append_only (before after : List Op) (id : GoString) (a : SignAttemptRecord)
    (ha : (runOps newMemoryLifecycleStore before).attempts.lookup id = some a) :
    (∃ a', (runOps newMemoryLifecycleStore (before ++ after)).attempts.lookup id = some a' ∧
      a.Grows a') ∧
    ((a.exactOutbox ≠ [] ∧ sha256 a.exactOutbox = a.outboxDigest) ↔ a.terminal = false) ∧
    (a.terminal = true → a.exactOutbox = []) := by
  have hwf := runOps_wf WF.new before
  have hprogress := hwf.attempts.progress ha
  refine ⟨?_, ⟨fun ⟨hne, _⟩ => ?_, fun hpending => ?_⟩, hprogress.cleared⟩
  · rw [runOps, Run.final_append]
    exact runOps_attemptsGrow hwf after id a ha
  · by_contra hterm
    exact hne (hprogress.cleared (by simpa using hterm))
  · have hne := hprogress.pending hpending
    exact ⟨hne, (hprogress.digest hne).symm⟩

/-- The presign of `presignedRun` is claimed by an attempt. -/
def attemptedRun : List Op :=
  presignedRun ++
  [.acquireRunLease none (sampleBinding 1) .sign (Vector.replicate 32 8),
   .commitSignAttempt none (sampleBinding 1) (lit "p")
     ⟨lit "a", Vector.replicate 32 8, List.replicate 32 1⟩ [9]]

omit [Sha256] in
/-- The attempt is delivered twice, with different evidence, and completed. -/
theorem attemptedRun_append_only :
    letI := Sha256.firstBytes
    letI query : AttemptQuery := ⟨sampleBinding 1, lit "p", lit "a", List.replicate 32 1⟩
    letI a : SignAttemptRecord :=
      { binding := sampleBinding 1, presignID := lit "p"
        intent := ⟨lit "a", Vector.replicate 32 8, List.replicate 32 1⟩
        presignMetadata := [2], exactOutbox := [9], outboxDigest := sha256 [9] }
    (∃ a', (runOps newMemoryLifecycleStore (attemptedRun ++
        [.markAttemptDelivered none query [3], .markAttemptDelivered none query [4],
         .completeAttempt none query [5]])).attempts.lookup (lit "a") = some a' ∧ a.Grows a') ∧
      ((a.exactOutbox ≠ [] ∧ sha256 a.exactOutbox = a.outboxDigest) ↔ a.terminal = false) ∧
      (a.terminal = true → a.exactOutbox = []) :=
  @attempts_append_only Sha256.firstBytes attemptedRun _ (lit "a") _ (by decide +kernel)

end Tss.Lifecycle
