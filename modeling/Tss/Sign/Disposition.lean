import Tss.Lifecycle.Attempts
import Tss.Sign.Coordinator

/-!
# What disposing of a sign session does to its lease

`coordinator.abort` passes the record it gets back from the store to
`acceptRecord`, the check every other method uses, and `acceptRecord`
refuses an aborted record. The store's answer to an abort is always one,
so the release of the lease after that check is never reached.
-/

namespace Tss.Sign

open Proc Lifecycle MemoryLifecycleStore

variable [Sha256]

/-! ## The coordinator's abort -/

theorem acceptRecord_aborted {record : SignAttemptRecord} (h : record.aborted = true)
    (d : Durable) : ∃ e, exec (acceptRecord record) d = (.error e, d) := by
  rcases hr : exec (acceptRecord record) d with ⟨e | u, d'⟩
  · have hclean : CleanAt (acceptRecord record) d := by simp [acceptRecord]
    exact ⟨e, by rw [hclean e d' hr]⟩
  · simp [acceptRecord, h] at hr

omit [Sha256] in
theorem abortAttempt_aborted {s t : MemoryLifecycleStore} {ctx : Context} {query : AttemptQuery}
    {reason : GoString} {r : SignAttemptRecord}
    (hok : exec (Lifecycle.abortAttempt ctx query reason) s = (.ok r, t)) : r.aborted = true := by
  obtain ⟨-, -, -, a, -, -, ⟨hab, -, rfl, -⟩ | ⟨-, rfl, -⟩⟩ := abortAttempt_ok.mp hok
  · exact hab
  · rfl

/-- The store after the abort a coordinator asks for. -/
def abortedStore (s : MemoryLifecycleStore) (c : SignAttemptCoordinator) (reason : GoString) :
    MemoryLifecycleStore :=
  (exec (Lifecycle.abortAttempt none c.query reason) s).2

/-- A coordinator's abort always fails, with the attempt's abort as its only effect. -/
theorem exec_abort {d : Durable} (h : d.coordinator.attempt ≠ none) (reason : GoString) :
    ∃ e, exec (abort reason) d =
      (.error e, { d with store := abortedStore d.store d.coordinator reason }) := by
  have hreq : exec requireAttempt d = (.ok (), d) := by
    simp [requireAttempt, exec_bind, exec_throwIf, h]
  unfold abort abortedStore
  rcases hst : exec (Lifecycle.abortAttempt none d.coordinator.query reason) d.store with ⟨e | r, t⟩
  · exact ⟨.store e, by
      simp [exec_bind, hreq, storeCall, exec_zoom, exec_mapError, hst, Except.mapError]⟩
  · obtain ⟨e, he⟩ := acceptRecord_aborted (abortAttempt_aborted hst)
      { d with store := t }
    exact ⟨e, by
      simp [exec_bind, hreq, storeCall, exec_zoom, exec_mapError, hst, Except.mapError, he]⟩

/-! ## The three dispositions of a session -/

/-- A way a live session ends: the caller aborts or closes it, or `Handle` rejects an
envelope, with the outcomes its body got. -/
inductive Disposition where
  | abort (reason : GoString)
  | close
  | reject (ctx : Context) (built : Except SignError Unit)
      (prepared : Except SignError (Option Bytes))

namespace Disposition

/-- The disposition aborts the session: a reason the store takes, or an error of the
envelope's checks that is terminal. -/
def Valid : Disposition → Prop
  | abort reason => validateLifecycleReason reason = none
  | close => True
  | reject ctx built prepared => ∃ err, shouldAbortSession err = true ∧
    (built = .error err ∨ (built = .ok () ∧ ctx = none ∧ prepared = .error err))

/-- The reason the attempt is aborted with. -/
def reason : Disposition → GoString
  | abort reason => reason
  | close => closedByCallerReason
  | reject .. => terminalRejectionReason

def run : Disposition → SignM Unit
  | abort reason => sessionAbort none reason
  | close => sessionClose none
  | reject ctx built prepared => handle none ctx built prepared

/-- `Abort` and `Close` report the disposition; `Handle` returns the rejection. -/
def Reports : Disposition → Prop
  | abort _ | close => True
  | reject .. => False

end Disposition

/-- The session is live and not completed. -/
structure Live (session : SignSession) : Prop where
  completed : session.completed = false
  aborted : session.aborted = false
  closed : session.closed = false

theorem exec_withCoordinator_abort {w : World} {c : SignAttemptCoordinator}
    (hc : w.session.coordinator = some c) (hrec : c.attempt ≠ none) (reason : GoString) :
    ∃ e, exec (withCoordinator c (abort reason)) w =
      (.error e, { w with store := abortedStore w.store c reason }) := by
  obtain ⟨e, he⟩ := exec_abort (d := ⟨w.store, c⟩) hrec reason
  refine ⟨e, ?_⟩
  rw [withCoordinator, exec_zoom, he]
  simp only [← hc]

theorem exec_abortDisposition {w : World} {c : SignAttemptCoordinator}
    (hc : w.session.coordinator = some c) (hrec : c.attempt ≠ none) (hlive : Live w.session)
    (reason : GoString) :
    ∃ e, exec (abortDispositionLocked reason) w =
      (.error e, ⟨abortedStore w.store c reason,
        { w.session with aborted := true, closePending := true }⟩) := by
  obtain ⟨e, he⟩ := exec_withCoordinator_abort hc hrec reason
  refine ⟨.abortAttempt e, ?_⟩
  simp [abortDispositionLocked, exec_bind, exec_throwIf, exec_attempt, hlive.closed,
    hlive.completed, hc, he, markAborted, setClosePending]

omit [Sha256] in
theorem validateLifecycleReason_ne_nil {reason : GoString}
    (h : validateLifecycleReason reason = none) : reason ≠ [] :=
  validateLifecycleText_ne_nil h

/-- Whatever ends a live session, the call fails and the store it leaves is the one the
attempt's abort leaves. -/
theorem Disposition.exec_run {w : World} {c : SignAttemptCoordinator}
    (hc : w.session.coordinator = some c) (hrec : c.attempt ≠ none) (hlive : Live w.session)
    {d : Disposition} (hd : d.Valid) :
    (∃ e, (exec d.run w).1 = .error e) ∧
      (exec d.run w).2.store = abortedStore w.store c d.reason := by
  cases d with
  | abort reason =>
    obtain ⟨e, he⟩ := exec_abortDisposition hc hrec hlive reason
    have hne := validateLifecycleReason_ne_nil hd
    have hrun : exec (sessionAbort none reason) w = exec (abortDispositionLocked reason) w := by
      simp [sessionAbort, exec_bind, exec_check, exec_throwIf, hne]
    simp only [Disposition.run, Disposition.reason, hrun, he]
    exact ⟨⟨e, rfl⟩, trivial⟩
  | close =>
    obtain ⟨e, he⟩ := exec_abortDisposition hc hrec hlive closedByCallerReason
    have hrun : exec (sessionClose none) w =
        exec (abortDispositionLocked closedByCallerReason) w := by
      simp [sessionClose, exec_bind, exec_check, hlive.closed, hlive.completed, hlive.aborted, he]
    simp only [Disposition.run, Disposition.reason, hrun, he]
    exact ⟨⟨e, rfl⟩, trivial⟩
  | reject ctx built prepared =>
    obtain ⟨err, hterm, hbody⟩ := hd
    obtain ⟨e, he⟩ := exec_withCoordinator_abort hc hrec terminalRejectionReason
    have hfail : exec (handleBody ctx built prepared) w = (.error err, w) := by
      rcases hbody with rfl | ⟨rfl, rfl, rfl⟩
      · simp [handleBody, exec_bind]
      · simp [handleBody, exec_bind, exec_check]
    have hrun : exec (handle none ctx built prepared) w =
        (.error (.joined err e), ⟨abortedStore w.store c terminalRejectionReason,
          { w.session with aborted := true, closePending := true }⟩) := by
      simp [handle, afterRejection, exec_bind, exec_check, exec_throwIf, exec_attempt, hfail,
        hlive.completed, hlive.aborted, hterm, hc, he, markAborted, setClosePending]
    simp only [Disposition.run, Disposition.reason, hrun]
    exact ⟨⟨_, rfl⟩, trivial⟩

/-! ## The store after the abort -/

/-- The session holds a claimed attempt: the coordinator accepted its record, and the
store has the attempt and the sign lease it was committed under. -/
structure Claimed (s : MemoryLifecycleStore) (c : SignAttemptCoordinator) : Prop where
  query : c.query.validate = none
  record : c.attempt ≠ none
  attempt : ∃ a, s.attempts.lookup c.query.attemptID = some a ∧ sameAttemptQuery a c.query = true ∧
    a.intent.sessionID = c.lease.sessionID
  lease : ∃ l, s.leasesByToken.lookup c.lease.token = some l ∧ l.SameRun c.lease

/-- The attempt is aborted, its presign burned and the lease finished as aborted. -/
structure Released (s : MemoryLifecycleStore) (c : SignAttemptCoordinator) : Prop where
  attempt : ∃ a p, s.attempts.lookup c.query.attemptID = some a ∧ a.aborted = true ∧
    s.presigns.lookup a.presignID = some p ∧ p.state = .burned
  lease : ∃ l, s.leasesByToken.lookup c.lease.token = some l ∧ l.state = .aborted

/-- The store already has the lease as aborted. -/
def LeaseAborted (s : MemoryLifecycleStore) (c : SignAttemptCoordinator) : Prop :=
  ∃ l, s.leasesByToken.lookup c.lease.token = some l ∧ l.state = .aborted

/-- The attempt is open or was aborted, rather than delivered and completed. -/
def AttemptAbortable (s : MemoryLifecycleStore) (c : SignAttemptCoordinator) : Prop :=
  ∃ a, s.attempts.lookup c.query.attemptID = some a ∧ (a.terminal = false ∨ a.aborted = true)

variable {s : MemoryLifecycleStore} {c : SignAttemptCoordinator}

/-- The abort of an open attempt burns its presign; a terminal one stays as it is. -/
theorem abortedStore_eq (h : WF s) (hclaimed : Claimed s c) {reason : GoString}
    (hreason : validateLifecycleReason reason = none) {a : SignAttemptRecord}
    (ha : s.attempts.lookup c.query.attemptID = some a) :
    (a.terminal = true ∧ abortedStore s c reason = s) ∨
      (a.terminal = false ∧ ∃ p, s.presigns.lookup a.presignID = some p ∧
        abortedStore s c reason = { s with
          attempts := s.attempts.insert c.query.attemptID
            { a with aborted := true, abortReason := reason, exactOutbox := [] }
          presigns := s.presigns.insert a.presignID
            { p with state := .burned, reason := reason } }) := by
  cases hterm : a.terminal with
  | true =>
    refine .inl ⟨rfl, ?_⟩
    rcases hr : exec (Lifecycle.abortAttempt none c.query reason) s with ⟨e | r, t⟩
    · rw [abortedStore, hr]
      exact abortAttempt_clean h e t hr
    · obtain ⟨-, -, -, a', ha', -, ⟨-, -, -, rfl⟩ | ⟨hopen, -⟩⟩ := abortAttempt_ok.mp hr
      · rw [abortedStore, hr]
      · obtain rfl : a = a' := Option.some.inj (ha.symm.trans ha')
        rw [hterm] at hopen
        cases hopen
  | false =>
    obtain ⟨a', ha', hquery, -⟩ := hclaimed.attempt
    obtain rfl : a = a' := Option.some.inj (ha.symm.trans ha')
    obtain ⟨p, hp, hstate, hid, -⟩ := h.attempts.claimed ha hterm
    have hok : exec (Lifecycle.abortAttempt none c.query reason) s = (.ok _, _) :=
      abortAttempt_ok.mpr ⟨rfl, hclaimed.query, hreason, a, ha, hquery,
        .inr ⟨hterm, rfl, p, hp, hstate, hid.trans (h.attempts.record ha).1.symm, rfl⟩⟩
    exact .inr ⟨rfl, p, hp, by rw [abortedStore, hok]⟩

/-- After the abort, the session's run is released exactly when the lease had been
aborted before and the attempt could be. -/
theorem released_abortedStore_iff (h : WF s) (hclaimed : Claimed s c) {reason : GoString}
    (hreason : validateLifecycleReason reason = none) :
    Released (abortedStore s c reason) c ↔ LeaseAborted s c ∧ AttemptAbortable s c := by
  obtain ⟨a, ha, -⟩ := hclaimed.attempt
  rcases abortedStore_eq h hclaimed hreason ha with ⟨hterm, heq⟩ | ⟨hopen, p, hp, heq⟩ <;> rw [heq]
  · constructor
    · rintro ⟨⟨a', p, ha', hab, -⟩, hl⟩
      exact ⟨hl, a', ha', .inr hab⟩
    · rintro ⟨hl, a', ha', hab⟩
      obtain rfl : a = a' := Option.some.inj (ha.symm.trans ha')
      have hab : a.aborted = true := hab.resolve_left (by simp [hterm])
      obtain ⟨p, hp, -, -, hburned, -⟩ := h.attempts.presign ha
      exact ⟨⟨a, p, ha, hab, hp, (hburned hab).1⟩, hl⟩
  · constructor
    · rintro ⟨-, hl⟩
      exact ⟨hl, a, ha, .inl hopen⟩
    · rintro ⟨hl, -⟩
      exact ⟨⟨_, _, Finmap.lookup_insert _, rfl, Finmap.lookup_insert _, rfl⟩, hl⟩

/-! ## Where a claimed session comes from -/

omit [Sha256] in

/-! ## Releasing the lease -/

omit [Sha256] in
theorem Disposition.validate_reason {d : Disposition} (hd : d.Valid) :
    validateLifecycleReason d.reason = none := by
  cases d with
  | abort reason => exact hd
  | close => decide
  | reject ctx built prepared =>
    change validateLifecycleReason terminalRejectionReason = none
    decide

/-- The disposition released the run: it returned nil, where it reports, and left the
attempt aborted, the presign burned and the lease finished as aborted. -/
def Disposition.Releases (d : Disposition) (w : World) (c : SignAttemptCoordinator) : Prop :=
  (d.Reports → (exec d.run w).1 = .ok ()) ∧ Released (exec d.run w).2.store c

/-- No disposition releases the lease: after `Abort` and `Close` an error says so, and
after a rejection the run is released just when someone else had already finished its
lease as aborted, on an attempt that could still be aborted or was. -/
theorem disposition_releases_iff (ops : List Op) (session : SignSession)
    (c : SignAttemptCoordinator) (hc : session.coordinator = some c) (hlive : Live session)
    (hclaimed : Claimed (runOps newMemoryLifecycleStore ops) c) (d : Disposition)
    (hd : d.Valid) :
    d.Releases ⟨runOps newMemoryLifecycleStore ops, session⟩ c ↔
      ¬ d.Reports ∧ LeaseAborted (runOps newMemoryLifecycleStore ops) c ∧
        AttemptAbortable (runOps newMemoryLifecycleStore ops) c := by
  have hwf := runOps_wf WF.new ops
  obtain ⟨⟨e, he⟩, hstore⟩ := Disposition.exec_run
    (w := ⟨runOps newMemoryLifecycleStore ops, session⟩) hc hclaimed.record hlive hd
  rw [Disposition.Releases, hstore,
    released_abortedStore_iff hwf hclaimed (Disposition.validate_reason hd), he]
  simp

/-! ## A run that stays blocked -/

/-- The lease the attempt of `attemptedRun` was committed under. -/
def sampleLease : RunLease := ⟨2, sampleBinding 1, .sign, Vector.replicate 32 8, .active⟩

/-- The record of that attempt. -/
def sampleAttempt : SignAttemptRecord :=
  { binding := sampleBinding 1, presignID := lit "p"
    intent := ⟨lit "a", Vector.replicate 32 8, List.replicate 32 1⟩
    presignMetadata := [2], exactOutbox := [9], outboxDigest := sha256 [9] }

/-- The coordinator that made it. -/
def sampleCoordinator : SignAttemptCoordinator :=
  { lease := sampleLease
    query := ⟨sampleBinding 1, lit "p", lit "a", List.replicate 32 1⟩
    attempt := some sampleAttempt }

omit [Sha256] in
/-- Abort reports that the attempt it has just aborted is aborted, keeps the lease
active, and a later cutover of the generation is refused because of it. -/
theorem aborted_session_keeps_lease :
    letI := Sha256.firstBytes
    letI w := exec (sessionAbort none (lit "stop"))
      ⟨runOps newMemoryLifecycleStore attemptedRun, { coordinator := some sampleCoordinator }⟩
    w.1 = .error (.abortAttempt .attemptAborted) ∧
      ((w.2.store.attempts.lookup (lit "a")).map fun a => a.aborted) = some true ∧
      ((w.2.store.presigns.lookup (lit "p")).map fun p => p.state) = some .burned ∧
      ((w.2.store.leasesByToken.lookup 2).map fun l => l.state) = some .active ∧
      (step w.2.store (.beginCutover none (sampleBinding 1) (sampleBinding 2))).1 =
        .error .runLeaseConflict := by
  decide +kernel

/-- The caller had finished the lease itself before the rejection came. -/
def leaseFinishedRun : List Op := attemptedRun ++ [.finishRunLease none sampleLease .aborted]

omit [Sha256] in
theorem rejection_releases_finished_lease :
    letI := Sha256.firstBytes
    Disposition.Releases (.reject none (.error (.protocol .verification false)) (.ok none))
      ⟨runOps newMemoryLifecycleStore leaseFinishedRun, { coordinator := some sampleCoordinator }⟩
      sampleCoordinator :=
  letI := Sha256.firstBytes
  have ha : (runOps newMemoryLifecycleStore leaseFinishedRun).attempts.lookup
      sampleCoordinator.query.attemptID = some sampleAttempt := by decide +kernel
  have hl : (runOps newMemoryLifecycleStore leaseFinishedRun).leasesByToken.lookup
      sampleCoordinator.lease.token = some { sampleLease with state := .aborted } := by
    decide +kernel
  (disposition_releases_iff leaseFinishedRun { coordinator := some sampleCoordinator }
    sampleCoordinator rfl ⟨rfl, rfl, rfl⟩
    ⟨by decide, by simp [sampleCoordinator], ⟨_, ha, by decide, rfl⟩, ⟨_, hl, rfl, rfl, rfl⟩⟩
    (.reject none (.error (.protocol .verification false)) (.ok none))
    ⟨_, by decide, .inl rfl⟩).mpr ⟨fun h => h, ⟨_, hl, rfl⟩, ⟨_, ha, .inl rfl⟩⟩

end Tss.Sign
