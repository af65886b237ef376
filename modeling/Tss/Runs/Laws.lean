import Tss.Runs.Store

/-!
# The per-party laws of the run store

A call moves at most one record, and in it only the entries of the party
that makes the call (`Moves`). The laws of a record (`RunRecord.Ok`) are
kept by every move, so they hold in any interleaving of the calls of any
parties.
-/

namespace Tss.Runs

open Proc Lifecycle

/-! ## Moves of one record -/

namespace RunRecord

/-- What `r` and `r'` record of the party is the same. -/
structure SameEntries (party : PartyID) (r r' : RunRecord) : Prop where
  accepted : r'.accepted.lookup party = r.accepted.lookup party
  started : r'.started.lookup party = r.started.lookup party
  completed : r'.completed.lookup party = r.completed.lookup party
  aborted : r'.aborted.lookup party = r.aborted.lookup party

variable [Sha256] {self : PartyID} {r r' r'' : RunRecord}

/-- The laws of a stored record. -/
structure Ok (r : RunRecord) : Prop where
  accepted : ∀ {p d}, r.accepted.lookup p = some d → d = r.intent.acceptanceDigest
  started : ∀ {p b}, r.started.lookup p = some b → b = true ∧ p ∈ r.accepted
  completed : ∀ {p}, p ∈ r.completed → p ∈ r.started
  exclusive : ∀ {p}, p ∈ r.completed → p ∉ r.aborted

/-- `r'` is `r` after something `actor` did: the intent and the entries of everyone
else are untouched, recorded results stay, and the laws still hold. -/
structure Moves (actor : Option PartyID) (r r' : RunRecord) : Prop where
  intent : r'.intent = r.intent
  others : ∀ p, actor ≠ some p → SameEntries p r r'
  result : ∀ {p res}, r.completed.lookup p = some res → r'.completed.lookup p = some res
  ok : r.Ok → r'.Ok

theorem Moves.trans {actor : Option PartyID} (h : Moves actor r r') (k : Moves actor r' r'') :
    Moves actor r r'' where
  intent := k.intent.trans h.intent
  others p hp := by
    obtain ⟨h₁, h₂, h₃, h₄⟩ := h.others p hp
    obtain ⟨k₁, k₂, k₃, k₄⟩ := k.others p hp
    exact ⟨k₁.trans h₁, k₂.trans h₂, k₃.trans h₃, k₄.trans h₄⟩
  result hres := k.result (h.result hres)
  ok hok := k.ok (h.ok hok)

/-- Recomputing the status touches no entry. -/
theorem moves_refreshStatus (actor : Option PartyID) (r : RunRecord) :
    Moves actor r r.refreshStatus where
  intent := rfl
  others _ _ := ⟨rfl, rfl, rfl, rfl⟩
  result h := h
  ok h := ⟨h.accepted, h.started, h.completed, h.exclusive⟩

theorem Moves.refl (actor : Option PartyID) (r : RunRecord) : Moves actor r r where
  intent := rfl
  others _ _ := ⟨rfl, rfl, rfl, rfl⟩
  result h := h
  ok h := h

theorem moves_accept {digest : Bytes} (hd : digest = r.intent.acceptanceDigest) :
    Moves (some self) r { r with accepted := r.accepted.insert self digest } where
  intent := rfl
  others p hp := ⟨Finmap.lookup_insert_of_ne _ (by simpa [eq_comm] using hp), rfl, rfl, rfl⟩
  result h := h
  ok h := by
    refine ⟨fun hp => ?_, fun hp => ?_, h.completed, h.exclusive⟩
    · rcases FMap.lookup_insert_eq_some.mp hp with ⟨-, rfl⟩ | ⟨-, hp⟩
      · exact hd
      · exact h.accepted hp
    · obtain ⟨hb, hacc⟩ := h.started hp
      exact ⟨hb, Finmap.mem_insert.mpr (.inr hacc)⟩

theorem moves_start (hacc : self ∈ r.accepted) :
    Moves (some self) r { r with started := r.started.insert self true } where
  intent := rfl
  others p hp := ⟨rfl, Finmap.lookup_insert_of_ne _ (by simpa [eq_comm] using hp), rfl, rfl⟩
  result h := h
  ok h := by
    refine ⟨h.accepted, fun hp => ?_, fun hp => ?_, h.exclusive⟩
    · rcases FMap.lookup_insert_eq_some.mp hp with ⟨rfl, rfl⟩ | ⟨-, hp⟩
      · exact ⟨rfl, hacc⟩
      · exact h.started hp
    · exact Finmap.mem_insert.mpr (.inr (h.completed hp))

theorem moves_complete {result : LocalRunResult} (hstarted : self ∈ r.started)
    (hlive : self ∉ r.aborted) (hnew : r.completed.lookup self = none) :
    Moves (some self) r { r with completed := r.completed.insert self result } where
  intent := rfl
  others p hp := ⟨rfl, rfl, Finmap.lookup_insert_of_ne _ (by simpa [eq_comm] using hp), rfl⟩
  result {p res} hres := by
    have hne : p ≠ self := by
      rintro rfl
      rw [hnew] at hres
      cases hres
    exact (Finmap.lookup_insert_of_ne _ hne).trans hres
  ok h := by
    refine ⟨h.accepted, h.started, fun hp => ?_, fun hp => ?_⟩
    · rcases Finmap.mem_insert.mp hp with rfl | hp
      · exact hstarted
      · exact h.completed hp
    · rcases Finmap.mem_insert.mp hp with rfl | hp
      · exact hlive
      · exact h.exclusive hp

theorem moves_abort {reason : GoString} (hopen : self ∉ r.completed) :
    Moves (some self) r { r with aborted := r.aborted.insert self reason } where
  intent := rfl
  others p hp := ⟨rfl, rfl, rfl, Finmap.lookup_insert_of_ne _ (by simpa [eq_comm] using hp)⟩
  result h := h
  ok h := by
    refine ⟨h.accepted, h.started, h.completed, fun {p} hp hab => ?_⟩
    rcases Finmap.mem_insert.mp hab with rfl | hab
    · exact hopen hp
    · exact h.exclusive hp hab

/-! ## Calls on one record -/

theorem acceptPlan_moves (self : PartyID) (digest : Bytes) (r : RunRecord) :
    Leaves (Moves (some self) r) (acceptPlan self digest) r := by
  have hrefl := Moves.refl (some self) r
  have hfresh := moves_refreshStatus (some self) r
  unfold acceptPlan
  simp only [leaves_get_bind, leaves_throwIf_bind, leaves_modify_bind]
  refine ⟨fun _ => hrefl, fun _ => ⟨fun _ => hrefl, fun hd => ⟨fun _ => hfresh, fun _ =>
    ⟨fun _ => hfresh, fun _ => ?_⟩⟩⟩⟩
  split
  · exact (leaves_throwIf ..).mpr hfresh
  · simp only [leaves_throwIf_bind, leaves_modify_bind, leaves_modify]
    refine ⟨fun _ => hfresh, fun _ => ⟨fun _ => hfresh, fun _ => ?_⟩⟩
    exact (hfresh.trans (moves_accept (not_not.mp hd))).trans (moves_refreshStatus _ _)

theorem markStarted_moves (self : PartyID) (digest : Bytes) (descriptor : SessionDescriptor)
    (r : RunRecord) :
    Leaves (Moves (some self) r) (markStarted self digest descriptor) r := by
  have hrefl := Moves.refl (some self) r
  unfold markStarted
  simp only [leaves_get_bind, leaves_check_bind, leaves_throwIf_bind, leaves_modify_bind,
    leaves_modify]
  refine ⟨fun _ => hrefl, fun _ => ⟨fun _ => hrefl, fun _ => ⟨fun _ => hrefl, fun _ =>
    ⟨fun _ => hrefl, fun _ => ⟨fun _ => hrefl, fun hacc => ?_⟩⟩⟩⟩⟩
  exact (moves_start (not_not.mp hacc)).trans (moves_refreshStatus _ _)

theorem markCompleted_moves (self : PartyID) (result : LocalRunResult) (r : RunRecord) :
    Leaves (Moves (some self) r) (markCompleted self result) r := by
  have hrefl := Moves.refl (some self) r
  unfold markCompleted
  simp only [leaves_get_bind, leaves_check_bind, leaves_throwIf_bind]
  refine ⟨fun _ => hrefl, fun _ => ⟨fun _ => hrefl, fun hlive => ⟨fun _ => hrefl,
    fun hstarted => ⟨fun _ => hrefl, fun _ => ?_⟩⟩⟩⟩
  split
  · exact (leaves_throwIf ..).mpr hrefl
  · next hnew =>
    exact (moves_complete (not_not.mp hstarted) hlive hnew).trans (moves_refreshStatus _ _)

theorem abortRun_moves (self : PartyID) (reason : GoString) (r : RunRecord) :
    Leaves (Moves (some self) r) (abortRun self reason) r := by
  have hrefl := Moves.refl (some self) r
  unfold abortRun
  simp only [leaves_get_bind, leaves_throwIf_bind, leaves_modify_bind, leaves_modify]
  refine ⟨fun _ => hrefl, fun _ => ⟨fun _ => hrefl, fun hopen => ?_⟩⟩
  exact (moves_abort hopen).trans (moves_refreshStatus _ _)

theorem lookup_moves (r : RunRecord) : Leaves (Moves none r) lookup r := by
  unfold lookup
  simp only [leaves_modify_bind, leaves_get_bind]
  split <;> exact moves_refreshStatus none r

omit [Sha256] in
theorem any_active_iff :
    (r.accepted.any fun party _ => r.active party) = true ↔
      ∃ p, p ∈ r.accepted ∧ p ∉ r.completed ∧ p ∉ r.aborted := by
  rw [FMap.any_iff]
  constructor
  · rintro ⟨p, d, hp, hact⟩
    exact ⟨p, Finmap.mem_iff.mpr ⟨d, hp⟩, by simpa [active] using hact⟩
  · rintro ⟨p, hp, hact⟩
    obtain ⟨d, hd⟩ := Finmap.mem_iff.mp hp
    exact ⟨p, d, hd, by simpa [active] using hact⟩

omit [Sha256] in
/-- The refreshed status is accepted or started exactly when someone who accepted is
neither done nor out. -/
theorem lookup_ok {intent : RunIntent} :
    (exec lookup r).1 = .ok intent ↔
      r.intent = intent ∧ ∃ p, p ∈ r.accepted ∧ p ∉ r.completed ∧ p ∉ r.aborted := by
  rw [← any_active_iff]
  -- a started active party is an accepted active party
  have hstarted : (r.accepted.any fun party _ =>
      r.active party && (r.started.lookup party).getD false) = true →
      (r.accepted.any fun party _ => r.active party) = true := by
    intro h
    obtain ⟨p, d, hp, hact⟩ := FMap.any_iff.mp h
    exact FMap.any_iff.mpr ⟨p, d, hp, (Bool.and_eq_true_iff.mp hact).1⟩
  by_cases hs : (r.accepted.any fun party _ =>
      r.active party && (r.started.lookup party).getD false) = true
  · simp [lookup, exec_bind, refreshStatus, hs, hstarted hs]
  · by_cases ha : (r.accepted.any fun party _ => r.active party) = true
    · simp [lookup, exec_bind, refreshStatus, hs, ha]
    · by_cases hc : 0 < r.completed.size
      · simp [lookup, exec_bind, refreshStatus, hs, ha, hc]
      · by_cases hb : 0 < r.aborted.size
        · simp [lookup, exec_bind, refreshStatus, hs, ha, hc, hb]
        · simp [lookup, exec_bind, refreshStatus, hs, ha, hc, hb]

end RunRecord

/-! ## Moves of the store -/

variable [Sha256] {s t : MemoryRunStore}

/-- The record `CreateRun` stores. -/
def created (run : RunIntent) : RunRecord :=
  { intent := run, status := .proposed, accepted := ∅, started := ∅, completed := ∅, aborted := ∅ }

omit [Sha256] in
theorem created_ok [Sha256] (run : RunIntent) : (created run).Ok :=
  ⟨nofun, nofun, fun h => absurd h Finmap.notMem_empty, fun h => absurd h Finmap.notMem_empty⟩

/-- Everything a call can do to the store. -/
inductive StoreMoves (actor : Option PartyID) (s : MemoryRunStore) : MemoryRunStore → Prop
  | same : StoreMoves actor s s
  | record {id : GoString} {r r' : RunRecord} (hr : s.byRunID.lookup id = some r)
      (hmove : RunRecord.Moves actor r r') :
      StoreMoves actor s { s with byRunID := s.byRunID.insert id r' }
  | create {run : RunIntent} (hid : run.runID ∉ s.byRunID)
      (hsession : ⟨run.protocol, run.sessionID⟩ ∉ s.bySession) :
      StoreMoves actor s
        { byRunID := s.byRunID.insert run.runID (created run)
          bySession := s.bySession.insert ⟨run.protocol, run.sessionID⟩ run.runID }

variable {actor : Option PartyID}

theorem withRecord_moves {α : Type} (id : GoString) (missing : RunError)
    {body : Proc RunRecord RunError α} (hbody : ∀ r, Leaves (RunRecord.Moves actor r) body r)
    (s : MemoryRunStore) :
    Leaves (StoreMoves actor s) (withRecord id missing body) s := by
  unfold withRecord
  rw [leaves_get_bind]
  split
  · exact .same
  · next r hr => exact .record hr (hbody r)

theorem step_moves (s : MemoryRunStore) (op : RunOp) : StoreMoves op.party s (step s op).2 := by
  have hsame : StoreMoves op.party s s := .same
  rw [step]
  cases op with
  | createRun ctx run =>
    rw [RunOp.call, exec_map]
    change Leaves (StoreMoves none s) (createRun ctx run) s
    unfold createRun
    simp only [leaves_check_bind, leaves_get_bind, leaves_throwIf_bind, leaves_modify]
    refine ⟨fun _ => hsame, fun _ => ⟨fun _ => hsame, fun _ => ⟨fun _ => hsame, fun hid =>
      ⟨fun _ => hsame, fun hsession => .create hid hsession⟩⟩⟩⟩
  | acceptPlan ctx id self digest =>
    rw [RunOp.call, exec_map]
    change Leaves (StoreMoves (some self) s) (acceptPlan ctx id self digest) s
    unfold acceptPlan
    simp only [leaves_check_bind, leaves_throwIf_bind]
    exact ⟨fun _ => hsame, fun _ => ⟨fun _ => hsame, fun _ =>
      withRecord_moves id _ (RunRecord.acceptPlan_moves self digest) s⟩⟩
  | loadRun ctx id =>
    rw [RunOp.call, exec_map]
    change Leaves (StoreMoves none s) (loadRun ctx id) s
    unfold loadRun
    simp only [leaves_check_bind, leaves_throwIf_bind]
    refine ⟨fun _ => hsame, fun _ => ⟨fun _ => hsame, fun _ => ?_⟩⟩
    exact withRecord_moves id _ (fun r => by exact RunRecord.Moves.refl none r) s
  | lookupBySession ctx protocol sessionID =>
    rw [RunOp.call, exec_map]
    change Leaves (StoreMoves none s) (lookupBySession ctx protocol sessionID) s
    unfold lookupBySession
    simp only [leaves_check_bind, leaves_get_bind]
    refine ⟨fun _ => hsame, fun _ => ?_⟩
    split
    · exact hsame
    · exact withRecord_moves _ _ RunRecord.lookup_moves s
  | markStarted ctx id self digest descriptor =>
    rw [RunOp.call, exec_map]
    change Leaves (StoreMoves (some self) s) (markStarted ctx id self digest descriptor) s
    unfold markStarted
    rw [leaves_check_bind]
    exact ⟨fun _ => hsame, fun _ =>
      withRecord_moves id _ (RunRecord.markStarted_moves self digest descriptor) s⟩
  | markCompleted ctx id self result =>
    rw [RunOp.call, exec_map]
    change Leaves (StoreMoves (some self) s) (markCompleted ctx id self result) s
    unfold markCompleted
    rw [leaves_check_bind]
    exact ⟨fun _ => hsame, fun _ =>
      withRecord_moves id _ (RunRecord.markCompleted_moves self result) s⟩
  | abortRun ctx id self reason =>
    rw [RunOp.call, exec_map]
    change Leaves (StoreMoves (some self) s) (abortRun ctx id self reason) s
    unfold abortRun
    rw [leaves_check_bind]
    exact ⟨fun _ => hsame, fun _ =>
      withRecord_moves id _ (RunRecord.abortRun_moves self reason) s⟩

/-! ## Runs of calls -/

/-- The session an intent names. -/
def RunIntent.session (run : RunIntent) : SessionIndex := ⟨run.protocol, run.sessionID⟩

/-- Records obey the laws, and the two indexes are inverse to each other. -/
structure StoreOk (s : MemoryRunStore) : Prop where
  record : ∀ {id r}, s.byRunID.lookup id = some r →
    r.Ok ∧ r.intent.runID = id ∧ s.bySession.lookup r.intent.session = some id
  session : ∀ {idx id}, s.bySession.lookup idx = some id →
    ∃ r, s.byRunID.lookup id = some r ∧ r.intent.session = idx

/-- What is bound stays bound to the same intent, and results stay. -/
structure StoreKeeps (s t : MemoryRunStore) : Prop where
  record : ∀ {id r}, s.byRunID.lookup id = some r → ∃ r', t.byRunID.lookup id = some r' ∧
    r'.intent = r.intent ∧
    ∀ p res, r.completed.lookup p = some res → r'.completed.lookup p = some res
  session : ∀ {idx id}, s.bySession.lookup idx = some id → t.bySession.lookup idx = some id

omit [Sha256] in
theorem StoreKeeps.refl (s : MemoryRunStore) : StoreKeeps s s :=
  ⟨fun hr => ⟨_, hr, rfl, fun _ _ h => h⟩, fun h => h⟩

omit [Sha256] in
theorem StoreKeeps.trans {u : MemoryRunStore} (h : StoreKeeps s t) (k : StoreKeeps t u) :
    StoreKeeps s u where
  record hr := by
    obtain ⟨r', hr', hi, hres⟩ := h.record hr
    obtain ⟨r'', hr'', hi', hres'⟩ := k.record hr'
    exact ⟨r'', hr'', hi'.trans hi, fun p res hp => hres' p res (hres p res hp)⟩
  session hidx := k.session (h.session hidx)

theorem StoreMoves.keeps (h : StoreMoves actor s t) : StoreKeeps s t := by
  cases h with
  | same => exact .refl s
  | @record id r r' hr hmove =>
    refine ⟨fun {x q} hq => ?_, fun h => h⟩
    by_cases hx : x = id
    · subst hx
      obtain rfl : r = q := Option.some.inj (hr.symm.trans hq)
      exact ⟨r', Finmap.lookup_insert _, hmove.intent, fun _ _ => hmove.result⟩
    · exact ⟨q, (Finmap.lookup_insert_of_ne _ hx).trans hq, rfl, fun _ _ h => h⟩
  | @create run hid hsession =>
    refine ⟨fun {x q} hq => ⟨q, ?_, rfl, fun _ _ h => h⟩, fun {idx id} hidx => ?_⟩
    · have hx : x ≠ run.runID := fun hx => hid (Finmap.mem_iff.mpr ⟨q, hx ▸ hq⟩)
      exact (Finmap.lookup_insert_of_ne _ hx).trans hq
    · have hx : idx ≠ ⟨run.protocol, run.sessionID⟩ :=
        fun hx => hsession (Finmap.mem_iff.mpr ⟨id, hx ▸ hidx⟩)
      exact (Finmap.lookup_insert_of_ne _ hx).trans hidx

theorem StoreMoves.ok (h : StoreMoves actor s t) (hs : StoreOk s) :
    StoreOk t := by
  cases h with
  | same => exact hs
  | @record id r r' hr hmove =>
    refine ⟨fun {x q} hq => ?_, fun {idx x} hidx => ?_⟩
    · rcases FMap.lookup_insert_eq_some.mp hq with ⟨rfl, rfl⟩ | ⟨-, hq⟩
      · obtain ⟨hok, hid, hsession⟩ := hs.record hr
        rw [RunIntent.session, hmove.intent]
        exact ⟨hmove.ok hok, hid, hsession⟩
      · exact hs.record hq
    · obtain ⟨q, hq, hidx'⟩ := hs.session hidx
      by_cases hx : x = id
      · subst hx
        obtain rfl : r = q := Option.some.inj (hr.symm.trans hq)
        exact ⟨r', Finmap.lookup_insert _, hmove.intent ▸ hidx'⟩
      · exact ⟨q, (Finmap.lookup_insert_of_ne _ hx).trans hq, hidx'⟩
  | @create run hid hsession =>
    refine ⟨fun {x q} hq => ?_, fun {idx x} hidx => ?_⟩
    · rcases FMap.lookup_insert_eq_some.mp hq with ⟨rfl, rfl⟩ | ⟨-, hq⟩
      · exact ⟨created_ok run, rfl, Finmap.lookup_insert _⟩
      · obtain ⟨hok, hx, hidx⟩ := hs.record hq
        have hne : q.intent.session ≠ ⟨run.protocol, run.sessionID⟩ :=
          fun he => hsession (Finmap.mem_iff.mpr ⟨x, he ▸ hidx⟩)
        exact ⟨hok, hx, (Finmap.lookup_insert_of_ne _ hne).trans hidx⟩
    · rcases FMap.lookup_insert_eq_some.mp hidx with ⟨rfl, rfl⟩ | ⟨-, hidx⟩
      · exact ⟨_, Finmap.lookup_insert _, rfl⟩
      · obtain ⟨q, hq, hidx'⟩ := hs.session hidx
        have hne : x ≠ run.runID := fun he => hid (Finmap.mem_iff.mpr ⟨q, he ▸ hq⟩)
        exact ⟨q, (Finmap.lookup_insert_of_ne _ hne).trans hq, hidx'⟩

/-- A call leaves every other party's entries alone, in every record. -/
theorem StoreMoves.others (h : StoreMoves actor s t) {id : GoString} {r : RunRecord}
    (hr : s.byRunID.lookup id = some r) {p : PartyID} (hp : actor ≠ some p) :
    ∃ r', t.byRunID.lookup id = some r' ∧ RunRecord.SameEntries p r r' := by
  have hsame : RunRecord.SameEntries p r r := ⟨rfl, rfl, rfl, rfl⟩
  cases h with
  | same => exact ⟨r, hr, hsame⟩
  | @record x q q' hq hmove =>
    by_cases hx : id = x
    · subst hx
      obtain rfl : r = q := Option.some.inj (hr.symm.trans hq)
      exact ⟨q', Finmap.lookup_insert _, hmove.others p hp⟩
    · exact ⟨r, (Finmap.lookup_insert_of_ne _ hx).trans hr, hsame⟩
  | @create run hid hsession =>
    have hx : id ≠ run.runID := fun hx => hid (Finmap.mem_iff.mpr ⟨r, hx ▸ hr⟩)
    exact ⟨r, (Finmap.lookup_insert_of_ne _ hx).trans hr, hsame⟩

theorem StoreOk.new : StoreOk newMemoryRunStore := ⟨nofun, nofun⟩

theorem runCalls_ok (hs : StoreOk s) (ops : List RunOp) : StoreOk (runCalls s ops) :=
  Run.final_inv StoreOk (fun s op h => (step_moves s op).ok h) hs ops

theorem runCalls_keeps (s : MemoryRunStore) (ops : List RunOp) : StoreKeeps s (runCalls s ops) :=
  Run.final_rel (fun _ => True) StoreKeeps (fun _ _ _ => trivial) .refl (fun _ _ _ => .trans)
    (fun s op _ => (step_moves s op).keeps) trivial ops

theorem lookupBySession_ok (hs : StoreOk s) {protocol : ProtocolID} {sessionID : SessionID}
    {intent : RunIntent} :
    (step s (.lookupBySession none protocol sessionID)).1 = .ok (some intent) ↔
      ∃ id r, s.bySession.lookup ⟨protocol, sessionID⟩ = some id ∧
        s.byRunID.lookup id = some r ∧ r.intent = intent ∧
        ∃ p, p ∈ r.accepted ∧ p ∉ r.completed ∧ p ∉ r.aborted := by
  have hmap : ∀ x : Except RunError RunIntent, x.map some = .ok (some intent) ↔ x = .ok intent := by
    rintro (e | i) <;> simp [Except.map]
  rw [step, RunOp.call, exec_map, hmap]
  unfold lookupBySession
  cases hidx : s.bySession.lookup ⟨protocol, sessionID⟩ with
  | none => simp [exec_bind, exec_check, ctxErr, hidx]
  | some id =>
    obtain ⟨r, hr, -⟩ := hs.session hidx
    simp [exec_bind, exec_check, exec_zoom, ctxErr, hidx, withRecord, hr, RunRecord.lookup_ok]

/-- The per-party laws, in any interleaving of calls. A started party accepted the
exact digest of the stored intent, a completed one was started and is not aborted,
and its result stays; a call changes no other party's entries; run identifiers and
sessions stay bound to one intent; and a session lookup returns the intent exactly
while some party that accepted is neither completed nor aborted. -/
theorem run_store_lifecycle (before after : List RunOp) :
    let s := runCalls newMemoryRunStore before
    let t := runCalls newMemoryRunStore (before ++ after)
    (∀ id r, s.byRunID.lookup id = some r →
      (∀ p, p ∈ r.started → r.accepted.lookup p = some r.intent.acceptanceDigest) ∧
      (∀ p, p ∈ r.completed → r.started.lookup p = some true) ∧
      (∀ p, ¬ (p ∈ r.completed ∧ p ∈ r.aborted)) ∧
      (∀ op p, RunOp.party op ≠ some p →
        ∃ r', (step s op).2.byRunID.lookup id = some r' ∧ RunRecord.SameEntries p r r') ∧
      r.intent.runID = id ∧ s.bySession.lookup r.intent.session = some id ∧
      ∃ r', t.byRunID.lookup id = some r' ∧ r'.intent = r.intent ∧
        ∀ p res, r.completed.lookup p = some res → r'.completed.lookup p = some res) ∧
    (∀ idx id, s.bySession.lookup idx = some id → t.bySession.lookup idx = some id ∧
      ∃ r, s.byRunID.lookup id = some r ∧ r.intent.session = idx) ∧
    ∀ protocol sessionID intent,
      (step s (.lookupBySession none protocol sessionID)).1 = .ok (some intent) ↔
        ∃ id r, s.bySession.lookup ⟨protocol, sessionID⟩ = some id ∧
          s.byRunID.lookup id = some r ∧ r.intent = intent ∧
          ∃ p, p ∈ r.accepted ∧ p ∉ r.completed ∧ p ∉ r.aborted := by
  intro s t
  have hs : StoreOk s := runCalls_ok .new before
  have hkeeps : StoreKeeps s t := by
    have hrun : t = runCalls s after := Run.final_append step _ before after
    rw [hrun]
    exact runCalls_keeps s after
  refine ⟨fun id r hr => ?_, fun idx id hidx => ⟨hkeeps.session hidx, hs.session hidx⟩,
    fun protocol sessionID intent => lookupBySession_ok hs⟩
  obtain ⟨hok, hid, hsession⟩ := hs.record hr
  have hstarted : ∀ p, p ∈ r.started → r.started.lookup p = some true ∧ p ∈ r.accepted := by
    intro p hp
    obtain ⟨b, hb⟩ := Finmap.mem_iff.mp hp
    obtain ⟨rfl, hacc⟩ := hok.started hb
    exact ⟨hb, hacc⟩
  refine ⟨fun p hp => ?_, fun p hp => (hstarted p (hok.completed hp)).1,
    fun p ⟨hc, ha⟩ => hok.exclusive hc ha, fun op p hp => (step_moves s op).others hr hp, hid,
    hsession, hkeeps.record hr⟩
  obtain ⟨d, hd⟩ := Finmap.mem_iff.mp (hstarted p hp).2
  rw [hd, hok.accepted hd]

end Tss.Runs
