import Tss.Frost.SigningSession
import Tss.Frost.Correctness
import Tss.Lib.Run

/-!
# Safety of the signing session

Two facts about every call on a signing session. A failed `Handle` leaves the
session as it was or aborts it: what `apply` can return is an error the
session aborts on (`apply_error_aborts`). And the nonces are used once:
`NonceInv` ties their presence to the flags of the session, and
`Accounts` ties the flags to what was emitted.
-/

set_option linter.unusedSectionVars false

namespace Tss.Frost

open Edwards25519 Fallible

variable {F G : Type} [Field F] [DecidableEq F] [AddCommGroup G] [DecidableEq G] [Module F G]
  [Edwards25519 F G]

/-! ## Errors that abort -/

/-- No error of the rounds wraps an error variable. -/
theorem LagrangeError.toGoError_is (e : LagrangeError) (target : Sentinel) :
    e.toGoError.is target = false := by
  cases e <;> rfl

theorem SignError.toGoError_is (e : SignError F) (target : Sentinel) :
    e.toGoError.is target = false := by
  induction e with
  | interpolation cause => exact cause.toGoError_is target
  | bindingFactors cause ih => exact ih
  | protocol code round party blame cause ih => exact ih
  | _ => rfl

/-- The errors that the rounds return at the top: plain ones, and protocol errors that report
a failed verification or a broken invariant. -/
def SignError.Fatal : SignError F → Prop
  | .protocol code _ _ _ _ => code = .verification ∨ code = .invariant
  | .bindingFactors _ => False
  | _ => True

theorem SignError.Fatal.terminal {e : SignError F} (h : e.Fatal) : Terminal e.toGoError := by
  cases e with
  | bindingFactors cause => exact h.elim
  | interpolation cause => exact .of_plain (by cases cause <;> rfl)
  | protocol code round party blame cause =>
    intro r
    have his := cause.toGoError_is .planHashMismatch
    obtain rfl | rfl := h <;>
      simp [terminalApplyError, SignError.toGoError, shouldAbortSession, his]
  | _ => exact .of_plain rfl

section Rounds

variable [Sha512]

theorem SignSession.groupCommitment_fatal (s : SignSession F G) :
    ErrorsIn SignError.Fatal s.groupCommitment := by
  refine .guard (.inr rfl) ?_
  refine .bind (.mapError fun _ _ => .inr rfl) fun rhos _ => ?_
  refine .bind (.mapM fun id _ => ?_) fun terms _ => ?_
  · unfold nonceTerm
    split
    · exact .error (.inr rfl)
    · split
      · exact .error trivial
      · exact .ok _
  · refine .bind ?_ fun _ _ => .ok _
    exact .bind (.rejectIf (.inl rfl)) fun _ _ => .ok _

theorem SignSession.prepareLocalPartial_fatal (s : SignSession F G) :
    ErrorsIn SignError.Fatal s.prepareLocalPartial := by
  unfold prepareLocalPartial
  split
  · exact .ok _
  · simp only
    split
    · refine .bind (groupCommitment_fatal s) fun p _ => ?_
      refine .bind (.mapError fun _ _ => trivial) fun lambda _ => ?_
      split
      · exact .error trivial
      · exact .ok _
    · exact .error trivial

theorem SignSession.prepareAggregate_fatal (s : SignSession F G) :
    ErrorsIn SignError.Fatal s.prepareAggregate := by
  unfold prepareAggregate
  split
  · exact .ok _
  · simp only
    split
    · exact .ok _
    · refine .bind (groupCommitment_fatal s) fun p _ => ?_
      refine .bind (.foldlM fun id _ z => ?_) fun z _ => ?_
      · unfold aggregateStep
        split
        · exact .bind (.mapError fun _ _ => .inl rfl) fun _ _ => .ok _
        · exact .error trivial
      · exact .bind (.rejectIf (.inr rfl)) fun _ _ => .ok _

end Rounds

namespace SigningSession

section Spec

variable [Sha512]

theorem prepareLocalPartial_terminal (s : SigningSession F G) :
    ErrorsIn Terminal s.prepareLocalPartial := by
  refine .bind (.mapError fun e he => (s.prepareLocalPartial_fatal e he).terminal) fun part _ => ?_
  split
  · exact .ok _
  · refine ErrorsIn.imp (P := GoError.Plain) ?_ fun _ => Terminal.of_plain
    refine .bind (.bind (.rejectIf rfl) fun _ _ => Wire.Schema.marshal_plain _ _) fun _ _ => ?_
    exact .bind (newEnvelope_plain _ _ _ _ _ _ _) fun _ _ => .ok _

/-! ## What the steps of `apply` do -/

theorem exec_tryAggregate (s : SigningSession F G) :
    Proc.exec tryAggregate s = match s.prepareAggregate with
      | .error e => (.error e.toGoError, s)
      | .ok none => (.ok (), s)
      | .ok (some sig) => (.ok (), commitAggregate sig s) := by
  unfold tryAggregate
  rw [Proc.exec_bind, Proc.exec_get]
  simp only
  rw [Proc.exec_bind, Proc.exec_outcome]
  rcases s.prepareAggregate with e | _ | sig <;> rfl

theorem exec_tryEmitPartial (s : SigningSession F G) :
    Proc.exec tryEmitPartial s = match s.prepareLocalPartial with
      | .error e => (.error e, s.recordPartial)
      | .ok none => (.ok [], s.recordPartial)
      | .ok (some (part, env)) =>
        ((Proc.exec tryAggregate (commitLocalPartial part s.recordPartial)).1.map fun _ => [env],
          (Proc.exec tryAggregate (commitLocalPartial part s.recordPartial)).2) := by
  unfold tryEmitPartial
  rw [Proc.exec_bind, Proc.exec_get]
  simp only
  rw [Proc.exec_bind, Proc.exec_modify]
  simp only
  rw [Proc.exec_bind, Proc.exec_outcome]
  rcases s.prepareLocalPartial with e | _ | ⟨part, env⟩
  · rfl
  · rfl
  · simp only [Proc.exec_bind, Proc.exec_modify]
    rcases Proc.exec tryAggregate (commitLocalPartial part s.recordPartial) with ⟨_ | _, t⟩ <;> rfl

theorem exec_promotePendingPartials (s : SigningSession F G) :
    Proc.exec promotePendingPartials s =
      if s.commitments.keys.card ≠ s.signers.length ∨ s.pendingPartials.keys.card = 0 then
        (.ok (), s)
      else match s.signers.forM s.verifyPending with
        | .error e => (.error e, s)
        | .ok () => (.ok (), s.signers.foldl promotePending s) := by
  unfold promotePendingPartials
  rw [Proc.exec_bind, Proc.exec_get]
  simp only
  split
  · rfl
  · rw [Proc.exec_bind, Proc.exec_outcome]
    rcases s.signers.forM s.verifyPending with e | u <;> rfl

/-! ## A failed transition aborts -/

theorem tryAggregate_terminal (s : SigningSession F G) :
    Proc.ErrorsAt (fun err _ => Terminal err) tryAggregate s := by
  refine .get_bind (.outcome_bind ?_ fun sig _ => ?_)
  · intro err herr
    obtain ⟨e, he, rfl⟩ := mapError_eq_error.mp herr
    exact (s.prepareAggregate_fatal e he).terminal
  · split
    · exact .of_pure trivial
    · exact .of_modify trivial

theorem tryEmitPartial_terminal (s : SigningSession F G) :
    Proc.ErrorsAt (fun err _ => Terminal err) tryEmitPartial s := by
  refine .get_bind (.modify_bind ?_)
  refine .outcome_bind s.prepareLocalPartial_terminal fun prep _ => ?_
  split
  · exact .of_pure trivial
  · exact .modify_bind (.bind (tryAggregate_terminal _) fun _ _ _ => .of_pure trivial)

/-- The errors of the check of an accepted partial. -/
theorem verifyAcceptedPartial_terminal (s : SigningSession F G) (round : UInt8) (sender : PartyID)
    (part : F) : ErrorsIn Terminal (s.verifyAcceptedPartial round sender part) := by
  refine .guard (.of_plain rfl) ?_
  refine .bind (.mapError fun e he => ?_) fun p _ => ?_
  · have hfatal : Terminal e.toGoError := (s.groupCommitment_fatal e he).terminal
    exact hfatal.terminalApplyError round
  · simp only
    split
    · exact .error (.of_plain rfl)
    · refine .mapError fun e _ r => ?_
      have his := e.toGoError_is .planHashMismatch
      simp [terminalApplyError, shouldAbortSession, his]

theorem promotePendingPartials_terminal (s : SigningSession F G) :
    Proc.ErrorsAt (fun err _ => Terminal err) promotePendingPartials s := by
  have hpending : ErrorsIn Terminal (s.signers.forM s.verifyPending) := by
    refine .forM fun id _ => ?_
    unfold verifyPending
    split
    · exact .ok _
    · split
      · exact verifyAcceptedPartial_terminal s _ _ _
      · exact verifyAcceptedPartial_terminal s _ _ _
  refine .get_bind ?_
  split
  · exact .of_pure trivial
  · exact .outcome_bind hpending fun _ _ => .of_modify trivial

/-- Every error of `apply` aborts the session. -/
theorem apply_error_aborts (tx : Transition F G) (s : SigningSession F G) :
    Proc.ErrorsAt (fun err _ => shouldAbortSession err = true) (apply tx) s := by
  cases tx with
  | duplicate => exact .of_pure trivial
  | acceptNonceCommitment sender commitment =>
    refine .modify_bind (.bind (.mapError (Proc.ErrorsAt.imp (promotePendingPartials_terminal _)
      fun _ _ h => h 1)) fun _ t _ => .mapError ?_)
    exact Proc.ErrorsAt.imp (tryEmitPartial_terminal t) fun _ _ h => h 1
  | acceptPartial sender part env pending =>
    by_cases hpending : pending = true
    · simp only [apply, hpending, if_true]
      exact .modify_bind (.of_pure trivial)
    · simp only [apply, hpending]
      exact .modify_bind (.bind (.mapError (Proc.ErrorsAt.imp (tryAggregate_terminal _)
        fun _ _ h => h 2)) fun _ _ _ => .of_pure trivial)

end Spec

/-- The session is aborted and holds no secret, and nothing it has received. -/
structure Cleared (s : SigningSession F G) : Prop where
  aborted : s.aborted = true
  dNonce : s.dNonce = none
  eNonce : s.eNonce = none
  deltaScalar : s.deltaScalar = none
  commitments : s.commitments = ∅
  partials : s.partials = ∅
  partialEnvelopes : s.partialEnvelopes = ∅
  pendingPartials : s.pendingPartials = ∅
  pendingEnvelopes : s.pendingEnvelopes = ∅
  message : s.message = []
  signature : s.signature = []

theorem cleared_abort (s : SigningSession F G) : s.abort.Cleared :=
  ⟨rfl, rfl, rfl, rfl, rfl, rfl, rfl, rfl, rfl, rfl, rfl⟩

section Runs

variable [Sha256] [Sha512]

/-- A failed `Handle` leaves the session as it was, or aborted and cleared. -/
theorem handle_error {ctx : HandlerContext} {env : InboundEnvelope}
    {h h' : Hosted (SigningSession F G)} {err : GoError}
    (hfail : handle ctx env h = (.error err, h')) :
    h'.session = h.session ∨ h'.session.Cleared := by
  refine SessionOps.handle_error (Q := Cleared) hfail (fun _ _ => cleared_abort _) ?_
  intro tx _ _ _
  exact Proc.ErrorsAt.imp (apply_error_aborts tx h.session) fun _ t habort =>
    ⟨habort, cleared_abort t⟩

/-! ## The nonces -/

/-- The session still runs. -/
def live (s : SigningSession F G) : Bool := !s.completed && !s.aborted && !s.closed

/-- Every signer has its commitment in the set, the one of `party` is `c`, and there are no
others. -/
structure CompleteSet (signers : PartySet) (party : PartyID) (c : NonceCommitment G)
    (set : FMap PartyID (NonceCommitment G)) : Prop where
  card : set.keys.card = signers.length
  mem : ∀ id ∈ signers, ∃ commitment, set.lookup id = some commitment
  own : set.lookup party = some c

/-- What the past of the session is: at most one partial was computed, over a complete set. -/
structure History (c : NonceCommitment G) (s : SigningSession F G) : Prop where
  once : s.computedPartials.length ≤ 1
  complete : ∀ p ∈ s.computedPartials, CompleteSet s.signers s.key.party c p.1

/-- The nonces `d` and `e`, committed to by `c`, are there exactly while the session runs and
has not sent its partial. -/
structure NonceInv (c : NonceCommitment G) (d e : F) (s : SigningSession F G) : Prop
    extends History c s where
  dNonce : s.dNonce = if s.live && !s.partialSent then some d else none
  eNonce : s.eNonce = if s.live && !s.partialSent then some e else none
  unsent : s.live = true → s.partialSent = false → s.computedPartials = []
  own : s.live = true → s.commitments.lookup s.key.party = some c
  closed : s.closed = true → s.completed = true ∨ s.aborted = true

/-- The envelope carries a partial signature. -/
def isPartial (env : Envelope) : Bool := env.payloadType = payloadSignPartial

/-- The envelope carries a partial that the session computed. -/
def Computed (s : SigningSession F G) (env : Envelope) : Prop :=
  ∃ p ∈ s.computedPartials,
    SignPartialPayload.marshal G { z := p.2, planHash := s.planHash } = .ok env.payload

/-- One when the session has marked its partial as sent. -/
def sent (s : SigningSession F G) : Nat := if s.partialSent then 1 else 0

/-- From `s` to `t` the session emitted `out`: each emitted partial is accounted for by the
flag, and none is lost while the session runs. -/
structure Accounts (s : SigningSession F G) (out : List Envelope) (t : SigningSession F G) :
    Prop where
  live : t.live = true → s.live = true
  bound : out.countP isPartial + s.sent ≤ t.sent
  exact : t.live = true → out.countP isPartial + s.sent = t.sent
  emitted : ∀ env ∈ out, isPartial env = true → t.Computed env
  kept : ∀ env, s.Computed env → t.Computed env
  fixed : t.key = s.key ∧ t.signers = s.signers

section Invariant

variable {c : NonceCommitment G} {d e : F} {s t u : SigningSession F G}

theorem Accounts.refl (s : SigningSession F G) : Accounts s [] s :=
  ⟨id, by simp, by simp, by simp, fun _ => id, rfl, rfl⟩

variable {out : List Envelope}

theorem Accounts.trans {out' : List Envelope} (h : Accounts s out t) (h' : Accounts t out' u) :
    Accounts s (out ++ out') u := by
  have hbound := h.bound
  have hbound' := h'.bound
  refine ⟨fun hu => h.live (h'.live hu), ?_, fun hu => ?_, fun env henv hpart => ?_,
    fun env henv => h'.kept env (h.kept env henv), h'.fixed.1.trans h.fixed.1,
    h'.fixed.2.trans h.fixed.2⟩
  · rw [List.countP_append]
    omega
  · have hexact := h.exact (h'.live hu)
    have hexact' := h'.exact hu
    rw [List.countP_append]
    omega
  · rcases List.mem_append.mp henv with henv | henv
    · exact h'.kept env (h.emitted env henv hpart)
    · exact h'.emitted env henv hpart

/-- A session that no longer runs has no more to account for. -/
theorem Accounts.of_dead (hdead : t.live = false) (hsent : s.sent ≤ t.sent)
    (hkept : ∀ env, s.Computed env → t.Computed env)
    (hfixed : t.key = s.key ∧ t.signers = s.signers) : Accounts s [] t := by
  refine ⟨fun hlive => ?_, ?_, fun hlive => ?_, by simp, hkept, hfixed⟩
  · rw [hdead] at hlive
    cases hlive
  · rw [List.countP_nil, Nat.zero_add]
    exact hsent
  · rw [hdead] at hlive
    cases hlive

theorem NonceInv.of_dead (h : History c s) (hdead : s.live = false) (hd : s.dNonce = none)
    (he : s.eNonce = none) (hclosed : s.closed = true → s.completed = true ∨ s.aborted = true) :
    NonceInv c d e s := by
  refine ⟨h, by simp [hd, hdead], by simp [he, hdead], fun hlive => ?_, fun hlive => ?_, hclosed⟩
  · rw [hdead] at hlive
    cases hlive
  · rw [hdead] at hlive
    cases hlive

theorem live_abort (s : SigningSession F G) : s.abort.live = false := by
  simp [SigningSession.live, SigningSession.abort]

theorem live_commitAggregate (sig : Bytes) (s : SigningSession F G) :
    (commitAggregate sig s).live = false := by
  simp [SigningSession.live, SigningSession.commitAggregate]

/-- An abort drops what was emitted on the way to it. -/
theorem Accounts.abort (h : Accounts s out t) : Accounts s [] t.abort := by
  have hsent : s.sent ≤ t.sent := le_trans (Nat.le_add_left _ _) h.bound
  exact .of_dead (live_abort t) hsent h.kept h.fixed

theorem History.abort (h : History c s) : NonceInv c d e s.abort :=
  .of_dead ⟨h.once, h.complete⟩ (live_abort s) rfl rfl fun _ => .inr rfl

/-- What is received of partials has no part in the invariant. -/
theorem NonceInv.of_partials (h : NonceInv c d e s) (partials pending : FMap PartyID F)
    (envelopes pendingEnvelopes : FMap PartyID (PartialEnvelope F)) :
    NonceInv c d e { s with
      partials := partials
      partialEnvelopes := envelopes
      pendingPartials := pending
      pendingEnvelopes := pendingEnvelopes } :=
  ⟨⟨h.once, h.complete⟩, h.dNonce, h.eNonce, h.unsent, h.own, h.closed⟩

theorem Accounts.of_partials (h : Accounts s out t) (partials pending : FMap PartyID F)
    (envelopes pendingEnvelopes : FMap PartyID (PartialEnvelope F)) :
    Accounts s out { t with
      partials := partials
      partialEnvelopes := envelopes
      pendingPartials := pending
      pendingEnvelopes := pendingEnvelopes } :=
  ⟨h.live, h.bound, h.exact, h.emitted, h.kept, h.fixed⟩

/-! ### The local partial -/

variable {part : PartialEnvelope F}

theorem prepareLocalPartial_complete (h : s.toSignSession.prepareLocalPartial = .ok (some part))
    (hown : s.commitments.lookup s.key.party = some c) :
    s.partialSent = false ∧ CompleteSet s.signers s.key.party c s.commitments := by
  unfold SignSession.prepareLocalPartial at h
  split at h
  · cases h
  · next hgate =>
    rw [not_or, Bool.not_eq_true, not_not] at hgate
    simp only at h
    split at h
    · obtain ⟨⟨R, rhos⟩, hgroup, -⟩ := bind_eq_ok.mp h
      obtain ⟨-, hgroup⟩ := seq_eq_ok.mp hgroup
      obtain ⟨rhos', -, hgroup⟩ := bind_eq_ok.mp hgroup
      obtain ⟨terms, hterms, -⟩ := bind_eq_ok.mp hgroup
      refine ⟨hgate.1, hgate.2, fun id hid => ?_, hown⟩
      obtain ⟨term, -, hterm⟩ := mapM_ok_mem hterms id hid
      unfold SignSession.nonceTerm at hterm
      split at hterm
      · cases hterm
      · next commitment hlookup => exact ⟨commitment, hlookup⟩
    · cases h

theorem prepareLocalPartial_planHash (h : s.toSignSession.prepareLocalPartial = .ok (some part)) :
    part.payload.planHash = s.planHash := by
  unfold SignSession.prepareLocalPartial at h
  split at h
  · cases h
  · simp only at h
    split at h
    · obtain ⟨⟨R, rhos⟩, -, h⟩ := bind_eq_ok.mp h
      obtain ⟨lambda, -, h⟩ := bind_eq_ok.mp h
      simp only at h
      split at h
      · cases h
      · cases h
        rfl
    · cases h

/-- What an emitted partial is. -/
theorem prepareLocalPartial_some {env : Envelope}
    (h : s.prepareLocalPartial = .ok (some (part, env))) :
    s.toSignSession.prepareLocalPartial = .ok (some part) ∧
      part.payload.marshal G = .ok env.payload ∧ env.payloadType = payloadSignPartial := by
  obtain ⟨prep, hprep, h⟩ := bind_eq_ok.mp h
  rw [mapError_eq_ok] at hprep
  cases prep with
  | none => cases h
  | some part' =>
    obtain ⟨payload, hpayload, h⟩ := bind_eq_ok.mp h
    obtain ⟨env', henv, h⟩ := bind_eq_ok.mp h
    cases h
    obtain rfl := newEnvelope_eq_ok henv
    exact ⟨hprep, hpayload, rfl⟩

/-- Recording the partial of an unsent session keeps the history. -/
theorem History.recordPartial (h : History c s)
    (hown : s.commitments.lookup s.key.party = some c)
    (hunsent : s.partialSent = false → s.computedPartials = []) : History c s.recordPartial := by
  unfold SigningSession.recordPartial
  split
  · next part hpart =>
    obtain ⟨hsent, hset⟩ := prepareLocalPartial_complete hpart hown
    constructor
    · simp [hunsent hsent]
    · intro p hp
      simp only [hunsent hsent, List.nil_append, List.mem_singleton] at hp
      subst hp
      exact hset
  · exact h

/-- A state that differs from `s` in the aggregate alone, or not at all. -/
theorem tryAggregate_cases (s : SigningSession F G) :
    (∃ err, Proc.exec tryAggregate s = (.error err, s)) ∨
      Proc.exec tryAggregate s = (.ok (), s) ∨
      ∃ sig, Proc.exec tryAggregate s = (.ok (), commitAggregate sig s) := by
  rw [exec_tryAggregate]
  rcases s.prepareAggregate with err | _ | sig
  · exact .inl ⟨_, rfl⟩
  · exact .inr (.inl rfl)
  · exact .inr (.inr ⟨sig, rfl⟩)

theorem History.commitAggregate (h : History c s) (sig : Bytes) :
    NonceInv c d e (commitAggregate sig s) :=
  .of_dead ⟨h.once, h.complete⟩ (live_commitAggregate sig s) rfl rfl fun _ => .inl rfl

theorem Accounts.commitAggregate (h : Accounts s out t) (sig : Bytes) :
    Accounts s out (commitAggregate sig t) := by
  refine ⟨fun habs => ?_, h.bound, fun habs => ?_, h.emitted, h.kept, h.fixed⟩
  · rw [live_commitAggregate] at habs
    cases habs
  · rw [live_commitAggregate] at habs
    cases habs

/-- What a step of the session leaves: after an error only the history matters, because the
session aborts. -/
def Outcome (c : NonceCommitment G) (d e : F) (s : SigningSession F G)
    (r : Except GoError (List Envelope) × SigningSession F G) : Prop :=
  match r.1 with
  | .error _ => History c r.2 ∧ Accounts s [] r.2.abort
  | .ok out => NonceInv c d e r.2 ∧ Accounts s out r.2

theorem tryAggregate_outcome (h : NonceInv c d e t) (hacc : Accounts s out t) :
    Outcome c d e s ((Proc.exec tryAggregate t).1.map fun _ => out, (Proc.exec tryAggregate t).2) := by
  rcases tryAggregate_cases t with ⟨err, hexec⟩ | hexec | ⟨sig, hexec⟩ <;> rw [hexec]
  · exact ⟨h.toHistory, hacc.abort⟩
  · exact ⟨h, hacc⟩
  · exact ⟨h.toHistory.commitAggregate sig, hacc.commitAggregate sig⟩

theorem recordPartial_of_some (h : s.toSignSession.prepareLocalPartial = .ok (some part)) :
    s.recordPartial =
      { s with computedPartials := s.computedPartials ++ [(s.commitments, part.payload.z)] } := by
  rw [SigningSession.recordPartial, h]

theorem recordPartial_of_none (h : s.prepareLocalPartial = .ok none) : s.recordPartial = s := by
  obtain ⟨prep, hprep, h⟩ := bind_eq_ok.mp h
  rw [mapError_eq_ok] at hprep
  cases prep with
  | none => rw [SigningSession.recordPartial, hprep]
  | some part =>
    obtain ⟨payload, -, h⟩ := bind_eq_ok.mp h
    obtain ⟨env, -, h⟩ := bind_eq_ok.mp h
    cases h

theorem Accounts.recordPartial (s : SigningSession F G) : Accounts s [] s.recordPartial := by
  unfold SigningSession.recordPartial
  split
  · refine ⟨id, by simp [sent], by simp [sent], by simp, fun env ⟨p, hp, henv⟩ => ?_, rfl, rfl⟩
    exact ⟨p, List.mem_append_left _ hp, henv⟩
  · exact .refl s

/-- Committing the prepared partial spends the nonces and accounts for the envelope. -/
theorem commitLocalPartial_outcome {env : Envelope} (h : NonceInv c d e s) (hlive : s.live = true)
    (hprep : s.prepareLocalPartial = .ok (some (part, env))) :
    NonceInv c d e (commitLocalPartial part s.recordPartial) ∧
      Accounts s [env] (commitLocalPartial part s.recordPartial) := by
  obtain ⟨hpart, hpayload, htype⟩ := prepareLocalPartial_some hprep
  have hhist := h.toHistory.recordPartial (h.own hlive) (h.unsent hlive)
  have hsent := (prepareLocalPartial_complete hpart (h.own hlive)).1
  have hplan := prepareLocalPartial_planHash hpart
  rw [recordPartial_of_some hpart] at hhist ⊢
  have hcount : [env].countP isPartial = 1 := by simp [isPartial, htype]
  refine ⟨⟨⟨hhist.once, hhist.complete⟩, ?_, ?_, fun _ habs => ?_, h.own, h.closed⟩, ?_⟩
  · simp [commitLocalPartial, clearNonceScalars]
  · simp [commitLocalPartial, clearNonceScalars]
  · simp [commitLocalPartial] at habs
  · refine ⟨id, ?_, fun _ => ?_, fun env' henv' _ => ?_, fun env' ⟨p, hp, henv'⟩ => ?_, rfl, rfl⟩
    · simp [sent, hsent, hcount, commitLocalPartial]
    · simp [sent, hsent, hcount, commitLocalPartial]
    · rw [List.mem_singleton] at henv'
      subst henv'
      refine ⟨(s.commitments, part.payload.z), List.mem_append_right _ (by simp), ?_⟩
      show SignPartialPayload.marshal G { z := part.payload.z, planHash := s.planHash } = _
      rw [← hplan]
      exact hpayload
    · exact ⟨p, List.mem_append_left _ hp, henv'⟩

theorem tryEmitPartial_outcome (h : NonceInv c d e s) (hlive : s.live = true) :
    Outcome c d e s (Proc.exec tryEmitPartial s) := by
  rw [exec_tryEmitPartial]
  rcases hprep : s.prepareLocalPartial with err | _ | ⟨part, env⟩
  · exact ⟨h.toHistory.recordPartial (h.own hlive) (h.unsent hlive), (Accounts.recordPartial s).abort⟩
  · rw [recordPartial_of_none hprep]
    exact ⟨h, .refl s⟩
  · obtain ⟨hinv, hacc⟩ := commitLocalPartial_outcome h hlive hprep
    exact tryAggregate_outcome hinv hacc

/-! ### One call -/

/-- Promoting pending partials touches only the maps of partials. -/
theorem promotePending_outcome (h : NonceInv c d e t) (hacc : Accounts s out t) (ids : List PartyID) :
    NonceInv c d e (ids.foldl promotePending t) ∧ Accounts s out (ids.foldl promotePending t) ∧
      (ids.foldl promotePending t).live = t.live := by
  induction ids generalizing t with
  | nil => exact ⟨h, hacc, rfl⟩
  | cons id ids ih =>
    rw [List.foldl_cons]
    unfold promotePending
    split
    · exact ih h hacc
    · exact ih (h.of_partials _ _ _ _) (hacc.of_partials _ _ _ _)

theorem promotePendingPartials_outcome (h : NonceInv c d e t) (hacc : Accounts s [] t) :
    NonceInv c d e (Proc.exec promotePendingPartials t).2 ∧
      Accounts s [] (Proc.exec promotePendingPartials t).2 ∧
      (Proc.exec promotePendingPartials t).2.live = t.live := by
  rw [exec_promotePendingPartials]
  split
  · exact ⟨h, hacc, rfl⟩
  · split
    · exact ⟨h, hacc, rfl⟩
    · exact promotePending_outcome h hacc _

/-- A step after `t` continues what was accounted for up to it. -/
theorem Outcome.after {r : Except GoError (List Envelope) × SigningSession F G}
    (hacc : Accounts s [] t) (h : Outcome c d e t r) : Outcome c d e s r := by
  obtain ⟨err | out, u⟩ := r
  · exact ⟨h.1, hacc.trans h.2⟩
  · exact ⟨h.1, hacc.trans h.2⟩

theorem Outcome.mapError {r : Except GoError (List Envelope)} {f : GoError → GoError}
    (h : Outcome c d e s (r, t)) : Outcome c d e s (r.mapError f, t) := by
  cases r with
  | error err => exact h
  | ok out => exact h

/-- A commitment is built into a transition only when its sender has none. -/
theorem build_acceptNonceCommitment {base : Envelope} {sender : PartyID}
    {commitment : NonceCommitment G}
    (h : s.build base = .ok (.acceptNonceCommitment sender commitment)) :
    s.commitments.lookup sender = none := by
  obtain ⟨-, h⟩ := seq_eq_ok.mp h
  split at h
  · obtain ⟨-, h⟩ := seq_eq_ok.mp h
    obtain ⟨decoded, -, h⟩ := bind_eq_ok.mp h
    obtain ⟨-, h⟩ := seq_eq_ok.mp h
    split at h
    · split at h <;> cases h
    · next hnone =>
      cases h
      exact hnone
  · split at h
    · obtain ⟨-, h⟩ := seq_eq_ok.mp h
      obtain ⟨decoded, -, h⟩ := bind_eq_ok.mp h
      obtain ⟨-, h⟩ := seq_eq_ok.mp h
      simp only [duplicatePartial] at h
      split at h
      · split at h <;> cases h
      · split at h <;> cases h
      · split at h
        · obtain ⟨-, h⟩ := seq_eq_ok.mp h
          cases h
        · cases h
    · cases h

/-- The commitment of another party leaves the invariant as it is. -/
theorem NonceInv.insert_commitment (h : NonceInv c d e s) {sender : PartyID}
    (hne : s.live = true → sender ≠ s.key.party) (commitment : NonceCommitment G) :
    NonceInv c d e { s with commitments := s.commitments.insert sender commitment } := by
  refine ⟨⟨h.once, h.complete⟩, h.dNonce, h.eNonce, h.unsent, fun hlive => ?_, h.closed⟩
  show (s.commitments.insert sender commitment).lookup s.key.party = some c
  rw [Finmap.lookup_insert_of_ne _ (hne hlive).symm]
  exact h.own hlive

theorem apply_outcome (h : NonceInv c d e s) (hlive : s.live = true) {base : Envelope}
    {tx : Transition F G} (hbuild : s.build base = .ok tx) :
    Outcome c d e s (Proc.exec (apply tx) s) := by
  cases tx with
  | duplicate => exact ⟨h, .refl s⟩
  | acceptNonceCommitment sender commitment =>
    -- The local commitment stays: its slot is taken.
    have hne : sender ≠ s.key.party := by
      intro heq
      have hnone := build_acceptNonceCommitment hbuild
      rw [heq, h.own hlive] at hnone
      cases hnone
    have hinv := h.insert_commitment (fun _ => hne) commitment
    obtain ⟨hprom, hacc, hsame⟩ := promotePendingPartials_outcome (s := s) hinv
      ⟨id, by simp [sent], by simp [sent], by simp, fun _ => id, rfl, rfl⟩
    rw [apply, Proc.exec_bind, Proc.exec_modify]
    simp only
    rw [Proc.exec_bind, Proc.exec_mapError]
    rcases hexec : Proc.exec promotePendingPartials
      { s with commitments := s.commitments.insert sender commitment } with ⟨err | u, t⟩
    · rw [hexec] at hprom hacc
      exact ⟨hprom.toHistory, hacc.abort⟩
    · rw [hexec] at hprom hacc hsame
      simp only [mapError_ok]
      rw [Proc.exec_mapError]
      have htlive : t.live = true := hsame.trans hlive
      exact ((tryEmitPartial_outcome hprom htlive).after hacc).mapError
  | acceptPartial sender part env pending =>
    have hacc := Accounts.refl s
    by_cases hpending : pending = true
    · simp only [apply, hpending, if_true]
      exact ⟨h.of_partials _ _ _ _, hacc.of_partials _ _ _ _⟩
    · have hout := tryAggregate_outcome (h.of_partials (s.partials.insert sender part)
        s.pendingPartials (s.partialEnvelopes.insert sender env) s.pendingEnvelopes)
        (hacc.of_partials _ _ _ _)
      simp only [apply, hpending]
      rw [if_neg (by simp), Proc.exec_bind, Proc.exec_modify]
      simp only
      rw [Proc.exec_bind, Proc.exec_mapError]
      rcases hexec : Proc.exec tryAggregate { s with
        partials := s.partials.insert sender part
        partialEnvelopes := s.partialEnvelopes.insert sender env } with ⟨err | u, t⟩
      · rw [hexec] at hout
        exact hout
      · rw [hexec] at hout
        exact hout

/-- The step from the state of `h` to the one of `h'` with the result `r` keeps the invariant
and accounts for the envelopes in `r`. -/
theorem handle_outcome {h : Hosted (SigningSession F G)} (hinv : NonceInv c d e h.session)
    (ctx : HandlerContext) (env : InboundEnvelope) :
    NonceInv c d e (handle ctx env h).2.session ∧
      Accounts h.session ((handle ctx env h).1.toOption.getD []) (handle ctx env h).2.session := by
  have hsettle : ∀ err, NonceInv c d e (ops.settle (.error err) h.session) ∧
      Accounts h.session [] (ops.settle (.error err) h.session) := by
    intro err
    unfold SessionOps.settle
    split
    · exact ⟨hinv, .refl _⟩
    · split
      · exact ⟨hinv.toHistory.abort, (Accounts.refl _).abort⟩
      · exact ⟨hinv, .refl _⟩
  have hcases := SessionOps.handled (ops (F := F) (G := G)) ctx env h
  rw [show ops.handleSessionEnvelope ctx env h = handle ctx env h from rfl] at hcases
  generalize (handle ctx env h).1 = r at hcases ⊢
  generalize (handle ctx env h).2 = h' at hcases ⊢
  cases hcases with
  | cancelled => exact ⟨hinv, .refl _⟩
  | terminal => exact ⟨hinv, .refl _⟩
  | rejected err => exact hsettle _
  | refused cache err => exact hsettle _
  | interrupted cache tx err => exact hsettle _
  | applied cache tx hlive hrun hvalid hbuild =>
    have hclosed : h.session.closed = false := by
      by_contra hc
      rcases hinv.closed (by simpa using hc) with hdone | hdone
      · rw [show h.session.completed = false from hlive] at hdone
        cases hdone
      · rw [show h.session.aborted = false from hrun] at hdone
        cases hdone
    have hlive' : h.session.live = true := by
      simp only [SigningSession.live, show h.session.completed = false from hlive,
        show h.session.aborted = false from hrun, hclosed]
      rfl
    have hout := apply_outcome hinv hlive' hbuild
    have haborts := apply_error_aborts tx h.session
    show NonceInv c d e (ops.settle (Proc.exec (apply tx) h.session).1
      (Proc.exec (apply tx) h.session).2) ∧ Accounts h.session
        ((Proc.exec (apply tx) h.session).1.toOption.getD [])
        (ops.settle (Proc.exec (apply tx) h.session).1 (Proc.exec (apply tx) h.session).2)
    rcases hexec : Proc.exec (apply tx) h.session with ⟨err | out, t⟩
    · rw [hexec] at hout
      have habort : shouldAbortSession err = true := haborts.error hexec
      simp only [SessionOps.settle, habort, if_true]
      exact ⟨hout.1.abort, hout.2⟩
    · rw [hexec] at hout
      exact hout

theorem abortCall_outcome (h : NonceInv c d e s) (ctx : CallerContext) (reason : GoString) :
    NonceInv c d e (abortCall ctx reason s).2 ∧ Accounts s [] (abortCall ctx reason s).2 := by
  unfold abortCall
  split
  · exact ⟨h, .refl s⟩
  · split
    · exact ⟨h, .refl s⟩
    · split
      · exact ⟨h, .refl s⟩
      · split
        · exact ⟨h, .refl s⟩
        · exact ⟨h.toHistory.abort, (Accounts.refl s).abort⟩

theorem closeCall_outcome (h : NonceInv c d e s) (ctx : CallerContext) :
    NonceInv c d e (closeCall ctx s).2 ∧ Accounts s [] (closeCall ctx s).2 := by
  unfold closeCall
  split
  · exact ⟨h, .refl s⟩
  · split
    · exact ⟨h, .refl s⟩
    · split
      · have hdead : ({ s.abort with closed := true } : SigningSession F G).live = false := by
          simp [SigningSession.live]
        exact ⟨.of_dead ⟨h.once, h.complete⟩ hdead rfl rfl fun _ => .inr rfl,
          .of_dead hdead (le_refl s.sent) (fun _ => id) ⟨rfl, rfl⟩⟩
      · next hterm =>
        have hdead : ({ s.clearCompletedSigningState with
            derivation := ⟨[]⟩
            signature := []
            closed := true } : SigningSession F G).live = false := by
          simp [SigningSession.live]
        have hdone : s.completed = true ∨ s.aborted = true := by
          rw [Bool.and_eq_true, Bool.not_eq_true', Bool.not_eq_true', not_and_or,
            Bool.not_eq_false, Bool.not_eq_false] at hterm
          exact hterm
        exact ⟨.of_dead ⟨h.once, h.complete⟩ hdead rfl rfl fun _ => hdone,
          .of_dead hdead (le_refl s.sent) (fun _ => id) ⟨rfl, rfl⟩⟩

/-- One call keeps the invariant and accounts for what it returns. -/
theorem step_outcome {h : Hosted (SigningSession F G)} (hinv : NonceInv c d e h.session)
    (call : Call) :
    NonceInv c d e (step h call).2.session ∧
      Accounts h.session ((step h call).1.toOption.getD []) (step h call).2.session := by
  cases call with
  | handle ctx env => exact handle_outcome hinv ctx env
  | abort ctx reason =>
    obtain ⟨hinv', hacc⟩ := abortCall_outcome hinv ctx reason
    simp only [step]
    refine ⟨hinv', ?_⟩
    rcases (abortCall ctx reason h.session).1 with err | u <;> exact hacc
  | close ctx =>
    obtain ⟨hinv', hacc⟩ := closeCall_outcome hinv ctx
    simp only [step]
    refine ⟨hinv', ?_⟩
    rcases (closeCall ctx h.session).1 with err | u <;> exact hacc

/-! ### Runs -/

/-- The envelopes that the calls of a run return, first to last. -/
def emitted (h : Hosted (SigningSession F G)) (calls : List Call) : List Envelope :=
  (Run.outputs step h calls).flatMap fun r => r.toOption.getD []

theorem run_outcome {h : Hosted (SigningSession F G)} (hinv : NonceInv c d e h.session)
    (calls : List Call) :
    NonceInv c d e (Run.final step h calls).session ∧
      Accounts h.session (emitted h calls) (Run.final step h calls).session := by
  have hstep : ∀ (h : Hosted (SigningSession F G)) call, NonceInv c d e h.session →
      NonceInv c d e (step h call).2.session :=
    fun _ call hinv => (step_outcome hinv call).1
  refine ⟨Run.final_inv (fun h : Hosted (SigningSession F G) => NonceInv c d e h.session) hstep hinv calls, ?_⟩
  refine Run.outputs_rel (fun h : Hosted (SigningSession F G) => NonceInv c d e h.session)
    (fun (h : Hosted (SigningSession F G)) outs h' => Accounts h.session (outs.flatMap fun r => r.toOption.getD []) h'.session)
    hstep (fun h _ => .refl _) (fun h call outs h' hinv hrest => ?_) hinv calls
  rw [List.flatMap_cons]
  exact (step_outcome hinv call).2.trans hrest

theorem newNonceCommitmentPoint_val {P : G} {Y : SemanticPoint G}
    (h : newNonceCommitmentPoint P = .ok Y) : Y.val = P := by
  unfold newNonceCommitmentPoint newSemanticPointFromPoint at h
  split at h
  · cases h
  · next hY =>
    cases h
    split at hY
    · cases hY
      rfl
    · cases hY

theorem initial_inv (key : KeyShare F G) (plan : Plan F) (guard : EnvelopeGuard) (d e : F)
    (c : NonceCommitment G) : NonceInv c d e (initial key plan guard d e c) :=
  ⟨⟨Nat.zero_le _, fun _ hp => absurd hp (List.not_mem_nil)⟩, rfl, rfl, fun _ _ => rfl,
    fun _ => Finmap.lookup_insert _, fun habs => absurd habs (by simp [initial])⟩

/-- A started session, with the commitment to its nonces in the first envelope. -/
theorem startSign_outcome {key : KeyShare F G} {plan : Plan F} {guard : EnvelopeGuard}
    (h : startSign key plan guard d e = .ok (s, out)) :
    ∃ c : NonceCommitment G, c.D.val = baseMult d ∧ c.E.val = baseMult e ∧ NonceInv c d e s ∧
      Accounts (initial key plan guard d e c) out s := by
  obtain ⟨D, hD, h⟩ := bind_eq_ok.mp h
  obtain ⟨E, hE, h⟩ := bind_eq_ok.mp h
  obtain ⟨payload, -, h⟩ := bind_eq_ok.mp h
  obtain ⟨env, henv, h⟩ := bind_eq_ok.mp h
  obtain rfl := newEnvelope_eq_ok henv
  refine ⟨{ D, E, planHash := plan.planHash }, newNonceCommitmentPoint_val hD,
    newNonceCommitmentPoint_val hE, ?_⟩
  -- The commitment envelope is not a partial.
  have hfirst : ∀ envelope : Envelope, envelope.payloadType = payloadSignCommitment →
      ¬ isPartial envelope = true := by
    intro envelope htype
    rw [isPartial, htype]
    decide
  have hout := tryEmitPartial_outcome (initial_inv key plan guard d e
    { D, E, planHash := plan.planHash }) rfl
  generalize initial key plan guard d e { D, E, planHash := plan.planHash } = s₀ at h hout ⊢
  rcases hexec : Proc.exec tryEmitPartial s₀ with ⟨err | rest, t⟩
  · rw [hexec] at h
    cases h
  · rw [hexec] at h hout
    cases h
    obtain ⟨hinv, hacc⟩ := hout
    refine ⟨hinv, hacc.live, ?_, ?_, fun env' hmem hpart => ?_, hacc.kept, hacc.fixed⟩
    · rw [List.countP_cons_of_neg (hfirst _ rfl)]
      exact hacc.bound
    · rw [List.countP_cons_of_neg (hfirst _ rfl)]
      exact hacc.exact
    · rcases List.mem_cons.mp hmem with rfl | hmem
      · exact absurd hpart (hfirst _ rfl)
      · exact hacc.emitted env' hmem hpart

/-- Whatever is delivered, and whatever is aborted or closed: at most one partial is computed
and at most one is returned, over one complete set with the local commitment in it, and the
nonces are there exactly while the session runs and has not returned its partial. -/
theorem nonce_one_use {key : KeyShare F G} {plan : Plan F} {guard : EnvelopeGuard} {d e : F}
    {s₀ : SigningSession F G} {out₀ : List Envelope}
    (hstart : startSign key plan guard d e = .ok (s₀, out₀)) :
    ∃ c : NonceCommitment G, c.D.val = baseMult d ∧ c.E.val = baseMult e ∧
      ∀ (cache : ReplayCache) (calls : List Call),
        let s := (Run.final step ⟨s₀, cache⟩ calls).session
        let sent := out₀ ++ emitted ⟨s₀, cache⟩ calls
        sent.countP isPartial ≤ 1 ∧ s.computedPartials.length ≤ 1 ∧
        (∀ p ∈ s.computedPartials, CompleteSet plan.signers key.party c p.1) ∧
        (∀ env ∈ sent, isPartial env = true → s.Computed env) ∧
        (s.dNonce =
          if s.live = true ∧ ∀ env ∈ sent, isPartial env = false then some d else none) ∧
        (s.eNonce =
          if s.live = true ∧ ∀ env ∈ sent, isPartial env = false then some e else none) ∧
        ∀ before after, calls = before ++ after → s.live = true →
          (Run.final step ⟨s₀, cache⟩ before).session.live = true := by
  obtain ⟨c, hD, hE, hinv₀, hacc₀⟩ := startSign_outcome hstart
  refine ⟨c, hD, hE, fun cache calls => ?_⟩
  obtain ⟨hinv, hrun⟩ := run_outcome (h := ⟨s₀, cache⟩) hinv₀ calls
  have hacc := hacc₀.trans hrun
  intro s sent
  have hle : s.sent ≤ 1 := by
    unfold SigningSession.sent
    split <;> omega
  -- While the session runs, the flag says whether the partial was returned.
  have hcond : (s.live && !s.partialSent) = true ↔
      s.live = true ∧ ∀ env ∈ sent, isPartial env = false := by
    rw [Bool.and_eq_true]
    refine and_congr_right fun hlive => ?_
    have hexact : sent.countP isPartial = s.sent := hacc.exact hlive
    have hzero : sent.countP isPartial = 0 ↔ ∀ env ∈ sent, isPartial env = false := by
      simp [List.countP_eq_zero]
    rw [← hzero, hexact]
    cases hflag : s.partialSent <;> simp [SigningSession.sent, hflag]
  refine ⟨?_, hinv.once, ?_, hacc.emitted, ?_, ?_, ?_⟩
  · exact le_trans (le_trans (Nat.le_add_right _ _) hacc.bound) hle
  · intro p hp
    have hset := hinv.complete p hp
    rw [hacc.fixed.1, hacc.fixed.2] at hset
    exact hset
  · exact hinv.dNonce.trans (if_congr hcond rfl rfl)
  · exact hinv.eNonce.trans (if_congr hcond rfl rfl)
  · intro before after hcalls hlive
    subst hcalls
    obtain ⟨hmid, -⟩ := run_outcome (h := ⟨s₀, cache⟩) hinv₀ before
    obtain ⟨-, hrest⟩ := run_outcome hmid after
    rw [← Run.final_append] at hrest
    exact hrest.live hlive

end Invariant

end Runs

/-- A plan of both parties for the sample key. -/
def samplePlan : Plan SampleField where
  sessionID := Vector.replicate 32 1
  message := lit "m"
  signers := [1, 2]
  derivation := ⟨leBytes 32 8⟩
  additiveShift := some (3 : ℕ)
  planHash := List.replicate 32 0
  limits := defaultLimits

def sampleGuard : EnvelopeGuard where
  self := 1
  protocol := protocolFROSTEd25519
  sessionID := Vector.replicate 32 1
  policies := []
  ackVerifier := none
  envelopeVerifier := none

/-- A session of the sample key starts, and its abort is a run of it. -/
theorem nonce_one_use_sample :
    letI := sampleCurve
    letI := sampleSha512
    letI := Sha256.firstBytes
    ∃ s₀ out₀, startSign (sampleKey 1 9) samplePlan sampleGuard 2 7 = .ok (s₀, out₀) ∧
      s₀.live = true ∧
      (out₀ ++ emitted ⟨s₀, ⟨∅, 8⟩⟩ [.abort .live (lit "stop")]).countP isPartial ≤ 1 ∧
      (Run.final step ⟨s₀, ⟨∅, 8⟩⟩ [.abort .live (lit "stop")]).session.computedPartials.length ≤ 1 := by
  let := sampleCurve
  let := sampleSha512
  let := Sha256.firstBytes
  have hlive : ((startSign (sampleKey 1 9) samplePlan sampleGuard 2 7).toOption.map
      fun r => r.1.live) = some true := by decide +kernel
  rcases hstart : startSign (sampleKey 1 9) samplePlan sampleGuard 2 7 with err | ⟨s₀, out₀⟩
  · rw [hstart] at hlive
    cases hlive
  · rw [hstart] at hlive
    obtain ⟨c, -, -, hrun⟩ := nonce_one_use hstart
    obtain ⟨hcount, honce, -⟩ := hrun ⟨∅, 8⟩ [.abort .live (lit "stop")]
    exact ⟨s₀, out₀, rfl, Option.some.inj hlive, hcount, honce⟩

end SigningSession

end Tss.Frost
