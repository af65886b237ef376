import Tss.Lib.Bytes

/-!
# Lifecycle records (`tssrun/lifecycle.go`)

The values a `LifecycleStore` keeps and its callers pass, with the
checks each of them carries. A Go `error` result is an `Option`: `none`
is `nil`. The sentinel errors of `tssrun/errors.go` are constructors, and
the text a call wraps around one is kept with it.
-/

namespace Tss.Lifecycle

/-- `ctx.Err()` of a context that is done. -/
inductive ContextError where
  | canceled
  | deadlineExceeded
deriving DecidableEq, Repr

/-- A context, as the stores see it: its error, if it is done. -/
abbrev Context := Option ContextError

/-- The errors a lifecycle operation returns. -/
inductive LifecycleError where
  | context (cause : ContextError)
  | invalidLifecycleRecord (detail : String)
  | generationNotCurrent
  | generationConflict
  | runLeaseConflict
  | runLeaseNotFound
  | sessionAlreadyUsed
  | refreshDisabled
  | presignUnavailable
  | presignBurned
  | attemptNotFound
  | attemptConflict
  | attemptNonDeterminism
  | cutoverConflict
  | lifecycleHistoryCompacted
  | lifecycleCorrupt (detail : String)
deriving DecidableEq, Repr

/-- The bare `ErrInvalidLifecycleRecord`. -/
def errInvalidLifecycleRecord : LifecycleError := .invalidLifecycleRecord ""

/-- The bare `ErrLifecycleCorrupt`. -/
def errLifecycleCorrupt : LifecycleError := .lifecycleCorrupt ""

/-- `if err := ctx.Err(); err != nil { return err }`. -/
def Context.err (ctx : Context) : Option LifecycleError := ctx.map .context

/-! ## Field checks -/

def maxLifecycleIdentifierBytes : Nat := 256
def maxLifecycleReasonBytes : Nat := 256
def maxLifecycleBlobBytes : Nat := 16 * 2 ^ 20

/-- The text rule identifiers and reasons share: present, bounded, UTF-8, no
control characters. -/
def validateLifecycleText (limit : Nat) (value : GoString) : Option LifecycleError :=
  if value = [] ∨ limit < value.length then some errInvalidLifecycleRecord
  else match utf8Runes value with
    | none => some errInvalidLifecycleRecord
    | some runes =>
      if runes.any fun r => r < 0x20 || r == 0x7f then some errInvalidLifecycleRecord else none

def validateLifecycleIdentifier (value : GoString) : Option LifecycleError :=
  validateLifecycleText maxLifecycleIdentifierBytes value

def validateLifecycleReason (reason : GoString) : Option LifecycleError :=
  validateLifecycleText maxLifecycleReasonBytes reason

def validateLifecycleBlob (blob : Bytes) (required : Bool) : Option LifecycleError :=
  if (required ∧ blob = []) ∨ maxLifecycleBlobBytes < blob.length then
    some errInvalidLifecycleRecord
  else none

/-- `fmt.Errorf("%w: detail", ErrInvalidLifecycleRecord)` in place of a failed check. -/
def wrapInvalid (err : Option LifecycleError) (detail : String) : Option LifecycleError :=
  err.map fun _ => .invalidLifecycleRecord detail

@[simp] theorem wrapInvalid_eq_none {err : Option LifecycleError} {detail : String} :
    wrapInvalid err detail = none ↔ err = none := by
  simp [wrapInvalid]

theorem validateLifecycleText_ne_nil {limit : Nat} {value : GoString}
    (h : validateLifecycleText limit value = none) : value ≠ [] := by
  rintro rfl
  simp [validateLifecycleText] at h

theorem validateLifecycleBlob_required {blob : Bytes}
    (h : validateLifecycleBlob blob true = none) : blob ≠ [] := by
  rintro rfl
  simp [validateLifecycleBlob] at h

/-! ## Generations -/

/-- `EpochID`. The all-zero value is invalid. -/
abbrev EpochID := Array32

/-- `tss.SessionID`. The all-zero value is invalid. -/
abbrev SessionID := Array32

/-- `EpochID.Valid` and `SessionID.Valid`. -/
def idValid (id : Array32) : Bool := id ≠ zero32

/-- One exact key-share generation and authorization epoch. -/
structure GenerationBinding where
  keyID : GoString
  keyGeneration : GoString
  epochID : EpochID
deriving DecidableEq

/-- The zero value, held by the records that name no generation. -/
def GenerationBinding.zero : GenerationBinding := ⟨[], [], zero32⟩

def GenerationBinding.validate (b : GenerationBinding) : Option LifecycleError :=
  if validateLifecycleIdentifier b.keyID ≠ none then some (.invalidLifecycleRecord "invalid key id")
  else if validateLifecycleIdentifier b.keyGeneration ≠ none then
    some (.invalidLifecycleRecord "invalid key generation")
  else if !idValid b.epochID then some (.invalidLifecycleRecord "zero epoch id")
  else none

inductive GenerationStatus where
  | current
  | retired
deriving DecidableEq, Repr

/-- An opaque stored key-share generation. -/
structure GenerationRecord where
  binding : GenerationBinding
  blob : Bytes
  metadata : Bytes
  status : GenerationStatus
deriving DecidableEq

/-! ## Leases -/

/-- `RunKind`: the six run kinds, or any other string a caller passes. -/
inductive RunKind where
  | keygen
  | presign
  | sign
  | childDerivation
  | refresh
  | reshare
  | other (name : GoString)
deriving DecidableEq

/-- `RunLeaseState`: a `uint8` whose zero value is no state. -/
inductive RunLeaseState where
  | unset
  | active
  | completed
  | aborted
  | other (code : UInt8)
deriving DecidableEq

/-- A fencing token for one protocol session and exact generation. Tokens are
`uint64` in the source and count up from one; a counter could only wrap past
`2^64` leases that are all still stored. -/
structure RunLease where
  token : Nat
  binding : GenerationBinding
  kind : RunKind
  sessionID : SessionID
  state : RunLeaseState
deriving DecidableEq

/-- `RunLeaseOutcome`: the two terminal outcomes, or any other `uint8`. -/
inductive RunLeaseOutcome where
  | completed
  | aborted
  | other (code : UInt8)
deriving DecidableEq

/-- The fail-closed marker installed after a protocol-level refresh failure. -/
structure RefreshDisabledRecord where
  keyID : GoString
  sessionID : SessionID
  reason : GoString
deriving DecidableEq

/-- The public source view a new-only reshare receiver accepted. -/
structure ReshareReceiverAnchor where
  source : GenerationBinding
  targetKeyGeneration : GoString
  sessionID : SessionID
  planDigest : Bytes
  sourceEpochDigest : Bytes
deriving DecidableEq

def ReshareReceiverAnchor.validate (a : ReshareReceiverAnchor) : Option LifecycleError :=
  match a.source.validate with
  | some e => some e
  | none =>
    if validateLifecycleIdentifier a.targetKeyGeneration ≠ none
        ∨ a.targetKeyGeneration = a.source.keyGeneration ∨ !idValid a.sessionID
        ∨ a.planDigest.length ≠ sha256Size ∨ a.sourceEpochDigest.length ≠ sha256Size then
      some errInvalidLifecycleRecord
    else if a.planDigest = zero32.toList ∨ a.sourceEpochDigest = zero32.toList then
      some errInvalidLifecycleRecord
    else none

def validLeaseRunKind : RunKind → Bool
  | .keygen | .presign | .sign | .childDerivation | .refresh | .reshare => true
  | .other _ => false

def exclusiveLeaseRunKind : RunKind → Bool
  | .keygen | .childDerivation | .refresh | .reshare => true
  | _ => false

def cutoverLeaseRunKind : RunKind → Bool
  | .refresh | .reshare => true
  | _ => false

def validateRunLease (lease : RunLease) : Option LifecycleError :=
  if lease.token = 0 ∨ lease.state = .unset then some errInvalidLifecycleRecord
  else match lease.binding.validate with
    | some e => some e
    | none =>
      if !validLeaseRunKind lease.kind ∨ !idValid lease.sessionID then
        some errInvalidLifecycleRecord
      else none

def reshareReceiverAnchorsEqual (a b : ReshareReceiverAnchor) : Bool :=
  a.source = b.source && a.targetKeyGeneration = b.targetKeyGeneration
    && a.sessionID = b.sessionID && a.planDigest = b.planDigest
    && a.sourceEpochDigest = b.sourceEpochDigest

/-- What `validateRunLease` has checked once it returns `nil`. -/
theorem validateRunLease_eq_none {lease : RunLease} :
    validateRunLease lease = none ↔
      lease.token ≠ 0 ∧ lease.state ≠ .unset ∧ lease.binding.validate = none ∧
        validLeaseRunKind lease.kind = true ∧ idValid lease.sessionID = true := by
  unfold validateRunLease
  by_cases h : lease.token = 0 ∨ lease.state = .unset
  · rw [if_pos h]
    simp only [reduceCtorEq, false_iff]
    tauto
  · rw [if_neg h]
    rw [not_or] at h
    cases lease.binding.validate <;> simp [h]

theorem ReshareReceiverAnchor.validate_source {a : ReshareReceiverAnchor}
    (h : a.validate = none) : a.source.validate = none := by
  unfold validate at h
  cases hs : a.source.validate <;> simp [hs] at h ⊢

theorem ReshareReceiverAnchor.validate_sessionID {a : ReshareReceiverAnchor}
    (h : a.validate = none) : idValid a.sessionID = true := by
  by_contra hid
  unfold validate at h
  cases hs : a.source.validate <;> simp_all

theorem reshareReceiverAnchorsEqual_iff {a b : ReshareReceiverAnchor} :
    reshareReceiverAnchorsEqual a b = true ↔ a = b := by
  cases a
  cases b
  simp [reshareReceiverAnchorsEqual, and_assoc]

/-! ## Presigns and attempts -/

/-- A read-only snapshot of one available presign. -/
structure PresignCandidate where
  binding : GenerationBinding
  presignID : GoString
  blob : Bytes
  metadata : Bytes
deriving DecidableEq

/-- The immutable identity of one online signing attempt. -/
structure SignAttemptIntent where
  attemptID : GoString
  sessionID : SessionID
  intentDigest : Bytes
deriving DecidableEq

def SignAttemptIntent.validate (i : SignAttemptIntent) : Option LifecycleError :=
  if validateLifecycleIdentifier i.attemptID ≠ none then
    some (.invalidLifecycleRecord "invalid attempt id")
  else if !idValid i.sessionID then some (.invalidLifecycleRecord "invalid attempt session id")
  else if i.intentDigest.length ≠ sha256Size then
    some (.invalidLifecycleRecord "intent digest must be 32 bytes")
  else none

theorem SignAttemptIntent.validate_attemptID {i : SignAttemptIntent} (h : i.validate = none) :
    validateLifecycleIdentifier i.attemptID = none := by
  by_contra hid
  simp [validate, hid] at h

/-- The exact attempt a caller may recover after an unknown outcome. -/
structure AttemptQuery where
  binding : GenerationBinding
  presignID : GoString
  attemptID : GoString
  intentDigest : Bytes
deriving DecidableEq

def AttemptQuery.validate (q : AttemptQuery) : Option LifecycleError :=
  match q.binding.validate with
  | some e => some e
  | none =>
    if validateLifecycleIdentifier q.presignID ≠ none then
      some (.invalidLifecycleRecord "invalid presign id")
    else if validateLifecycleIdentifier q.attemptID ≠ none then
      some (.invalidLifecycleRecord "invalid attempt id")
    else if q.intentDigest.length ≠ sha256Size then
      some (.invalidLifecycleRecord "intent digest must be 32 bytes")
    else none

/-- The durable claim, outbox and progress of one signing attempt. -/
structure SignAttemptRecord where
  binding : GenerationBinding
  presignID : GoString
  intent : SignAttemptIntent
  presignMetadata : Bytes
  exactOutbox : Bytes
  outboxDigest : Bytes
  delivery : Bytes := []
  completion : Bytes := []
  delivered : Bool := false
  completed : Bool := false
  aborted : Bool := false
  abortReason : GoString := []
deriving DecidableEq

/-- No outbound replay or protocol completion work remains. -/
def SignAttemptRecord.terminal (r : SignAttemptRecord) : Bool :=
  r.aborted || (r.delivered && r.completed)

inductive AttemptCommitStatus where
  | created
  | existingSame
deriving DecidableEq, Repr

structure AttemptCommit where
  status : AttemptCommitStatus
  record : SignAttemptRecord
deriving DecidableEq

def sameAttemptQuery (record : SignAttemptRecord) (query : AttemptQuery) : Bool :=
  record.binding = query.binding && record.presignID = query.presignID
    && record.intent.attemptID = query.attemptID && record.intent.intentDigest = query.intentDigest

def sameBaseAttempt (record : SignAttemptRecord) (binding : GenerationBinding)
    (presignID : GoString) (intent : SignAttemptIntent) (outboxDigest : Bytes) : Bool :=
  record.binding = binding && record.presignID = presignID
    && record.intent.attemptID = intent.attemptID && record.intent.sessionID = intent.sessionID
    && record.intent.intentDigest = intent.intentDigest && record.outboxDigest = outboxDigest

/-! ## Cutovers -/

/-- The compare-and-swap token returned by `BeginCutover`. -/
structure CutoverFence where
  token : Nat
  source : GenerationBinding
  target : GenerationBinding
deriving DecidableEq

def validateCutoverBindings (source target : GenerationBinding) : Option LifecycleError :=
  match source.validate with
  | some e => some e
  | none => match target.validate with
    | some e => some e
    | none =>
      if source.keyID ≠ target.keyID ∨ source.keyGeneration = target.keyGeneration
          ∨ source.epochID = target.epochID then
        some (.invalidLifecycleRecord "invalid source and target bindings")
      else none

def validateCutoverFence (fence : CutoverFence) : Option LifecycleError :=
  if fence.token = 0 then some errInvalidLifecycleRecord
  else validateCutoverBindings fence.source fence.target

theorem validateCutoverBindings_eq_none {source target : GenerationBinding} :
    validateCutoverBindings source target = none ↔
      source.validate = none ∧ target.validate = none ∧ source.keyID = target.keyID ∧
        source.keyGeneration ≠ target.keyGeneration ∧ source.epochID ≠ target.epochID := by
  unfold validateCutoverBindings
  cases source.validate <;> cases target.validate <;> simp

theorem validateCutoverFence_eq_none {fence : CutoverFence} :
    validateCutoverFence fence = none ↔
      fence.token ≠ 0 ∧ validateCutoverBindings fence.source fence.target = none := by
  unfold validateCutoverFence
  split <;> simp [*]

end Tss.Lifecycle
