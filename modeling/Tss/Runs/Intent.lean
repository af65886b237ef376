import Tss.Lifecycle.Record
import Tss.Party
import Tss.Transcript

/-!
# Run intents (`tssrun/run.go`)

The control-plane description of one protocol run, the digest a party
accepts it by, and the checks on intents, session descriptors and local
results.
-/

namespace Tss.Runs

open Lifecycle

/-- `tss.ProtocolID`: the two supported protocols, or any other string. -/
inductive ProtocolID where
  | cggmp21Secp256k1
  | frostEd25519
  | other (name : GoString)
deriving DecidableEq

def ProtocolID.name : ProtocolID → GoString
  | .cggmp21Secp256k1 => lit "cggmp21-secp256k1"
  | .frostEd25519 => lit "frost-ed25519"
  | .other name => name

/-- The string behind a `RunKind`. -/
def kindName : RunKind → GoString
  | .keygen => lit "keygen"
  | .presign => lit "presign"
  | .sign => lit "sign"
  | .childDerivation => lit "child-derivation"
  | .refresh => lit "refresh"
  | .reshare => lit "reshare"
  | .other name => name

/-- The errors of the run store. A wrapped sentinel keeps its text; a text with a
value formatted into it has its own constructor with the value. -/
inductive RunError where
  | context (cause : ContextError)
  | runNotFound
  | runConflict
  | planDigestConflict
  | sessionAlreadyUsed
  | runNotAccepted
  | runPartyNotParticipant
  | runCompleted
  | runAborted
  | invalidSessionKey
  | invalidRunIntent (detail : String)
  /-- An invalid intent whose text has the run kind formatted in at `%s`. -/
  | invalidRunIntentFor (kind : RunKind) (detail : String)
  /-- `invalid run intent: unsupported protocol %q` -/
  | unsupportedProtocol (protocol : ProtocolID)
  /-- `invalid run intent: unknown run kind %q` -/
  | unknownRunKind (kind : RunKind)
  /-- `invalid run intent: signer %d is not a party` -/
  | signerNotParty (signer : PartyID)
  /-- `invalid run intent: source generation binding required: %w` -/
  | sourceBindingRequired (cause : LifecycleError)
  | invalidRunResult (detail : String)
  /-- An invalid result whose text has the run kind formatted in at `%s`. -/
  | invalidRunResultFor (kind : RunKind) (detail : String)
  /-- A nil record is dereferenced: the call panics. -/
  | nilRecord
deriving DecidableEq

/-- Public control-plane metadata of one protocol run. -/
structure RunIntent where
  runID : GoString
  protocol : ProtocolID
  kind : RunKind
  sessionID : SessionID
  parties : PartySet
  signers : PartySet
  threshold : Int
  sourceBinding : GenerationBinding
  parentKeyID : GoString
  presignID : GoString
  targetKeyID : GoString
  targetKeyGeneration : GoString
  planDigest : Bytes
  contextDigest : Bytes
deriving DecidableEq

/-- The fields of a present source binding, in transcript order. -/
def RunIntent.appendSource (r : RunIntent) (t : Transcript.Builder) : Transcript.Builder :=
  if r.sourceBinding ≠ .zero then
    ((t.appendString "source_key_id" r.sourceBinding.keyID).appendString
      "source_key_generation" r.sourceBinding.keyGeneration).appendBytes
      "source_epoch_id" r.sourceBinding.epochID.toList
  else t

/-- The digest a party accepts the run by: it binds every field of the intent. -/
def RunIntent.acceptanceDigest [Sha256] (r : RunIntent) : Bytes :=
  let t := Transcript.new "tssrun-run-intent-acceptance"
  let t := t.appendString "run_id" r.runID
  let t := t.appendString "protocol" r.protocol.name
  let t := t.appendString "kind" (kindName r.kind)
  let t := t.appendBytes "session_id" r.sessionID.toList
  let t := t.appendUint32List "parties" r.parties
  let t := t.appendUint32List "signers" r.signers
  let t := t.appendUint64 "threshold" (.ofInt r.threshold)
  let t := t.appendBool "has_source_binding" (r.sourceBinding ≠ .zero)
  let t := r.appendSource t
  let t := t.appendString "target_key_id" r.targetKeyID
  let t := t.appendString "target_key_generation" r.targetKeyGeneration
  let t := t.appendString "parent_key_id" r.parentKeyID
  let t := t.appendString "presign_id" r.presignID
  let t := t.appendBytes "protocol_plan_digest" r.planDigest
  let t := t.appendBytes "context_digest" r.contextDigest
  t.sum

/-- Who takes part: the signers of a presign or sign run, all parties otherwise. -/
def RunIntent.participants (r : RunIntent) : PartySet :=
  match r.kind with
  | .presign | .sign => r.signers
  | _ => r.parties

/-! ## Intent checks -/

/-- `isCanonicalPartySet`: strictly increasing and without zero. -/
def isCanonicalPartySet : PartySet → Bool
  | [] => true
  | id :: rest => id ≠ 0 && go id rest
where
  /-- The loop from its second iteration on, with the previous identifier. -/
  go (prev : PartyID) : PartySet → Bool
    | [] => true
    | id :: rest => id ≠ 0 && prev < id && go id rest

def validateRunTargetDescriptor (run : RunIntent) (distinctKey : Bool) : Option RunError :=
  if validateLifecycleIdentifier run.targetKeyID ≠ none
      ∨ validateLifecycleIdentifier run.targetKeyGeneration ≠ none then
    some (.invalidRunIntentFor run.kind "%s requires a target key id and generation")
  else if distinctKey then
    if run.kind = .childDerivation ∧ run.targetKeyID = run.sourceBinding.keyID then
      some (.invalidRunIntent "child target key id must differ from parent")
    else none
  else if run.targetKeyID ≠ run.sourceBinding.keyID then
    some (.invalidRunIntentFor run.kind "%s target key id must match the source")
  else if run.targetKeyGeneration = run.sourceBinding.keyGeneration then
    some (.invalidRunIntentFor run.kind "%s target generation must differ from the source")
  else none

def validateRunSigners (run : RunIntent) : Option RunError :=
  if run.signers = [] then some (.invalidRunIntent "signers required")
  else if !isCanonicalPartySet run.signers then
    some (.invalidRunIntent "signers must be sorted, unique, and non-zero")
  else (run.signers.find? (· ∉ run.parties)).map .signerNotParty

def validateSignRun (run : RunIntent) : Option RunError :=
  match run.sourceBinding.validate with
  | some e => some (.sourceBindingRequired e)
  | none =>
    if run.contextDigest.length ≠ sha256Size then
      some (.invalidRunIntent "sign requires a 32-byte context digest")
    else match run.protocol with
      | .cggmp21Secp256k1 =>
        if run.presignID = [] then some (.invalidRunIntent "CGGMP21 sign requires presign id")
        else validateRunSigners run
      | .frostEd25519 =>
        if run.presignID ≠ [] then some (.invalidRunIntent "FROST sign does not use presign id")
        else validateRunSigners run
      | .other _ => some (.unsupportedProtocol run.protocol)

def validateRunKind (run : RunIntent) : Option RunError :=
  match run.kind with
  | .keygen =>
    if run.sourceBinding ≠ .zero then
      some (.invalidRunIntent "keygen must not declare a source binding")
    else validateRunTargetDescriptor run true
  | .presign =>
    match run.sourceBinding.validate with
    | some e => some (.sourceBindingRequired e)
    | none =>
      if run.protocol ≠ .cggmp21Secp256k1 then
        some (.invalidRunIntent "presign is only supported by \"cggmp21-secp256k1\"")
      else if run.presignID = [] ∨ run.contextDigest.length ≠ sha256Size then
        some (.invalidRunIntent "presign requires presign id and 32-byte context digest")
      else validateRunSigners run
  | .sign => validateSignRun run
  | .childDerivation =>
    match run.sourceBinding.validate with
    | some e => some (.sourceBindingRequired e)
    | none =>
      if run.contextDigest.length ≠ sha256Size then
        some (.invalidRunIntent "child derivation requires a 32-byte context digest")
      else validateRunTargetDescriptor run true
  | .refresh | .reshare =>
    match run.sourceBinding.validate with
    | some e => some (.sourceBindingRequired e)
    | none => validateRunTargetDescriptor run false
  | .other _ => some (.unknownRunKind run.kind)

/-- A kind whose intent names a target generation. -/
def kindHasTarget : RunKind → Bool
  | .keygen | .refresh | .reshare | .childDerivation => true
  | _ => false

def validateRunIntent (run : RunIntent) : Option RunError :=
  if run.runID = [] ∨ run.protocol.name = [] ∨ kindName run.kind = []
      ∨ !idValid run.sessionID then some (.invalidRunIntent "")
  else if run.parties = [] ∨ run.threshold ≤ 0 ∨ run.parties.length < run.threshold then
    some (.invalidRunIntent "invalid threshold or party set")
  else if run.planDigest.length ≠ sha256Size then
    some (.invalidRunIntent "plan digest must be 32 bytes")
  else if run.protocol ≠ .cggmp21Secp256k1 ∧ run.protocol ≠ .frostEd25519 then
    some (.unsupportedProtocol run.protocol)
  else if run.contextDigest.length ≠ 0 ∧ run.contextDigest.length ≠ sha256Size then
    some (.invalidRunIntent "context digest must be empty or 32 bytes")
  else if !isCanonicalPartySet run.parties then
    some (.invalidRunIntent "parties must be sorted, unique, and non-zero")
  else match validateRunKind run with
    | some e => some e
    | none =>
      if !kindHasTarget run.kind ∧ (run.targetKeyID ≠ [] ∨ run.targetKeyGeneration ≠ []) then
        some (.invalidRunIntentFor run.kind "target descriptor is not valid for %s")
      else if 0 ∈ run.parties then some (.invalidRunIntent "party id 0 is reserved")
      else none

/-! ## Sessions and results -/

/-- What a local session says it runs. -/
structure SessionDescriptor where
  protocol : ProtocolID
  kind : RunKind
  sessionID : SessionID
  party : PartyID
  planDigest : Bytes
deriving DecidableEq

def SessionDescriptor.validate (d : SessionDescriptor) : Option RunError :=
  if d.protocol.name = [] ∨ !validLeaseRunKind d.kind ∨ !idValid d.sessionID ∨ d.party = 0
      ∨ d.planDigest.length ≠ sha256Size then some .invalidSessionKey
  else none

def validateSessionDescriptorForRun [Sha256] (run : RunIntent) (self : PartyID)
    (acceptanceDigest : Bytes) (descriptor : SessionDescriptor) : Option RunError :=
  match descriptor.validate with
  | some e => some e
  | none =>
    if acceptanceDigest ≠ run.acceptanceDigest then some .planDigestConflict
    else if descriptor.protocol ≠ run.protocol ∨ descriptor.kind ≠ run.kind
        ∨ descriptor.sessionID ≠ run.sessionID ∨ descriptor.party ≠ self then
      some .invalidSessionKey
    else if descriptor.planDigest ≠ run.planDigest then some .planDigestConflict
    else if self ∉ run.participants then some .runPartyNotParticipant
    else none

/-- The local durable output of a completed run. -/
structure LocalRunResult where
  binding : GenerationBinding
  presignID : GoString
  outputDigest : Bytes
deriving DecidableEq

def validateLocalRunResult (intent : RunIntent) (result : LocalRunResult) : Option RunError :=
  if result.outputDigest.length ≠ sha256Size then
    some (.invalidRunResult "output digest must be 32 bytes")
  else if result.presignID ≠ intent.presignID then
    some (.invalidRunResult "presign id does not match run intent")
  else if result.binding.validate ≠ none then
    some (.invalidRunResult "invalid output generation binding")
  else match intent.kind with
    | .keygen =>
      if result.binding.keyID ≠ intent.targetKeyID
          ∨ result.binding.keyGeneration ≠ intent.targetKeyGeneration then
        some (.invalidRunResult "keygen output binding does not match the target descriptor")
      else none
    | .refresh | .reshare =>
      if result.binding.keyID ≠ intent.targetKeyID
          ∨ result.binding.keyGeneration ≠ intent.targetKeyGeneration
          ∨ result.binding.epochID = intent.sourceBinding.epochID then
        some (.invalidRunResultFor intent.kind
          "%s output does not match the target generation and a new epoch")
      else none
    | .childDerivation =>
      if result.binding.keyID ≠ intent.targetKeyID
          ∨ result.binding.keyGeneration ≠ intent.targetKeyGeneration
          ∨ result.binding.epochID = intent.sourceBinding.epochID then
        some (.invalidRunResult
          "child output does not match the distinct target generation and a new epoch")
      else none
    | .presign | .sign =>
      if result.binding ≠ intent.sourceBinding then
        some (.invalidRunResult "generation binding does not match run intent")
      else none
    | .other _ => none

def localRunResultsEqual (a b : LocalRunResult) : Bool :=
  a.binding = b.binding && a.presignID = b.presignID && a.outputDigest = b.outputDigest

end Tss.Runs
