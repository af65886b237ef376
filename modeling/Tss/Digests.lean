import Tss.Broadcast
import Tss.Runs.Intent

/-!
# What the digests bind (`internal/transcript`)

A transcript hashes a sequence of labelled appends. The bytes that it hashes
determine the labels and the appended bytes, and so the values when it is
known by which methods they were appended: the methods share one framing, and
`AppendBool` of `true` writes what `AppendUint8` of `1` writes.
-/

namespace Tss.Transcript

/-! ## Sequences of appends -/

/-- A value, by the method that appends it. -/
inductive Datum where
  | bytes (value : Bytes)
  | string (value : GoString)
  | uint8 (value : UInt8)
  | uint16 (value : UInt16)
  | uint32 (value : UInt32)
  | uint64 (value : UInt64)
  | bool (value : Bool)
  | uint32List (values : List UInt32)
  | bytesList (values : List Bytes)
deriving DecidableEq

/-- The bytes that the method appends. -/
def Datum.encode : Datum → Bytes
  | .bytes value | .string value => value
  | .uint8 value => [value]
  | .uint16 value => be16 value.toNat
  | .uint32 value => be32 value.toNat
  | .uint64 value => be64 value.toNat
  | .bool value => [if value then 1 else 0]
  | .uint32List values => encodeUint32List values
  | .bytesList values => encodeBytesList values

/-- One labelled append. -/
structure Append where
  label : GoString
  value : Datum
deriving DecidableEq

/-- An append that does not panic for its length. -/
def Append.Fits (op : Append) : Prop := op.label.length < 2 ^ 32 ∧ op.value.encode.length < 2 ^ 32

/-- The bytes that a sequence of appends hashes. -/
def hashed (ops : List Append) : Bytes :=
  (ops.foldl (fun b op => b.append op.label op.value.encode) (⟨[]⟩ : Builder)).written

theorem hashed_eq (ops : List Append) :
    hashed ops = ops.flatMap fun op => entry op.label op.value.encode := by
  have hfrom : ∀ b : Builder, (ops.foldl (fun b op => b.append op.label op.value.encode) b).written =
      b.written ++ ops.flatMap fun op => entry op.label op.value.encode := by
    induction ops with
    | nil => simp
    | cons op ops ih =>
      intro b
      rw [List.foldl_cons, ih, Builder.written_append, List.flatMap_cons, List.append_assoc]
  exact hfrom ⟨[]⟩

theorem entry_cut {label label' : GoString} {v v' rest rest' : Bytes} (hl : label.length < 2 ^ 32)
    (hl' : label'.length < 2 ^ 32) (hv : v.length < 2 ^ 32) (hv' : v'.length < 2 ^ 32)
    (h : entry label v ++ rest = entry label' v' ++ rest') :
    label = label' ∧ v = v' ∧ rest = rest' := by
  simp only [entry, List.append_assoc] at h
  obtain ⟨rfl, hvalues⟩ := be32_length_append_inj hl hl' h
  exact ⟨rfl, be32_length_append_inj hv hv' hvalues⟩

/-- The labels and the appended bytes are read back from what is hashed. -/
theorem hashed_inj {ops ops' : List Append} (hops : ∀ op ∈ ops, op.Fits)
    (hops' : ∀ op ∈ ops', op.Fits) (h : hashed ops = hashed ops') :
    ops.map (fun op => (op.label, op.value.encode)) =
      ops'.map fun op => (op.label, op.value.encode) := by
  have hframes : ∀ ops : List Append, hashed ops =
      (ops.map fun op => (op.label, op.value.encode)).flatMap fun f => entry f.1 f.2 := by
    intro ops
    rw [hashed_eq, List.flatMap_map]
  have hfits : ∀ {ops : List Append}, (∀ op ∈ ops, op.Fits) →
      ∀ f ∈ ops.map fun op => (op.label, op.value.encode),
        f.1.length < 2 ^ 32 ∧ f.2.length < 2 ^ 32 := by
    intro ops hops f hf
    obtain ⟨op, hop, rfl⟩ := List.mem_map.mp hf
    exact hops op hop
  rw [hframes, hframes] at h
  have hne : ∀ f : GoString × Bytes, entry f.1 f.2 ≠ [] := by
    intro f
    simp [entry, be32]
  apply flatMap_inj _ hne (hfits hops) (hfits hops') h
  intro f f' rest rest' hf hf' hcut
  obtain ⟨hlabel, hvalue, hrest⟩ := entry_cut hf.1 hf'.1 hf.2 hf'.2 hcut
  exact ⟨Prod.ext hlabel hvalue, hrest⟩

/-! ## Values of one method -/

theorem be64_inj {m n : Nat} (hm : m < 2 ^ 64) (hn : n < 2 ^ 64) (h : be64 m = be64 n) : m = n := by
  obtain ⟨hhigh, hlow⟩ := List.append_inj h rfl
  have hhigh := be32_inj (by omega) (by omega) hhigh
  have hmod : ∀ k, be32 k = be32 (k % 2 ^ 32) := by
    intro k
    rw [be32_eq_beBytes, be32_eq_beBytes, beBytes, beBytes]
    simp only [leBytes, List.reverse_inj, List.cons.injEq, and_true]
    refine ⟨?_, ?_, ?_, ?_⟩ <;> apply UInt8.toNat_inj.mp <;> simp only [UInt8.toNat_ofNat'] <;> omega
  rw [hmod m, hmod n] at hlow
  have hlow := be32_inj (Nat.mod_lt _ (by decide)) (Nat.mod_lt _ (by decide)) hlow
  omega

theorem uint32Item_cut {a b : UInt32} {rest rest' : Bytes}
    (h : be32 a.toNat ++ rest = be32 b.toNat ++ rest') : a = b ∧ rest = rest' := by
  obtain ⟨hitem, hrest⟩ := List.append_inj h rfl
  exact ⟨UInt32.toNat_inj.mp (be32_inj a.toNat_lt b.toNat_lt hitem), hrest⟩

theorem encodeUint32List_inj {xs ys : List UInt32}
    (h : encodeUint32List xs = encodeUint32List ys) : xs = ys := by
  obtain ⟨-, hitems⟩ := List.append_inj h rfl
  exact flatMap_inj (P := fun _ => True) (fun _ _ hcut => uint32Item_cut hcut) (fun _ => by simp [be32])
    (fun _ _ => trivial) (fun _ _ => trivial) hitems

/-- Values appended by one method are read back from their bytes. -/
theorem Datum.encode_inj {a b : Datum} (ha : a.encode.length < 2 ^ 32)
    (hb : b.encode.length < 2 ^ 32) (hmethod : a.ctorIdx = b.ctorIdx) (h : a.encode = b.encode) :
    a = b := by
  cases a <;> cases b <;> cases hmethod
  case bytes.bytes => exact congrArg Datum.bytes h
  case string.string => exact congrArg Datum.string h
  case uint8.uint8 => rw [(List.cons.inj h).1]
  case uint16.uint16 a b =>
    have hnat := congrArg beNat (show be16 a.toNat = be16 b.toNat from h)
    rw [beNat_be16 a.toNat_lt, beNat_be16 b.toNat_lt] at hnat
    rw [UInt16.toNat_inj.mp hnat]
  case uint32.uint32 a b => rw [UInt32.toNat_inj.mp (be32_inj a.toNat_lt b.toNat_lt h)]
  case uint64.uint64 a b => rw [UInt64.toNat_inj.mp (be64_inj a.toNat_lt b.toNat_lt h)]
  case bool.bool a b => cases a <;> cases b <;> first | rfl | cases h
  case uint32List.uint32List => rw [encodeUint32List_inj h]
  case bytesList.bytesList => rw [encodeBytesList_cut_inj ha hb h]

/-- Sequences of appends by the same methods are read back from what they hash. -/
theorem hashed_inj_of_methods {ops ops' : List Append} (hops : ∀ op ∈ ops, op.Fits)
    (hops' : ∀ op ∈ ops', op.Fits)
    (hmethods : ops.map (·.value.ctorIdx) = ops'.map (·.value.ctorIdx))
    (h : hashed ops = hashed ops') : ops = ops' := by
  have hframes := hashed_inj hops hops' h
  clear h
  induction ops generalizing ops' with
  | nil => exact (List.map_eq_nil_iff.mp hframes.symm).symm
  | cons op ops ih =>
    cases ops' with
    | nil => cases hframes
    | cons op' ops' =>
      obtain ⟨hop, hrest⟩ := List.forall_mem_cons.mp hops
      obtain ⟨hop', hrest'⟩ := List.forall_mem_cons.mp hops'
      obtain ⟨hmethod, htail⟩ := List.cons.inj hmethods
      obtain ⟨hframe, hframesTail⟩ := List.cons.inj hframes
      obtain ⟨hlabel, hvalue⟩ := Prod.mk.inj hframe
      obtain ⟨label, value⟩ := op
      obtain ⟨label', value'⟩ := op'
      obtain rfl : label = label' := hlabel
      obtain rfl := Datum.encode_inj hop.2 hop'.2 hmethod hvalue
      rw [ih hrest hrest' htail hframesTail]

end Tss.Transcript

namespace Tss

open Transcript

/-! ## Digests of envelopes -/

/-- The appends of `Envelope.Digest`. -/
def Envelope.digestAppends (e : Envelope) : List Append :=
  [⟨lit "domain", .string (lit "github.com/islishude/tss/envelope/v1")⟩,
    ⟨lit "protocol", .string e.protocol⟩, ⟨lit "version", .uint16 protocolVersion⟩,
    ⟨lit "session_id", .bytes e.sessionID.toList⟩, ⟨lit "round", .uint8 e.round⟩,
    ⟨lit "from", .uint32 e.sender⟩, ⟨lit "to", .uint32 e.recipient⟩,
    ⟨lit "payload_type", .string e.payloadType⟩, ⟨lit "payload", .bytes e.payload⟩] ++
  if e.senderSignature = [] then []
  else [⟨lit "sender_signature", .bytes e.senderSignature⟩]

theorem Envelope.digest_eq [Sha256] (e : Envelope) :
    e.digest = Sha256.sum256 (hashed e.digestAppends) := by
  unfold Envelope.digest Envelope.digestAppends
  split <;> rfl

theorem Envelope.digestAppends_inj {e e' : Envelope} (he : ∀ op ∈ e.digestAppends, op.Fits)
    (he' : ∀ op ∈ e'.digestAppends, op.Fits)
    (h : hashed e.digestAppends = hashed e'.digestAppends) : e = e' := by
  have hlength := congrArg List.length (hashed_inj he he' h)
  obtain ⟨protocol, sessionID, round, sender, recipient, payloadType, payload, signature⟩ := e
  obtain ⟨protocol', sessionID', round', sender', recipient', payloadType', payload', signature'⟩ :=
    e'
  -- a signature is appended by both or by neither
  have hempty : signature = [] ↔ signature' = [] := by
    by_cases hs : signature = [] <;> by_cases hs' : signature' = [] <;>
      simp_all [Envelope.digestAppends]
  have heq := hashed_inj_of_methods he he' (by
    unfold Envelope.digestAppends
    by_cases hs : signature = []
    · rw [if_pos hs, if_pos (hempty.mp hs)]
      rfl
    · rw [if_neg hs, if_neg (mt hempty.mpr hs)]
      rfl) h
  by_cases hs : signature = [] <;> simp_all [Envelope.digestAppends, Vector.toList_inj]

/-- The appends of `AckDigest`. -/
def ackAppends [Sha256] (e : Envelope) : List Append :=
  [⟨lit "domain", .string (lit "github.com/islishude/tss/broadcast-ack/v1")⟩,
    ⟨lit "protocol", .string e.protocol⟩, ⟨lit "session_id", .bytes e.sessionID.toList⟩,
    ⟨lit "round", .uint8 e.round⟩, ⟨lit "from", .uint32 e.sender⟩,
    ⟨lit "payload_type", .string e.payloadType⟩,
    ⟨lit "payload_hash", .bytes e.payloadHash.toList⟩,
    ⟨lit "envelope_digest", .bytes e.digest.toList⟩]

theorem ackDigest_eq [Sha256] (e : Envelope) :
    ackDigest e = Sha256.sum256 (hashed (ackAppends e)) := rfl

theorem ackAppends_inj [Sha256] {e e' : Envelope} (he : ∀ op ∈ ackAppends e, op.Fits)
    (he' : ∀ op ∈ ackAppends e', op.Fits) (h : hashed (ackAppends e) = hashed (ackAppends e')) :
    e.broadcastSlot = e'.broadcastSlot ∧ e.payloadHash = e'.payloadHash ∧ e.digest = e'.digest := by
  have heq := hashed_inj_of_methods he he' rfl h
  simp_all [ackAppends, Envelope.broadcastSlot, Vector.toList_inj]

end Tss

namespace Tss.Runs

open Transcript Lifecycle

/-! ## Run intents -/

/-- The appends of `RunIntent.AcceptanceDigest`. -/
def RunIntent.acceptanceAppends (r : RunIntent) : List Append :=
  [⟨lit "domain", .string (lit "tssrun-run-intent-acceptance")⟩, ⟨lit "run_id", .string r.runID⟩,
    ⟨lit "protocol", .string r.protocol.name⟩, ⟨lit "kind", .string (kindName r.kind)⟩,
    ⟨lit "session_id", .bytes r.sessionID.toList⟩, ⟨lit "parties", .uint32List r.parties⟩,
    ⟨lit "signers", .uint32List r.signers⟩, ⟨lit "threshold", .uint64 (.ofInt r.threshold)⟩,
    ⟨lit "has_source_binding", .bool (r.sourceBinding ≠ .zero)⟩] ++
  ((if r.sourceBinding ≠ .zero then
    [⟨lit "source_key_id", .string r.sourceBinding.keyID⟩,
      ⟨lit "source_key_generation", .string r.sourceBinding.keyGeneration⟩,
      ⟨lit "source_epoch_id", .bytes r.sourceBinding.epochID.toList⟩]
    else []) ++
  [⟨lit "target_key_id", .string r.targetKeyID⟩,
    ⟨lit "target_key_generation", .string r.targetKeyGeneration⟩,
    ⟨lit "parent_key_id", .string r.parentKeyID⟩, ⟨lit "presign_id", .string r.presignID⟩,
    ⟨lit "protocol_plan_digest", .bytes r.planDigest⟩,
    ⟨lit "context_digest", .bytes r.contextDigest⟩])

theorem RunIntent.acceptanceDigest_eq [Sha256] (r : RunIntent) :
    r.acceptanceDigest = sha256 (hashed r.acceptanceAppends) := by
  unfold RunIntent.acceptanceDigest RunIntent.acceptanceAppends RunIntent.appendSource
  split <;> rfl

/-- A threshold is an `int`. -/
theorem uint64_ofInt_inj {a b : Int} (ha : -2 ^ 63 ≤ a ∧ a < 2 ^ 63) (hb : -2 ^ 63 ≤ b ∧ b < 2 ^ 63)
    (h : UInt64.ofInt a = UInt64.ofInt b) : a = b := by
  have hmod := congrArg UInt64.toNat h
  simp only [UInt64.ofInt, UInt64.toNat_ofNat'] at hmod
  omega

/-- What the digest says of an intent. Protocol and kind are strings in the source. -/
def RunIntent.Same (r r' : RunIntent) : Prop :=
  r.protocol.name = r'.protocol.name ∧ kindName r.kind = kindName r'.kind ∧
    r = { r' with protocol := r.protocol, kind := r.kind }

theorem RunIntent.acceptanceAppends_inj {r r' : RunIntent}
    (hr : ∀ op ∈ r.acceptanceAppends, op.Fits) (hr' : ∀ op ∈ r'.acceptanceAppends, op.Fits)
    (hint : -2 ^ 63 ≤ r.threshold ∧ r.threshold < 2 ^ 63)
    (hint' : -2 ^ 63 ≤ r'.threshold ∧ r'.threshold < 2 ^ 63)
    (h : hashed r.acceptanceAppends = hashed r'.acceptanceAppends) : r.Same r' := by
  -- the flag before the source binding says whether it is appended
  have hflag : r.sourceBinding = .zero ↔ r'.sourceBinding = .zero := by
    have hframe := congrArg (·[8]?) (hashed_inj hr hr' h)
    by_cases hs : r.sourceBinding = .zero <;> by_cases hs' : r'.sourceBinding = .zero <;>
      simp_all [RunIntent.acceptanceAppends, Datum.encode]
  have heq := hashed_inj_of_methods hr hr' (by
    unfold RunIntent.acceptanceAppends
    by_cases hs : r.sourceBinding = .zero
    · rw [if_neg (not_not.mpr hs), if_neg (not_not.mpr (hflag.mp hs))]
      rfl
    · rw [if_pos hs, if_pos (mt hflag.mpr hs)]
      rfl) h
  have hthreshold : r.threshold = r'.threshold := by
    apply uint64_ofInt_inj hint hint'
    by_cases hs : r.sourceBinding = .zero <;> simp_all [RunIntent.acceptanceAppends]
  have hbinding : r.sourceBinding = r'.sourceBinding := by
    by_cases hs : r.sourceBinding = .zero
    · rw [hs, hflag.mp hs]
    · have hs' : r'.sourceBinding ≠ .zero := mt hflag.mpr hs
      have hfields : r.sourceBinding.keyID = r'.sourceBinding.keyID ∧
          r.sourceBinding.keyGeneration = r'.sourceBinding.keyGeneration ∧
          r.sourceBinding.epochID = r'.sourceBinding.epochID := by
        simp_all [RunIntent.acceptanceAppends, Vector.toList_inj]
      cases hb : r.sourceBinding
      cases hb' : r'.sourceBinding
      rw [hb, hb'] at hfields
      simpa using hfields
  clear hr hr' h hint hint'
  cases r
  cases r'
  simp_all [RunIntent.acceptanceAppends, RunIntent.Same, Vector.toList_inj]

end Tss.Runs

namespace Tss.Cggmp21

open Transcript

/-! ## Attempts to sign -/

structure SignAttemptDeliveryPolicy where
  mode : UInt8
  confidentiality : UInt8
  broadcastConsistency : UInt8
  recipients : PartySet

/-- The appends of `signAttemptDeliveryPolicyHash`. -/
def SignAttemptDeliveryPolicy.appends (policy : SignAttemptDeliveryPolicy) : List Append :=
  [⟨lit "domain", .string (lit "cggmp21-secp256k1-sign-attempt-delivery-policy-v1")⟩,
    ⟨lit "mode", .uint8 policy.mode⟩, ⟨lit "confidentiality", .uint8 policy.confidentiality⟩,
    ⟨lit "broadcast_consistency", .uint8 policy.broadcastConsistency⟩,
    ⟨lit "recipients", .uint32List policy.recipients⟩]

/-- The fields of `signAttemptOutbox` that its intent digest reads. -/
structure SignAttemptOutbox where
  recordVersion : UInt16
  protocol : GoString
  protocolVersion : UInt16
  keyID : GoString
  keyGeneration : GoString
  epochID : Bytes
  presignID : GoString
  attemptID : GoString
  protocolPresignID : Bytes
  sessionID : Array32
  party : PartyID
  signerSetHash : Bytes
  signPlanHash : Bytes
  contextHash : Bytes
  digest : Bytes
  digestBindingHash : Bytes
  canonicalEnvelopeHash : Bytes
  envelopeDigest : Bytes
  payloadHash : Bytes
  deliveryPolicy : SignAttemptDeliveryPolicy
  verificationKey : Bytes

variable [Sha256]

def signAttemptDeliveryPolicyHash (policy : SignAttemptDeliveryPolicy) : Bytes :=
  sha256 (hashed policy.appends)

/-- The appends of `signAttemptIntentDigest`. -/
def SignAttemptOutbox.intentAppends (outbox : SignAttemptOutbox) : List Append :=
  [⟨lit "domain", .string (lit "cggmp21-secp256k1-sign-attempt-intent-v1")⟩,
    ⟨lit "record_version", .uint16 outbox.recordVersion⟩,
    ⟨lit "protocol", .string outbox.protocol⟩,
    ⟨lit "protocol_version", .uint16 outbox.protocolVersion⟩,
    ⟨lit "key_id", .string outbox.keyID⟩, ⟨lit "key_generation", .string outbox.keyGeneration⟩,
    ⟨lit "epoch_id", .bytes outbox.epochID⟩, ⟨lit "presign_id", .string outbox.presignID⟩,
    ⟨lit "attempt_id", .string outbox.attemptID⟩,
    ⟨lit "protocol_presign_id", .bytes outbox.protocolPresignID⟩,
    ⟨lit "session_id", .bytes outbox.sessionID.toList⟩, ⟨lit "party", .uint32 outbox.party⟩,
    ⟨lit "signer_set_hash", .bytes outbox.signerSetHash⟩,
    ⟨lit "sign_plan_hash", .bytes outbox.signPlanHash⟩,
    ⟨lit "context_hash", .bytes outbox.contextHash⟩, ⟨lit "digest", .bytes outbox.digest⟩,
    ⟨lit "digest_binding_hash", .bytes outbox.digestBindingHash⟩,
    ⟨lit "canonical_envelope_hash", .bytes outbox.canonicalEnvelopeHash⟩,
    ⟨lit "envelope_digest", .bytes outbox.envelopeDigest⟩,
    ⟨lit "payload_hash", .bytes outbox.payloadHash⟩,
    ⟨lit "delivery_policy_hash", .bytes (signAttemptDeliveryPolicyHash outbox.deliveryPolicy)⟩,
    ⟨lit "verification_key", .bytes outbox.verificationKey⟩]

def signAttemptIntentDigest (outbox : SignAttemptOutbox) : Bytes :=
  sha256 (hashed outbox.intentAppends)

theorem SignAttemptOutbox.intentAppends_inj {outbox outbox' : SignAttemptOutbox}
    (h : outbox.intentAppends = outbox'.intentAppends) :
    outbox = { outbox' with deliveryPolicy := outbox.deliveryPolicy } ∧
      signAttemptDeliveryPolicyHash outbox.deliveryPolicy =
        signAttemptDeliveryPolicyHash outbox'.deliveryPolicy := by
  cases outbox
  cases outbox'
  simp_all [SignAttemptOutbox.intentAppends, Vector.toList_inj]

end Tss.Cggmp21

namespace Tss.Transcript

open Runs Cggmp21

/-- The hashed bytes determine the labels and the appended bytes of a sequence of appends, and the
values when the methods are the same; so each digest binds the fields it reads. -/
theorem transcript_binds [Sha256] :
    (∀ ops ops' : List Append, (∀ op ∈ ops ++ ops', op.Fits) → hashed ops = hashed ops' →
      ops.map (fun op => (op.label, op.value.encode)) =
          ops'.map (fun op => (op.label, op.value.encode)) ∧
        (ops.map (·.value.ctorIdx) = ops'.map (·.value.ctorIdx) → ops = ops')) ∧
    (∀ e e' : Envelope, e.digest = Sha256.sum256 (hashed e.digestAppends) ∧
      ((∀ op ∈ e.digestAppends ++ e'.digestAppends, op.Fits) →
        hashed e.digestAppends = hashed e'.digestAppends → e = e')) ∧
    (∀ e e' : Envelope, ackDigest e = Sha256.sum256 (hashed (ackAppends e)) ∧
      ((∀ op ∈ ackAppends e ++ ackAppends e', op.Fits) →
        hashed (ackAppends e) = hashed (ackAppends e') →
        e.broadcastSlot = e'.broadcastSlot ∧ e.payloadHash = e'.payloadHash ∧
          e.digest = e'.digest)) ∧
    (∀ r r' : RunIntent, r.acceptanceDigest = sha256 (hashed r.acceptanceAppends) ∧
      ((∀ op ∈ r.acceptanceAppends ++ r'.acceptanceAppends, op.Fits) →
        -2 ^ 63 ≤ r.threshold ∧ r.threshold < 2 ^ 63 →
        -2 ^ 63 ≤ r'.threshold ∧ r'.threshold < 2 ^ 63 →
        hashed r.acceptanceAppends = hashed r'.acceptanceAppends → r.Same r')) ∧
    (∀ outbox outbox' : SignAttemptOutbox,
      (∀ op ∈ outbox.intentAppends ++ outbox'.intentAppends, op.Fits) →
      hashed outbox.intentAppends = hashed outbox'.intentAppends →
      outbox = { outbox' with deliveryPolicy := outbox.deliveryPolicy } ∧
        signAttemptDeliveryPolicyHash outbox.deliveryPolicy =
          signAttemptDeliveryPolicyHash outbox'.deliveryPolicy) ∧
    ∀ policy policy' : SignAttemptDeliveryPolicy,
      (∀ op ∈ policy.appends ++ policy'.appends, op.Fits) →
      hashed policy.appends = hashed policy'.appends → policy = policy' := by
  refine ⟨?_, ?_, ?_, ?_, ?_, ?_⟩
  · intro ops ops' hfits h
    obtain ⟨hops, hops'⟩ := List.forall_mem_append.mp hfits
    exact ⟨hashed_inj hops hops' h, fun hmethods => hashed_inj_of_methods hops hops' hmethods h⟩
  · intro e e'
    refine ⟨e.digest_eq, fun hfits h => ?_⟩
    obtain ⟨he, he'⟩ := List.forall_mem_append.mp hfits
    exact Envelope.digestAppends_inj he he' h
  · intro e e'
    refine ⟨ackDigest_eq e, fun hfits h => ?_⟩
    obtain ⟨he, he'⟩ := List.forall_mem_append.mp hfits
    exact ackAppends_inj he he' h
  · intro r r'
    refine ⟨r.acceptanceDigest_eq, fun hfits hint hint' h => ?_⟩
    obtain ⟨hr, hr'⟩ := List.forall_mem_append.mp hfits
    exact RunIntent.acceptanceAppends_inj hr hr' hint hint' h
  · intro outbox outbox' hfits h
    obtain ⟨hops, hops'⟩ := List.forall_mem_append.mp hfits
    exact SignAttemptOutbox.intentAppends_inj (hashed_inj_of_methods hops hops' rfl h)
  · intro policy policy' hfits h
    obtain ⟨hops, hops'⟩ := List.forall_mem_append.mp hfits
    have heq := hashed_inj_of_methods hops hops' rfl h
    cases policy
    cases policy'
    simpa [SignAttemptDeliveryPolicy.appends] using heq

/-- Different methods may append the same bytes. -/
theorem hashed_bool_eq_uint8 :
    hashed [⟨lit "flag", .bool true⟩] = hashed [⟨lit "flag", .uint8 1⟩] ∧
      ([⟨lit "flag", .bool true⟩] : List Append) ≠ [⟨lit "flag", .uint8 1⟩] := by
  decide

end Tss.Transcript
