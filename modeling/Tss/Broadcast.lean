import Tss.Guard
import Mathlib.Data.Set.Function
import Mathlib.Data.List.Perm.Subperm

/-!
# What a broadcast certificate proves (`broadcast.go`, `guard.go`)

A certificate that passes `VerifyFull` holds one acknowledgement of every
party, each verified over the digest of the envelope at hand. So a party
that signs at most one acknowledgement in a slot keeps all certificates of
the slot to one envelope, whoever checks them.
-/

set_option linter.unusedSectionVars false

namespace Tss

open Transcript Fallible

section Certificates

variable [Sha256]

/-! ## The acknowledgements of a certificate -/

variable {parties : PartySet}

theorem BroadcastCertificate.verifyAcks_eq_ok {c : BroadcastCertificate} {seen : List PartyID}
    {acks : List BroadcastAck} (h : c.verifyAcks parties seen acks = .ok ()) :
    (∀ ack ∈ acks, ack.party ∈ parties ∧ ack.party ∉ seen) ∧
      (acks.map BroadcastAck.party).Nodup := by
  induction acks generalizing seen with
  | nil => exact ⟨by simp, List.nodup_nil⟩
  | cons ack acks ih =>
    obtain ⟨hack, hrest⟩ := seq_eq_ok.mp h
    rw [rejectIf_eq_ok] at hack
    push Not at hack
    obtain ⟨hmem, hseen, -, -⟩ := hack
    obtain ⟨hall, hnodup⟩ := ih hrest
    constructor
    · intro other hother
      rcases List.mem_cons.mp hother with rfl | hother
      · exact ⟨hmem, hseen⟩
      · obtain ⟨hin, hnot⟩ := hall other hother
        exact ⟨hin, fun habs => hnot (List.mem_cons_of_mem _ habs)⟩
    · rw [List.map_cons, List.nodup_cons]
      refine ⟨?_, hnodup⟩
      intro habs
      obtain ⟨other, hother, hparty⟩ := List.mem_map.mp habs
      exact (hall other hother).2 (hparty ▸ List.mem_cons_self)

/-- The acknowledgements of a certificate that passes the structural checks are one of every
party. -/
theorem BroadcastCertificate.acks_perm {c : BroadcastCertificate} {e : Envelope}
    (h : c.verifyStructure e parties = .ok ()) :
    (c.acks.map BroadcastAck.party).Perm parties := by
  obtain ⟨-, h⟩ := seq_eq_ok.mp h
  obtain ⟨hcount, h⟩ := seq_eq_ok.mp h
  rw [rejectIf_eq_ok] at hcount
  push Not at hcount
  obtain ⟨hall, hnodup⟩ := BroadcastCertificate.verifyAcks_eq_ok h
  have hsub : c.acks.map BroadcastAck.party ⊆ parties := by
    intro party hparty
    obtain ⟨ack, hack, rfl⟩ := List.mem_map.mp hparty
    exact (hall ack hack).1
  apply (List.subperm_of_subset hnodup hsub).perm_of_length_le
  rw [List.length_map, hcount.2.2]

theorem verifyBroadcastAck_eq_ok {e : Envelope} {ack : BroadcastAck}
    {verifier : SignatureVerifier} (h : verifyBroadcastAck e ack verifier = .ok ()) :
    verifier ack.party (ackDigest e) ack.signature = none := by
  iterate 2 obtain ⟨-, h⟩ := seq_eq_ok.mp h
  cases hverify : verifier ack.party (ackDigest e) ack.signature with
  | none => rfl
  | some err => rw [hverify] at h; cases h

/-- What `VerifyFull` establishes. -/
theorem BroadcastCertificate.verifyFull_eq_ok {c : BroadcastCertificate} {e : Envelope}
    {verifier : Option SignatureVerifier} (h : c.verifyFull e parties verifier = .ok ()) :
    ∃ verify, verifier = some verify ∧ (c.acks.map BroadcastAck.party).Perm parties ∧
      ∀ ack ∈ c.acks, verify ack.party (ackDigest e) ack.signature = none := by
  obtain ⟨hstructure, h⟩ := seq_eq_ok.mp h
  cases verifier with
  | none => cases h
  | some verify =>
    refine ⟨verify, rfl, BroadcastCertificate.acks_perm hstructure, ?_⟩
    intro ack hack
    have hcheck := forM_eq_ok.mp h ack hack
    rw [mapError_eq_ok] at hcheck
    exact verifyBroadcastAck_eq_ok hcheck

/-- The set of parties has an acknowledgement of each. -/
theorem BroadcastCertificate.exists_ack {c : BroadcastCertificate}
    (h : (c.acks.map BroadcastAck.party).Perm parties) {p : PartyID} (hp : p ∈ parties) :
    ∃ ack ∈ c.acks, ack.party = p := by
  have hmem : p ∈ c.acks.map BroadcastAck.party := h.mem_iff.mpr hp
  obtain ⟨ack, hack, hparty⟩ := List.mem_map.mp hmem
  exact ⟨ack, hack, hparty⟩

/-! ## The acknowledged digest -/

/-- What an acknowledgement is about: a slot without its recipient. -/
structure BroadcastSlot where
  protocol : GoString
  sessionID : Array32
  round : UInt8
  sender : PartyID
  payloadType : GoString
deriving DecidableEq

def Envelope.broadcastSlot (e : Envelope) : BroadcastSlot :=
  ⟨e.protocol, e.sessionID, e.round, e.sender, e.payloadType⟩

/-- The part of an acknowledgement's transcript that the slot determines. -/
def ackPrefix (slot : BroadcastSlot) : Builder :=
  ((((((new "github.com/islishude/tss/broadcast-ack/v1").appendString "protocol"
    slot.protocol).appendBytes "session_id" slot.sessionID.toList).appendUint8 "round"
    slot.round).appendUint32 "from" slot.sender).appendString "payload_type" slot.payloadType)

/-- The bytes that `AckDigest` hashes. -/
def ackEncoding (e : Envelope) : Bytes :=
  (((ackPrefix e.broadcastSlot).appendBytes "payload_hash" e.payloadHash.toList).appendBytes
    "envelope_digest" e.digest.toList).written

/-- In one slot the encoding determines the payload hash and the digest. -/
theorem ackEncoding_inj {e e' : Envelope} (hslot : e.broadcastSlot = e'.broadcastSlot)
    (h : ackEncoding e = ackEncoding e') : e.payloadHash = e'.payloadHash ∧ e.digest = e'.digest := by
  have hlength : ∀ a : Array32, a.toList.length < 2 ^ 32 := by
    intro a
    simp
  unfold ackEncoding Builder.appendBytes at h
  rw [hslot] at h
  simp only [Builder.written_append, List.append_assoc] at h
  have hentries := List.append_cancel_left h
  obtain ⟨hhash, hdigest⟩ := entry_append_inj (hlength _) (hlength _) hentries
  rw [← List.append_nil (entry _ e.digest.toList), ← List.append_nil (entry _ e'.digest.toList)]
    at hdigest
  obtain ⟨hdigest, -⟩ := entry_append_inj (hlength _) (hlength _) hdigest
  exact ⟨Vector.toList_inj.mp hhash, Vector.toList_inj.mp hdigest⟩

/-! ## Agreement -/

/-- The policy of the envelope asks for a certificate. -/
def EnvelopeGuard.RequiresCertificate (g : EnvelopeGuard) (e : Envelope) : Prop :=
  ∃ policy, g.policies.matchPolicy e.protocol e.round e.payloadType = .ok policy ∧
    policy.broadcastConsistency = .required

/-- A guard that asks for a certificate accepts no envelope without one. -/
theorem EnvelopeGuard.verifyFull_of_accept {g : EnvelopeGuard} {env : InboundEnvelope}
    (hrequired : g.RequiresCertificate env.env) (h : g.validateWithoutReplay env parties = .ok ()) :
    ∃ cert, env.broadcast = some cert ∧ cert.verifyFull env.env parties g.ackVerifier = .ok () := by
  obtain ⟨policy, hpolicy, hconsistency⟩ := hrequired
  have hcert : ∃ p, g.policies.matchPolicy env.env.protocol env.env.round env.env.payloadType =
      .ok p ∧ g.validateCertificate env parties p = .ok () := by
    simp only [EnvelopeGuard.validateWithoutReplay, bind_eq_ok] at h
    obtain ⟨_, -, _, -, _, -, _, -, _, -, _, -, h⟩ := h
    -- the two refused protections have no policy to look at
    split at h
    · cases h
    · cases h
    · simp only [bind_eq_ok, mapError_eq_ok] at h
      obtain ⟨_, -, p, hp, _, -, _, -, hcert⟩ := h
      exact ⟨p, hp, hcert⟩
  obtain ⟨p, hp, hcert⟩ := hcert
  rw [hpolicy] at hp
  cases hp
  rw [EnvelopeGuard.validateCertificate, if_pos hconsistency] at hcert
  split at hcert
  · cases hcert
  · next cert hsome =>
    rw [mapError_eq_ok] at hcert
    exact ⟨cert, hsome, hcert⟩

/-- The digest of an accepted envelope was signed by every party whose signatures cannot be
forged. -/
theorem EnvelopeGuard.signed_of_accept {g : EnvelopeGuard} {env : InboundEnvelope} {p : PartyID}
    {signed : Array32 → Prop} (hp : p ∈ parties) (hverifier : ∀ verify, g.ackVerifier = some verify
    → ∀ digest signature, verify p digest signature = none → signed digest)
    (hrequired : g.RequiresCertificate env.env) (h : g.validateWithoutReplay env parties = .ok ()) :
    signed (ackDigest env.env) := by
  obtain ⟨cert, -, hfull⟩ := verifyFull_of_accept hrequired h
  obtain ⟨verify, hverify, hperm, hacks⟩ := BroadcastCertificate.verifyFull_eq_ok hfull
  obtain ⟨ack, hack, rfl⟩ := BroadcastCertificate.exists_ack hperm hp
  exact hverifier verify hverify _ _ (hacks ack hack)

/-- Two guards that ask for a certificate of a party set accept one payload in a slot, when one
party of the set signs at most one acknowledgement digest in it; and a certificate passes
`VerifyFull` only with exactly one verified acknowledgement of every party. -/
theorem broadcast_agreement {parties : PartySet} {p : PartyID} (hp : p ∈ parties)
    {signed : Array32 → Prop}
    (hone : ∀ e e' : Envelope, e.broadcastSlot = e'.broadcastSlot → signed (ackDigest e) →
      signed (ackDigest e') → ackDigest e = ackDigest e')
    {g g' : EnvelopeGuard} {env env' : InboundEnvelope}
    (hverifier : ∀ verify, g.ackVerifier = some verify →
      ∀ digest signature, verify p digest signature = none → signed digest)
    (hverifier' : ∀ verify, g'.ackVerifier = some verify →
      ∀ digest signature, verify p digest signature = none → signed digest)
    (hrequired : g.RequiresCertificate env.env) (hrequired' : g'.RequiresCertificate env'.env)
    (hslot : env.env.broadcastSlot = env'.env.broadcastSlot)
    (hinj : Set.InjOn Sha256.sum256
      {ackEncoding env.env, ackEncoding env'.env, env.env.payload, env'.env.payload})
    (haccept : g.validateWithoutReplay env parties = .ok ())
    (haccept' : g'.validateWithoutReplay env' parties = .ok ()) :
    (env.env.digest = env'.env.digest ∧ env.env.payload = env'.env.payload) ∧
    ∀ (c : BroadcastCertificate) (e : Envelope) (set : PartySet) (verifier : Option SignatureVerifier),
      c.verifyFull e set verifier = .ok () →
      ∃ verify, verifier = some verify ∧ (c.acks.map BroadcastAck.party).Perm set ∧ set.Nodup ∧
        ∀ ack ∈ c.acks, verify ack.party (ackDigest e) ack.signature = none := by
  constructor
  · have hdigest := hone _ _ hslot (EnvelopeGuard.signed_of_accept hp hverifier hrequired haccept)
      (EnvelopeGuard.signed_of_accept hp hverifier' hrequired' haccept')
    have hencoding : ackEncoding env.env = ackEncoding env'.env := by
      apply hinj
      · simp
      · simp
      · exact hdigest
    obtain ⟨hhash, hsame⟩ := ackEncoding_inj hslot hencoding
    refine ⟨hsame, ?_⟩
    apply hinj
    · simp
    · simp
    · exact hhash
  · intro c e set verifier hfull
    obtain ⟨verify, hverify, hperm, hacks⟩ := BroadcastCertificate.verifyFull_eq_ok hfull
    refine ⟨verify, hverify, hperm, ?_, hacks⟩
    obtain ⟨hstructure, -⟩ := seq_eq_ok.mp hfull
    iterate 2 obtain ⟨-, hstructure⟩ := seq_eq_ok.mp hstructure
    exact hperm.nodup_iff.mp (BroadcastCertificate.verifyAcks_eq_ok hstructure).2

end Certificates

/-! ## A broadcast that two parties accept -/

section Accepted

/-- A broadcast of party 1. -/
def ackedEnvelope : Envelope :=
  ⟨lit "p", Vector.replicate 32 1, 1, 1, 0, lit "t", [7], []⟩

/-- The one policy: a broadcast with a certificate. -/
def certifiedPolicy : DeliveryPolicy :=
  ⟨lit "p", 1, lit "t", .broadcast, .optional, .required, false⟩

variable [Sha256]

/-- A guard of the given party that accepts the signatures over one digest. -/
def certifiedGuard (self : PartyID) : EnvelopeGuard where
  self := self
  protocol := lit "p"
  sessionID := Vector.replicate 32 1
  policies := [certifiedPolicy]
  ackVerifier := some fun _ digest _ =>
    if digest = ackDigest ackedEnvelope then none else some (.new "forged")
  envelopeVerifier := none

/-- The broadcast as it arrives over a link of the given protection. -/
def ackedDelivery (protection : ChannelProtection) : InboundEnvelope where
  env := ackedEnvelope
  receiveInfo := ⟨1, protection⟩
  broadcast := some
    { protocol := lit "p", sessionID := Vector.replicate 32 1, round := 1, sender := 1
      payloadType := lit "t", payloadHash := ackedEnvelope.payloadHash
      envelopeDigest := ackedEnvelope.digest, recipients := [1, 2, 3]
      acks := [1, 2, 3].map fun party =>
        ⟨party, ackedEnvelope.payloadHash, ackedEnvelope.digest, [1]⟩ }

theorem certifiedGuard_signed (self : PartyID) (verify : SignatureVerifier)
    (h : (certifiedGuard self).ackVerifier = some verify) (digest : Array32) (signature : Bytes)
    (hok : verify 2 digest signature = none) : digest = ackDigest ackedEnvelope := by
  cases h
  dsimp only at hok
  by_contra hne
  rw [if_neg hne] at hok
  cases hok

theorem certifiedGuard_requires (self : PartyID) (protection : ChannelProtection) :
    (certifiedGuard self).RequiresCertificate (ackedDelivery protection).env :=
  ⟨certifiedPolicy, rfl, rfl⟩

theorem ackedDelivery_injOn (protection protection' : ChannelProtection)
    (h : Sha256.sum256 (ackEncoding ackedEnvelope) ≠ Sha256.sum256 ackedEnvelope.payload) :
    Set.InjOn Sha256.sum256
      {ackEncoding (ackedDelivery protection).env, ackEncoding (ackedDelivery protection').env,
        (ackedDelivery protection).env.payload, (ackedDelivery protection').env.payload} := by
  show Set.InjOn Sha256.sum256 {ackEncoding ackedEnvelope, ackEncoding ackedEnvelope,
    ackedEnvelope.payload, ackedEnvelope.payload}
  generalize ackEncoding ackedEnvelope = encoding at h
  simp [Set.injOn_pair, h]

end Accepted

theorem broadcast_agreement_two_guards :
    letI := Sha256.lastBytes
    (certifiedGuard 2).validateWithoutReplay (ackedDelivery .plaintext) [1, 2, 3] = .ok () ∧
      (certifiedGuard 3).validateWithoutReplay (ackedDelivery .confidential) [1, 2, 3] = .ok () ∧
      (ackedDelivery .plaintext).env.digest = (ackedDelivery .confidential).env.digest := by
  -- first for any hash, so that nothing is evaluated in the application
  have hagree : ∀ _ : Sha256,
      Sha256.sum256 (ackEncoding ackedEnvelope) ≠ Sha256.sum256 ackedEnvelope.payload →
      (certifiedGuard 2).validateWithoutReplay (ackedDelivery .plaintext) [1, 2, 3] = .ok () →
      (certifiedGuard 3).validateWithoutReplay (ackedDelivery .confidential) [1, 2, 3] = .ok () →
      (ackedDelivery .plaintext).env.digest = (ackedDelivery .confidential).env.digest := by
    intro _ hne haccept haccept'
    have hslot : (ackedDelivery .plaintext).env.broadcastSlot =
        (ackedDelivery .confidential).env.broadcastSlot := rfl
    have h := broadcast_agreement (p := 2) (by decide)
      (fun _ _ _ h h' => h.trans h'.symm) (certifiedGuard_signed 2) (certifiedGuard_signed 3)
      (certifiedGuard_requires 2 .plaintext) (certifiedGuard_requires 3 .confidential) hslot
      (ackedDelivery_injOn .plaintext .confidential hne) haccept haccept'
    exact h.1.1
  have haccept : letI := Sha256.lastBytes
      (certifiedGuard 2).validateWithoutReplay (ackedDelivery .plaintext) [1, 2, 3] = .ok () := by
    decide +kernel
  have haccept' : letI := Sha256.lastBytes
      (certifiedGuard 3).validateWithoutReplay (ackedDelivery .confidential) [1, 2, 3] =
        .ok () := by
    decide +kernel
  exact ⟨haccept, haccept', hagree Sha256.lastBytes (by decide +kernel) haccept haccept'⟩

end Tss
