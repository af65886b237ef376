import Tss.Frost.SigningSafety
import Tss.Frost.Correctness

/-!
# The order of deliveries does not matter (`frost/ed25519/sign_transition.go`, `sign_round2.go`)

One session is given one commitment and one valid partial of every other
signer, in any order and any number of times. What it holds is then a
function of the senders whose messages it has taken (`At`): a commitment
joins the first set, a partial the second, and the sets are all there is to
remember. The last commitment promotes what came early and releases the
local partial; the last partial completes the session.
-/

set_option linter.unusedSectionVars false

namespace Tss.Frost.SigningSession

open Edwards25519 Fallible SignSession Polynomial

variable {F G : Type} [Field F] [DecidableEq F] [AddCommGroup G] [DecidableEq G] [Module F G]
  [Edwards25519 F G]

/-! ## The messages of a session -/

/-- What a session starts from, and what the signers send: the payloads and the commitment and
the partial that each of them carries. -/
structure Exchange (F G : Type) [AddCommGroup G] where
  key : KeyShare F G
  plan : Plan F
  guard : EnvelopeGuard
  d : F
  e : F
  commitmentPayload : PartyID → Bytes
  partialPayload : PartyID → Bytes
  commitment : PartyID → NonceCommitment G
  part : PartyID → F

namespace Exchange

/-- The signers as a set. -/
def all (x : Exchange F G) : Finset PartyID := x.plan.signers.toFinset

/-- The session before it has heard of anybody. -/
def start (x : Exchange F G) : SigningSession F G :=
  initial x.key x.plan x.guard x.d x.e (x.commitment x.key.party)

/-- The session with the commitments of the given signers. -/
def withCommitments (x : Exchange F G) (A : Finset PartyID) : SigningSession F G :=
  { x.start with commitments := FMap.ofKeys A x.commitment }

section Order

variable [Sha256] [Sha512]

/-- The key is a share of `f` and the plan signs with it; every other signer's payloads decode to
a commitment under the plan and to a partial that passes the check once all commitments are
there. -/
structure Valid (x : Exchange F G) (f : F[X]) (δ : F) : Prop where
  signs : x.start.toSignSession.Signs f δ
  self_mem : x.key.party ∈ x.plan.signers
  own_D : (x.commitment x.key.party).D.val = baseMult x.d
  own_E : (x.commitment x.key.party).E.val = baseMult x.e
  own_planHash : (x.commitment x.key.party).planHash = x.plan.planHash
  commitment : ∀ id ∈ x.plan.signers, id ≠ x.key.party →
    NonceCommitment.unmarshal x.plan.limits (x.commitmentPayload id) = .ok (x.commitment id) ∧
      (x.commitment id).planHash = x.plan.planHash
  part : ∀ id ∈ x.plan.signers, id ≠ x.key.party →
    SignPartialPayload.unmarshal G x.plan.limits (x.partialPayload id) =
      .ok ⟨x.part id, x.plan.planHash⟩
  verified : ∀ id ∈ x.plan.signers, id ≠ x.key.party →
    (x.withCommitments x.all).verifyAcceptedPartial 2 id (x.part id) = .ok ()

/-- The guard passes the delivery, as far as the replay cache. -/
def Accepts (x : Exchange F G) (env : InboundEnvelope) : Prop :=
  validateInboundWithoutReplay x.guard env protocolFROSTEd25519 x.plan.sessionID x.plan.signers
    x.key.party = .ok ()

/-- The envelope is in the slot of a commitment of its sender. -/
def InCommitmentSlot (env : Envelope) : Prop :=
  env.round = 1 ∧ env.payloadType = payloadSignCommitment

/-- The envelope is in the slot of a partial of its sender. -/
def InPartialSlot (env : Envelope) : Prop :=
  env.round = 2 ∧ env.payloadType = payloadSignPartial

/-- A `Handle` call: its context and what is delivered. -/
abbrev Delivery := HandlerContext × InboundEnvelope

/-- No delivery conflicts with another: what the guard passes in the slot of a commitment or a
partial carries the sender's one payload, and two deliveries in any one slot carry the same. -/
structure NoConflict (x : Exchange F G) (deliveries : List Delivery) : Prop where
  commitment : ∀ p ∈ deliveries, x.Accepts p.2 → InCommitmentSlot p.2.env →
    p.2.env.payload = x.commitmentPayload p.2.env.sender
  part : ∀ p ∈ deliveries, x.Accepts p.2 → InPartialSlot p.2.env →
    p.2.env.payload = x.partialPayload p.2.env.sender
  agree : ∀ p ∈ deliveries, ∀ q ∈ deliveries, x.Accepts p.2 → x.Accepts q.2 →
    p.2.env.slotKey = q.2.env.slotKey → p.2.env.payload = q.2.env.payload

/-- No call's context becomes done between its two checks. -/
def Uninterrupted (deliveries : List Delivery) : Prop :=
  ∀ p ∈ deliveries, p.1.check 0 = .ok () → p.1.check 1 = .ok ()

/-- Both messages of every other signer are delivered, at least once each, in a call whose context
is not done and past a guard that accepts them. -/
def DeliversAll (x : Exchange F G) (deliveries : List Delivery) : Prop :=
  ∀ id ∈ x.plan.signers, id ≠ x.key.party →
    (∃ p ∈ deliveries, p.1.check 0 = .ok () ∧ x.Accepts p.2 ∧ p.2.env.sender = id ∧
      InCommitmentSlot p.2.env) ∧
    ∃ p ∈ deliveries, p.1.check 0 = .ok () ∧ x.Accepts p.2 ∧ p.2.env.sender = id ∧
      InPartialSlot p.2.env

/-- The cache has no slot of the session and room for what is delivered. -/
structure FreshCache (x : Exchange F G) (deliveries : List Delivery) (cache : ReplayCache) :
    Prop where
  unseen : ∀ slot ∈ cache.seen, ¬ (slot.protocol = protocolFROSTEd25519 ∧
    slot.sessionID = x.plan.sessionID)
  room : (cache.seen.keys ∪ (deliveries.map fun p => p.2.env.slotKey).toFinset).card ≤
    cache.maxEntries

/-! ## What the session holds -/

/-- The partials of all signers: the local one is the session's own. -/
def partOf (x : Exchange F G) (own : PartialEnvelope F) (id : PartyID) : F :=
  if id = x.key.party then own.payload.z else x.part id

/-- The session once it has all commitments and has sent its partial. -/
def answered (x : Exchange F G) (own : PartialEnvelope F) : SigningSession F G :=
  commitLocalPartial own { x.withCommitments x.all with
    computedPartials := [(FMap.ofKeys x.all x.commitment, own.payload.z)] }

/-- The session with the local partial and those of `B`, in whatever envelopes they came. -/
def holding (x : Exchange F G) (own : PartialEnvelope F) (B : Finset PartyID)
    (partialEnvelopes pendingEnvelopes : FMap PartyID (PartialEnvelope F)) : SigningSession F G :=
  { x.answered own with
    partials := FMap.ofKeys (insert x.key.party B) (x.partOf own)
    partialEnvelopes := partialEnvelopes
    pendingPartials := ∅
    pendingEnvelopes := pendingEnvelopes }

/-- What the rounds compute from all messages: the group commitment, the local partial with its
envelope, and the signature. -/
structure Results (x : Exchange F G) (R : G) (rhos : FMap PartyID F) (own : PartialEnvelope F)
    (env : Envelope) : Prop where
  group : (x.withCommitments x.all).groupCommitment = .ok (R, rhos)
  answer : (x.withCommitments x.all).prepareLocalPartial = .ok (some (own, env))
  passes : ∀ id ∈ x.plan.signers,
    (x.withCommitments x.all).Passes R rhos id (x.partOf own id)

/-- The signature that the partials add up to. -/
def signatureOf (x : Exchange F G) (R : G) (own : PartialEnvelope F) : Bytes :=
  pointBytes R ++ scalarBytes G (x.plan.signers.map (x.partOf own)).sum

/-- The envelopes of early partials name their sender and round. -/
def Labelled (B : Finset PartyID) (envelopes : FMap PartyID (PartialEnvelope F)) : Prop :=
  ∀ id ∈ B, ∃ env, envelopes.lookup id = some env ∧ env.round = 2 ∧ env.sender = id

/-- The session after it has taken the commitments of `A` and the partials of `B`. -/
inductive At (x : Exchange F G) (own : PartialEnvelope F) (sig : Bytes) (A B : Finset PartyID) :
    SigningSession F G → Prop
  /-- Partials wait for the commitments. -/
  | gathering (pendingEnvelopes : FMap PartyID (PartialEnvelope F))
      (hlabelled : Labelled B pendingEnvelopes) (hmissing : A ≠ x.all) :
      At x own sig A B { x.withCommitments A with
        pendingPartials := FMap.ofKeys B x.part
        pendingEnvelopes := pendingEnvelopes }
  /-- The local partial is sent, and others are missing. -/
  | answering (partialEnvelopes pendingEnvelopes : FMap PartyID (PartialEnvelope F))
      (hcommitted : A = x.all) (hmissing : insert x.key.party B ≠ x.all) :
      At x own sig A B (x.holding own B partialEnvelopes pendingEnvelopes)
  | done (s : SigningSession F G) (hcommitted : A = x.all)
      (hanswered : insert x.key.party B = x.all) (hcompleted : s.completed = true)
      (hsignature : s.signature = sig) (hsent : s.partialSent = true) : At x own sig A B s

/-- The sets are of signers; the local commitment is there from the start, and the local partial
is never received. -/
structure Senders (x : Exchange F G) (A B : Finset PartyID) : Prop where
  self_mem : x.key.party ∈ A
  subset : A ⊆ x.all
  part_subset : B ⊆ x.all
  self_notMem : x.key.party ∉ B

/-- The session that has the commitments of `A` and lets the partials of `B` wait. -/
def gathered (x : Exchange F G) (A B : Finset PartyID)
    (pendingEnvelopes : FMap PartyID (PartialEnvelope F)) : SigningSession F G :=
  { x.withCommitments A with
    pendingPartials := FMap.ofKeys B x.part
    pendingEnvelopes := pendingEnvelopes }

section Rounds

variable {x : Exchange F G} {f : F[X]} {δ : F} {R : G} {rhos : FMap PartyID F}
  {own : PartialEnvelope F} {env : Envelope} {A B : Finset PartyID}

theorem Valid.card_all (hx : x.Valid f δ) : x.plan.signers.length = x.all.card :=
  (List.toFinset_card_of_nodup hx.signs.signers_nodup).symm

theorem mem_all {id : PartyID} : id ∈ x.all ↔ id ∈ x.plan.signers := List.mem_toFinset

/-- The counts that the code compares tell that somebody is missing. -/
theorem Valid.card_ofKeys_ne (hx : x.Valid f δ) (hsub : A ⊆ x.all) (hmissing : A ≠ x.all) {β : Type}
    (value : PartyID → β) : (FMap.ofKeys A value).keys.card ≠ x.plan.signers.length := by
  rw [FMap.keys_ofKeys, hx.card_all]
  exact fun hcard => hmissing (Finset.eq_of_subset_of_card_le hsub hcard.ge)

/-! ### The local partial -/

theorem Valid.signs_all (hx : x.Valid f δ) : (x.withCommitments x.all).Signs f δ :=
  ⟨hx.signs.deals, hx.signs.signers_nodup, hx.signs.signers_mem, hx.signs.threshold_le,
    hx.signs.signers_ne_nil, hx.signs.shift_eq, hx.signs.verifyKey⟩

theorem Valid.holdsNonces (hx : x.Valid f δ) : (x.withCommitments x.all).HoldsNonces where
  self_mem := hx.self_mem
  partialSent := rfl
  nonces := by
    refine ⟨x.d, x.e, rfl, rfl, x.commitment x.key.party, ?_, hx.own_D, hx.own_E⟩
    show (FMap.ofKeys x.all x.commitment).lookup x.key.party = _
    rw [FMap.lookup_ofKeys, if_pos (mem_all.mpr hx.self_mem)]

variable {s : SigningSession F G}

/-- A check of an accepted partial that succeeds is a partial that passes. -/
theorem passes_of_verifyAcceptedPartial {round : UInt8} {id : PartyID} {z : F}
    (h : s.verifyAcceptedPartial round id z = .ok ()) :
    ∃ R rhos, s.groupCommitment = .ok (R, rhos) ∧ s.Passes R rhos id z := by
  obtain ⟨-, h⟩ := seq_eq_ok.mp h
  obtain ⟨⟨R, rhos⟩, hgroup, h⟩ := bind_eq_ok.mp h
  rw [mapError_eq_ok] at hgroup
  refine ⟨R, rhos, hgroup, ?_⟩
  dsimp only at h
  split at h
  · cases h
  · next rho hrho =>
    rw [mapError_eq_ok] at h
    exact ⟨rho, hrho, h⟩

/-- The check of a partial that passes, in any session with the same commitments. -/
theorem verifyAcceptedPartial_of_passes (hgroup : s.groupCommitment = .ok (R, rhos)) {id : PartyID}
    {z : F} (hpasses : s.Passes R rhos id z) (round : UInt8) :
    s.verifyAcceptedPartial round id z = .ok () := by
  obtain ⟨rho, hrho, hverify⟩ := hpasses
  have hcard := (groupCommitment_eq_ok hgroup).1
  unfold verifyAcceptedPartial
  simp only [rejectIf, hcard, ne_eq, not_true_eq_false, if_false, hgroup, mapError_ok, ok_bind,
    hrho, hverify]

/-- A partial under a plan hash of 32 bytes is always written, in 124 bytes. -/
theorem exists_marshal_partial (p : SignPartialPayload F) (h : p.planHash.length = 32) :
    ∃ raw, p.marshal G = .ok raw ∧ raw.length ≤ defaultMaxEnvelopePayloadBytes := by
  have hz : (scalarBytes G p.z).length = 32 := length_scalarBytes p.z
  have hfields : ∃ raw, signPartialPayloadSchema.marshal [scalarBytes G p.z, p.planHash] =
      .ok raw := by
    have hbody : Wire.checkFieldBody none [⟨1, scalarBytes G p.z⟩, ⟨2, p.planHash⟩] = .ok () := by
      simp [Wire.checkFieldBody, seq_eq_ok, hz, h]
    exact Wire.exists_marshalFields _ (by decide) (by decide) (by decide)
      (by simp [signPartialPayloadSchema]) hbody
  obtain ⟨raw, hraw⟩ := hfields
  refine ⟨raw, ?_, ?_⟩
  · unfold SignPartialPayload.marshal
    rw [h]
    exact hraw
  · have hlength := Wire.length_marshalFields hraw
    simp only [signPartialPayloadSchema, List.zip_cons_cons, List.zip_nil_right, List.map_cons,
      List.map_nil, hz, h] at hlength
    rw [hlength]
    decide

/-- Nothing is sent while commitments are missing. -/
theorem exec_tryEmitPartial_missing (hcard : s.commitments.keys.card ≠ s.signers.length) :
    Proc.exec tryEmitPartial s = (.ok [], s) := by
  have hround : s.toSignSession.prepareLocalPartial = .ok none := by
    unfold SignSession.prepareLocalPartial
    rw [if_pos (.inr hcard)]
    rfl
  have hprepare : s.prepareLocalPartial = .ok none := by
    unfold SigningSession.prepareLocalPartial
    rw [hround]
    rfl
  rw [exec_tryEmitPartial, hprepare]
  rw [recordPartial_of_none hprepare]

/-- The envelope of the local partial is always built. -/
theorem prepareLocalPartial_of_round {part : PartialEnvelope F}
    (hpart : s.toSignSession.prepareLocalPartial = .ok (some part)) (hhash : s.planHash.length = 32)
    (hsession : s.sessionID ≠ zero32) (hparty : s.key.party ≠ broadcastPartyId) :
    ∃ env, s.prepareLocalPartial = .ok (some (part, env)) ∧ isPartial env = true := by
  obtain ⟨raw, hraw, hlength⟩ := exists_marshal_partial (G := G) part.payload
    (by rw [prepareLocalPartial_planHash hpart, hhash])
  refine ⟨⟨protocolFROSTEd25519, s.sessionID, 2, s.key.party, broadcastPartyId,
    payloadSignPartial, raw, []⟩, ?_, by simp [isPartial]⟩
  have henv : newEnvelope protocolFROSTEd25519 s.sessionID 2 s.key.party broadcastPartyId
      payloadSignPartial raw = .ok ⟨protocolFROSTEd25519, s.sessionID, 2, s.key.party,
        broadcastPartyId, payloadSignPartial, raw, []⟩ := by
    have hname : ¬ protocolFROSTEd25519 = [] ∧ ¬ payloadSignPartial = [] ∧
        ¬ defaultMaxProtocolNameBytes < protocolFROSTEd25519.length ∧
        ¬ defaultMaxPayloadTypeBytes < payloadSignPartial.length := by decide
    have hsize : ¬ defaultMaxEnvelopePayloadBytes < raw.length := by omega
    simp only [newEnvelope, rejectIf, hname, hsize, hsession, hparty, if_false, ok_bind]
    rfl
  unfold SigningSession.prepareLocalPartial
  simp only [hpart, mapError_ok, ok_bind, hraw, henv]
  rfl

/-- The group commitment decides everything: the local partial passes, as the others do. -/
theorem Valid.results (hx : x.Valid f δ) (hhash : x.plan.planHash.length = 32)
    (hsession : x.plan.sessionID ≠ zero32) (hparty : x.key.party ≠ broadcastPartyId)
    (hgroup : (x.withCommitments x.all).groupCommitment = .ok (R, rhos)) :
    ∃ own env, x.Results R rhos own env ∧ isPartial env = true := by
  obtain ⟨own, hown, -, hpasses⟩ := hx.signs_all.honest_partial_passes hx.holdsNonces hx.signs_all
    ⟨rfl, rfl, rfl, rfl⟩ hgroup
  obtain ⟨env, henv, htype⟩ := prepareLocalPartial_of_round hown hhash hsession hparty
  refine ⟨own, env, ⟨hgroup, henv, ?_⟩, htype⟩
  intro id hid
  by_cases hself : id = x.key.party
  · rw [partOf, if_pos hself, hself]
    exact hpasses
  · rw [partOf, if_neg hself]
    obtain ⟨R', rhos', hgroup', hpass⟩ :=
      passes_of_verifyAcceptedPartial (hx.verified id hid hself)
    rw [hgroup] at hgroup'
    cases hgroup'
    exact hpass

/-! ### The aggregate -/

/-- Everybody's partial is stored and passes. -/
theorem Results.hasPartial (hr : x.Results R rhos own env)
    (hall : insert x.key.party B = x.all)
    (partialEnvelopes pendingEnvelopes : FMap PartyID (PartialEnvelope F)) (id : PartyID)
    (hid : id ∈ x.plan.signers) :
    (x.holding own B partialEnvelopes pendingEnvelopes).HasPartial R rhos id ∧
      (x.holding own B partialEnvelopes pendingEnvelopes).partialOf id = x.partOf own id := by
  have hlookup : (x.holding own B partialEnvelopes pendingEnvelopes).partials.lookup id =
      some (x.partOf own id) := by
    show (FMap.ofKeys (insert x.key.party B) (x.partOf own)).lookup id = _
    rw [FMap.lookup_ofKeys, hall, if_pos (mem_all.mpr hid)]
  have hvalue : (x.holding own B partialEnvelopes pendingEnvelopes).partialOf id =
      x.partOf own id := by
    rw [partialOf, hlookup, Option.getD_some]
  refine ⟨⟨?_, ?_⟩, hvalue⟩
  · rw [FMap.mem_iff_lookup_ne_none, hlookup]
    exact Option.some_ne_none _
  · rw [hvalue]
    exact hr.passes id hid

/-- The aggregate of everybody's partials. -/
theorem Results.prepareAggregate_all (hx : x.Valid f δ) (hr : x.Results R rhos own env)
    (hall : insert x.key.party B = x.all)
    (partialEnvelopes pendingEnvelopes : FMap PartyID (PartialEnvelope F)) :
    (x.holding own B partialEnvelopes pendingEnvelopes).prepareAggregate =
      .ok (some (x.signatureOf R own)) := by
  set u := x.holding own B partialEnvelopes pendingEnvelopes
  have hanswers : u.partials.keys.card = u.signers.length := by
    show (FMap.ofKeys (insert x.key.party B) (x.partOf own)).keys.card = x.plan.signers.length
    rw [FMap.keys_ofKeys, hall, hx.card_all]
  have hgroup : u.groupCommitment = .ok (R, rhos) := hr.group
  have hcommitments := (groupCommitment_eq_ok hgroup).1
  have hstored := hr.hasPartial hall partialEnvelopes pendingEnvelopes
  have hsum : u.signers.foldlM (u.aggregateStep rhos (u.challenge R)) 0 =
      .ok (x.plan.signers.map (x.partOf own)).sum := by
    refine foldlM_aggregateStep.mpr ⟨fun id hid => (hstored id hid).1, ?_⟩
    rw [zero_add]
    congr 1
    exact List.map_congr_left fun id hid => (hstored id hid).2.symm
  have hverify : ed25519Verify G u.derivation.verificationKeyBytes u.message
      (x.signatureOf R own) = true := hx.signs_all.verify_aggregate hr.group hr.passes
  have hlive : ¬ (u.completed = true ∨ u.partials.keys.card ≠ u.signers.length) := by
    rintro (hdone | hcard)
    · exact absurd hdone (by simp [u, holding, answered, commitLocalPartial, withCommitments,
        clearNonceScalars, start, initial])
    · exact hcard hanswers
  unfold SignSession.prepareAggregate
  rw [if_neg hlive, if_neg (not_not.mpr hcommitments), hgroup]
  simp only [ok_bind]
  rw [hsum]
  exact seq_eq_ok.mpr ⟨rejectIf_eq_ok.mpr (not_not.mpr hverify), rfl⟩

/-- Once the local partial is there, the session waits for the others or completes. -/
theorem exec_tryAggregate_holding (hx : x.Valid f δ) (hr : x.Results R rhos own env)
    (hB : insert x.key.party B ⊆ x.all)
    (partialEnvelopes pendingEnvelopes : FMap PartyID (PartialEnvelope F)) :
    ∃ s, Proc.exec tryAggregate (x.holding own B partialEnvelopes pendingEnvelopes) = (.ok (), s) ∧
      At x own (x.signatureOf R own) x.all B s ∧ s.partialSent = true := by
  rw [exec_tryAggregate]
  by_cases hall : insert x.key.party B = x.all
  · rw [hr.prepareAggregate_all hx hall]
    exact ⟨_, rfl, .done _ rfl hall rfl rfl rfl, rfl⟩
  · have hcard : (x.holding own B partialEnvelopes pendingEnvelopes).partials.keys.card ≠
        (x.holding own B partialEnvelopes pendingEnvelopes).signers.length :=
      hx.card_ofKeys_ne hB hall (x.partOf own)
    have hnone : (x.holding own B partialEnvelopes pendingEnvelopes).prepareAggregate =
        .ok none := by
      unfold SignSession.prepareAggregate
      rw [if_pos (.inr hcard)]
      rfl
    rw [hnone]
    exact ⟨_, rfl, .answering partialEnvelopes pendingEnvelopes rfl hall, rfl⟩

/-! ### The local partial is sent -/

/-- The session with all commitments and the partials of `B`, before the local one. -/
def promoted (x : Exchange F G) (B : Finset PartyID)
    (partialEnvelopes pendingEnvelopes : FMap PartyID (PartialEnvelope F)) : SigningSession F G :=
  { x.withCommitments x.all with
    partials := FMap.ofKeys B x.part
    partialEnvelopes := partialEnvelopes
    pendingPartials := ∅
    pendingEnvelopes := pendingEnvelopes }

theorem insert_own_part (hself : x.key.party ∉ B) :
    (FMap.ofKeys B x.part).insert x.key.party own.payload.z =
      FMap.ofKeys (insert x.key.party B) (x.partOf own) := by
  have hothers : FMap.ofKeys B x.part = FMap.ofKeys B (x.partOf own) := by
    apply FMap.ofKeys_congr
    intro id hid
    have hne : id ≠ x.key.party := fun heq => hself (heq ▸ hid)
    rw [partOf, if_neg hne]
  have hown : own.payload.z = x.partOf own x.key.party := by rw [partOf, if_pos rfl]
  rw [hothers, hown, FMap.insert_ofKeys]

theorem exec_tryEmitPartial_promoted (hx : x.Valid f δ) (hr : x.Results R rhos own env)
    (hB : insert x.key.party B ⊆ x.all) (hself : x.key.party ∉ B)
    (partialEnvelopes pendingEnvelopes : FMap PartyID (PartialEnvelope F)) :
    ∃ s, Proc.exec tryEmitPartial (x.promoted B partialEnvelopes pendingEnvelopes) =
        (.ok [env], s) ∧
      At x own (x.signatureOf R own) x.all B s ∧ s.partialSent = true := by
  set u := x.promoted B partialEnvelopes pendingEnvelopes with hu
  have hprepare : u.prepareLocalPartial = .ok (some (own, env)) := hr.answer
  have hrecord : commitLocalPartial own u.recordPartial =
      x.holding own B (partialEnvelopes.insert x.key.party own) pendingEnvelopes := by
    rw [recordPartial_of_some (prepareLocalPartial_some hprepare).1]
    show { x.answered own with
      partials := (FMap.ofKeys B x.part).insert x.key.party own.payload.z
      partialEnvelopes := partialEnvelopes.insert x.key.party own
      pendingPartials := ∅
      pendingEnvelopes := pendingEnvelopes } = _
    rw [insert_own_part hself]
    rfl
  obtain ⟨s, hexec, hat, hsent⟩ := exec_tryAggregate_holding hx hr hB
    (partialEnvelopes.insert x.key.party own) pendingEnvelopes
  refine ⟨s, ?_, hat, hsent⟩
  rw [exec_tryEmitPartial, hprepare]
  dsimp only
  rw [hrecord, hexec]
  rfl

/-! ### Early partials -/

/-- The promotion loop moves what is pending, and touches nothing else. -/
theorem foldl_promotePending (ids : List PartyID) (s : SigningSession F G) :
    ∃ partials partialEnvelopes pending pendingEnvelopes,
      ids.foldl promotePending s = { s with
        partials := partials
        partialEnvelopes := partialEnvelopes
        pendingPartials := pending
        pendingEnvelopes := pendingEnvelopes } ∧
      (∀ id, partials.lookup id = if id ∈ ids then
        (s.pendingPartials.lookup id).or (s.partials.lookup id) else s.partials.lookup id) ∧
      ∀ id, pending.lookup id = if id ∈ ids then none else s.pendingPartials.lookup id := by
  induction ids generalizing s with
  | nil => exact ⟨_, _, _, _, rfl, by simp, by simp⟩
  | cons id ids ih =>
    obtain ⟨partials, partialEnvelopes, pending, pendingEnvelopes, hfold, hanswers, hpending⟩ :=
      ih (promotePending s id)
    cases hlookup : s.pendingPartials.lookup id with
    | none =>
      have hsame : promotePending s id = s := by rw [promotePending, hlookup]
      rw [hsame] at hfold hanswers hpending
      refine ⟨partials, partialEnvelopes, pending, pendingEnvelopes, ?_, ?_, ?_⟩
      · rw [List.foldl_cons, hsame, hfold]
      · intro other
        rw [hanswers other]
        by_cases hother : other = id
        · subst hother
          simp [hlookup]
        · simp [hother]
      · intro other
        rw [hpending other]
        by_cases hother : other = id
        · subst hother
          simp [hlookup]
        · simp [hother]
    | some part =>
      have hstep : ∃ envelopes, promotePending s id = { s with
          partials := s.partials.insert id part
          partialEnvelopes := envelopes
          pendingPartials := s.pendingPartials.erase id
          pendingEnvelopes := s.pendingEnvelopes.erase id } := by
        rw [promotePending, hlookup]
        exact ⟨_, rfl⟩
      obtain ⟨envelopes, hstep⟩ := hstep
      rw [hstep] at hfold hanswers hpending
      refine ⟨partials, partialEnvelopes, pending, pendingEnvelopes, ?_, ?_, ?_⟩
      · rw [List.foldl_cons, hstep, hfold]
      · intro other
        rw [hanswers other]
        rw [FMap.lookup_erase_ite, FMap.lookup_insert_ite]
        by_cases hother : other = id
        · subst hother
          simp [hlookup]
        · simp [hother]
      · intro other
        rw [hpending other]
        rw [FMap.lookup_erase_ite]
        by_cases hother : other = id
        · subst hother
          simp
        · simp [hother]

variable {pendingEnvelopes : FMap PartyID (PartialEnvelope F)}

/-- With all commitments, the early partials pass and are promoted. -/
theorem exec_promotePendingPartials_all (hr : x.Results R rhos own env) (hB : B ⊆ x.all)
    (hself : x.key.party ∉ B) (hlabelled : Labelled B pendingEnvelopes) :
    ∃ partialEnvelopes pendingEnvelopes',
      Proc.exec promotePendingPartials (x.gathered x.all B pendingEnvelopes) =
        (.ok (), x.promoted B partialEnvelopes pendingEnvelopes') := by
  set u := x.gathered x.all B pendingEnvelopes with hu
  rw [exec_promotePendingPartials]
  have hcard : u.commitments.keys.card = u.signers.length :=
    (groupCommitment_eq_ok (s := u.toSignSession) hr.group).1
  by_cases hempty : B = ∅
  · have hzero : u.pendingPartials.keys.card = 0 := by
      show (FMap.ofKeys B x.part).keys.card = 0
      rw [FMap.keys_ofKeys, hempty, Finset.card_empty]
    rw [if_pos (.inr hzero)]
    refine ⟨∅, pendingEnvelopes, ?_⟩
    rw [hu, promoted, hempty, FMap.ofKeys_empty]
    rfl
  · have hsome : ¬ (u.commitments.keys.card ≠ u.signers.length ∨
        u.pendingPartials.keys.card = 0) := by
      rintro (hne | hzero)
      · exact hne hcard
      · have hkeys : (FMap.ofKeys B x.part).keys.card = 0 := hzero
        rw [FMap.keys_ofKeys, Finset.card_eq_zero] at hkeys
        exact hempty hkeys
    have hverify : u.signers.forM u.verifyPending = .ok () := by
      apply forM_eq_ok.mpr
      intro id hid
      have hlookup : u.pendingPartials.lookup id = if id ∈ B then some (x.part id) else none :=
        FMap.lookup_ofKeys B x.part id
      unfold verifyPending
      rw [hlookup]
      by_cases hmem : id ∈ B
      · rw [if_pos hmem]
        obtain ⟨penv, hpenv, hround, hsender⟩ := hlabelled id hmem
        have hpenv' : u.pendingEnvelopes.lookup id = some penv := hpenv
        rw [hpenv']
        dsimp only
        rw [hsender]
        have hne : id ≠ x.key.party := fun heq => hself (heq ▸ hmem)
        have hpass := hr.passes id hid
        rw [partOf, if_neg hne] at hpass
        exact verifyAcceptedPartial_of_passes (s := u) hr.group hpass _
      · rw [if_neg hmem]
    rw [if_neg hsome, hverify]
    obtain ⟨partials, partialEnvelopes, pending, pendingEnvelopes', hfold, hanswers, hpending⟩ :=
      foldl_promotePending u.signers u
    refine ⟨partialEnvelopes, pendingEnvelopes', ?_⟩
    rw [hfold]
    have hanswers' : partials = FMap.ofKeys B x.part := by
      apply FMap.ext_some
      intro id z
      have hold : u.partials.lookup id = none := rfl
      have hnew : u.pendingPartials.lookup id = if id ∈ B then some (x.part id) else none :=
        FMap.lookup_ofKeys B x.part id
      rw [hanswers id, hold, hnew]
      by_cases hmem : id ∈ B
      · have hsigner : id ∈ u.signers := mem_all.mp (hB hmem)
        simp [hmem, hsigner]
      · simp [hmem]
    have hpending' : pending = ∅ := by
      apply FMap.ext_some
      intro id z
      have hnew : u.pendingPartials.lookup id = if id ∈ B then some (x.part id) else none :=
        FMap.lookup_ofKeys B x.part id
      rw [hpending id, hnew]
      by_cases hmem : id ∈ B
      · have hsigner : id ∈ u.signers := mem_all.mp (hB hmem)
        simp [hsigner]
      · simp [hmem]
    rw [hanswers', hpending']
    rfl

/-! ### One message -/

/-- The last commitment promotes the early partials and releases the local one. -/
theorem apply_commitment (hx : x.Valid f δ) (hr : x.Results R rhos own env)
    (hsenders : x.Senders A B) {id : PartyID} (hid : id ∈ x.all)
    (hlabelled : Labelled B pendingEnvelopes) :
    ∃ s, Proc.exec (apply (.acceptNonceCommitment id (x.commitment id)))
        (x.gathered A B pendingEnvelopes) = (.ok (if insert id A = x.all then [env] else []), s) ∧
      At x own (x.signatureOf R own) (insert id A) B s := by
  have hsub : insert id A ⊆ x.all := Finset.insert_subset hid hsenders.subset
  have hB : insert x.key.party B ⊆ x.all :=
    Finset.insert_subset (mem_all.mpr hx.self_mem) hsenders.part_subset
  -- the state with the new commitment
  set u := x.gathered (insert id A) B pendingEnvelopes with hu
  have hinsert : Proc.exec (apply (.acceptNonceCommitment id (x.commitment id)))
      (x.gathered A B pendingEnvelopes) = Proc.exec (do
        Proc.mapError (terminalApplyError 1) promotePendingPartials
        Proc.mapError (terminalApplyError 1) tryEmitPartial) u := by
    rw [apply, Proc.exec_bind, Proc.exec_modify]
    simp only [hu, gathered, withCommitments, FMap.insert_ofKeys]
  rw [hinsert, Proc.exec_bind, Proc.exec_mapError]
  by_cases hall : insert id A = x.all
  · obtain ⟨partialEnvelopes, pendingEnvelopes', hpromote⟩ := exec_promotePendingPartials_all hr
      hsenders.part_subset hsenders.self_notMem hlabelled
    obtain ⟨s, hemit, hat, -⟩ := exec_tryEmitPartial_promoted hx hr hB hsenders.self_notMem
      partialEnvelopes pendingEnvelopes'
    refine ⟨s, ?_, hall ▸ hat⟩
    rw [hu, hall, hpromote]
    dsimp only [mapError_ok]
    rw [Proc.exec_mapError, hemit, if_pos rfl]
    rfl
  · have hcard : u.commitments.keys.card ≠ u.signers.length :=
      hx.card_ofKeys_ne hsub hall x.commitment
    refine ⟨u, ?_, .gathering pendingEnvelopes hlabelled hall⟩
    rw [exec_promotePendingPartials, if_pos (.inl hcard)]
    dsimp only [mapError_ok]
    rw [Proc.exec_mapError, exec_tryEmitPartial_missing hcard, if_neg hall]
    rfl

/-- A partial that comes early waits. -/
theorem apply_early_partial (hmissing : A ≠ x.all) (id : PartyID)
    (hlabelled : Labelled B pendingEnvelopes) (penv : PartialEnvelope F) (hround : penv.round = 2)
    (hsender : penv.sender = id) (own : PartialEnvelope F) (sig : Bytes) :
    ∃ s, Proc.exec (apply (.acceptPartial id (x.part id) penv true))
        (x.gathered A B pendingEnvelopes) = (.ok [], s) ∧ At x own sig A (insert id B) s := by
  refine ⟨x.gathered A (insert id B) (pendingEnvelopes.insert id penv), ?_, ?_⟩
  · rw [apply, if_pos rfl, Proc.exec_bind, Proc.exec_modify]
    simp only [gathered, FMap.insert_ofKeys]
    rfl
  · refine .gathering _ ?_ hmissing
    intro other hother
    rw [FMap.lookup_insert_ite]
    by_cases hsame : other = id
    · exact ⟨penv, by rw [if_pos hsame], hround, hsame ▸ hsender⟩
    · rw [if_neg hsame]
      exact hlabelled other (Finset.mem_of_mem_insert_of_ne hother hsame)

/-- A partial that comes when all commitments are there is stored. -/
theorem apply_partial (hx : x.Valid f δ) (hr : x.Results R rhos own env)
    (hsenders : x.Senders A B) {id : PartyID} (hid : id ∈ x.all) (hne : id ≠ x.key.party)
    (penv : PartialEnvelope F) (partialEnvelopes pendingEnvelopes : FMap PartyID (PartialEnvelope F)) :
    ∃ s, Proc.exec (apply (.acceptPartial id (x.part id) penv false))
        (x.holding own B partialEnvelopes pendingEnvelopes) = (.ok [], s) ∧
      At x own (x.signatureOf R own) x.all (insert id B) s := by
  have hB : insert x.key.party (insert id B) ⊆ x.all :=
    Finset.insert_subset (mem_all.mpr hx.self_mem)
      (Finset.insert_subset hid hsenders.part_subset)
  obtain ⟨s, hexec, hat, -⟩ := exec_tryAggregate_holding hx hr hB
    (partialEnvelopes.insert id penv) pendingEnvelopes
  refine ⟨s, ?_, hat⟩
  have hinsert : (FMap.ofKeys (insert x.key.party B) (x.partOf own)).insert id (x.part id) =
      FMap.ofKeys (insert x.key.party (insert id B)) (x.partOf own) := by
    have hpart : x.part id = x.partOf own id := by rw [partOf, if_neg hne]
    rw [hpart, FMap.insert_ofKeys, Finset.insert_comm]
  have hstate : ({ x.holding own B partialEnvelopes pendingEnvelopes with
      partials := (x.holding own B partialEnvelopes pendingEnvelopes).partials.insert id (x.part id)
      partialEnvelopes := (x.holding own B partialEnvelopes
        pendingEnvelopes).partialEnvelopes.insert id penv } : SigningSession F G) =
      x.holding own (insert id B) (partialEnvelopes.insert id penv) pendingEnvelopes := by
    unfold holding
    dsimp only
    rw [hinsert]
  rw [apply, if_neg (by simp), Proc.exec_bind, Proc.exec_modify]
  dsimp only
  rw [hstate, Proc.exec_bind, Proc.exec_mapError, hexec]
  rfl

/-! ### What is built from a message -/

theorem requireHash_ok {label : String} {hash : Bytes} (h : hash.length = 32) :
    requireHash label hash hash = .ok () := by
  simp [requireHash, seq_eq_ok, sha256Size, h]

/-- The session works under the plan and holds the commitments of `A`. -/
structure Under (x : Exchange F G) (A : Finset PartyID) (s : SigningSession F G) : Prop where
  limits : s.limits = x.plan.limits
  planHash : s.planHash = x.plan.planHash
  signers : s.signers = x.plan.signers
  commitments : s.commitments = FMap.ofKeys A x.commitment

/-- A message of another signer, in its slot and with the sender's one payload. -/
structure Carries (x : Exchange F G) (slot : Envelope → Prop) (payload : PartyID → Bytes)
    (base : Envelope) : Prop where
  sender_mem : base.sender ∈ x.plan.signers
  sender_ne : base.sender ≠ x.key.party
  slot : slot base
  payload : base.payload = payload base.sender

variable {base : Envelope}

theorem build_commitment (hx : x.Valid f δ) (hhash : x.plan.planHash.length = 32) (hs : x.Under A s)
    (hmsg : x.Carries InCommitmentSlot x.commitmentPayload base) :
    s.build base = .ok (if base.sender ∈ A then .duplicate
      else .acceptNonceCommitment base.sender (x.commitment base.sender)) := by
  obtain ⟨hsender, hne, ⟨hround, htype⟩, hpayload⟩ := hmsg
  obtain ⟨hdecode, hplan⟩ := hx.commitment base.sender hsender hne
  have hmem : ¬ base.sender ∉ s.signers := by
    rw [hs.signers]
    exact not_not.mpr hsender
  have hrequire : requireHash "sign" (x.commitment base.sender).planHash s.planHash = .ok () := by
    rw [hplan, hs.planHash]
    exact requireHash_ok hhash
  have hdecode' : NonceCommitment.unmarshal s.limits base.payload =
      .ok (x.commitment base.sender) := by
    rw [hs.limits, hpayload, hdecode]
  unfold build
  simp only [rejectIf, hmem, if_false, ok_bind, if_pos htype]
  unfold buildAcceptNonceCommitmentTx
  simp only [rejectIf, hround, ne_eq, not_true_eq_false, if_false, ok_bind, hdecode', mapError_ok,
    hrequire, hs.commitments, FMap.lookup_ofKeys]
  by_cases hA : base.sender ∈ A
  · simp only [if_pos hA, if_true]
    rfl
  · simp only [if_neg hA]
    rfl

/-- What is built from a partial, up to the look at what is stored. -/
theorem build_partial_eq (hx : x.Valid f δ) (hhash : x.plan.planHash.length = 32) (hs : x.Under A s)
    (hmsg : x.Carries InPartialSlot x.partialPayload base) :
    s.build base = (match s.partials.lookup base.sender, s.pendingPartials.lookup base.sender with
      | some existing, _ =>
        duplicatePartial base "conflicting partial signature" existing (x.part base.sender)
      | none, some existing =>
        duplicatePartial base "conflicting pending partial signature" existing (x.part base.sender)
      | none, none => do
        let pending : Bool := s.commitments.keys.card ≠ s.signers.length
        if ¬ pending then s.verifyAcceptedPartial base.round base.sender (x.part base.sender)
        pure (.acceptPartial base.sender (x.part base.sender)
          ⟨base.sessionID, base.round.toNat, base.sender, ⟨x.part base.sender, x.plan.planHash⟩⟩
          pending)) := by
  obtain ⟨hsender, hne, ⟨hround, htype⟩, hpayload⟩ := hmsg
  have hdecode := hx.part base.sender hsender hne
  have hmem : ¬ base.sender ∉ s.signers := by
    rw [hs.signers]
    exact not_not.mpr hsender
  have hrequire : requireHash "sign" x.plan.planHash s.planHash = .ok () := by
    rw [hs.planHash]
    exact requireHash_ok hhash
  have hdecode' : SignPartialPayload.unmarshal G s.limits base.payload =
      .ok ⟨x.part base.sender, x.plan.planHash⟩ := by
    rw [hs.limits, hpayload, hdecode]
  have hother : ¬ base.payloadType = payloadSignCommitment := by
    rw [htype]
    decide
  unfold build
  simp only [rejectIf, hmem, if_false, ok_bind, if_neg hother, if_pos htype]
  unfold buildAcceptPartialTx
  simp only [rejectIf, hround, ne_eq, not_true_eq_false, if_false, ok_bind, hdecode', mapError_ok,
    hrequire]
  all_goals rfl

theorem build_early_partial (hx : x.Valid f δ) (hhash : x.plan.planHash.length = 32)
    (hsub : A ⊆ x.all) (hmissing : A ≠ x.all)
    (hmsg : x.Carries InPartialSlot x.partialPayload base)
    (pendingEnvelopes : FMap PartyID (PartialEnvelope F)) :
    build (x.gathered A B pendingEnvelopes) base = .ok (if base.sender ∈ B then .duplicate else .acceptPartial base.sender (x.part base.sender)
        ⟨base.sessionID, base.round.toNat, base.sender, ⟨x.part base.sender, x.plan.planHash⟩⟩
        true) := by
  rw [build_partial_eq (A := A) hx hhash ⟨rfl, rfl, rfl, rfl⟩ hmsg]
  have hnone : (x.withCommitments A).partials.lookup base.sender = none := rfl
  have hcard : (x.withCommitments A).commitments.keys.card ≠ (x.withCommitments A).signers.length :=
    hx.card_ofKeys_ne hsub hmissing x.commitment
  dsimp only [gathered]
  rw [hnone, FMap.lookup_ofKeys]
  by_cases hB : base.sender ∈ B
  · rw [if_pos hB, if_pos hB]
    simp [duplicatePartial]
  · rw [if_neg hB, if_neg hB]
    simp only [hcard, ne_eq, not_false_eq_true, decide_true, not_true_eq_false, if_false]
    rfl

theorem build_late_partial (hx : x.Valid f δ) (hr : x.Results R rhos own env)
    (hhash : x.plan.planHash.length = 32) (hmsg : x.Carries InPartialSlot x.partialPayload base)
    (partialEnvelopes pendingEnvelopes : FMap PartyID (PartialEnvelope F)) :
    build (x.holding own B partialEnvelopes pendingEnvelopes) base =
      .ok (if base.sender ∈ B then .duplicate else .acceptPartial base.sender (x.part base.sender)
        ⟨base.sessionID, base.round.toNat, base.sender, ⟨x.part base.sender, x.plan.planHash⟩⟩
        false) := by
  rw [build_partial_eq (A := x.all) hx hhash ⟨rfl, rfl, rfl, rfl⟩ hmsg]
  have hlookup : (x.holding own B partialEnvelopes pendingEnvelopes).partials.lookup base.sender =
      if base.sender ∈ B then some (x.part base.sender) else none := by
    show (FMap.ofKeys (insert x.key.party B) (x.partOf own)).lookup base.sender = _
    rw [FMap.lookup_ofKeys, partOf, if_neg hmsg.sender_ne]
    simp [hmsg.sender_ne]
  have hpending : (x.holding own B partialEnvelopes pendingEnvelopes).pendingPartials.lookup
      base.sender = none := rfl
  have hcard : (x.holding own B partialEnvelopes pendingEnvelopes).commitments.keys.card =
      (x.holding own B partialEnvelopes pendingEnvelopes).signers.length :=
    (groupCommitment_eq_ok (s := (x.withCommitments x.all).toSignSession) hr.group).1
  rw [hlookup, hpending]
  by_cases hB : base.sender ∈ B
  · rw [if_pos hB, if_pos hB]
    simp [duplicatePartial]
  · rw [if_neg hB, if_neg hB]
    have hpass := hr.passes base.sender hmsg.sender_mem
    rw [partOf, if_neg hmsg.sender_ne] at hpass
    have hverify := verifyAcceptedPartial_of_passes
      (s := x.holding own B partialEnvelopes pendingEnvelopes) hr.group hpass base.round
    simp only [hcard, ne_eq, not_true_eq_false, decide_false, Bool.false_eq_true,
      not_false_eq_true, if_true, hverify, ok_bind]
    rfl

/-- A message in no slot of the rounds is refused, and the session goes on. -/
theorem build_other (hc : ¬ InCommitmentSlot base) (hp : ¬ InPartialSlot base) :
    ∃ err, s.build base = .error err ∧
      shouldAbortSession (SessionOps.normalizeDuplicate err) = false := by
  have hkeeps : ∀ code round party cause, code ≠ .verification → code ≠ .invariant →
      shouldAbortSession (SessionOps.normalizeDuplicate
        (.newProtocolError code round party cause)) = false := by
    intro code round party cause hver hinv
    unfold SessionOps.normalizeDuplicate
    split
    · rfl
    · simp [shouldAbortSession, GoError.newProtocolError, hver, hinv]
  unfold build
  by_cases hmem : base.sender ∉ s.signers
  · exact ⟨_, by simp only [rejectIf, if_pos hmem]; rfl, hkeeps _ _ _ _ (by decide) (by decide)⟩
  · simp only [rejectIf, if_neg hmem, ok_bind]
    by_cases htype : base.payloadType = payloadSignCommitment
    · have hround : base.round ≠ 1 := fun h => hc ⟨h, htype⟩
      simp only [if_pos htype, buildAcceptNonceCommitmentTx, rejectIf, if_pos hround]
      exact ⟨_, rfl, hkeeps _ _ _ _ (by decide) (by decide)⟩
    · by_cases htype' : base.payloadType = payloadSignPartial
      · have hround : base.round ≠ 2 := fun h => hp ⟨h, htype'⟩
        simp only [if_neg htype, if_pos htype', buildAcceptPartialTx, rejectIf, if_pos hround]
        exact ⟨_, rfl, hkeeps _ _ _ _ (by decide) (by decide)⟩
      · simp only [if_neg htype, if_neg htype']
        exact ⟨_, rfl, hkeeps _ _ _ _ (by decide) (by decide)⟩

/-! ### One delivery -/

/-- A message of the set takes the session from its place to the next. -/
def Takes (x : Exchange F G) (own : PartialEnvelope F) (sig : Bytes) (s : SigningSession F G)
    (base : Envelope) (out : List Envelope) (A B : Finset PartyID) : Prop :=
  ∃ tx s', s.build base = .ok tx ∧ Proc.exec (apply tx) s = (.ok out, s') ∧ At x own sig A B s'

theorem takes_commitment (hx : x.Valid f δ) (hr : x.Results R rhos own env)
    (hhash : x.plan.planHash.length = 32) (hsenders : x.Senders A B)
    (hat : At x own (x.signatureOf R own) A B s) (hlive : s.completed = false)
    (hmsg : x.Carries InCommitmentSlot x.commitmentPayload base) :
    x.Takes own (x.signatureOf R own) s base
      (if A ≠ x.all ∧ insert base.sender A = x.all then [env] else []) (insert base.sender A) B := by
  have hbuild : ∀ {s : SigningSession F G}, x.Under A s → _ := fun hs =>
    build_commitment hx hhash hs hmsg
  have hall : base.sender ∈ x.all := mem_all.mpr hmsg.sender_mem
  -- a commitment that is there changes nothing
  have hknown : ∀ {s : SigningSession F G}, x.Under A s → At x own (x.signatureOf R own) A B s →
      base.sender ∈ A → x.Takes own (x.signatureOf R own) s base
        (if A ≠ x.all ∧ insert base.sender A = x.all then [env] else []) (insert base.sender A)
        B := by
    intro s hs hat hmem
    have hsame : insert base.sender A = A := Finset.insert_eq_of_mem hmem
    rw [hsame, if_neg (by simp)]
    refine ⟨.duplicate, s, ?_, rfl, hat⟩
    rw [hbuild hs, if_pos hmem]
  cases hat with
  | gathering pendingEnvelopes hlabelled hmissing =>
    by_cases hmem : base.sender ∈ A
    · exact hknown ⟨rfl, rfl, rfl, rfl⟩ (.gathering pendingEnvelopes hlabelled hmissing) hmem
    · obtain ⟨s', hexec, hat'⟩ := apply_commitment hx hr hsenders hall hlabelled
      refine ⟨.acceptNonceCommitment base.sender (x.commitment base.sender), s', ?_, ?_, hat'⟩
      · rw [hbuild ⟨rfl, rfl, rfl, rfl⟩, if_neg hmem]
      · simp only [ne_eq, hmissing, not_false_eq_true, true_and]
        exact hexec
  | answering partialEnvelopes pendingEnvelopes hcommitted hmissing =>
    exact hknown ⟨rfl, rfl, rfl, by rw [hcommitted]; rfl⟩
      (.answering partialEnvelopes pendingEnvelopes hcommitted hmissing) (hcommitted ▸ hall)
  | done s hcommitted hanswered hcompleted =>
    rw [hlive] at hcompleted
    cases hcompleted

theorem takes_partial (hx : x.Valid f δ) (hr : x.Results R rhos own env)
    (hhash : x.plan.planHash.length = 32) (hsenders : x.Senders A B)
    (hat : At x own (x.signatureOf R own) A B s) (hlive : s.completed = false)
    (hmsg : x.Carries InPartialSlot x.partialPayload base) :
    x.Takes own (x.signatureOf R own) s base [] A (insert base.sender B) := by
  cases hat with
  | gathering pendingEnvelopes hlabelled hmissing =>
    have hbuild := build_early_partial (B := B) hx hhash hsenders.subset hmissing hmsg
      pendingEnvelopes
    by_cases hmem : base.sender ∈ B
    · rw [if_pos hmem] at hbuild
      rw [Finset.insert_eq_of_mem hmem]
      exact ⟨.duplicate, _, hbuild, rfl, .gathering pendingEnvelopes hlabelled hmissing⟩
    · rw [if_neg hmem] at hbuild
      have hround : base.round.toNat = 2 := by
        rw [hmsg.slot.1]
        rfl
      obtain ⟨s', hexec, hat'⟩ := apply_early_partial hmissing base.sender hlabelled
        ⟨base.sessionID, base.round.toNat, base.sender, ⟨x.part base.sender, x.plan.planHash⟩⟩
        hround rfl own (x.signatureOf R own)
      exact ⟨_, s', hbuild, hexec, hat'⟩
  | answering partialEnvelopes pendingEnvelopes hcommitted hmissing =>
    have hbuild := build_late_partial (B := B) hx hr hhash hmsg partialEnvelopes pendingEnvelopes
    by_cases hmem : base.sender ∈ B
    · rw [if_pos hmem] at hbuild
      rw [Finset.insert_eq_of_mem hmem]
      exact ⟨.duplicate, _, hbuild, rfl,
        .answering partialEnvelopes pendingEnvelopes hcommitted hmissing⟩
    · rw [if_neg hmem] at hbuild
      obtain ⟨s', hexec, hat'⟩ := apply_partial hx hr hsenders
        (mem_all.mpr hmsg.sender_mem) hmsg.sender_ne
        ⟨base.sessionID, base.round.toNat, base.sender, ⟨x.part base.sender, x.plan.planHash⟩⟩
        partialEnvelopes pendingEnvelopes
      exact ⟨_, s', hbuild, hexec, hcommitted ▸ hat'⟩
  | done s hcommitted hanswered hcompleted =>
    rw [hlive] at hcompleted
    cases hcompleted

/-- What the guard passes comes from another signer, in the session. -/
theorem Accepts.facts {env : InboundEnvelope} (h : x.Accepts env) :
    env.env.sender ∈ x.plan.signers ∧ env.env.sender ≠ x.key.party ∧
      env.env.protocol = protocolFROSTEd25519 ∧ env.env.sessionID = x.plan.sessionID := by
  obtain ⟨hidentity, h⟩ := seq_eq_ok.mp h
  obtain ⟨-, h⟩ := seq_eq_ok.mp h
  simp only [EnvelopeGuard.requireIdentity, seq_eq_ok, rejectIf_eq_ok] at hidentity
  obtain ⟨hprotocol, hsession, hself, -⟩ := hidentity
  simp only [EnvelopeGuard.validateWithoutReplay, seq_eq_ok, rejectIf_eq_ok] at h
  obtain ⟨hprotocol', hsession', hsender, hself', -⟩ := h
  push Not at hprotocol hsession hself hprotocol' hsession' hsender hself'
  refine ⟨hsender, ?_, hprotocol'.trans hprotocol, hsession'.trans hsession⟩
  rw [← hself]
  exact hself'

/-- The slots of the session that the cache holds are those of deliveries the session has taken,
and no others are missing room. -/
structure Recorded (x : Exchange F G) (deliveries : List Delivery) (allowed : Finset MessageSlotKey)
    (A B : Finset PartyID) (cache : ReplayCache) : Prop where
  delivered : ∀ slot hash, cache.seen.lookup slot = some hash →
    slot.protocol = protocolFROSTEd25519 → slot.sessionID = x.plan.sessionID →
    ∃ p ∈ deliveries, x.Accepts p.2 ∧ p.2.env.slotKey = slot ∧ hash = p.2.env.payloadHash ∧
      (InCommitmentSlot p.2.env → p.2.env.sender ∈ A) ∧ (InPartialSlot p.2.env → p.2.env.sender ∈ B)
  keys : cache.seen.keys ⊆ allowed
  room : allowed.card ≤ cache.maxEntries

/-- A delivery whose slot is taken is a duplicate; any other gets its slot. -/
theorem Recorded.reserve {deliveries : List Delivery} {allowed : Finset MessageSlotKey}
    {cache : ReplayCache} (hrec : x.Recorded deliveries allowed A B cache)
    (hconf : x.NoConflict deliveries) {p : Delivery} (hp : p ∈ deliveries)
    (hacc : x.Accepts p.2) (hallowed : p.2.env.slotKey ∈ allowed) :
    (reserveReplaySlot p.2.env cache = .error (.sentinel .duplicateMessage) ∧
      (InCommitmentSlot p.2.env → p.2.env.sender ∈ A) ∧
      (InPartialSlot p.2.env → p.2.env.sender ∈ B)) ∨
    reserveReplaySlot p.2.env cache =
      .ok { cache with seen := cache.seen.insert p.2.env.slotKey p.2.env.payloadHash } := by
  obtain ⟨-, -, hprotocol, hsession⟩ := hacc.facts
  cases hlookup : cache.seen.lookup p.2.env.slotKey with
  | some hash =>
    left
    obtain ⟨q, hq, hqacc, hslot, hhash, hA, hB⟩ :=
      hrec.delivered _ _ hlookup hprotocol hsession
    have hpayload : hash = p.2.env.payloadHash := by
      rw [hhash, Envelope.payloadHash, Envelope.payloadHash,
        hconf.agree q hq p hp hqacc hacc hslot]
    have hsame : q.2.env.round = p.2.env.round ∧ q.2.env.payloadType = p.2.env.payloadType ∧
        q.2.env.sender = p.2.env.sender := by
      simp only [Envelope.slotKey, MessageSlotKey.mk.injEq] at hslot
      exact ⟨hslot.2.2.1, hslot.2.2.2.2.2, hslot.2.2.2.1⟩
    obtain ⟨hround, htype, hsender⟩ := hsame
    simp only [InCommitmentSlot, InPartialSlot, hround, htype, hsender] at hA hB ⊢
    refine ⟨?_, hA, hB⟩
    simp only [reserveReplaySlot, ReplayCache.checkAndStore, hlookup, hpayload, if_true]
    rfl
  | none =>
    right
    -- the slot is one of those the cache has room for
    have hnot : p.2.env.slotKey ∉ cache.seen.keys := by
      rw [FMap.mem_keys_iff]
      rintro ⟨hash, habs⟩
      rw [hlookup] at habs
      cases habs
    have hlt : cache.seen.keys.card < allowed.card :=
      Finset.card_lt_card ⟨hrec.keys, fun hsub => hnot (hsub hallowed)⟩
    have hroom : ¬ cache.maxEntries ≤ cache.seen.keys.card := by
      have := hrec.room
      omega
    simp only [reserveReplaySlot, ReplayCache.checkAndStore, hlookup, rejectIf, hroom, if_false,
      ok_bind]
    rfl

/-- The new slot is of a delivery the session has just taken. -/
theorem Recorded.insert {deliveries : List Delivery} {allowed : Finset MessageSlotKey}
    {cache : ReplayCache} (hrec : x.Recorded deliveries allowed A B cache) {A' B' : Finset PartyID}
    (hA : A ⊆ A') (hB : B ⊆ B') {p : Delivery} (hp : p ∈ deliveries) (hacc : x.Accepts p.2)
    (hallowed : p.2.env.slotKey ∈ allowed)
    (hA' : InCommitmentSlot p.2.env → p.2.env.sender ∈ A')
    (hB' : InPartialSlot p.2.env → p.2.env.sender ∈ B') :
    x.Recorded deliveries allowed A' B'
      { cache with seen := cache.seen.insert p.2.env.slotKey p.2.env.payloadHash } where
  delivered := by
    intro slot hash hlookup hprotocol hsession
    rcases FMap.lookup_insert_eq_some.mp hlookup with ⟨rfl, rfl⟩ | ⟨-, hlookup⟩
    · exact ⟨p, hp, hacc, rfl, rfl, hA', hB'⟩
    · obtain ⟨q, hq, hqacc, hslot, hhash, hqA, hqB⟩ :=
        hrec.delivered slot hash hlookup hprotocol hsession
      exact ⟨q, hq, hqacc, hslot, hhash, fun h => hA (hqA h), fun h => hB (hqB h)⟩
  keys := by
    intro slot hslot
    obtain ⟨hash, hlookup⟩ := FMap.mem_keys_iff.mp hslot
    rcases FMap.lookup_insert_eq_some.mp hlookup with ⟨rfl, -⟩ | ⟨-, hlookup⟩
    · exact hallowed
    · exact hrec.keys (FMap.mem_keys_iff.mpr ⟨hash, hlookup⟩)
  room := hrec.room

/-- The session has taken the messages of `A` and `B`, and the cache says so. -/
structure Position (x : Exchange F G) (own : PartialEnvelope F) (sig : Bytes)
    (deliveries : List Delivery) (allowed : Finset MessageSlotKey) (A B : Finset PartyID)
    (h : Hosted (SigningSession F G)) : Prop where
  at_ : At x own sig A B h.session
  senders : x.Senders A B
  recorded : x.Recorded deliveries allowed A B h.cache

/-- What one delivery does: it takes the message it carries, if it gets that far, and the call
that completes the commitments returns the local partial. -/
structure Advances (x : Exchange F G) (own : PartialEnvelope F) (sig : Bytes) (env : Envelope)
    (deliveries : List Delivery) (allowed : Finset MessageSlotKey) (p : Delivery)
    (A B A' B' : Finset PartyID) (r : Except GoError (List Envelope))
    (h' : Hosted (SigningSession F G)) : Prop where
  subset : A ⊆ A'
  part_subset : B ⊆ B'
  position : x.Position own sig deliveries allowed A' B' h'
  output : r.toOption.getD [] = if A ≠ x.all ∧ A' = x.all then [env] else []
  commitment : p.1.check 0 = .ok () → x.Accepts p.2 → InCommitmentSlot p.2.env →
    p.2.env.sender ∈ A'
  part : p.1.check 0 = .ok () → x.Accepts p.2 → InPartialSlot p.2.env → p.2.env.sender ∈ B'

variable {deliveries : List Delivery} {allowed : Finset MessageSlotKey} {sig : Bytes}
  {h : Hosted (SigningSession F G)} {p : Delivery}

/-- A call that fails and leaves everything as it is. -/
theorem Position.stays (hpos : x.Position own sig deliveries allowed A B h) (err : GoError)
    (hcommitment : p.1.check 0 = .ok () → x.Accepts p.2 → InCommitmentSlot p.2.env →
      p.2.env.sender ∈ A)
    (hpart : p.1.check 0 = .ok () → x.Accepts p.2 → InPartialSlot p.2.env → p.2.env.sender ∈ B) :
    x.Advances own sig env deliveries allowed p A B A B (.error err) h where
  subset := subset_rfl
  part_subset := subset_rfl
  position := hpos
  output := by
    rw [if_neg (by simp)]
    rfl
  commitment := hcommitment
  part := hpart

/-- The session is completed, or it runs with what it was started with. -/
theorem At.live_or_done (hat : At x own sig A B s) :
    (s.completed = true ∧ A = x.all ∧ insert x.key.party B = x.all) ∨
    (s.completed = false ∧ s.aborted = false ∧ s.guard = x.guard ∧
      s.sessionID = x.plan.sessionID ∧ s.signers = x.plan.signers ∧ s.key = x.key) := by
  cases hat with
  | gathering => exact .inr ⟨rfl, rfl, rfl, rfl, rfl, rfl⟩
  | answering => exact .inr ⟨rfl, rfl, rfl, rfl, rfl, rfl⟩
  | done s hcommitted hanswered hcompleted => exact .inl ⟨hcompleted, hcommitted, hanswered⟩

/-- A delivery that gets its slot: the message is taken, or refused when it is none of the two
rounds. -/
theorem Position.advances_fresh (hx : x.Valid f δ) (hr : x.Results R rhos own env)
    (hhash : x.plan.planHash.length = 32) (hconf : x.NoConflict deliveries)
    (hpos : x.Position own (x.signatureOf R own) deliveries allowed A B h)
    (hlive : h.session.completed = false) (hp : p ∈ deliveries)
    (hallowed : p.2.env.slotKey ∈ allowed) (hacc : x.Accepts p.2) {cache : ReplayCache}
    (hcache : cache =
      { h.cache with seen := h.cache.seen.insert p.2.env.slotKey p.2.env.payloadHash }) :
    (∃ tx out s' A' B', h.session.build p.2.env = .ok tx ∧
      Proc.exec (apply tx) h.session = (.ok out, s') ∧
      x.Advances own (x.signatureOf R own) env deliveries allowed p A B A' B' (.ok out)
        ⟨s', cache⟩) ∨
    ∃ err, h.session.build p.2.env = .error err ∧
      shouldAbortSession (SessionOps.normalizeDuplicate err) = false ∧
      x.Advances own (x.signatureOf R own) env deliveries allowed p A B A B
        (.error (SessionOps.normalizeDuplicate err)) ⟨h.session, cache⟩ := by
  obtain ⟨hsender, hne, -, -⟩ := hacc.facts
  have hall : p.2.env.sender ∈ x.all := mem_all.mpr hsender
  -- no envelope is in both slots
  have hdisjoint : InCommitmentSlot p.2.env → ¬ InPartialSlot p.2.env := by
    rintro ⟨hround, -⟩ ⟨hround', -⟩
    rw [hround] at hround'
    exact absurd hround' (by decide)
  by_cases hc : InCommitmentSlot p.2.env
  · left
    obtain ⟨tx, s', hbuild, hexec, hat⟩ := takes_commitment hx hr hhash hpos.senders hpos.at_ hlive
      ⟨hsender, hne, hc, hconf.commitment p hp hacc hc⟩
    refine ⟨tx, _, s', insert p.2.env.sender A, B, hbuild, hexec, ?_⟩
    have hsub : A ⊆ insert p.2.env.sender A := Finset.subset_insert _ _
    have hmem : p.2.env.sender ∈ insert p.2.env.sender A := Finset.mem_insert_self _ _
    have hsenders : x.Senders (insert p.2.env.sender A) B :=
      ⟨hsub hpos.senders.self_mem, Finset.insert_subset hall hpos.senders.subset,
        hpos.senders.part_subset, hpos.senders.self_notMem⟩
    have hrec := hpos.recorded.insert hsub subset_rfl hp hacc hallowed (fun _ => hmem)
      (fun habs => absurd habs (hdisjoint hc))
    rw [← hcache] at hrec
    exact ⟨hsub, subset_rfl, ⟨hat, hsenders, hrec⟩, rfl, fun _ _ _ => hmem,
      fun _ _ habs => absurd habs (hdisjoint hc)⟩
  · by_cases hq : InPartialSlot p.2.env
    · left
      obtain ⟨tx, s', hbuild, hexec, hat⟩ := takes_partial hx hr hhash hpos.senders hpos.at_ hlive
        ⟨hsender, hne, hq, hconf.part p hp hacc hq⟩
      refine ⟨tx, _, s', A, insert p.2.env.sender B, hbuild, hexec, ?_⟩
      have hsub : B ⊆ insert p.2.env.sender B := Finset.subset_insert _ _
      have hmem : p.2.env.sender ∈ insert p.2.env.sender B := Finset.mem_insert_self _ _
      have hself : x.key.party ∉ insert p.2.env.sender B := by
        rw [Finset.mem_insert, not_or]
        exact ⟨hne.symm, hpos.senders.self_notMem⟩
      have hsenders : x.Senders A (insert p.2.env.sender B) :=
        ⟨hpos.senders.self_mem, hpos.senders.subset,
          Finset.insert_subset hall hpos.senders.part_subset, hself⟩
      have hrec := hpos.recorded.insert subset_rfl hsub hp hacc hallowed
        (fun habs => absurd habs hc) (fun _ => hmem)
      rw [← hcache] at hrec
      refine ⟨subset_rfl, hsub, ⟨hat, hsenders, hrec⟩, ?_, fun _ _ habs => absurd habs hc,
        fun _ _ _ => hmem⟩
      rw [if_neg (by simp)]
      rfl
    · right
      obtain ⟨err, hbuild, hkeeps⟩ := build_other (s := h.session) hc hq
      refine ⟨err, hbuild, hkeeps, ?_⟩
      have hrec := hpos.recorded.insert subset_rfl subset_rfl hp hacc hallowed
        (fun habs => absurd habs hc) (fun habs => absurd habs hq)
      rw [← hcache] at hrec
      exact Position.stays (h := ⟨h.session, cache⟩) ⟨hpos.at_, hpos.senders, hrec⟩ _ (fun _ _ habs => absurd habs hc)
        (fun _ _ habs => absurd habs hq)

/-- One call keeps the session in its place, or takes it one message further. -/
theorem Position.advances (hx : x.Valid f δ) (hr : x.Results R rhos own env)
    (hhash : x.plan.planHash.length = 32) (hconf : x.NoConflict deliveries)
    (hctx : Uninterrupted deliveries)
    (hpos : x.Position own (x.signatureOf R own) deliveries allowed A B h) (hp : p ∈ deliveries)
    (hallowed : p.2.env.slotKey ∈ allowed) :
    ∃ A' B', x.Advances own (x.signatureOf R own) env deliveries allowed p A B A' B'
      (handle p.1 p.2 h).1 (handle p.1 p.2 h).2 := by
  have hsettle : ∀ err, shouldAbortSession err = false →
      ops.settle (.error err) h.session = h.session := by
    intro err hkeeps
    simp [SessionOps.settle, hkeeps]
  unfold handle SessionOps.handleSessionEnvelope
  cases hcheck : p.1.check 0 with
  | error err =>
    refine ⟨A, B, hpos.stays err ?_ ?_⟩
    · intro habs
      rw [hcheck] at habs
      cases habs
    · intro habs
      rw [hcheck] at habs
      cases habs
  | ok u =>
    have hcheck' : p.1.check 1 = .ok () := hctx p hp hcheck
    rcases hpos.at_.live_or_done with ⟨hdone, hA, hB⟩ | ⟨hlive, hrun, hguard, hsession, hsigners, hkey⟩
    · -- everything has been taken
      have hops : ops.completed h.session = true := hdone
      simp only [hops, if_true]
      refine ⟨A, B, hpos.stays _ ?_ ?_⟩
      · intro _ hacc _
        rw [hA]
        exact mem_all.mpr hacc.facts.1
      · intro _ hacc _
        obtain ⟨hsender, hne, -, -⟩ := hacc.facts
        have hmem : p.2.env.sender ∈ insert x.key.party B := by
          rw [hB]
          exact mem_all.mpr hsender
        exact Finset.mem_of_mem_insert_of_ne hmem hne
    · have hops : ops.completed h.session = false := hlive
      have hops' : ops.aborted h.session = false := hrun
      have hvalidate : ops.validateInbound h.session p.2 h.cache =
          validateInbound x.guard p.2 protocolFROSTEd25519 x.plan.sessionID x.plan.signers
            x.key.party h.cache := by
        show validateInbound h.session.guard p.2 protocolFROSTEd25519 h.session.sessionID
          h.session.signers h.session.key.party h.cache = _
        rw [hguard, hsession, hsigners, hkey]
      simp only [hops, hops', Bool.false_eq_true, if_false, hvalidate, validateInbound]
      have hkeeps := validateInboundWithoutReplay_keeps x.guard p.2 protocolFROSTEd25519
        x.plan.sessionID x.plan.signers x.key.party
      cases hguarded : validateInboundWithoutReplay x.guard p.2 protocolFROSTEd25519
          x.plan.sessionID x.plan.signers x.key.party with
      | error err =>
        -- the guard rejects the delivery
        have hnot : ¬ x.Accepts p.2 := by
          intro hacc
          rw [Accepts, hguarded] at hacc
          cases hacc
        have hkeep : shouldAbortSession (SessionOps.normalizeDuplicate err) = false := by
          unfold SessionOps.normalizeDuplicate
          split
          · rfl
          · exact hkeeps err hguarded
        simp only [error_bind, hsettle _ hkeep]
        exact ⟨A, B, hpos.stays _ (fun _ habs => absurd habs hnot) (fun _ habs => absurd habs hnot)⟩
      | ok u =>
        have hacc : x.Accepts p.2 := hguarded
        simp only [ok_bind]
        rcases hpos.recorded.reserve hconf hp hacc hallowed with ⟨hdup, hA, hB⟩ | hreserve
        · -- the slot is taken
          have hkeep : shouldAbortSession
              (SessionOps.normalizeDuplicate (.sentinel .duplicateMessage)) = false := rfl
          simp only [hdup, hsettle _ hkeep]
          exact ⟨A, B, hpos.stays _ (fun _ _ => hA) (fun _ _ => hB)⟩
        · simp only [hreserve]
          rcases hpos.advances_fresh hx hr hhash hconf hlive hp hallowed hacc rfl with
            ⟨tx, out, s', A', B', hbuild, hexec, hadv⟩ | ⟨err, hbuild, hkeep, hadv⟩
          · have hbuild' : ops.build h.session p.2.env = .ok tx := hbuild
            have hexec' : Proc.exec (ops.apply tx) h.session = (.ok out, s') := hexec
            simp only [hbuild', hcheck', hexec']
            exact ⟨A', B', hadv⟩
          · have hbuild' : ops.build h.session p.2.env = .error err := hbuild
            simp only [hbuild', hsettle _ hkeep]
            exact ⟨A, B, hadv⟩

/-! ### A run -/

/-- The calls of the deliveries. -/
def calls (deliveries : List Delivery) : List Call := deliveries.map fun p => .handle p.1 p.2

/-- A run of deliveries, from any position: what is delivered is taken, and the partial is
returned when the commitments become complete. -/
theorem Position.run (hx : x.Valid f δ) (hr : x.Results R rhos own env)
    (hhash : x.plan.planHash.length = 32) (hconf : x.NoConflict deliveries)
    (hctx : Uninterrupted deliveries)
    (hallowed : ∀ p ∈ deliveries, p.2.env.slotKey ∈ allowed) {rest : List Delivery}
    (hrest : rest ⊆ deliveries)
    (hpos : x.Position own (x.signatureOf R own) deliveries allowed A B h) :
    ∃ A' B', A ⊆ A' ∧ B ⊆ B' ∧
      x.Position own (x.signatureOf R own) deliveries allowed A' B' (Run.final step h (calls rest)) ∧
      emitted h (calls rest) = (if A ≠ x.all ∧ A' = x.all then [env] else []) ∧
      ∀ p ∈ rest, p.1.check 0 = .ok () → x.Accepts p.2 →
        (InCommitmentSlot p.2.env → p.2.env.sender ∈ A') ∧
        (InPartialSlot p.2.env → p.2.env.sender ∈ B') := by
  induction rest generalizing A B h with
  | nil =>
    refine ⟨A, B, subset_rfl, subset_rfl, hpos, ?_, by simp⟩
    rw [if_neg (by simp)]
    rfl
  | cons p rest ih =>
    have hp : p ∈ deliveries := hrest List.mem_cons_self
    obtain ⟨A₁, B₁, hadv⟩ := hpos.advances hx hr hhash hconf hctx hp (hallowed p hp)
    obtain ⟨A₂, B₂, hA, hB, hpos₂, hout, htaken⟩ :=
      ih (fun q hq => hrest (List.mem_cons_of_mem _ hq)) hadv.position
    refine ⟨A₂, B₂, hadv.subset.trans hA, hadv.part_subset.trans hB, hpos₂, ?_, ?_⟩
    · have hsplit : emitted h (calls (p :: rest)) =
          (handle p.1 p.2 h).1.toOption.getD [] ++ emitted (handle p.1 p.2 h).2 (calls rest) := rfl
      rw [hsplit, hadv.output, hout]
      -- the commitments become complete at most once
      have hstays : A₁ = x.all → A₂ = x.all := fun heq =>
        Finset.Subset.antisymm hpos₂.senders.subset (heq ▸ hA)
      have hbefore : A = x.all → A₁ = x.all := fun heq =>
        Finset.Subset.antisymm hadv.position.senders.subset (heq ▸ hadv.subset)
      by_cases h₁ : A₁ = x.all
      · by_cases h₀ : A = x.all
        · simp [h₀, h₁]
        · simp [h₀, h₁, hstays h₁]
      · have h₀ : A ≠ x.all := fun heq => h₁ (hbefore heq)
        simp [h₀, h₁]
    · intro q hq hcheck hacc
      rcases List.mem_cons.mp hq with rfl | hq
      · exact ⟨fun hslot => hA (hadv.commitment hcheck hacc hslot),
          fun hslot => hB (hadv.part hcheck hacc hslot)⟩
      · exact htaken q hq hcheck hacc

/-! ### The start -/

/-- What `StartSign` has checked and where its session stands. -/
theorem startSign_eq_ok (hx : x.Valid f δ) {s₀ : SigningSession F G} {out₀ : List Envelope}
    (hstart : startSign x.key x.plan x.guard x.d x.e = .ok (s₀, out₀)) :
    x.plan.planHash.length = 32 ∧ x.plan.sessionID ≠ zero32 ∧ x.key.party ≠ broadcastPartyId ∧
      ∃ first out, out₀ = first :: out ∧ isPartial first = false ∧
        Proc.exec tryEmitPartial x.start = (.ok out, s₀) := by
  obtain ⟨D, hD, h⟩ := bind_eq_ok.mp hstart
  obtain ⟨E, hE, h⟩ := bind_eq_ok.mp h
  obtain ⟨payload, hpayload, h⟩ := bind_eq_ok.mp h
  obtain ⟨first, hfirst, h⟩ := bind_eq_ok.mp h
  have hcommitment : ({ D, E, planHash := x.plan.planHash } : NonceCommitment G) =
      x.commitment x.key.party := by
    have hDval := (newNonceCommitmentPoint_val hD).trans hx.own_D.symm
    have hEval := (newNonceCommitmentPoint_val hE).trans hx.own_E.symm
    rw [← hx.own_planHash, Subtype.ext hDval, Subtype.ext hEval]
  rw [hcommitment] at h hpayload
  obtain ⟨hhash, -⟩ := seq_eq_ok.mp hpayload
  rw [rejectIf_eq_ok, not_not, hx.own_planHash] at hhash
  have hparts : x.plan.sessionID ≠ zero32 ∧ x.key.party ≠ broadcastPartyId := by
    simp only [newEnvelope, seq_eq_ok, rejectIf_eq_ok] at hfirst
    exact ⟨hfirst.2.2.2.2.2.1, hfirst.2.2.2.2.2.2.1⟩
  refine ⟨hhash, hparts.1, hparts.2, first, ?_⟩
  have htype : isPartial first = false := by
    obtain rfl := newEnvelope_eq_ok hfirst
    show decide (payloadSignCommitment = payloadSignPartial) = false
    decide
  rcases hexec : Proc.exec tryEmitPartial
      (initial x.key x.plan x.guard x.d x.e (x.commitment x.key.party)) with ⟨err | out, s⟩
  · rw [hexec] at h
    cases h
  · rw [hexec] at h
    cases h
    exact ⟨out, rfl, htype, hexec⟩

theorem start_eq : x.start = x.withCommitments {x.key.party} := by
  have hinsert : (∅ : FMap PartyID (NonceCommitment G)).insert x.key.party
      (x.commitment x.key.party) = FMap.ofKeys {x.key.party} x.commitment := by
    rw [← FMap.ofKeys_empty x.commitment, FMap.insert_ofKeys]
    rfl
  rw [withCommitments, ← hinsert]
  rfl

/-- There is a group commitment: another signer's partial was checked against it, or the local
one was computed at the start. -/
theorem Valid.exists_groupCommitment (hx : x.Valid f δ) {out : List Envelope}
    {s₀ : SigningSession F G} (hexec : Proc.exec tryEmitPartial x.start = (.ok out, s₀)) :
    ∃ R rhos, (x.withCommitments x.all).groupCommitment = .ok (R, rhos) := by
  by_cases hone : {x.key.party} = x.all
  · rw [start_eq, hone, exec_tryEmitPartial] at hexec
    have hcard : (x.withCommitments x.all).commitments.keys.card =
        (x.withCommitments x.all).signers.length := by
      show (FMap.ofKeys x.all x.commitment).keys.card = x.plan.signers.length
      rw [FMap.keys_ofKeys, hx.card_all]
    cases hgroup : (x.withCommitments x.all).groupCommitment with
    | ok p => exact ⟨p.1, p.2, rfl⟩
    | error err =>
      have hready : ¬ ((x.withCommitments x.all).partialSent = true ∨
          (x.withCommitments x.all).commitments.keys.card ≠
            (x.withCommitments x.all).signers.length) := by
        rintro (hsent | hne)
        · cases hsent
        · exact hne hcard
      have hround : (x.withCommitments x.all).toSignSession.prepareLocalPartial = .error err := by
        unfold SignSession.prepareLocalPartial
        rw [if_neg hready, hgroup]
        rfl
      have hprepare : (x.withCommitments x.all).prepareLocalPartial = .error err.toGoError := by
        unfold SigningSession.prepareLocalPartial
        rw [hround]
        rfl
      rw [hprepare] at hexec
      cases hexec
  · have hother : ∃ id ∈ x.all, id ≠ x.key.party := by
      by_contra hnone
      push Not at hnone
      apply hone
      ext id
      rw [Finset.mem_singleton]
      constructor
      · rintro rfl
        exact mem_all.mpr hx.self_mem
      · exact hnone id
    obtain ⟨id, hid, hne⟩ := hother
    obtain ⟨R, rhos, hgroup, -⟩ :=
      passes_of_verifyAcceptedPartial (hx.verified id (mem_all.mp hid) hne)
    exact ⟨R, rhos, hgroup⟩

/-- The session starts with its own commitment, and with its own partial when it signs alone. -/
theorem at_start (hx : x.Valid f δ) (hr : x.Results R rhos own env) {out : List Envelope}
    {s₀ : SigningSession F G} (hexec : Proc.exec tryEmitPartial x.start = (.ok out, s₀)) :
    At x own (x.signatureOf R own) {x.key.party} ∅ s₀ ∧
      out = if {x.key.party} = x.all then [env] else [] := by
  have hself : {x.key.party} ⊆ x.all := Finset.singleton_subset_iff.mpr (mem_all.mpr hx.self_mem)
  by_cases hone : {x.key.party} = x.all
  · have hB : insert x.key.party ∅ ⊆ x.all := hself
    obtain ⟨s, hemit, hat, -⟩ :=
      exec_tryEmitPartial_promoted hx hr hB (Finset.notMem_empty _) ∅ ∅
    have hpromoted : x.promoted ∅ ∅ ∅ = x.start := by
      rw [start_eq, hone, promoted, FMap.ofKeys_empty]
      rfl
    rw [hpromoted, hexec] at hemit
    cases hemit
    rw [if_pos hone, hone]
    exact ⟨hat, rfl⟩
  · have hcard : x.start.commitments.keys.card ≠ x.start.signers.length := by
      rw [start_eq]
      exact hx.card_ofKeys_ne hself hone x.commitment
    rw [exec_tryEmitPartial_missing hcard] at hexec
    cases hexec
    rw [if_neg hone]
    refine ⟨?_, rfl⟩
    have hstate : x.start = x.gathered {x.key.party} ∅ ∅ := by
      rw [start_eq, gathered, FMap.ofKeys_empty]
      rfl
    rw [hstate]
    exact .gathering ∅ (fun id hid => absurd hid (Finset.notMem_empty _)) hone

/-- Whatever the order in which the messages arrive, and however often: when no call is interrupted
after its replay slot is reserved, the session completes with the same signature and has sent the
same partial once. -/
theorem signing_order_independent (hx : x.Valid f δ) {s₀ : SigningSession F G}
    {out₀ : List Envelope}
    (hstart : startSign x.key x.plan x.guard x.d x.e = .ok (s₀, out₀)) :
    ∃ sig partialEnv, ∀ (deliveries : List Delivery) (cache : ReplayCache),
      x.NoConflict deliveries → x.DeliversAll deliveries → x.FreshCache deliveries cache →
      Uninterrupted deliveries →
      let final := Run.final step ⟨s₀, cache⟩ (calls deliveries)
      final.session.completed = true ∧ final.session.signature = sig ∧
        (out₀ ++ emitted ⟨s₀, cache⟩ (calls deliveries)).filter isPartial = [partialEnv] := by
  obtain ⟨hhash, hsession, hparty, first, out, rfl, hfirst, hexec⟩ := startSign_eq_ok hx hstart
  obtain ⟨R, rhos, hgroup⟩ := hx.exists_groupCommitment hexec
  obtain ⟨own, env, hr, htype⟩ := hx.results hhash hsession hparty hgroup
  obtain ⟨hat, hout⟩ := at_start hx hr hexec
  refine ⟨x.signatureOf R own, env, ?_⟩
  intro deliveries cache hconf hall hfresh hctx
  have hself : x.key.party ∈ x.all := mem_all.mpr hx.self_mem
  have hsenders : x.Senders {x.key.party} ∅ :=
    ⟨Finset.mem_singleton_self _, Finset.singleton_subset_iff.mpr hself, Finset.empty_subset _,
      Finset.notMem_empty _⟩
  have hpos : x.Position own (x.signatureOf R own) deliveries
      (cache.seen.keys ∪ (deliveries.map fun p => p.2.env.slotKey).toFinset) {x.key.party} ∅
      ⟨s₀, cache⟩ := by
    refine ⟨hat, hsenders, ?_, Finset.subset_union_left, hfresh.room⟩
    intro slot hash hlookup hprotocol hsession'
    have hmem : slot ∈ cache.seen := Finmap.mem_iff.mpr ⟨hash, hlookup⟩
    exact absurd ⟨hprotocol, hsession'⟩ (hfresh.unseen slot hmem)
  have hallowed : ∀ p ∈ deliveries, p.2.env.slotKey ∈
      cache.seen.keys ∪ (deliveries.map fun p => p.2.env.slotKey).toFinset := by
    intro p hp
    apply Finset.mem_union_right
    exact List.mem_toFinset.mpr (List.mem_map.mpr ⟨p, hp, rfl⟩)
  obtain ⟨A, B, hA, -, hpos', hemitted, htaken⟩ := hpos.run hx hr hhash hconf hctx hallowed
    (List.Subset.refl deliveries)
  -- every message has been taken
  have hcommitted : A = x.all := by
    apply Finset.Subset.antisymm hpos'.senders.subset
    intro id hid
    by_cases hne : id = x.key.party
    · rw [hne]
      exact hpos'.senders.self_mem
    · obtain ⟨⟨p, hp, hcheck, hacc, rfl, hslot⟩, -⟩ := hall id (mem_all.mp hid) hne
      exact (htaken p hp hcheck hacc).1 hslot
  have hanswered : insert x.key.party B = x.all := by
    apply Finset.Subset.antisymm (Finset.insert_subset hself hpos'.senders.part_subset)
    intro id hid
    by_cases hne : id = x.key.party
    · rw [hne]
      exact Finset.mem_insert_self _ _
    · obtain ⟨-, p, hp, hcheck, hacc, rfl, hslot⟩ := hall id (mem_all.mp hid) hne
      exact Finset.mem_insert_of_mem ((htaken p hp hcheck hacc).2 hslot)
  have hdone : (Run.final step ⟨s₀, cache⟩ (calls deliveries)).session.completed = true ∧
      (Run.final step ⟨s₀, cache⟩ (calls deliveries)).session.signature = x.signatureOf R own := by
    generalize Run.final step ⟨s₀, cache⟩ (calls deliveries) = last at hpos'
    have hlast := hpos'.at_
    generalize last.session = t at hlast
    cases hlast with
    | gathering _ _ hmissing => exact absurd hcommitted hmissing
    | answering _ _ _ hmissing => exact absurd hanswered hmissing
    | done s _ _ hcompleted hsignature => exact ⟨hcompleted, hsignature⟩
  refine ⟨hdone.1, hdone.2, ?_⟩
  rw [hemitted, hout, List.cons_append, List.filter_cons_of_neg (by simp [hfirst])]
  by_cases hone : {x.key.party} = x.all
  · simp [hone, htype]
  · simp [hone, hcommitted, htype]

end Rounds

end Order

/-! ## Two signers -/

section Pair

/-- A guard of party 1 with a broadcast policy for each round. -/
def pairGuard : EnvelopeGuard where
  self := 1
  protocol := protocolFROSTEd25519
  sessionID := Vector.replicate 32 1
  policies :=
    [⟨protocolFROSTEd25519, 1, payloadSignCommitment, .broadcast, .optional, .none, false⟩,
      ⟨protocolFROSTEd25519, 2, payloadSignPartial, .broadcast, .optional, .none, false⟩]
  ackVerifier := some fun _ _ _ => none
  envelopeVerifier := none

/-- Party 1 of the sample key signs with party 2. -/
def pair : Exchange SampleField SampleField :=
  letI := sampleCurve
  let commitment (id : PartyID) := sampleCommitment id (List.replicate 32 0)
  { key := sampleKey 1 (9 : ℕ)
    plan := samplePlan
    guard := pairGuard
    d := (2 : ℕ)
    e := (7 : ℕ)
    commitmentPayload := fun id => (commitment id).marshal.toOption.getD []
    partialPayload := fun _ =>
      (SignPartialPayload.marshal SampleField ⟨89767498123, List.replicate 32 0⟩).toOption.getD []
    commitment := commitment
    part := fun _ => 89767498123 }

/-- A message of party 2. -/
def peerMessage (round : UInt8) (payloadType : GoString) (payload : Bytes) : InboundEnvelope where
  env := ⟨protocolFROSTEd25519, Vector.replicate 32 1, round, 2, 0, payloadType, payload, []⟩
  receiveInfo := ⟨2, .plaintext⟩
  broadcast := none

def peerCommitment : InboundEnvelope :=
  peerMessage 1 payloadSignCommitment (pair.commitmentPayload 2)

def peerPartial : InboundEnvelope := peerMessage 2 payloadSignPartial (pair.partialPayload 2)

/-- A context that becomes done between the two checks of a call. -/
def lateContext : HandlerContext := ⟨false, some 1, .canceled⟩

theorem pair_peer : ∀ id ∈ pair.plan.signers, id ≠ pair.key.party → id = 2 := by
  intro id hid hne
  have hsigners : pair.plan.signers = [1, 2] := rfl
  rw [hsigners] at hid
  rcases List.mem_cons.mp hid with rfl | hid
  · exact absurd rfl hne
  · exact List.mem_singleton.mp hid

theorem pair_valid :
    letI := sampleCurve
    letI := sampleSha512
    pair.Valid (scalarPolynomial [5, 4]) 3 := by
  let := sampleCurve
  let := sampleSha512
  have hsigns := @sampleSession_signs 1 9 (by decide +kernel) 2 7
  refine ⟨⟨hsigns.deals, hsigns.signers_nodup, hsigns.signers_mem, hsigns.threshold_le,
    hsigns.signers_ne_nil, hsigns.shift_eq, hsigns.verifyKey⟩, by decide, by decide +kernel,
    by decide +kernel, rfl, ?_, ?_, ?_⟩
  · intro id hid hne
    obtain rfl := pair_peer id hid hne
    exact ⟨by decide +kernel, rfl⟩
  · intro id hid hne
    obtain rfl := pair_peer id hid hne
    decide +kernel
  · intro id hid hne
    obtain rfl := pair_peer id hid hne
    decide +kernel

/-- Deliveries of the two messages of party 2 do not conflict, however often they come. -/
theorem pair_noConflict [Sha256] {deliveries : List Delivery}
    (h : ∀ p ∈ deliveries, p.2 = peerCommitment ∨ p.2 = peerPartial) :
    pair.NoConflict deliveries := by
  have hcommitment : ¬ InPartialSlot peerCommitment.env := fun habs => absurd habs.1 (by decide)
  have hanswer : ¬ InCommitmentSlot peerPartial.env := fun habs => absurd habs.1 (by decide)
  have hslots : peerCommitment.env.slotKey ≠ peerPartial.env.slotKey := fun habs =>
    absurd (congrArg MessageSlotKey.round habs) (by decide)
  constructor
  · intro p hp _ hslot
    rcases h p hp with heq | heq <;> rw [heq] at hslot ⊢
    · rfl
    · exact absurd hslot hanswer
  · intro p hp _ hslot
    rcases h p hp with heq | heq <;> rw [heq] at hslot ⊢
    · exact absurd hslot hcommitment
    · rfl
  · intro p hp q hq _ _ hslot
    rcases h p hp with heq | heq <;> rcases h q hq with heq' | heq' <;>
      rw [heq, heq'] at hslot ⊢
    · exact absurd hslot hslots
    · exact absurd hslot.symm hslots

theorem pair_deliversAll [Sha256] {deliveries : List Delivery}
    (haccepts : pair.Accepts peerCommitment ∧ pair.Accepts peerPartial)
    (hcommitment : (HandlerContext.background, peerCommitment) ∈ deliveries)
    (hanswer : (HandlerContext.background, peerPartial) ∈ deliveries) :
    pair.DeliversAll deliveries := by
  intro id hid hne
  obtain rfl := pair_peer id hid hne
  exact ⟨⟨_, hcommitment, rfl, haccepts.1, rfl, rfl, rfl⟩,
    ⟨_, hanswer, rfl, haccepts.2, rfl, rfl, rfl⟩⟩

theorem pair_freshCache [Sha256] {deliveries : List Delivery} (h : deliveries.length ≤ 8) :
    pair.FreshCache deliveries ⟨∅, 8⟩ := by
  constructor
  · intro slot hslot
    exact absurd hslot (Finmap.notMem_empty)
  · have hempty : (∅ : FMap MessageSlotKey Array32).keys = ∅ := rfl
    rw [hempty, Finset.empty_union]
    calc (deliveries.map fun p => p.2.env.slotKey).toFinset.card
        ≤ (deliveries.map fun p => p.2.env.slotKey).length := List.toFinset_card_le _
      _ = deliveries.length := List.length_map _
      _ ≤ 8 := h

theorem pair_accepts :
    letI := Sha256.firstBytes
    pair.Accepts peerCommitment ∧ pair.Accepts peerPartial := by
  unfold Accepts
  decide +kernel

/-- The messages of the peer, the partial first and the commitment twice. -/
def partialFirst : List Delivery :=
  [(.background, peerPartial), (.background, peerCommitment), (.background, peerCommitment)]

def commitmentFirst : List Delivery :=
  [(.background, peerCommitment), (.background, peerPartial)]

theorem signing_order_independent_pair :
    letI := sampleCurve
    letI := sampleSha512
    letI := Sha256.firstBytes
    ∃ s₀ out₀, startSign pair.key pair.plan pair.guard pair.d pair.e = .ok (s₀, out₀) ∧
      (Run.final step ⟨s₀, ⟨∅, 8⟩⟩ (calls partialFirst)).session.completed = true ∧
      (Run.final step ⟨s₀, ⟨∅, 8⟩⟩ (calls partialFirst)).session.signature =
        (Run.final step ⟨s₀, ⟨∅, 8⟩⟩ (calls commitmentFirst)).session.signature := by
  let := sampleCurve
  let := sampleSha512
  let := Sha256.firstBytes
  have hok : (startSign pair.key pair.plan pair.guard pair.d pair.e).isOk = true := by
    decide +kernel
  rcases hstart : startSign pair.key pair.plan pair.guard pair.d pair.e with err | ⟨s₀, out₀⟩
  · rw [hstart] at hok
    cases hok
  · obtain ⟨sig, env, hrun⟩ := signing_order_independent pair_valid hstart
    have hfirst := hrun partialFirst ⟨∅, 8⟩ (pair_noConflict (by simp [partialFirst]))
      (pair_deliversAll pair_accepts (by simp [partialFirst]) (by simp [partialFirst]))
      (pair_freshCache (by decide)) (by simp [partialFirst, Uninterrupted, HandlerContext.check,
        HandlerContext.background, seq_eq_ok])
    have hsecond := hrun commitmentFirst ⟨∅, 8⟩ (pair_noConflict (by simp [commitmentFirst]))
      (pair_deliversAll pair_accepts (by simp [commitmentFirst]) (by simp [commitmentFirst]))
      (pair_freshCache (by decide)) (by simp [commitmentFirst, Uninterrupted, HandlerContext.check,
        HandlerContext.background, seq_eq_ok])
    exact ⟨s₀, out₀, rfl, hfirst.1, hfirst.2.1.trans hsecond.2.1.symm⟩

/-- A commitment whose call is interrupted after its slot is reserved, and then comes again. -/
def interruptedFirst : List Delivery :=
  [(lateContext, peerCommitment), (.background, peerCommitment), (.background, peerPartial)]

/-- The interrupted message is lost: its redelivery is a duplicate, and the session never
completes, with every message delivered and none in conflict. -/
theorem interrupted_message_lost :
    letI := sampleCurve
    letI := sampleSha512
    letI := Sha256.firstBytes
    pair.Valid (scalarPolynomial [5, 4]) 3 ∧ pair.NoConflict interruptedFirst ∧
      pair.DeliversAll interruptedFirst ∧ pair.FreshCache interruptedFirst ⟨∅, 8⟩ ∧
      ∃ s₀ out₀, startSign pair.key pair.plan pair.guard pair.d pair.e = .ok (s₀, out₀) ∧
        (Run.final step ⟨s₀, ⟨∅, 8⟩⟩ (calls interruptedFirst)).session.completed = false ∧
        Run.outputs step ⟨s₀, ⟨∅, 8⟩⟩ (calls interruptedFirst) =
          [.error (.sentinel .canceled), .error (.sentinel .duplicateMessage), .ok []] := by
  let := sampleCurve
  let := sampleSha512
  let := Sha256.firstBytes
  refine ⟨pair_valid, pair_noConflict (by simp [interruptedFirst]),
    pair_deliversAll pair_accepts (by simp [interruptedFirst]) (by simp [interruptedFirst]),
    pair_freshCache (by decide), ?_⟩
  have hrun : ((startSign pair.key pair.plan pair.guard pair.d pair.e).toOption.map fun r =>
      ((Run.final step ⟨r.1, ⟨∅, 8⟩⟩ (calls interruptedFirst)).session.completed,
        Run.outputs step ⟨r.1, ⟨∅, 8⟩⟩ (calls interruptedFirst))) =
      some (false, [.error (.sentinel .canceled), .error (.sentinel .duplicateMessage),
        .ok []]) := by
    decide +kernel
  rcases hstart : startSign pair.key pair.plan pair.guard pair.d pair.e with err | ⟨s₀, out₀⟩
  · rw [hstart] at hrun
    cases hrun
  · rw [hstart] at hrun
    obtain ⟨hcompleted, houtputs⟩ := Prod.mk.inj (Option.some.inj hrun)
    exact ⟨s₀, out₀, rfl, hcompleted, houtputs⟩

end Pair

end Exchange

end Tss.Frost.SigningSession
