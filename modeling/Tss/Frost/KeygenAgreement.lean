import Tss.Frost.KeygenMoves

/-!
# Agreement of key generation

Two sessions of one plan that complete hold the same key, whatever the other
parties sent to each of them, once one has accepted the other's confirmation.
The confirmation carries a hash of the transcript, which binds the
commitments and the proofs of all dealers. It does not bind the reveals of
the chain code one by one: that two sessions hold the same chain-code
commitment of a dealer follows from the dealer's proof, whose domain it is
part of. Shares with the same group commitments recombine to one secret
(`exposed_quorums_recombine`).
-/

set_option linter.unusedSectionVars false

namespace Tss.Frost

open Edwards25519 Fallible Wire

variable {F G : Type} [Field F] [DecidableEq F] [AddCommGroup G] [DecidableEq G] [Module F G]
  [Edwards25519 F G]

section Agreement

variable [Sha256]

/-! ## What the transcripts bind -/

theorem pointBytes_injective : Function.Injective (pointBytes (G := G)) := by
  intro P Q h
  have hread := congrArg (pointFromBytes (G := G)) h
  rwa [pointFromBytes_pointBytes, pointFromBytes_pointBytes, Option.some.injEq] at hread

theorem encodeBytesList_points_lt {points : List G} (h : points.length ≤ maxRecordCount) :
    (Transcript.encodeBytesList (points.map pointBytes)).length < 2 ^ 32 := by
  have hlength : (Transcript.encodeBytesList (points.map pointBytes)).length =
      4 + points.length * 36 := by
    rw [Transcript.encodeBytesList, List.length_append, List.flatMap_map, List.length_flatMap]
    simp [be32, length_pointBytes]
  rw [hlength]
  simp only [maxRecordCount] at h
  omega

/-- A list of points is read back from its encoding in a transcript. -/
theorem encodeBytesList_points_inj {points points' : List G}
    (hcount : points.length ≤ maxRecordCount) (hcount' : points'.length ≤ maxRecordCount)
    (h : Transcript.encodeBytesList (points.map pointBytes) =
      Transcript.encodeBytesList (points'.map pointBytes)) : points = points' :=
  List.map_injective_iff.mpr pointBytes_injective (Transcript.encodeBytesList_cut_inj
    (encodeBytesList_points_lt hcount) (encodeBytesList_points_lt hcount') h)

theorem chainCodeTranscript_inj {sessionID : Array32} {party : PartyID} {v v' : Bytes}
    (hv : v.length = chainCodeSize) (hv' : v'.length = chainCodeSize)
    (h : (chainCodeTranscript sessionID party v).written =
      (chainCodeTranscript sessionID party v').written) : v = v' :=
  Transcript.Builder.append_inj (by rw [hv]; decide) (by rw [hv']; decide) h

theorem keygenProofTranscript_inj {cfg : ThresholdConfig} {planHash : Bytes} {dealer : PartyID}
    {commitments : List G} {v v' : Bytes} (hv : v.length = sha256Size)
    (hv' : v'.length = sha256Size)
    (h : (keygenProofTranscript cfg planHash dealer commitments v).written =
      (keygenProofTranscript cfg planHash dealer commitments v').written) : v = v' :=
  Transcript.Builder.append_inj (by rw [hv]; decide) (by rw [hv']; decide) h

theorem schnorrTranscript_inj {domain domain' publicKey commitment : Bytes}
    (hdomain : domain.length = sha256Size) (hdomain' : domain'.length = sha256Size)
    (h : (schnorrTranscript domain publicKey commitment).written =
      (schnorrTranscript domain' publicKey commitment).written) : domain = domain' := by
  simp only [schnorrTranscript, Transcript.Builder.appendBytes,
    Transcript.Builder.written_append, List.append_assoc] at h
  exact (Transcript.entry_append_inj (by rw [hdomain]; decide) (by rw [hdomain']; decide)
    (List.append_cancel_left h)).1

/-- The entries of one dealer as they are written. -/
def dealerEntries (dealer : PartyID × List Bytes × Bytes) : Bytes :=
  Transcript.entry (lit "dealer") (be32 dealer.1.toNat) ++
    (Transcript.entry (lit "dealer_commitments") (Transcript.encodeBytesList dealer.2.1) ++
      Transcript.entry (lit "dealer_constant_proof") dealer.2.2)

theorem written_foldl_appendDealer (dealers : List (PartyID × List Bytes × Bytes))
    (t : Transcript.Builder) :
    (dealers.foldl appendDealer t).written = t.written ++ dealers.flatMap dealerEntries := by
  induction dealers generalizing t with
  | nil => simp
  | cons dealer dealers ih =>
    rw [List.foldl_cons, ih, List.flatMap_cons]
    simp only [appendDealer, dealerEntries, Transcript.Builder.appendUint32,
      Transcript.Builder.appendBytesList, Transcript.Builder.appendBytes,
      Transcript.Builder.written_append, List.append_assoc]

/-- The entries of one verification share as they are written. -/
def verificationShareEntries (share : PartyID × SemanticPoint G) : Bytes :=
  Transcript.entry (lit "verification_share_party") (be32 share.1.toNat) ++
    Transcript.entry (lit "verification_share_public_key") (pointBytes share.2.val)

theorem written_foldl_appendVerificationShare (shares : List (PartyID × SemanticPoint G))
    (t : Transcript.Builder) :
    (shares.foldl appendVerificationShare t).written =
      t.written ++ shares.flatMap verificationShareEntries := by
  induction shares generalizing t with
  | nil => simp
  | cons share shares ih =>
    rw [List.foldl_cons, ih, List.flatMap_cons]
    simp only [appendVerificationShare, verificationShareEntries,
      Transcript.Builder.appendUint32, Transcript.Builder.appendBytes,
      Transcript.Builder.written_append, List.append_assoc]

/-- The fields of a dealer's entry that fit the transcript. -/
structure DealerFits (dealer : PartyID × List G × Bytes) : Prop where
  commitments : dealer.2.1.length ≤ maxRecordCount
  proof : dealer.2.2.length < 2 ^ 32

/-- A dealer with its commitments encoded. -/
def encodeDealer (dealer : PartyID × List G × Bytes) : PartyID × List Bytes × Bytes :=
  (dealer.1, dealer.2.1.map pointBytes, dealer.2.2)

theorem dealerEntries_append_inj {d d' : PartyID × List G × Bytes} {rest rest' : Bytes}
    (hd : DealerFits d) (hd' : DealerFits d')
    (h : dealerEntries (encodeDealer d) ++ rest = dealerEntries (encodeDealer d') ++ rest') :
    d = d' ∧ rest = rest' := by
  obtain ⟨id, commitments, proof⟩ := d
  obtain ⟨id', commitments', proof'⟩ := d'
  simp only [dealerEntries, encodeDealer, List.append_assoc] at h
  have hfour : ∀ n, (be32 n).length < 2 ^ 32 := fun _ => by simp [be32]
  obtain ⟨hid, h⟩ := Transcript.entry_append_inj (hfour _) (hfour _) h
  obtain ⟨hcommitments, h⟩ := Transcript.entry_append_inj
    (encodeBytesList_points_lt hd.commitments) (encodeBytesList_points_lt hd'.commitments) h
  obtain ⟨rfl, hrest⟩ := Transcript.entry_append_inj hd.proof hd'.proof h
  obtain rfl := encodeBytesList_points_inj hd.commitments hd'.commitments hcommitments
  obtain rfl := UInt32.toNat_inj.mp (be32_inj id.toNat_lt id'.toNat_lt hid)
  exact ⟨rfl, hrest⟩

theorem dealers_append_inj {ds ds' : List (PartyID × List G × Bytes)} {rest rest' : Bytes}
    (hlength : ds.length = ds'.length) (hds : ∀ d ∈ ds, DealerFits d)
    (hds' : ∀ d ∈ ds', DealerFits d)
    (h : (ds.map encodeDealer).flatMap dealerEntries ++ rest =
      (ds'.map encodeDealer).flatMap dealerEntries ++ rest') : ds = ds' ∧ rest = rest' := by
  induction ds generalizing ds' with
  | nil =>
    obtain rfl := List.length_eq_zero_iff.mp hlength.symm
    exact ⟨rfl, h⟩
  | cons d ds ih =>
    cases ds' with
    | nil => simp at hlength
    | cons d' ds' =>
      obtain ⟨hd, hfits⟩ := List.forall_mem_cons.mp hds
      obtain ⟨hd', hfits'⟩ := List.forall_mem_cons.mp hds'
      simp only [List.map_cons, List.flatMap_cons, List.append_assoc] at h
      obtain ⟨rfl, htail⟩ := dealerEntries_append_inj hd hd' h
      obtain ⟨rfl, hrest⟩ := ih (by simpa using hlength) hfits hfits' htail
      exact ⟨rfl, hrest⟩

/-- The keygen transcript binds the dealers and the group commitments. -/
theorem keygenTranscript_inj {cfg : ThresholdConfig} {planHash aggregate aggregate' : Bytes}
    {ds ds' : List (PartyID × List G × Bytes)} {group group' : List G}
    {shares shares' : List (PartyID × SemanticPoint G)}
    (hplan : planHash.length < 2 ^ 32) (haggregate : aggregate.length < 2 ^ 32)
    (haggregate' : aggregate'.length < 2 ^ 32)
    (hlength : ds.length = ds'.length) (hds : ∀ d ∈ ds, DealerFits d)
    (hds' : ∀ d ∈ ds', DealerFits d) (hgroup : group.length ≤ maxRecordCount)
    (hgroup' : group'.length ≤ maxRecordCount)
    (h : (keygenTranscript cfg aggregate planHash (ds.map encodeDealer) group shares).written =
      (keygenTranscript cfg aggregate' planHash (ds'.map encodeDealer) group' shares').written) :
    ds = ds' ∧ group = group' := by
  simp only [keygenTranscript, written_foldl_appendVerificationShare,
    Transcript.Builder.appendBytesList, Transcript.Builder.written_append,
    written_foldl_appendDealer, Transcript.Builder.appendBytes, List.append_assoc] at h
  obtain ⟨-, h⟩ := Transcript.entry_append_inj haggregate haggregate' (List.append_cancel_left h)
  obtain ⟨-, h⟩ := Transcript.entry_append_inj hplan hplan h
  obtain ⟨hdealers, h⟩ := dealers_append_inj hlength hds hds' h
  obtain ⟨hpoints, -⟩ := Transcript.entry_append_inj (encodeBytesList_points_lt hgroup)
    (encodeBytesList_points_lt hgroup') h
  exact ⟨hdealers, encodeBytesList_points_inj hgroup hgroup' hpoints⟩

/-! ## What a session holds of its dealers -/

namespace KeygenSession

/-- The dealing that was accepted from a party. -/
def dealing (s : KeygenSession F G) (id : PartyID) : Option (Dealing G) :=
  (s.round1.lookup id).bind Round1Slot.dealing

/-- The dealings of the parties, in their order. -/
def dealings (s : KeygenSession F G) : List (PartyID × Dealing G) :=
  s.cfg.parties.filterMap fun id => (s.dealing id).map fun d => (id, d)

/-- What the keygen transcript has of a dealer. -/
def dealerOf (p : PartyID × Dealing G) : PartyID × List G × Bytes :=
  (p.1, p.2.commitments, (p.2.proof.marshal G).toOption.getD [])

/-- The transcript of a session with these group commitments. -/
def finalTranscript (s : KeygenSession F G) (group : List G) : Transcript.Builder :=
  keygenTranscript s.cfg
    ((aggregateChainCode s.cfg.parties
      (partyDataOf (s.dealings.map fun p => (p.1, p.2.chainCodeCommit)))).toOption.getD [])
    s.planHash ((s.dealings.map dealerOf).map encodeDealer) group
    ((deriveFROSTVerificationShares (F := F) s.cfg.parties group).toOption.getD [])

variable {s t : KeygenSession F G} {os : List Envelope}

theorem Move.fixed (h : Move s os t) :
    t.cfg = s.cfg ∧ t.planHash = s.planHash ∧ t.limits = s.limits := by
  cases h with
  | abort =>
    unfold KeygenSession.abort
    split <;> exact ⟨rfl, rfl, rfl⟩
  | _ => exact ⟨rfl, rfl, rfl⟩

theorem dealing_destroySecrets (s : KeygenSession F G) (id : PartyID) :
    ((destroySecrets s.round1).lookup id).bind Round1Slot.dealing = s.dealing id := by
  rw [destroySecrets, FMap.lookup_mapVals, dealing]
  cases s.round1.lookup id <;> rfl

/-- An accepted dealing stays. -/
theorem Move.dealing_mono (h : Move s os t) {id : PartyID} {d : Dealing G}
    (hd : s.dealing id = some d) : t.dealing id = some d := by
  cases h with
  | @deal sender slot d' _ hslot hnone =>
    have hne : id ≠ sender := by
      rintro rfl
      rw [dealing, hslot, Option.bind_some, hnone] at hd
      cases hd
    rw [dealing, FMap.lookup_insert_ite, if_neg hne]
    exact hd
  | @share sender slot _ _ hslot =>
    rw [dealing, FMap.lookup_insert_ite]
    split
    · next heq =>
      rw [dealing, heq, hslot] at hd
      exact hd
    · exact hd
  | prepare => exact (dealing_destroySecrets s id).trans hd
  | abort =>
    unfold KeygenSession.abort
    split
    · exact hd
    · exact (dealing_destroySecrets s id).trans hd
  | _ => exact hd

/-- Every party has dealt, and its proof can be written. -/
def AllDealt (s : KeygenSession F G) : Prop :=
  ∀ id ∈ s.cfg.parties, ∃ d raw, s.dealing id = some d ∧ d.proof.marshal G = .ok raw

theorem Move.allDealt (h : Move s os t) (hs : s.AllDealt) : t.AllDealt := by
  intro id hid
  rw [h.fixed.1] at hid
  obtain ⟨d, raw, hd, hraw⟩ := hs id hid
  exact ⟨d, raw, h.dealing_mono hd, hraw⟩

theorem Move.finalTranscript (h : Move s os t) (hs : s.AllDealt) (group : List G) :
    t.finalTranscript group = s.finalTranscript group := by
  obtain ⟨hcfg, hplan, -⟩ := h.fixed
  have hdealings : t.dealings = s.dealings := by
    rw [dealings, dealings, hcfg]
    refine List.filterMap_congr fun id hid => ?_
    obtain ⟨d, -, hd, -⟩ := hs id hid
    rw [hd, h.dealing_mono hd]
  rw [KeygenSession.finalTranscript, KeygenSession.finalTranscript, hdealings, hcfg, hplan]

theorem round1Snapshot_dealings {ids : PartySet} {snap : List (SnapshotEntry F G)}
    (h : s.round1Snapshot ids = .ok (some snap)) :
    (ids.filterMap fun id => (s.dealing id).map fun d => (id, d)) =
      snap.map (fun entry => (entry.party, entry.dealing)) ∧
    snap.map SnapshotEntry.party = ids := by
  induction ids generalizing snap with
  | nil =>
    cases h
    exact ⟨rfl, rfl⟩
  | cons id ids ih =>
    unfold round1Snapshot at h
    split at h
    · cases h
    · next d share hslot =>
      obtain ⟨rest, hrest, h⟩ := bind_eq_ok.mp h
      cases rest with
      | none => cases h
      | some rest =>
        cases h
        obtain ⟨hdealings, hparties⟩ := ih hrest
        have hd : s.dealing id = some d := by rw [dealing, hslot, Option.bind_some]
        constructor
        · rw [List.filterMap_cons, hd, hdealings]
          rfl
        · rw [List.map_cons, hparties]
    · cases h

/-- The hash of a prepared share is that of the transcript. -/
theorem buildTranscriptHash_eq_ok {snap : List (SnapshotEntry F G)} {group : List G}
    {shares : List (PartyID × SemanticPoint G)} {hash : Bytes}
    (hsnap : s.round1Snapshot s.cfg.parties = .ok (some snap))
    (hshares : deriveFROSTVerificationShares (F := F) s.cfg.parties group = .ok shares)
    (h : s.buildTranscriptHash snap group shares = .ok hash) :
    hash = (s.finalTranscript group).sum ∧ s.AllDealt := by
  obtain ⟨hdealings, hparties⟩ := round1Snapshot_dealings hsnap
  obtain ⟨dealers, hdealers, h⟩ := bind_eq_ok.mp h
  obtain ⟨aggregate, haggregate, h⟩ := bind_eq_ok.mp h
  cases h
  have hdealer : ∀ (entry : SnapshotEntry F G) dealer,
      (do let proof ← (entry.dealing.proof.marshal G).mapError
            (.wrap "marshal keygen constant-term proof: %w" [])
          pure (entry.party, entry.dealing.commitments.map pointBytes, proof) :
        Except GoError (PartyID × List Bytes × Bytes)) = .ok dealer →
      dealer = encodeDealer (dealerOf (entry.party, entry.dealing)) := by
    intro entry dealer hdealer
    obtain ⟨proof, hproof, hdealer⟩ := bind_eq_ok.mp hdealer
    rw [mapError_eq_ok] at hproof
    cases hdealer
    simp [encodeDealer, dealerOf, hproof, Except.toOption]
  have hmarshal := mapM_ok_mem hdealers
  obtain ⟨-, rfl⟩ := (mapM_eq_ok _ hdealer).mp hdealers
  constructor
  · have hlist : s.dealings = snap.map fun entry => (entry.party, entry.dealing) := hdealings
    rw [finalTranscript, hlist, hshares]
    simp only [List.map_map]
    rw [show (fun p : PartyID × Dealing G => (p.1, p.2.chainCodeCommit)) ∘
        (fun entry : SnapshotEntry F G => (entry.party, entry.dealing)) =
      fun entry => (entry.party, entry.dealing.chainCodeCommit) from rfl, haggregate]
    rfl
  · intro id hid
    rw [← hparties] at hid
    obtain ⟨entry, hentry, rfl⟩ := List.mem_map.mp hid
    obtain ⟨dealer, -, hdealer⟩ := hmarshal entry hentry
    obtain ⟨raw, hraw, -⟩ := bind_eq_ok.mp hdealer
    rw [mapError_eq_ok] at hraw
    have hmem : (entry.party, entry.dealing) ∈
        snap.map fun entry => (entry.party, entry.dealing) := List.mem_map_of_mem hentry
    rw [← hdealings] at hmem
    obtain ⟨id, -, hid⟩ := List.mem_filterMap.mp hmem
    obtain ⟨d, hd, hpair⟩ := Option.map_eq_some_iff.mp hid
    obtain ⟨rfl, rfl⟩ := Prod.mk.inj hpair
    exact ⟨_, raw, hd, hraw⟩

/-- What is prepared once every share is there. -/
structure Prepares (s : KeygenSession F G) (p : PreparedPending F G) : Prop where
  fresh : s.pending = none
  threshold : p.pending.threshold = s.cfg.threshold
  parties : p.pending.parties = s.cfg.parties
  planHash : p.pending.planHash = s.planHash
  sessionID : p.pending.keygenSessionID = s.cfg.sessionID
  allDealt : s.AllDealt
  hash : p.pending.keygenTranscriptHash = (s.finalTranscript p.pending.groupCommitments).sum
  sender : p.confirmation.sender = s.cfg.self
  publicKey : p.confirmation.publicKey = p.pending.publicKey
  transcriptHash : p.confirmation.transcriptHash = p.pending.keygenTranscriptHash
  written : p.confirmation.marshal s.limits = .ok p.env.payload

theorem preparePendingKeyMaterial_eq_ok {snap : List (SnapshotEntry F G)}
    {prepared : PreparedPending F G}
    (hsnap : s.round1Snapshot s.cfg.parties = .ok (some snap))
    (h : s.preparePendingKeyMaterial snap = .ok prepared) : Prepares s prepared := by
  obtain ⟨hfresh, h⟩ := seq_eq_ok.mp h
  rw [rejectIf_eq_ok, not_or, Option.not_isSome_iff_eq_none] at hfresh
  split at h
  · cases h
  · obtain ⟨-, h⟩ := seq_eq_ok.mp h
    obtain ⟨⟨publicKey, group⟩, -, h⟩ := bind_eq_ok.mp h
    obtain ⟨-, h⟩ := seq_eq_ok.mp h
    obtain ⟨shares, hshares, h⟩ := bind_eq_ok.mp h
    obtain ⟨hash, hhash, h⟩ := bind_eq_ok.mp h
    obtain ⟨confirmation, hreference, h⟩ := bind_eq_ok.mp h
    obtain ⟨encoded, hencoded, h⟩ := bind_eq_ok.mp h
    obtain ⟨env, henv, h⟩ := bind_eq_ok.mp h
    cases h
    rw [mapError_eq_ok] at hshares
    obtain ⟨hsum, hdealt⟩ := buildTranscriptHash_eq_ok hsnap hshares hhash
    obtain ⟨-, hreference⟩ := seq_eq_ok.mp hreference
    cases hreference
    obtain rfl := newEnvelope_eq_ok henv
    exact ⟨hfresh.1, rfl, rfl, rfl, rfl, hdealt, hsum, rfl, rfl, rfl, hencoded⟩

end KeygenSession

/-! ## What a complete share holds -/

theorem compareKeygenConfirmationBindingFields_eq_ok {reference c : KeygenConfirmation G}
    (h : compareKeygenConfirmationBindingFields reference c = .ok ()) :
    c.parties = reference.parties ∧ c.publicKey = reference.publicKey ∧
      c.transcriptHash = reference.transcriptHash := by
  simp only [compareKeygenConfirmationBindingFields, seq_eq_ok, rejectIf_eq_ok, not_not] at h
  obtain ⟨-, -, hparties, hkey, hhash, -⟩ := h
  exact ⟨hparties, hkey, hhash⟩

/-- A list that passes against a reference agrees with it throughout. -/
theorem verifyBindingListFrom_eq_ok {reference : KeygenConfirmation G} {i : Nat}
    {seen : List PartyID} {parties : PartySet} {confirmations : List (KeygenConfirmation G)}
    (hlength : confirmations.length = parties.length)
    (h : verifyBindingListFrom reference i seen parties confirmations = .ok ()) :
    ∀ c ∈ confirmations, compareKeygenConfirmationBindingFields reference c = .ok () := by
  induction confirmations generalizing i seen parties with
  | nil => simp
  | cons c confirmations ih =>
    cases parties with
    | nil => simp at hlength
    | cons id parties =>
      iterate 2 obtain ⟨-, h⟩ := seq_eq_ok.mp h
      obtain ⟨hc, h⟩ := seq_eq_ok.mp h
      exact List.forall_mem_cons.mpr ⟨hc, ih (by simpa using hlength) h⟩

namespace KeyShareState

/-- What the validation of a complete share establishes. -/
theorem validateWithLimits_eq_ok {limits : Limits} {k : KeyShareState F G}
    (h : k.validateWithLimits limits = .ok ()) :
    k.groupCommitments.length = k.threshold ∧ k.threshold ≤ k.parties.length ∧
    k.planHash.length = sha256Size ∧ k.validateConsistencyMaterial = .ok () ∧
    ∀ id ∈ k.parties, ∃ c, k.confirmations.lookup id = some c ∧ c.parties = k.parties ∧
      c.publicKey = k.publicKey ∧ c.transcriptHash = k.keygenTranscriptHash := by
  iterate 2 obtain ⟨-, h⟩ := seq_eq_ok.mp h
  obtain ⟨hset, h⟩ := seq_eq_ok.mp h
  obtain ⟨hvalid, hmaterial⟩ := seq_eq_ok.mp h
  rw [mapError_eq_ok] at hmaterial
  simp only [validateWithoutConfirmations, seq_eq_ok, rejectIf_eq_ok, not_or, not_lt,
    not_not] at hvalid
  obtain ⟨-, ⟨-, hthreshold⟩, -, -, -, -, -, hplan, hgroup, -⟩ := hvalid
  refine ⟨hgroup, hthreshold, hplan, hmaterial, fun id hid => ?_⟩
  iterate 2 obtain ⟨-, hset⟩ := seq_eq_ok.mp hset
  obtain ⟨confirmations, hordered, hset⟩ := bind_eq_ok.mp hset
  rw [mapError_eq_ok] at hset
  obtain ⟨hbinding, -⟩ := seq_eq_ok.mp hset
  obtain ⟨hlength, hlist⟩ := seq_eq_ok.mp hbinding
  rw [rejectIf_eq_ok, not_not] at hlength
  have hcompare := verifyBindingListFrom_eq_ok hlength hlist
  obtain ⟨c, hmem, hc⟩ := mapM_ok_mem hordered id hid
  have hbound := compareKeygenConfirmationBindingFields_eq_ok (hcompare c hmem)
  unfold orderedConfirmation at hc
  split at hc
  · cases hc
  · next c' hlookup =>
    obtain ⟨-, hc⟩ := seq_eq_ok.mp hc
    cases hc
    exact ⟨c, hlookup, hbound⟩

/-- The confirmations are attached and nothing else changes. -/
theorem attachConfirmations_eq_ok {confirmations : List (KeygenConfirmation G)}
    {k k' : KeyShareState F G} (h : confirmations.foldlM attachConfirmation k = .ok k') :
    k' = { k with
      confirmations := confirmations.foldl (fun m c => m.insert c.sender c) k.confirmations } := by
  induction confirmations generalizing k with
  | nil =>
    cases h
    rfl
  | cons c confirmations ih =>
    rw [List.foldlM_cons] at h
    obtain ⟨next, hnext, h⟩ := bind_eq_ok.mp h
    obtain ⟨-, hnext⟩ := seq_eq_ok.mp hnext
    cases hnext
    exact ih h


end KeyShareState

/-- A confirmation that was attached is one of the list, at its sender. -/
theorem lookup_attached {confirmations : List (KeygenConfirmation G)}
    {m : FMap PartyID (KeygenConfirmation G)} {id : PartyID} {c : KeygenConfirmation G}
    (h : (confirmations.foldl (fun m c => m.insert c.sender c) m).lookup id = some c) :
    (c ∈ confirmations ∧ c.sender = id) ∨ m.lookup id = some c := by
  induction confirmations generalizing m with
  | nil => exact .inr h
  | cons c' confirmations ih =>
    rcases ih h with ⟨hmem, hsender⟩ | h
    · exact .inl ⟨List.mem_cons_of_mem _ hmem, hsender⟩
    · rcases FMap.lookup_insert_eq_some.mp h with ⟨hid, rfl⟩ | ⟨-, h⟩
      · exact .inl ⟨List.mem_cons_self, hid.symm⟩
      · exact .inr h

/-- The aggregate depends on the contributions of the parties only. -/
theorem aggregateChainCode_congr {parties : PartySet} {m m' : FMap PartyID Bytes}
    (h : ∀ id ∈ parties, m.lookup id = m'.lookup id) :
    aggregateChainCode parties m = aggregateChainCode parties m' := by
  have hloop : ∀ out, parties.foldlM (addChainCode m) out = parties.foldlM (addChainCode m') out := by
    induction parties with
    | nil => exact fun _ => rfl
    | cons id parties ih =>
      obtain ⟨hid, hrest⟩ := List.forall_mem_cons.mp h
      intro out
      rw [List.foldlM_cons, List.foldlM_cons]
      have hstep : addChainCode m out id = addChainCode m' out id := by
        rw [addChainCode, addChainCode, hid]
      rw [hstep]
      exact bind_congr fun out' => ih hrest out'
  exact hloop _

namespace KeygenSession

/-- A completed session's share, as the session holds its dealers. -/
structure Finished (s : KeygenSession F G) (k : KeyShareState F G) : Prop where
  threshold : k.threshold = s.cfg.threshold
  parties : k.parties = s.cfg.parties
  planHash : k.planHash = s.planHash
  allDealt : s.AllDealt
  hash : k.keygenTranscriptHash = (s.finalTranscript k.groupCommitments).sum
  valid : k.validateWithLimits s.limits = .ok ()
  confirmed : ∀ id c, k.confirmations.lookup id = some c → id ∈ s.cfg.parties
  reveals : ∀ id ∈ s.cfg.parties, ∃ d c, s.dealing id = some d ∧
    k.confirmations.lookup id = some c ∧
    verifyChainCodeCommit s.cfg.sessionID id c.chainCode d.chainCodeCommit = true
  chainCode : aggregateChainCode s.cfg.parties
    (k.confirmations.mapVals fun _ c => c.chainCode) = .ok k.chainCode

/-- The confirmations among the envelopes say what the share is. -/
def Announces (limits : Limits) (sent : List Envelope) (k : KeyShare F G) (hash : Bytes) : Prop :=
  ∀ env ∈ sent, env.payloadType = payloadKeygenConfirmation →
    ∃ c : KeygenConfirmation G, c.marshal limits = .ok env.payload ∧
      c.publicKey = k.publicKey ∧ c.transcriptHash = hash

/-- What holds of a session and the envelopes that it produced. -/
structure Sound (sent : List Envelope) (s : KeygenSession F G) : Prop where
  dealt : ∀ id d, s.dealing id = some d →
    validateCommitmentsThreshold s.cfg.threshold true d.commitments = .ok () ∧
      verifyFROSTKeygenProof s.cfg s.planHash id d = .ok ()
  chainCodes : ∀ id, s.chainCodes.lookup id = (s.confirmations.lookup id).map (·.chainCode)
  senders : ∀ id c, s.confirmations.lookup id = some c → c.sender = id
  kept : ∀ id c, s.pendingConfirmations.lookup id = some c → c.sender = id
  unfinished : s.Live → s.keyShare = none
  quiet : s.Live → s.pending = none →
    ∀ env ∈ sent, env.payloadType ≠ payloadKeygenConfirmation
  pending : ∀ p, s.pending = some p →
    p.threshold = s.cfg.threshold ∧ p.parties = s.cfg.parties ∧ p.planHash = s.planHash ∧
      s.AllDealt ∧ p.keygenTranscriptHash = (s.finalTranscript p.groupCommitments).sum ∧
      Announces s.limits sent p.toKeyShare p.keygenTranscriptHash
  keyShare : ∀ k, s.keyShare = some k →
    s.Finished k ∧ Announces s.limits sent k.toKeyShare k.keygenTranscriptHash

variable {s t : KeygenSession F G} {os sent : List Envelope}

theorem Move.finished (h : Move s os t) {k : KeyShareState F G} (hk : s.Finished k) :
    t.Finished k := by
  obtain ⟨hcfg, hplan, hlimits⟩ := h.fixed
  refine ⟨?_, ?_, ?_, h.allDealt hk.allDealt, ?_, ?_, ?_, ?_, ?_⟩
  · rw [hcfg, hk.threshold]
  · rw [hcfg, hk.parties]
  · rw [hplan, hk.planHash]
  · rw [h.finalTranscript hk.allDealt, hk.hash]
  · rw [hlimits, hk.valid]
  · rw [hcfg]
    exact hk.confirmed
  · rw [hcfg]
    intro id hid
    obtain ⟨d, c, hd, hc, hreveal⟩ := hk.reveals id hid
    exact ⟨d, c, h.dealing_mono hd, hc, hreveal⟩
  · rw [hcfg, hk.chainCode]

variable {limits : Limits}

theorem Announces.append {k : KeyShare F G} {hash : Bytes} (h : Announces limits sent k hash)
    (hos : ∀ env ∈ os, env.payloadType ≠ payloadKeygenConfirmation) :
    Announces limits (sent ++ os) k hash := by
  intro env henv htype
  rcases List.mem_append.mp henv with henv | henv
  · exact h env henv htype
  · exact absurd htype (hos env henv)

/-- A move that prepares no share and completes none. -/
theorem Sound.frame (hs : Sound sent s) (hmove : Move s os t)
    (hos : ∀ env ∈ os, env.payloadType ≠ payloadKeygenConfirmation)
    (hdealt : ∀ id d, t.dealing id = some d → s.dealing id = some d ∨
      (validateCommitmentsThreshold s.cfg.threshold true d.commitments = .ok () ∧
        verifyFROSTKeygenProof s.cfg s.planHash id d = .ok ()))
    (hchainCodes : ∀ id, t.chainCodes.lookup id = (t.confirmations.lookup id).map (·.chainCode))
    (hsenders : ∀ id c, t.confirmations.lookup id = some c → c.sender = id)
    (hkept : ∀ id c, t.pendingConfirmations.lookup id = some c → c.sender = id)
    (hlive : t.Live → s.Live) (hnone : t.Live → t.pending = none → s.pending = none)
    (hpending : ∀ p, t.pending = some p → s.pending = some p)
    (hkeyShare : ∀ k, t.keyShare = some k → s.keyShare = some k) : Sound (sent ++ os) t := by
  obtain ⟨hcfg, hplan, hlimits⟩ := hmove.fixed
  refine ⟨fun id d hd => ?_, hchainCodes, hsenders, hkept, fun hrun => ?_,
    fun hrun hfresh env henv => ?_, fun p hp => ?_, fun k hk => ?_⟩
  · rw [hcfg, hplan]
    rcases hdealt id d hd with hd | hverified
    · exact hs.dealt id d hd
    · exact hverified
  · rw [Option.eq_none_iff_forall_ne_some]
    intro k hk
    have habs := hkeyShare k hk
    rw [hs.unfinished (hlive hrun)] at habs
    cases habs
  · rcases List.mem_append.mp henv with henv | henv
    · exact hs.quiet (hlive hrun) (hnone hrun hfresh) env henv
    · exact hos env henv
  · obtain ⟨hthreshold, hparties, hplanHash, hall, hhash, hannounces⟩ := hs.pending p (hpending p hp)
    rw [hcfg, hplan, hlimits, hmove.finalTranscript hall]
    exact ⟨hthreshold, hparties, hplanHash, hmove.allDealt hall, hhash, hannounces.append hos⟩
  · obtain ⟨hfinished, hannounces⟩ := hs.keyShare k (hkeyShare k hk)
    rw [hlimits]
    exact ⟨hmove.finished hfinished, hannounces.append hos⟩

/-- A session that is sound with some envelopes is sound with fewer. -/
theorem Sound.mono {sent' : List Envelope} (hs : Sound sent s) (hsub : sent' ⊆ sent) :
    Sound sent' s := by
  refine ⟨hs.dealt, hs.chainCodes, hs.senders, hs.kept, hs.unfinished,
    fun hlive hnone env henv => hs.quiet hlive hnone env (hsub henv), fun p hp => ?_,
    fun k hk => ?_⟩
  · obtain ⟨hthreshold, hparties, hplan, hall, hhash, hannounces⟩ := hs.pending p hp
    exact ⟨hthreshold, hparties, hplan, hall, hhash, fun env henv => hannounces env (hsub henv)⟩
  · obtain ⟨hfinished, hannounces⟩ := hs.keyShare k hk
    exact ⟨hfinished, fun env henv => hannounces env (hsub henv)⟩

theorem emitFROSTKeygenRound2_payloadType {out : List Envelope}
    (h : s.emitFROSTKeygenRound2 = .ok out) :
    ∀ env ∈ out, env.payloadType = payloadKeygenShare := by
  unfold emitFROSTKeygenRound2 at h
  split at h
  · cases h
  · intro env henv
    obtain ⟨id, -, hid⟩ := mapM_mem_ok h env henv
    obtain ⟨payload, -, hid⟩ := bind_eq_ok.mp hid
    rw [newEnvelope_eq_ok hid]

/-- What a completed share is made of. -/
theorem buildFinalKeyShare_eq_ok {snap : List (KeygenConfirmation G)} {k : KeyShareState F G}
    (h : s.buildFinalKeyShare snap = .ok k) :
    ∃ p, s.pending = some p ∧ k.toKeyShare = p.toKeyShare ∧
      k.keygenTranscriptHash = p.keygenTranscriptHash ∧ k.planHash = p.planHash ∧
      k.confirmations = snap.foldl (fun m c => m.insert c.sender c) ∅ ∧
      (∀ id ∈ s.cfg.parties, s.checkFinalReveal id = .ok ()) ∧
      aggregateChainCode s.cfg.parties s.chainCodes = .ok k.chainCode ∧
      k.validateWithLimits s.limits = .ok () := by
  unfold buildFinalKeyShare at h
  split at h
  · cases h
  · next p hp =>
    obtain ⟨-, h⟩ := seq_eq_ok.mp h
    obtain ⟨hreveals, h⟩ := seq_eq_ok.mp h
    obtain ⟨chainCode, hchainCode, h⟩ := bind_eq_ok.mp h
    obtain ⟨-, h⟩ := seq_eq_ok.mp h
    obtain ⟨final, hfinal, h⟩ := bind_eq_ok.mp h
    obtain ⟨hvalid, h⟩ := seq_eq_ok.mp h
    cases h
    rw [mapError_eq_ok] at hchainCode hfinal hvalid
    iterate 2 obtain ⟨-, hfinal⟩ := seq_eq_ok.mp hfinal
    have hattached := KeyShareState.attachConfirmations_eq_ok hfinal
    subst hattached
    exact ⟨p, hp, rfl, rfl, rfl, rfl, forM_eq_ok.mp hreveals, hchainCode, hvalid⟩

theorem Sound.finished (hs : Sound sent s) {snap : List (KeygenConfirmation G)}
    {k : KeyShareState F G} (hsnap : s.confirmationSnapshot s.cfg.parties = .ok (some snap))
    (h : s.buildFinalKeyShare snap = .ok k) :
    s.Finished k ∧ Announces s.limits sent k.toKeyShare k.keygenTranscriptHash := by
  obtain ⟨p, hp, hshare, hhash, hplan, hconfirmations, hreveals, hchainCode, hvalid⟩ :=
    buildFinalKeyShare_eq_ok h
  obtain ⟨hthreshold, hparties, hplanHash, hall, htranscript, hannounces⟩ := hs.pending p hp
  have hkparties : k.parties = s.cfg.parties := by rw [hshare, hparties]
  -- A confirmation of the share is the one the session held for that party.
  have hattached : ∀ id c, k.confirmations.lookup id = some c →
      id ∈ s.cfg.parties ∧ s.confirmations.lookup id = some c := by
    intro id c hc
    rw [hconfirmations] at hc
    rcases lookup_attached hc with ⟨hmem, hsender⟩ | habs
    · obtain ⟨id', hid', hlookup⟩ := mem_confirmationSnapshot hsnap c hmem
      rw [← hsender, hs.senders id' c hlookup]
      exact ⟨hid', hlookup⟩
    · simp at habs
  have hheld : ∀ id ∈ s.cfg.parties, ∃ c, k.confirmations.lookup id = some c ∧
      s.confirmations.lookup id = some c := by
    intro id hid
    obtain ⟨c, hc, -⟩ := (KeyShareState.validateWithLimits_eq_ok hvalid).2.2.2.2 id
      (by rwa [hkparties])
    exact ⟨c, hc, (hattached id c hc).2⟩
  refine ⟨⟨?_, hkparties, hplan.trans hplanHash, hall, ?_, hvalid,
    fun id c hc => (hattached id c hc).1, ?_, ?_⟩, ?_⟩
  · rw [hshare, hthreshold]
  · rw [hhash, htranscript, hshare]
  · intro id hid
    obtain ⟨c, hc, hsc⟩ := hheld id hid
    have hreveal := hreveals id hid
    rw [checkFinalReveal, mapError_eq_ok] at hreveal
    obtain ⟨slot, hslot, hreveal⟩ := bind_eq_ok.mp hreveal
    rw [verifyReveal, rejectIf_eq_ok, Bool.not_eq_false, hs.chainCodes, hsc] at hreveal
    obtain ⟨d, raw, hd, -⟩ := hall id hid
    have hdealing : slot.dealing = some d := by
      rwa [dealing, slot_eq_ok hslot, Option.bind_some] at hd
    rw [hdealing] at hreveal
    exact ⟨d, c, hd, hc, hreveal⟩
  · rw [← hchainCode]
    refine aggregateChainCode_congr fun id hid => ?_
    obtain ⟨c, hc, hsc⟩ := hheld id hid
    rw [FMap.lookup_mapVals, hc, hs.chainCodes, hsc]
  · rw [hshare, hhash]
    exact hannounces

theorem Move.sound (h : Move s os t) (hs : Sound sent s) : Sound (sent ++ os) t := by
  have hmove := h
  have hnil : ∀ env ∈ ([] : List Envelope), env.payloadType ≠ payloadKeygenConfirmation := by simp
  cases h with
  | @deal sender slot d _ hslot hnone hvalid hproof =>
    refine hs.frame hmove hnil (fun id d' hd' => ?_) hs.chainCodes hs.senders hs.kept
      id (fun _ => id) (fun _ => id) (fun _ => id)
    rw [dealing, FMap.lookup_insert_ite] at hd'
    split at hd'
    · next heq =>
      cases hd'
      exact .inr ⟨hvalid, heq ▸ hproof⟩
    · exact .inl hd'
  | @share sender slot _ _ hslot =>
    refine hs.frame hmove hnil (fun id d' hd' => .inl ?_) hs.chainCodes hs.senders hs.kept
      id (fun _ => id) (fun _ => id) (fun _ => id)
    rw [dealing, FMap.lookup_insert_ite] at hd'
    split at hd'
    · next heq =>
      rw [dealing, heq, hslot]
      exact hd'
    · exact hd'
  | @keep sender c _ hsender =>
    refine hs.frame hmove hnil (fun _ _ => .inl) hs.chainCodes hs.senders (fun id c' hc' => ?_)
      id (fun _ => id) (fun _ => id) (fun _ => id)
    rcases FMap.lookup_insert_eq_some.mp hc' with ⟨rfl, rfl⟩ | ⟨-, hc'⟩
    · exact hsender
    · exact hs.kept id c' hc'
  | @confirm sender c kept _ hsender hkept =>
    have hsender : c.sender = sender := by
      rcases hsender with hsender | hlookup
      · exact hsender
      · exact hs.kept sender c hlookup
    refine hs.frame hmove hnil (fun _ _ => .inl) (fun id => ?_) (fun id c' hc' => ?_)
      (fun id c' hc' => hs.kept id c' (hkept id c' hc')) id (fun _ => id)
      (fun _ => id) (fun _ => id)
    · show (s.chainCodes.insert sender c.chainCode).lookup id =
        ((s.confirmations.insert sender c).lookup id).map (·.chainCode)
      rw [FMap.lookup_insert_ite, FMap.lookup_insert_ite]
      split
      · rfl
      · exact hs.chainCodes id
    · rcases FMap.lookup_insert_eq_some.mp hc' with ⟨rfl, rfl⟩ | ⟨-, hc'⟩
      · exact hsender
      · exact hs.senders id c' hc'
  | emit _ hout =>
    refine hs.frame hmove (fun env henv => ?_) (fun _ _ => .inl) hs.chainCodes hs.senders hs.kept
      id (fun _ => id) (fun _ => id) (fun _ => id)
    rw [emitFROSTKeygenRound2_payloadType hout env henv]
    decide
  | @prepare snap prepared hlive hsnap hprep =>
    have hprepared := preparePendingKeyMaterial_eq_ok hsnap hprep
    have hdealt : ∀ id d, (commitPendingKeyShare prepared s).dealing id = some d →
        s.dealing id = some d := fun id d hd => (dealing_destroySecrets s id).symm.trans hd
    refine ⟨fun id d hd => hs.dealt id d (hdealt id d hd), fun id => ?_, fun id c hc => ?_,
      hs.kept, hs.unfinished, fun _ habs => ?_, fun p hp => ?_, fun k hk => ?_⟩
    · show (s.chainCodes.insert s.cfg.self prepared.confirmation.chainCode).lookup id =
        ((s.confirmations.insert s.cfg.self prepared.confirmation).lookup id).map (·.chainCode)
      rw [FMap.lookup_insert_ite, FMap.lookup_insert_ite]
      split
      · rfl
      · exact hs.chainCodes id
    · rcases FMap.lookup_insert_eq_some.mp hc with ⟨rfl, rfl⟩ | ⟨-, hc⟩
      · exact hprepared.sender
      · exact hs.senders id c hc
    · cases habs
    · cases hp
      refine ⟨hprepared.threshold, hprepared.parties, hprepared.planHash,
        hmove.allDealt hprepared.allDealt, ?_, fun env henv htype => ?_⟩
      · rw [hmove.finalTranscript hprepared.allDealt, hprepared.hash]
      · rcases List.mem_append.mp henv with henv | henv
        · exact absurd htype (hs.quiet hlive hprepared.fresh env henv)
        · rw [List.mem_singleton.mp henv]
          exact ⟨prepared.confirmation, hprepared.written, hprepared.publicKey,
            hprepared.transcriptHash⟩
    · have habs : s.keyShare = some k := hk
      rw [hs.unfinished hlive] at habs
      cases habs
  | @finish snap k hlive hsnap hshare =>
    obtain ⟨hfinished, hannounces⟩ := hs.finished hsnap hshare
    refine ⟨hs.dealt, fun id => ?_, fun id c hc => ?_, hs.kept, fun hlive' => ?_,
      fun hlive' => ?_, fun p hp => ?_, fun k' hk' => ?_⟩
    · simp [commitFinalKeyShare]
    · simp [commitFinalKeyShare] at hc
    · cases hlive'.1
    · cases hlive'.1
    · cases hp
    · cases hk'
      exact ⟨hmove.finished hfinished, hannounces.append hnil⟩
  | abort =>
    by_cases haborted : s.aborted = true
    · have hsame : s.abort = s := if_pos haborted
      rw [hsame, List.append_nil]
      exact hs
    · have habort : s.abort = _ := if_neg haborted
      rw [habort] at hmove ⊢
      refine hs.frame hmove hnil (fun id d hd => .inl ?_) (fun id => ?_) (fun id c hc => ?_)
        (fun id c hc => ?_) (fun hlive => ?_) (fun hlive => ?_) (fun p hp => ?_) (fun k hk => ?_)
      · exact (dealing_destroySecrets s id).symm.trans hd
      · simp
      · simp at hc
      · simp at hc
      · cases hlive.2
      · cases hlive.2
      · cases hp
      · simp only [ite_eq_iff, reduceCtorEq, and_false, or_false] at hk
        exact hk.2
  | close =>
    exact hs.frame hmove hnil (fun _ _ => .inl) hs.chainCodes hs.senders hs.kept
      id (fun _ => id) (fun _ => id) (fun _ habs => by cases habs)

/-! ## Starting -/

variable {planHash : Bytes}

/-- The material of a party that starts is what its contribution makes of it. -/
theorem generateLocalMaterial_eq_ok {cfg : ThresholdConfig} {c : Contribution F}
    {material : LocalMaterial F G} (h : generateLocalMaterial cfg planHash c = .ok material) :
    validateCommitmentsThreshold cfg.threshold true (commitTo c.polynomial : List G) = .ok () ∧
    c.chainCode.length = 32 ∧
    ∃ proof, SchnorrProof.prove G (frostKeygenProofDomain cfg planHash cfg.self
        (commitTo c.polynomial : List G) (chainCodeCommitment cfg.sessionID cfg.self c.chainCode))
        (c.polynomial.headD 0) c.nonce = some proof ∧
      material =
        { polynomial := some c.polynomial
          dealing :=
            { commitments := commitTo c.polynomial
              chainCodeCommit := chainCodeCommitment cfg.sessionID cfg.self c.chainCode
              proof }
          localShare := evalScalarPolynomial c.polynomial cfg.self
          chainCode := c.chainCode } := by
  obtain ⟨hvalid, h⟩ := seq_eq_ok.mp h
  obtain ⟨hlength, h⟩ := seq_eq_ok.mp h
  rw [rejectIf_eq_ok, not_not] at hlength
  dsimp only at h
  split at h
  · cases h
  · next proof hproof =>
    exact ⟨hvalid, hlength, proof, hproof, (Except.ok.inj h).symm⟩

/-- A dealing that is written has a proof with a commitment that is a point. -/
theorem dealing_marshal_proof {payload : Bytes} {d : Dealing G}
    (h : d.marshal limits planHash = .ok payload) : d.proof.validate G = .ok () := by
  obtain ⟨hvalid, -⟩ := seq_eq_ok.mp h
  rw [mapError_eq_ok] at hvalid
  iterate 2 obtain ⟨-, hvalid⟩ := seq_eq_ok.mp hvalid
  obtain ⟨-, hproof⟩ := seq_eq_ok.mp hvalid
  rwa [mapError_eq_ok] at hproof

/-- The proof of the party itself passes. -/
theorem verifyFROSTKeygenProof_own {cfg : ThresholdConfig} {payload : Bytes} {c : Contribution F}
    {material : LocalMaterial F G} (h : generateLocalMaterial cfg planHash c = .ok material)
    (hpayload : material.dealing.marshal limits planHash = .ok payload) :
    verifyFROSTKeygenProof cfg planHash cfg.self material.dealing = .ok () := by
  obtain ⟨hvalid, -, proof, hproof, rfl⟩ := generateLocalMaterial_eq_ok h
  have hwritten := dealing_marshal_proof hpayload
  iterate 2 obtain ⟨-, hvalid⟩ := seq_eq_ok.mp hvalid
  obtain ⟨hne, hhead⟩ := seq_eq_ok.mp hvalid
  rw [rejectIf_eq_ok] at hne hhead
  obtain ⟨polynomial, chainCode, nonce⟩ := c
  cases polynomial with
  | nil => exact absurd rfl hne
  | cons constant rest =>
    have hconstant : (baseMult constant : G) ≠ 0 := by
      intro habs
      exact hhead ⟨rfl, congrArg some habs⟩
    have hnonce : (baseMult nonce : G) ≠ 0 := by
      obtain ⟨challenge, -, rfl⟩ := Option.map_eq_some_iff.mp hproof
      obtain ⟨R, hR, -⟩ := bind_eq_ok.mp hwritten
      rw [mapError_eq_ok] at hR
      intro habs
      obtain ⟨P, hP, hR⟩ := bind_eq_ok.mp hR
      rw [pointFromBytesAllowIdentity_pointBytes] at hP
      cases hP
      rw [newSemanticPointFromPoint, dif_neg (by simpa using habs)] at hR
      cases hR
    have hverify := SchnorrProof.verify_prove hconstant hnonce hproof
    show rejectIf (proof.verify G _ (pointBytes (baseMult constant : G)) = false) _ = .ok ()
    rw [rejectIf_eq_ok, Bool.not_eq_false]
    exact hverify

theorem trace_fixed (h : Trace Move s os t) :
    t.cfg = s.cfg ∧ t.planHash = s.planHash ∧ t.limits = s.limits := by
  refine h.inv (P := fun u => u.cfg = s.cfg ∧ u.planHash = s.planHash ∧ u.limits = s.limits)
    (fun u os v hu hmove => ?_) ⟨rfl, rfl, rfl⟩
  obtain ⟨hcfg, hplan, hlimits⟩ := hmove.fixed
  rw [hcfg, hplan, hlimits]
  exact hu

theorem startKeygen_sound {cfg : ThresholdConfig} {guard : EnvelopeGuard} {c : Contribution F}
    {plan : Option (TrustedDealerImportPlan G)} {out : List Envelope}
    (h : startKeygen cfg limits planHash guard c plan = .ok (s, out)) :
    Sound out s ∧ s.cfg = cfg ∧ s.planHash = planHash ∧ s.limits = limits := by
  obtain ⟨material, payload, env, rest, hmaterial, hpayload, henv, rfl, htrace⟩ :=
    startKeygen_trace h
  refine ⟨?_, trace_fixed htrace⟩
  have hinitial : Sound [env] (initial cfg limits planHash guard material plan) := by
    refine ⟨fun id d hd => ?_, fun _ => by simp [initial], fun _ _ habs => by simp [initial] at habs,
      fun _ _ habs => by simp [initial] at habs, fun _ => rfl, fun _ _ env' henv' => ?_,
      nofun, nofun⟩
    · have hown : id = cfg.self ∧ d = material.dealing := by
        rw [dealing, initial, FMap.lookup_insert_ite] at hd
        split at hd
        · next heq =>
          cases hd
          exact ⟨heq, rfl⟩
        · rw [FMap.lookup_foldl_insert (fun _ => (⟨none, none⟩ : Round1Slot F G))] at hd
          split at hd <;> simp at hd
      obtain ⟨rfl, rfl⟩ := hown
      refine ⟨?_, verifyFROSTKeygenProof_own hmaterial hpayload⟩
      obtain ⟨hvalid, -, proof, -, rfl⟩ := generateLocalMaterial_eq_ok hmaterial
      exact hvalid
    · rw [List.mem_singleton.mp henv', newEnvelope_eq_ok henv]
      show payloadKeygenCommitments ≠ payloadKeygenConfirmation
      decide
  exact htrace.inv_outputs (fun sent s os t hs hmove => hmove.sound hs) hinitial

/-- Whatever is delivered to a started session, it stays sound with all that it sent. -/
theorem run_sound {cfg : ThresholdConfig} {guard : EnvelopeGuard} {c : Contribution F}
    {plan : Option (TrustedDealerImportPlan G)} {out : List Envelope}
    (h : startKeygen cfg limits planHash guard c plan = .ok (s, out)) (cache : ReplayCache)
    (calls : List Call) :
    let t := (Run.final step ⟨s, cache⟩ calls).session
    Sound (out ++ emitted ⟨s, cache⟩ calls) t ∧
      t.cfg = cfg ∧ t.planHash = planHash ∧ t.limits = limits := by
  obtain ⟨hs, hcfg, hplan, hlimits⟩ := startKeygen_sound h
  obtain ⟨os, htrace, hsub⟩ := run_trace ⟨s, cache⟩ calls
  have hsound := htrace.inv_outputs (fun sent s os t hs hmove => hmove.sound hs) hs
  obtain ⟨hcfg', hplan', hlimits'⟩ := trace_fixed htrace
  exact ⟨hsound.mono (List.append_subset.mpr ⟨List.subset_append_left _ _,
    List.subset_append_of_subset_right _ hsub⟩), hcfg'.trans hcfg, hplan'.trans hplan,
    hlimits'.trans hlimits⟩

/-! ## Agreement -/

/-- The transcripts that a completed session hashed for its share: its own, the domain of each
dealer's proof and each party's chain-code commitment. -/
def hashed (s : KeygenSession F G) (k : KeyShareState F G) : List Bytes :=
  (s.finalTranscript k.groupCommitments).written ::
    (s.dealings.map fun p => (keygenProofTranscript s.cfg s.planHash p.1 p.2.commitments
      p.2.chainCodeCommit).written) ++
    s.cfg.parties.filterMap fun id => (k.confirmations.lookup id).map fun c =>
      (chainCodeTranscript s.cfg.sessionID id c.chainCode).written

/-- The transcripts that a session took the challenges of the dealers' proofs from. -/
def challenged (s : KeygenSession F G) : List Bytes :=
  s.dealings.map fun p => (schnorrTranscript
    (frostKeygenProofDomain s.cfg s.planHash p.1 p.2.commitments p.2.chainCodeCommit)
    (pointBytes (p.2.commitments.headD 0)) p.2.proof.commitment).written

theorem mem_dealings {id : PartyID} {d : Dealing G} (hid : id ∈ s.cfg.parties)
    (hd : s.dealing id = some d) : (id, d) ∈ s.dealings :=
  List.mem_filterMap.mpr ⟨id, hid, by rw [hd]; rfl⟩

theorem dealing_of_mem {p : PartyID × Dealing G} (hp : p ∈ s.dealings) :
    p.1 ∈ s.cfg.parties ∧ s.dealing p.1 = some p.2 := by
  obtain ⟨id, hid, hmap⟩ := List.mem_filterMap.mp hp
  obtain ⟨d, hd, rfl⟩ := Option.map_eq_some_iff.mp hmap
  exact ⟨hid, hd⟩

theorem length_dealings (hall : s.AllDealt) : s.dealings.length = s.cfg.parties.length := by
  have hloop : ∀ ids : PartySet, (∀ id ∈ ids, ∃ d, s.dealing id = some d) →
      (ids.filterMap fun id => (s.dealing id).map fun d => (id, d)).length = ids.length := by
    intro ids hids
    induction ids with
    | nil => rfl
    | cons id ids ih =>
      obtain ⟨⟨d, hd⟩, hrest⟩ := List.forall_mem_cons.mp hids
      rw [List.filterMap_cons, hd]
      simp only [Option.map_some, List.length_cons, ih hrest]
  refine hloop _ fun id hid => ?_
  obtain ⟨d, -, hd, -⟩ := hall id hid
  exact ⟨d, hd⟩

theorem length_aggregateChainCode {parties : PartySet} {m : FMap PartyID Bytes} {out : Bytes}
    (h : aggregateChainCode parties m = .ok out) : out.length = chainCodeSize := by
  have hloop : ∀ (ids : PartySet) (start : Bytes), start.length = chainCodeSize →
      ids.foldlM (addChainCode m) start = .ok out → out.length = chainCodeSize := by
    intro ids
    induction ids with
    | nil =>
      intro start hstart h
      cases h
      exact hstart
    | cons id ids ih =>
      intro start hstart h
      rw [List.foldlM_cons] at h
      obtain ⟨next, hnext, h⟩ := bind_eq_ok.mp h
      obtain ⟨hlength, hnext⟩ := seq_eq_ok.mp hnext
      rw [rejectIf_eq_ok, not_not] at hlength
      cases hnext
      refine ih _ ?_ h
      rw [List.length_zipWith, hstart, hlength, Nat.min_self]
  exact hloop parties _ List.length_replicate h

/-- A dealer's entry fits the transcript. -/
theorem Sound.dealerFits (hs : Sound sent s) (hall : s.AllDealt)
    (hthreshold : s.cfg.threshold ≤ maxRecordCount) :
    ∀ dealer ∈ s.dealings.map dealerOf, DealerFits dealer := by
  intro dealer hdealer
  obtain ⟨p, hp, rfl⟩ := List.mem_map.mp hdealer
  obtain ⟨hid, hd⟩ := dealing_of_mem hp
  obtain ⟨d, raw, hd', hraw⟩ := hall p.1 hid
  rw [hd] at hd'
  cases hd'
  constructor
  · obtain ⟨-, hvalid⟩ := seq_eq_ok.mp (hs.dealt p.1 p.2 hd).1
    obtain ⟨hlength, -⟩ := seq_eq_ok.mp hvalid
    rw [rejectIf_eq_ok, not_not] at hlength
    show p.2.commitments.length ≤ maxRecordCount
    omega
  · obtain ⟨hcommitment, hresponse, hwritten⟩ := SchnorrProof.marshal_eq_ok hraw
    have hlength := length_marshalFields hwritten
    simp only [SchnorrProof.schema, List.zip_cons_cons, List.zip_nil_right, List.map_cons,
      List.map_nil, List.sum_cons, List.sum_nil, hcommitment, hresponse] at hlength
    show ((p.2.proof.marshal G).toOption.getD []).length < 2 ^ 32
    rw [hraw]
    show raw.length < 2 ^ 32
    rw [hlength]
    decide

/-- The proof of a dealing passes for its constant commitment. -/
theorem Sound.verified (hs : Sound sent s) {id : PartyID} {d : Dealing G}
    (hd : s.dealing id = some d) :
    ∃ C : SemanticPoint G, d.commitments.headD 0 = C.val ∧
      d.proof.verify G (frostKeygenProofDomain s.cfg s.planHash id d.commitments
        d.chainCodeCommit) (pointBytes C.val) = true := by
  obtain ⟨hvalid, hproof⟩ := hs.dealt id d hd
  iterate 2 obtain ⟨-, hvalid⟩ := seq_eq_ok.mp hvalid
  obtain ⟨-, hhead⟩ := seq_eq_ok.mp hvalid
  rw [rejectIf_eq_ok] at hhead
  obtain ⟨P, hP, hverify⟩ := bind_eq_ok.mp hproof
  rw [rejectIf_eq_ok, Bool.not_eq_false] at hverify
  cases hcommitments : d.commitments with
  | nil =>
    rw [hcommitments] at hP
    cases hP
  | cons C rest =>
    rw [hcommitments] at hP hhead hverify
    have hCP : C = P := Except.ok.inj hP
    subst hCP
    exact ⟨⟨C, fun habs => hhead ⟨rfl, congrArg some habs⟩⟩, rfl, hverify⟩

/-- The parts of the configuration that the parties of one session share. -/
structure SameSession (cfg cfg' : ThresholdConfig) : Prop where
  threshold : cfg'.threshold = cfg.threshold
  parties : cfg'.parties = cfg.parties
  sessionID : cfg'.sessionID = cfg.sessionID

section Pair

variable {sA sB : KeygenSession F G} {sentA sentB : List Envelope} {kA kB : KeyShareState F G}
  (hsame : SameSession sA.cfg sB.cfg) (hplan : sB.planHash = sA.planHash)
  (hA : Sound sentA sA) (hB : Sound sentB sB) (hfinA : sA.Finished kA) (hfinB : sB.Finished kB)
  (hhash : Set.InjOn sha256 {t | t ∈ hashed sA kA ∨ t ∈ hashed sB kB})

include hsame hplan hA hB hfinA hfinB hhash

/-- Equal transcript hashes mean equal dealers and group commitments. -/
theorem dealers_agree (hcount : sA.cfg.parties.length ≤ maxRecordCount)
    (hplanHash : sA.planHash.length < 2 ^ 32)
    (heq : kA.keygenTranscriptHash = kB.keygenTranscriptHash) :
    sA.dealings.map dealerOf = sB.dealings.map dealerOf ∧
      kA.groupCommitments = kB.groupCommitments := by
  obtain ⟨hgroupA, hthresholdA, -⟩ := KeyShareState.validateWithLimits_eq_ok hfinA.valid
  obtain ⟨hgroupB, hthresholdB, -⟩ := KeyShareState.validateWithLimits_eq_ok hfinB.valid
  have hsmall : kA.threshold ≤ maxRecordCount ∧ kB.threshold = kA.threshold := by
    rw [hfinA.threshold, hfinB.threshold, hsame.threshold, ← hfinA.threshold]
    rw [hfinA.parties] at hthresholdA
    exact ⟨le_trans hthresholdA hcount, rfl⟩
  have hwritten : (sA.finalTranscript kA.groupCommitments).written =
      (sB.finalTranscript kB.groupCommitments).written := by
    refine hhash (.inl List.mem_cons_self) (.inr List.mem_cons_self) ?_
    rw [hfinA.hash, hfinB.hash] at heq
    exact heq
  have haggregate : ∀ x : Except GoError Bytes, (∀ out, x = .ok out → out.length = chainCodeSize) →
      (x.toOption.getD []).length < 2 ^ 32 := by
    intro x hx
    cases x with
    | error e =>
      show ([] : Bytes).length < 2 ^ 32
      decide
    | ok out =>
      show out.length < 2 ^ 32
      rw [hx out rfl]
      decide
  have hcfg : keygenTranscript (G := G) sB.cfg = keygenTranscript sA.cfg := by
    funext aggregate planHash dealers group shares
    simp only [keygenTranscript, hsame.threshold, hsame.parties, hsame.sessionID]
  rw [finalTranscript, finalTranscript, hcfg, hplan] at hwritten
  refine keygenTranscript_inj hplanHash (haggregate _ fun _ => length_aggregateChainCode)
    (haggregate _ fun _ => length_aggregateChainCode) ?_ (hA.dealerFits hfinA.allDealt ?_)
    (hB.dealerFits hfinB.allDealt ?_) ?_ ?_ hwritten
  · rw [List.length_map, List.length_map, length_dealings hfinA.allDealt,
      length_dealings hfinB.allDealt, hsame.parties]
  · rw [← hfinA.threshold]
    exact hsmall.1
  · rw [hsame.threshold, ← hfinA.threshold]
    exact hsmall.1
  · rw [hgroupA]
    exact hsmall.1
  · rw [hgroupB, hsmall.2]
    exact hsmall.1

/-- With equal dealers every dealer has the same chain-code commitment in both sessions: its
proof passes in both, with one challenge. -/
theorem chainCodeCommit_agree
    (hchallenge : Set.InjOn (fun t => (deriveCanonicalNonZero G (sha256 t) : Option F))
      {t | t ∈ challenged sA ∨ t ∈ challenged sB})
    (hdealers : sA.dealings.map dealerOf = sB.dealings.map dealerOf) {id : PartyID}
    {dA dB : Dealing G} (hid : id ∈ sA.cfg.parties) (hdA : sA.dealing id = some dA)
    (hdB : sB.dealing id = some dB) (hlengthA : dA.chainCodeCommit.length = sha256Size)
    (hlengthB : dB.chainCodeCommit.length = sha256Size) :
    dA.chainCodeCommit = dB.chainCodeCommit := by
  have hidB : id ∈ sB.cfg.parties := by rwa [hsame.parties]
  -- The dealer's commitments and proof are the same.
  have hdealer : dA.commitments = dB.commitments ∧ dA.proof = dB.proof := by
    have hmem : dealerOf (id, dA) ∈ sB.dealings.map dealerOf := by
      rw [← hdealers]
      exact List.mem_map_of_mem (mem_dealings hid hdA)
    obtain ⟨p, hp, hpeq⟩ := List.mem_map.mp hmem
    obtain ⟨hpid, hpd⟩ := dealing_of_mem hp
    obtain ⟨hfst, hcommitments, hproof⟩ := by
      simpa only [dealerOf, Prod.mk.injEq] using hpeq
    rw [hfst, hdB] at hpd
    cases hpd
    obtain ⟨d, raw, hd, hraw⟩ := hfinA.allDealt id hid
    obtain ⟨d', raw', hd', hraw'⟩ := hfinB.allDealt id hidB
    rw [hdA] at hd
    rw [hdB] at hd'
    cases hd
    cases hd'
    rw [hraw, hraw'] at hproof
    obtain rfl : raw' = raw := hproof
    exact ⟨hcommitments.symm, SchnorrProof.marshal_inj hraw hraw'⟩
  obtain ⟨C, hC, hverifyA⟩ := hA.verified hdA
  obtain ⟨C', hC', hverifyB⟩ := hB.verified hdB
  have hcfg : ∀ commit, keygenProofTranscript sB.cfg sB.planHash id dB.commitments commit =
      keygenProofTranscript sA.cfg sA.planHash id dA.commitments commit := by
    intro commit
    simp only [keygenProofTranscript, hsame.threshold, hsame.parties, hsame.sessionID, hplan,
      hdealer.1]
  obtain rfl : C' = C := by
    rw [← hdealer.1, hC] at hC'
    exact (Subtype.ext hC').symm
  rw [← hdealer.2] at hverifyB
  obtain ⟨hequal, -⟩ := SchnorrProof.challenge_eq_of_verify hverifyA hverifyB
  have hheadA : pointBytes C'.val = pointBytes (dA.commitments.headD 0) := by rw [hC]
  have hheadB : pointBytes C'.val = pointBytes (dB.commitments.headD 0) := by rw [hC']
  -- Equal challenges come from one domain, and one domain from one chain-code commitment.
  have hdomain := schnorrTranscript_inj (length_sha256 _) (length_sha256 _)
    (hchallenge (.inl (List.mem_map.mpr ⟨(id, dA), mem_dealings hid hdA, by rw [← hheadA]; rfl⟩))
      (.inr (List.mem_map.mpr ⟨(id, dB), mem_dealings hidB hdB, by
        rw [← hheadB, ← hdealer.2]; rfl⟩)) hequal)
  have hwritten := hhash
    (.inl (List.mem_append_left _ (List.mem_cons_of_mem _ (List.mem_map.mpr
      ⟨(id, dA), mem_dealings hid hdA, rfl⟩))))
    (.inr (List.mem_append_left _ (List.mem_cons_of_mem _ (List.mem_map.mpr
      ⟨(id, dB), mem_dealings hidB hdB, rfl⟩)))) hdomain
  rw [hcfg] at hwritten
  exact keygenProofTranscript_inj hlengthA hlengthB hwritten

/-- Two completed sessions of one plan with one transcript hash hold the same group commitments
and the same chain code. -/
theorem finished_agree
    (hchallenge : Set.InjOn (fun t => (deriveCanonicalNonZero G (sha256 t) : Option F))
      {t | t ∈ challenged sA ∨ t ∈ challenged sB})
    (hcount : sA.cfg.parties.length ≤ maxRecordCount) (hplanHash : sA.planHash.length < 2 ^ 32)
    (heq : kA.keygenTranscriptHash = kB.keygenTranscriptHash) :
    kA.groupCommitments = kB.groupCommitments ∧ kA.chainCode = kB.chainCode := by
  obtain ⟨hdealers, hgroup⟩ := dealers_agree hsame hplan hA hB hfinA hfinB hhash hcount hplanHash heq
  refine ⟨hgroup, ?_⟩
  have hchain := hfinA.chainCode
  have hchain' := hfinB.chainCode
  rw [hsame.parties] at hchain'
  have hreveals : aggregateChainCode sA.cfg.parties
      (kA.confirmations.mapVals fun _ c => c.chainCode) = aggregateChainCode sA.cfg.parties
      (kB.confirmations.mapVals fun _ c => c.chainCode) := by
    refine aggregateChainCode_congr fun id hid => ?_
    obtain ⟨dA, cA, hdA, hcA, hrevealA⟩ := hfinA.reveals id hid
    have hidB : id ∈ sB.cfg.parties := by rwa [hsame.parties]
    obtain ⟨dB, cB, hdB, hcB, hrevealB⟩ := hfinB.reveals id hidB
    simp only [verifyChainCodeCommit, decide_eq_true_eq, hsame.sessionID] at hrevealA hrevealB
    obtain ⟨hlengthA, hsizeA, hcommitA⟩ := hrevealA
    obtain ⟨hlengthB, hsizeB, hcommitB⟩ := hrevealB
    have hcommit := chainCodeCommit_agree hsame hplan hA hB hfinA hfinB hhash hchallenge hdealers
      hid hdA hdB hlengthA hlengthB
    rw [← hcommitA, ← hcommitB] at hcommit
    have hwritten := hhash
      (.inl (List.mem_append_right _ (List.mem_filterMap.mpr ⟨id, hid, by rw [hcA]; rfl⟩)))
      (.inr (List.mem_append_right _ (List.mem_filterMap.mpr ⟨id, hidB, by
        rw [hcB, hsame.sessionID]; rfl⟩))) hcommit
    rw [FMap.lookup_mapVals, FMap.lookup_mapVals, hcA, hcB]
    exact congrArg some (chainCodeTranscript_inj hsizeA hsizeB hwritten)
  rw [hreveals, hchain'] at hchain
  exact (Except.ok.inj hchain).symm

end Pair

theorem keyShare_of_result {k : KeyShareState F G} (h : s.keyShareResult = some k) :
    s.keyShare = some k := by
  unfold keyShareResult at h
  split at h
  · exact h
  · cases h

/-- The share holds, for the peer, a confirmation that was read from an envelope the peer
sent. -/
def AcceptedFrom (k : KeyShareState F G) (limits : Limits) (peer : PartyID)
    (sent : List Envelope) : Prop :=
  ∃ env ∈ sent, ∃ c, env.payloadType = payloadKeygenConfirmation ∧
    KeygenConfirmation.unmarshal limits env.payload = .ok c ∧
    k.confirmations.lookup peer = some c

/-- `t` has ended and gives out the share of `s` or none. -/
def EndedAs (s t : KeygenSession F G) : Prop :=
  ¬ t.Live ∧ (t.keyShareResult = s.keyShareResult ∨ t.keyShareResult = none)

theorem Move.ended (h : Move s os t) (hs : ¬ s.Live) : os = [] ∧ EndedAs s t := by
  cases h with
  | abort =>
    unfold KeygenSession.abort
    split
    · exact ⟨rfl, hs, .inl rfl⟩
    · exact ⟨rfl, by simp [Live], .inr rfl⟩
  | close => exact ⟨rfl, hs, .inr (by simp [keyShareResult])⟩
  | deal hlive | share hlive | keep hlive | confirm _ hlive | emit hlive | prepare hlive
  | finish hlive => exact absurd hlive hs

theorem EndedAs.move {u : KeygenSession F G} (ht : EndedAs s t) (h : Move t os u) :
    os = [] ∧ EndedAs s u := by
  obtain ⟨rfl, hlive, hresult⟩ := h.ended ht.1
  refine ⟨rfl, hlive, ?_⟩
  rcases hresult with hresult | hresult
  · rw [hresult]
    exact ht.2
  · exact .inr hresult

/-- A started session has no share before it completes. Once it has completed or aborted it
sends nothing, and gives out the share it has then or none, whatever it is called with. -/
theorem share_is_written_once :
    (∀ cfg limits planHash guard (c : Contribution F) plan (s : KeygenSession F G) out,
      startKeygen cfg limits planHash guard c plan = .ok (s, out) →
      ∀ (cache : ReplayCache) (calls : List Call),
        let t := (Run.final step ⟨s, cache⟩ calls).session
        t.Live → t.keyShare = none) ∧
    ∀ (h : Hosted (KeygenSession F G)) (calls : List Call), ¬ h.session.Live →
      emitted h calls = [] ∧ EndedAs h.session (Run.final step h calls).session := by
  refine ⟨fun _ _ _ _ _ _ _ _ hstart cache calls => ?_, fun h calls hended => ?_⟩
  · exact (run_sound hstart cache calls).1.unfinished
  · obtain ⟨os, htrace, hsub⟩ := run_trace h calls
    have hstep (sent : List Envelope) (t os u) (ht : sent = [] ∧ EndedAs h.session t)
        (hmove : Move t os u) : sent ++ os = [] ∧ EndedAs h.session u := by
      rw [ht.1]
      exact ht.2.move hmove
    obtain ⟨rfl, hend⟩ := htrace.inv_outputs hstep ⟨rfl, hended, .inl rfl⟩
    exact ⟨List.subset_nil.mp hsub, hend⟩

/-! ## Quorums -/

/-- A session gives the share out after some run. -/
def Exposed (k : KeyShareState F G) : Prop :=
  ∃ cfg limits planHash guard, ∃ (c : Contribution F) (plan : _) (s : KeygenSession F G) (out : _)
    (cache : ReplayCache) (calls : List Call),
    startKeygen cfg limits planHash guard c plan = .ok (s, out) ∧
    (Run.final step ⟨s, cache⟩ calls).session.keyShareResult = some k

theorem Exposed.checked {k : KeyShareState F G} (h : Exposed k) :
    k.validateConsistencyMaterial = .ok () ∧ k.party ≠ 0 := by
  obtain ⟨cfg, limits, planHash, guard, c, plan, s, out, cache, calls, hstart, hk⟩ := h
  have h := ((run_sound hstart cache calls).1.keyShare k (keyShare_of_result hk)).1.valid
  obtain ⟨-, -, -, hmaterial, -⟩ := KeyShareState.validateWithLimits_eq_ok h
  iterate 3 obtain ⟨-, h⟩ := seq_eq_ok.mp h
  obtain ⟨hvalid, -⟩ := seq_eq_ok.mp h
  simp only [KeyShareState.validateWithoutConfirmations, seq_eq_ok, rejectIf_eq_ok, mapError_eq_ok,
    not_not, validateStrictSortedIDs_eq_ok] at hvalid
  exact ⟨hmaterial, hvalid.2.2.1.2.1 _ hvalid.2.2.2.1⟩

/-- As many shares as the group has commitments, of different parties. -/
structure Quorum (points : List G) (quorum : List (KeyShareState F G)) : Prop where
  exposed : ∀ k ∈ quorum, Exposed k
  group : ∀ k ∈ quorum, k.groupCommitments = points
  distinct : (quorum.map (·.party)).Nodup
  count : points.length ≤ quorum.length

theorem Quorum.recombines {points : List G} {quorum : List (KeyShareState F G)}
    (h : Quorum points quorum) : ∃ weight : PartyID → F,
      (∀ k ∈ quorum, lagrangeCoefficientScalar k.party (quorum.map (·.party)) =
        .ok (weight k.party)) ∧
      baseMult (quorum.map fun k => weight k.party * k.secret).sum = points.headD 0 := by
  have hzero : (0 : PartyID) ∉ quorum.map (·.party) := by
    intro hmem
    obtain ⟨k, hk, hparty⟩ := List.mem_map.mp hmem
    exact (h.exposed k hk).checked.2 hparty
  have hnodes := h.distinct.map (partyScalar_injective (F := F) G)
  rw [List.map_map] at hnodes
  refine ⟨fun id => Lagrange.coefficient ((quorum.map (·.party)).map (partyScalar F))
    (partyScalar F id), fun k hk => ?_, ?_⟩
  · exact lagrangeCoefficientScalar_eq G h.distinct hzero (List.mem_map_of_mem hk)
  rw [List.map_map]
  refine (Lagrange.reconstructs hnodes).recombine h.count fun k hk => ?_
  have heval := KeyShare.evalCommitmentPoints_party (h.exposed k hk).checked.1
  rw [h.group k hk] at heval
  exact evalCommitmentPoints_eq_some heval

/-- A group has one secret: whatever was delivered to their sessions and whoever dealt, the
shares of every quorum recombine to it, and its point is the public key of them all. -/
theorem exposed_quorums_recombine (points : List G) : ∃ x : F,
    ∀ quorum : List (KeyShareState F G), Quorum points quorum → ∃ weight : PartyID → F,
      (quorum.map fun k => weight k.party * k.secret).sum = x ∧ ∀ k ∈ quorum,
        lagrangeCoefficientScalar k.party (quorum.map (·.party)) = .ok (weight k.party) ∧
        k.publicKey.val = (baseMult x : G) := by
  by_cases hsome : ∃ quorum : List (KeyShareState F G), Quorum points quorum
  · obtain ⟨quorum₀, hquorum₀⟩ := hsome
    obtain ⟨weight₀, -, hx⟩ := hquorum₀.recombines
    refine ⟨(quorum₀.map fun k => weight₀ k.party * k.secret).sum, fun quorum hquorum => ?_⟩
    obtain ⟨weight, hweight, hsum⟩ := hquorum.recombines
    refine ⟨weight, baseMult_injective (hsum.trans hx.symm), fun k hk => ⟨hweight k hk, ?_⟩⟩
    have hhead := (k.validateConsistencyMaterial_ok (hquorum.exposed k hk).checked.1).1
    rw [hquorum.group k hk] at hhead
    rw [hx, List.headD_eq_head?_getD, hhead]
    rfl
  · exact ⟨0, fun quorum hquorum => absurd ⟨quorum, hquorum⟩ hsome⟩

end KeygenSession

end Agreement

/-! ### Two parties -/

/-- A checksum of the bytes. -/
def checksum (b : Bytes) : Nat := b.foldl (fun h x => (h * 65599 + x.toNat + 1) % (2 ^ 89 - 1)) 0

/-- A digest that concrete runs are evaluated with: it reads the whole input. -/
@[reducible] def checksumDigest : Sha256 :=
  ⟨fun b => Vector.ofFn fun i : Fin 32 => UInt8.ofNat (checksum b / 256 ^ i.val)⟩

/-- A policy without certificates and signatures. -/
def plainPolicy (round : UInt8) (payloadType : GoString) (mode : DeliveryMode) :
    DeliveryPolicy where
  protocol := protocolFROSTEd25519
  round := round
  payloadType := payloadType
  mode := mode
  confidentiality := .optional
  broadcastConsistency := .none
  requireSenderSignature := false

namespace KeygenSession

/-- The configuration of one of two parties. -/
def pairConfig (self : PartyID) : ThresholdConfig := { sampleConfig with self }

def pairGuard (self : PartyID) : EnvelopeGuard where
  self := self
  protocol := protocolFROSTEd25519
  sessionID := Vector.replicate 32 1
  policies :=
    [plainPolicy keygenCommitmentRound payloadKeygenCommitments .broadcast,
      plainPolicy keygenShareRound payloadKeygenShare .direct,
      plainPolicy keygenConfirmationRound payloadKeygenConfirmation .broadcast]
  ackVerifier := some fun _ _ _ => none
  envelopeVerifier := none

/-- The delivery of an envelope by its sender. -/
def delivery (env : Envelope) : InboundEnvelope := ⟨env, ⟨env.sender, .confidential⟩, none⟩

/-- One of two parties starts. -/
def pairStart (self : PartyID) (polynomial : List SampleField) (code : UInt8) :
    Except GoError (KeygenSession SampleField SampleField × List Envelope) :=
  letI := sampleCurve
  letI := checksumDigest
  startKeygen (pairConfig self) defaultLimits (List.replicate 32 0) (pairGuard self)
    ⟨polynomial, List.replicate 32 code, (3 : ℕ)⟩ none

/-- The calls by which two parties that started deliver all they send to each other, and the
envelopes each has sent by then. -/
structure Exchange where
  callsA : List Call
  callsB : List Call
  sentA : List Envelope
  sentB : List Envelope

section Exchange

variable [Sha256]

/-- One more round: each party is delivered what the other has sent. -/
def Exchange.next (a b : KeygenSession F G × List Envelope) (x : Exchange) : Exchange :=
  let calls (sent : List Envelope) : List Call :=
    sent.map fun env => .handle .background (delivery env)
  { callsA := calls x.sentB
    callsB := calls x.sentA
    sentA := a.2 ++ emitted ⟨a.1, ⟨∅, 8⟩⟩ (calls x.sentB)
    sentB := b.2 ++ emitted ⟨b.1, ⟨∅, 8⟩⟩ (calls x.sentA) }

/-- The exchange of two parties that started, with its three rounds. -/
def exchange (a b : KeygenSession F G × List Envelope) : Exchange :=
  (((Exchange.mk [] [] a.2 b.2).next a b).next a b).next a b

/-- No two of the strings have one image. -/
def distinct {α : Type} [DecidableEq α] (f : Bytes → α) (l : List Bytes) : Bool :=
  decide (∀ t ∈ l, ∀ t' ∈ l, f t = f t' → t = t')

theorem injOn_of_distinct {α : Type} [DecidableEq α] {f : Bytes → α} {l l' : List Bytes}
    (h : distinct f (l ++ l') = true) : Set.InjOn f {t | t ∈ l ∨ t ∈ l'} := by
  intro t ht t' ht' heq
  exact of_decide_eq_true h t (List.mem_append.mpr ht) t' (List.mem_append.mpr ht') heq

/-- The confirmation in an envelope is the one that the share holds of the peer. -/
def holds (k : KeyShareState F G) (limits : Limits) (peer : PartyID) (env : Envelope) : Bool :=
  env.payloadType = payloadKeygenConfirmation &&
    match (KeygenConfirmation.unmarshal limits env.payload : Except GoError (KeygenConfirmation G)) with
    | .ok c => k.confirmations.lookup peer = some c
    | .error _ => false

theorem acceptedFrom_of_holds {k : KeyShareState F G} {limits : Limits} {peer : PartyID}
    {sent : List Envelope} (h : sent.any (holds k limits peer) = true) :
    AcceptedFrom k limits peer sent := by
  obtain ⟨env, henv, hholds⟩ := List.any_eq_true.mp h
  rw [holds, Bool.and_eq_true, decide_eq_true_eq] at hholds
  obtain ⟨htype, hread⟩ := hholds
  split at hread
  · next c hc => exact ⟨env, henv, c, htype, hc, of_decide_eq_true hread⟩
  · cases hread

/-- Both parties have completed, and the premises of their agreement hold. -/
def exchanged (a b : KeygenSession F G × List Envelope) (x : Exchange) : Bool :=
  let sA := (Run.final step ⟨a.1, ⟨∅, 8⟩⟩ x.callsA).session
  let sB := (Run.final step ⟨b.1, ⟨∅, 8⟩⟩ x.callsB).session
  match sA.keyShareResult, sB.keyShareResult with
  | some kA, some kB =>
    (b.2 ++ emitted ⟨b.1, ⟨∅, 8⟩⟩ x.callsB).any (holds kA defaultLimits 2) &&
      distinct sha256 (hashed sA kA ++ hashed sB kB) &&
      distinct (fun t => (deriveCanonicalNonZero G (sha256 t) : Option F))
        (challenged sA ++ challenged sB)
  | _, _ => false

end Exchange

end KeygenSession

end Tss.Frost
