import Tss.Guard
import Tss.Lib.Run

/-!
# Guards that share a replay cache (`guard.go`, `replay.go`)

`Validate` and `ValidateWithParties` end with a look at the replay cache,
`ValidateWithoutReplay` does not. The cache is the only state of the three,
and only an accepted delivery or the retirement of a session writes to it:
a step either fails and leaves the cache alone, or fills one free slot, or
drops the slots of one session.
-/

namespace Tss

open Fallible

/-! ## Calls -/

def ReplayCache.retireSession (protocol : GoString) (sessionID : Array32) (c : ReplayCache) :
    Except GoError ReplayCache := do
  rejectIf (protocol = []) (.new "replay cache protocol is empty")
  rejectIf (sessionID = zero32) (.sentinel .invalidSessionID)
  pure { c with seen := c.seen.filter fun slot _ =>
    !(slot.protocol = protocol && slot.sessionID = sessionID) }

/-- A guard with its construction-time parties. -/
structure PartyGuard extends EnvelopeGuard where
  parties : PartySet

/-- A call on one of the guards or on their cache. -/
inductive GuardCall where
  | validate (g : PartyGuard) (env : InboundEnvelope)
  | validateWithParties (g : EnvelopeGuard) (env : InboundEnvelope) (parties : PartySet)
  | validateWithoutReplay (g : EnvelopeGuard) (env : InboundEnvelope) (parties : PartySet)
  | retireSession (protocol : GoString) (sessionID : Array32)

section Run

variable [Sha256]

def EnvelopeGuard.validateWithParties (g : EnvelopeGuard) (env : InboundEnvelope)
    (parties : PartySet) (commitReplay : Bool) (cache : ReplayCache) :
    Except GoError ReplayCache := do
  g.validateWithoutReplay env parties
  if commitReplay then reserveReplaySlot env.env cache else pure cache

namespace GuardCall

/-- What a call makes of the cache. -/
def apply (cache : ReplayCache) : GuardCall → Except GoError ReplayCache
  | .validate g env => g.toEnvelopeGuard.validateWithParties env g.parties true cache
  | .validateWithParties g env parties => g.validateWithParties env parties true cache
  | .validateWithoutReplay g env parties => g.validateWithParties env parties false cache
  | .retireSession protocol sessionID => cache.retireSession protocol sessionID

/-- A call: its outcome and the cache it leaves. -/
def step (cache : ReplayCache) (call : GuardCall) : Except GoError Unit × ReplayCache :=
  match call.apply cache with
  | .error err => (.error err, cache)
  | .ok cache => (.ok (), cache)

/-- The envelope whose slot a call reserves, if it is accepted. -/
def reserves : GuardCall → Option Envelope
  | .validate _ env => some env.env
  | .validateWithParties _ env _ => some env.env
  | .validateWithoutReplay _ _ _ => none
  | .retireSession _ _ => none

/-- A delivery that was not accepted. -/
def rejected (call : GuardCall) (outcome : Except GoError Unit) : Bool :=
  match call, outcome with
  | .retireSession _ _, _ => false
  | _, .error _ => true
  | _, .ok () => false

/-! ## What a call does to the cache -/

/-- The outcomes of a call, with the cache each leaves. -/
inductive Effect (cache : ReplayCache) : GuardCall → Except GoError Unit → ReplayCache → Prop
  | failed (call : GuardCall) (err : GoError) : Effect cache call (.error err) cache
  | reserved (call : GuardCall) (e : Envelope) (hcall : call.reserves = some e)
      (hfree : cache.seen.lookup e.slotKey = none) :
      Effect cache call (.ok ()) { cache with seen := cache.seen.insert e.slotKey e.payloadHash }
  | looked (g : EnvelopeGuard) (env : InboundEnvelope) (parties : PartySet) :
      Effect cache (.validateWithoutReplay g env parties) (.ok ()) cache
  | retired (protocol : GoString) (sessionID : Array32) :
      Effect cache (.retireSession protocol sessionID) (.ok ())
        { cache with seen := cache.seen.filter fun slot _ =>
          !(slot.protocol = protocol && slot.sessionID = sessionID) }

variable {cache : ReplayCache}

theorem apply_effect {next : ReplayCache} {call : GuardCall} (h : call.apply cache = .ok next) :
    Effect cache call (.ok ()) next := by
  cases call with
  | validate g env =>
    obtain ⟨-, h⟩ := seq_eq_ok.mp h
    obtain ⟨hfree, rfl⟩ := reserveReplaySlot_eq_ok h
    exact .reserved _ env.env rfl hfree
  | validateWithParties g env parties =>
    obtain ⟨-, h⟩ := seq_eq_ok.mp h
    obtain ⟨hfree, rfl⟩ := reserveReplaySlot_eq_ok h
    exact .reserved _ env.env rfl hfree
  | validateWithoutReplay g env parties =>
    obtain ⟨-, h⟩ := seq_eq_ok.mp h
    obtain rfl : cache = next := Except.ok.inj h
    exact .looked g env parties
  | retireSession protocol sessionID =>
    iterate 2 obtain ⟨-, h⟩ := seq_eq_ok.mp h
    cases h
    exact .retired protocol sessionID

theorem step_effect (cache : ReplayCache) (call : GuardCall) :
    Effect cache call (step cache call).1 (step cache call).2 := by
  unfold step
  split
  · exact .failed call _
  · next next happly => exact apply_effect happly

theorem step_error {call : GuardCall} {err : GoError} (h : (step cache call).1 = .error err) :
    (step cache call).2 = cache := by
  have heffect := step_effect cache call
  rw [h] at heffect
  generalize (step cache call).2 = next at heffect ⊢
  cases heffect
  rfl

/-- A reserving call that succeeds fills the free slot of its envelope. -/
theorem step_reserves {call : GuardCall} {e : Envelope} (hcall : call.reserves = some e)
    (h : (step cache call).1 = .ok ()) :
    cache.seen.lookup e.slotKey = none ∧
      (step cache call).2.seen = cache.seen.insert e.slotKey e.payloadHash := by
  have heffect := step_effect cache call
  rw [h] at heffect
  generalize (step cache call).2 = next at heffect ⊢
  cases heffect with
  | reserved _ e' hcall' hfree =>
    rw [hcall, Option.some.injEq] at hcall'
    subst hcall'
    exact ⟨hfree, rfl⟩
  | looked => cases hcall
  | retired => cases hcall

/-- A filled slot stays filled, unless its session is retired. -/
theorem step_keeps {call : GuardCall} {slot : MessageSlotKey}
    (hcall : call ≠ .retireSession slot.protocol slot.sessionID)
    (hslot : cache.seen.lookup slot ≠ none) : (step cache call).2.seen.lookup slot ≠ none := by
  have heffect := step_effect cache call
  generalize (step cache call).1 = outcome at heffect
  generalize (step cache call).2 = next at heffect ⊢
  cases heffect with
  | failed => exact hslot
  | reserved _ e =>
    rw [FMap.lookup_insert_ite]
    split
    · simp
    · exact hslot
  | looked => exact hslot
  | retired protocol sessionID =>
    obtain ⟨hash, hhash⟩ := Option.ne_none_iff_exists'.mp hslot
    have hother : slot.protocol = protocol → slot.sessionID ≠ sessionID := by
      intro hprotocol hsession
      rw [hprotocol, hsession] at hcall
      exact hcall rfl
    have hkept : (cache.seen.filter fun slot _ =>
        !(slot.protocol = protocol && slot.sessionID = sessionID)).lookup slot = some hash := by
      rw [FMap.lookup_filter_eq_some]
      refine ⟨hhash, ?_⟩
      by_cases hprotocol : slot.protocol = protocol
      · simp [hprotocol, hother hprotocol]
      · simp [hprotocol]
    rw [hkept]
    simp

theorem final_keeps {slot : MessageSlotKey} {calls : List GuardCall}
    (hcalls : GuardCall.retireSession slot.protocol slot.sessionID ∉ calls)
    (hslot : cache.seen.lookup slot ≠ none) :
    (Run.final step cache calls).seen.lookup slot ≠ none := by
  induction calls generalizing cache with
  | nil => exact hslot
  | cons call calls ih =>
    rw [List.mem_cons, not_or] at hcalls
    exact ih hcalls.2 (step_keeps (Ne.symm hcalls.1) hslot)

/-! ## Sequences of calls -/

/-- Once a slot is reserved, no call reserves it again before its session is retired. -/
theorem reserved_once {before between : List GuardCall} {first second : GuardCall} {e e' : Envelope}
    (hfirst : first.reserves = some e) (hsecond : second.reserves = some e')
    (hslot : e.slotKey = e'.slotKey)
    (hretire : GuardCall.retireSession e.protocol e.sessionID ∉ between)
    (hok : (step (Run.final step cache before) first).1 = .ok ()) :
    (step (Run.final step cache (before ++ first :: between)) second).1 ≠ .ok () := by
  intro hok'
  rw [Run.final_append, Run.final_cons] at hok'
  have hfilled := (step_reserves hfirst hok).2
  have hkept : (Run.final step (step (Run.final step cache before) first).2
      between).seen.lookup e.slotKey ≠ none := by
    apply final_keeps hretire
    rw [hfilled, FMap.lookup_insert_ite]
    simp
  exact hkept (hslot ▸ (step_reserves hsecond hok').1)

/-- The calls of a sequence with their outcomes. -/
def history (cache : ReplayCache) (calls : List GuardCall) :
    List (GuardCall × Except GoError Unit) :=
  calls.zip (Run.outputs step cache calls)

/-- Without its rejected deliveries a sequence has the same outcomes. -/
theorem outputs_accepted (cache : ReplayCache) (calls : List GuardCall) :
    let accepted := (history cache calls).filter fun p => !rejected p.1 p.2
    Run.outputs step cache (accepted.map Prod.fst) = accepted.map Prod.snd := by
  induction calls generalizing cache with
  | nil => rfl
  | cons call calls ih =>
    have hhistory : history cache (call :: calls) =
        (call, (step cache call).1) :: history (step cache call).2 calls := rfl
    rw [hhistory, List.filter_cons]
    by_cases hrejected : rejected call (step cache call).1 = true
    · -- the rejected call is dropped, and it left the cache as it was
      have herror : ∃ err, (step cache call).1 = .error err := by
        cases hstep : (step cache call).1 with
        | error err => exact ⟨err, rfl⟩
        | ok u =>
          rw [hstep] at hrejected
          cases call <;> simp [rejected] at hrejected
      obtain ⟨err, herror⟩ := herror
      simp only [hrejected, Bool.not_true, if_false, Bool.false_eq_true]
      rw [step_error herror]
      exact ih cache
    · simp only [hrejected, Bool.not_false, if_true, List.map_cons]
      rw [Run.outputs, ih]

/-- Guards over one cache: the calls that reserve a slot accept one payload in it until its session
is retired, a rejected call changes nothing, and a sequence without its rejected deliveries has
the outcomes it had. -/
theorem one_payload_per_slot (cache : ReplayCache) :
    (∀ (before between : List GuardCall) (first second : GuardCall) (e e' : Envelope),
      first.reserves = some e → second.reserves = some e' → e.slotKey = e'.slotKey →
      GuardCall.retireSession e.protocol e.sessionID ∉ between →
      (step (Run.final step cache before) first).1 = .ok () →
      (step (Run.final step cache (before ++ first :: between)) second).1 ≠ .ok ()) ∧
    (∀ (before : List GuardCall) (call : GuardCall) (err : GoError),
      (step (Run.final step cache before) call).1 = .error err →
      Run.final step cache (before ++ [call]) = Run.final step cache before) ∧
    (∀ calls : List GuardCall,
      let accepted := (history cache calls).filter fun p => !rejected p.1 p.2
      Run.outputs step cache (accepted.map Prod.fst) = accepted.map Prod.snd) := by
  refine ⟨?_, ?_, outputs_accepted cache⟩
  · intro before between first second e e' hfirst hsecond hslot hretire hok
    exact reserved_once hfirst hsecond hslot hretire hok
  · intro before call err herror
    rw [Run.final_append]
    exact step_error herror

end GuardCall

end Run

/-! ## A call that reserves nothing -/

/-- A guard of party 2 whose one policy asks for nothing but a broadcast. -/
def openGuard : EnvelopeGuard where
  self := 2
  protocol := lit "p"
  sessionID := Vector.replicate 32 1
  policies := [⟨lit "p", 1, lit "t", .broadcast, .optional, .none, false⟩]
  ackVerifier := none
  envelopeVerifier := none

/-- A broadcast of party 1 with the given payload. -/
def openDelivery (payload : Bytes) : InboundEnvelope where
  env := ⟨lit "p", Vector.replicate 32 1, 1, 1, 0, lit "t", payload, []⟩
  receiveInfo := ⟨1, .plaintext⟩
  broadcast := none

/-- `ValidateWithoutReplay` accepts two payloads in one slot. -/
theorem two_payloads_without_replay :
    letI := Sha256.firstBytes
    Run.outputs GuardCall.step ⟨∅, 1⟩
        [.validateWithoutReplay openGuard (openDelivery [1]) [1, 2],
          .validateWithoutReplay openGuard (openDelivery [2]) [1, 2]] = [.ok (), .ok ()] ∧
      (openDelivery [1]).env.slotKey = (openDelivery [2]).env.slotKey ∧
      (openDelivery [1]).env.payloadHash ≠ (openDelivery [2]).env.payloadHash := by
  refine ⟨rfl, rfl, ?_⟩
  decide

end Tss
