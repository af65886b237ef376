import Tss.Lib.Bytes
import Tss.Lib.Fallible

/-!
# Parties and protocol errors (`types.go`, `errors.go`)

The vocabulary every protocol of the library shares.
-/

namespace Tss

/-- `tss.PartyID`: zero is reserved for broadcast. -/
abbrev PartyID := UInt32

abbrev PartySet := List PartyID

def broadcastPartyId : PartyID := 0

/-- The loop of `wire.ValidateStrictSortedIDs`: the identifiers that follow `last`. -/
def validateSortedFrom (last : PartyID) : PartySet → Except String Unit
  | [] => .ok ()
  | id :: ids => do
    rejectIf (id = 0) "party id 0 is reserved"
    rejectIf (id ≤ last) "party ids must be strictly increasing"
    validateSortedFrom id ids

def validateStrictSortedIDs : PartySet → Except String Unit
  | [] => .error "party set is empty"
  | id :: ids => do
    rejectIf (id = 0) "party id 0 is reserved"
    validateSortedFrom id ids

section

open Fallible

theorem pairwise_lt_cons_cons {a b : PartyID} {l : PartySet} :
    (a :: b :: l).Pairwise (· < ·) ↔ a < b ∧ (b :: l).Pairwise (· < ·) := by
  constructor
  · intro h
    obtain ⟨ha, hb⟩ := List.pairwise_cons.mp h
    exact ⟨ha b List.mem_cons_self, hb⟩
  · rintro ⟨hab, hb⟩
    refine List.pairwise_cons.mpr ⟨fun c hc => ?_, hb⟩
    obtain rfl | hc := List.mem_cons.mp hc
    · exact hab
    · exact UInt32.lt_trans hab ((List.pairwise_cons.mp hb).1 c hc)

theorem validateSortedFrom_eq_ok {last : PartyID} {ids : PartySet} :
    validateSortedFrom last ids = .ok () ↔
      (∀ id ∈ ids, id ≠ 0) ∧ (last :: ids).Pairwise (· < ·) := by
  induction ids generalizing last with
  | nil => simp [validateSortedFrom]
  | cons id ids ih =>
    simp only [validateSortedFrom, seq_eq_ok, rejectIf_eq_ok, ih, UInt32.not_le,
      List.forall_mem_cons, pairwise_lt_cons_cons]
    tauto

/-- The accepted party sets: non-empty, without the reserved identifier, increasing. -/
theorem validateStrictSortedIDs_eq_ok {ids : PartySet} :
    validateStrictSortedIDs ids = .ok () ↔
      ids ≠ [] ∧ (∀ id ∈ ids, id ≠ 0) ∧ ids.Pairwise (· < ·) := by
  cases ids with
  | nil => simp [validateStrictSortedIDs]
  | cons id ids =>
    simp only [validateStrictSortedIDs, seq_eq_ok, rejectIf_eq_ok, validateSortedFrom_eq_ok,
      List.forall_mem_cons]
    simp [and_assoc]

theorem nodup_of_validate {ids : PartySet} (h : validateStrictSortedIDs ids = .ok ()) :
    ids.Nodup := by
  refine (validateStrictSortedIDs_eq_ok.mp h).2.2.imp ?_
  rintro a b hab rfl
  exact UInt32.lt_irrefl a hab

end

/-- The codes of `tss.ProtocolError`. -/
inductive ErrorCode where
  | invalidConfig
  | invalidMessage
  | duplicate
  | round
  | verification
  | aggregateSignInvalid
  | notReady
  | consumed
  | completed
  | aborted
  | notImplemented
  | limitExceeded
  | tooManyParties
  | tooManySigners
  | payloadTooLarge
  | proofTooLarge
  | invariant
deriving DecidableEq, Repr

end Tss
