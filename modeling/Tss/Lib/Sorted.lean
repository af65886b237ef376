import Mathlib.Data.List.Sort
import Mathlib.Data.List.Lex
import Mathlib.Data.Multiset.Basic
import Mathlib.Order.Lex
import Mathlib.Tactic.Common

/-!
# The order on bytes

It makes the order on strings bytewise.
-/

namespace Tss

/-- Bytes in the order of their values. -/
instance linearOrderUInt8 : LinearOrder UInt8 where
  le_refl a := UInt8.le_refl a
  le_trans a b c := UInt8.le_trans
  lt_iff_le_not_ge a b := by
    rw [UInt8.not_le]
    exact ⟨fun h => ⟨UInt8.le_of_lt h, h⟩, fun h => h.2⟩
  le_antisymm a b := UInt8.le_antisymm
  le_total a b := UInt8.le_total a b
  toDecidableLE := inferInstance
  toDecidableLT := inferInstance
  toDecidableEq := inferInstance

end Tss
