import Mathlib.Algebra.Ring.Nat
import Mathlib.Data.Nat.Log
import BcmPcie.Library.BitFields

/-! # Helpers of emu68-common

The back-end uses a few helpers that are not part of the repository. They come as a parameter, with
what their names say as its laws.

* `Emu68Common` — the helpers.
* `Emu68Common.plain` — helpers that obey the laws. -/

namespace BcmPcie

/-- The helpers that the back-end takes from emu68-common. -/
structure Emu68Common where
  /-- `log2_floor_u64` -/
  log2FloorU64 : BitVec 64 → BitVec 32
  /-- `round_up_pow2_u64` -/
  roundUpPow2U64 : BitVec 64 → BitVec 64
  /-- `u32_update_mask`: the value of the register, the number and the mask of its field. -/
  u32UpdateMask : BitVec 32 → BitVec 32 → BitVec 32 → BitVec 32
  /-- `DT_GetNumber`: the number in a row of cells. -/
  dtGetNumber : List (BitVec 32) → BitVec 64
  log2FloorU64_eq : ∀ v n, 2 ^ n ≤ v.toNat → v.toNat < 2 ^ (n + 1) → (log2FloorU64 v).toNat = n
  roundUpPow2U64_eq : ∀ v n, 0 < v.toNat → v.toNat ≤ 2 ^ n → (∀ m < n, 2 ^ m < v.toNat) → n < 64 →
    (roundUpPow2U64 v).toNat = 2 ^ n
  u32UpdateMask_eq : ∀ x v mask s n, BitFields.IsField mask s n → 0 < n →
    u32UpdateMask x v mask = BitFields.insert x v mask s
  dtGetNumber_eq : ∀ cells, dtGetNumber cells
    = cells.foldl (fun (n : BitVec 64) cell => n <<< 32 ||| cell.setWidth 64) 0

namespace Emu68Common

/-- The bit a mask starts at. -/
def firstBit (mask : BitVec 32) : ℕ := ((List.range 32).find? mask.getLsbD).getD 0

/-- The first bit of a field is where it starts. -/
theorem firstBit_eq {mask : BitVec 32} {s n : ℕ} (h : BitFields.IsField mask s n) (hn : 0 < n) :
    firstBit mask = s := by
  have hfit := h.1
  have hfound : (List.range 32).find? mask.getLsbD = some s := by
    rw [List.find?_range_eq_some]
    refine ⟨?_, List.mem_range.2 (by omega), fun j hj => ?_⟩
    · rw [h.2 s (by omega)]
      exact decide_eq_true ⟨le_rfl, by omega⟩
    · rw [h.2 j (by omega), decide_eq_false (by omega), Bool.not_false]
  unfold firstBit
  rw [hfound]
  rfl

/-- Helpers that obey the laws. -/
def plain : Emu68Common where
  log2FloorU64 v := BitVec.ofNat 32 (Nat.log 2 v.toNat)
  roundUpPow2U64 v := BitVec.ofNat 64 (2 ^ Nat.clog 2 v.toNat)
  u32UpdateMask x v mask := BitFields.insert x v mask (firstBit mask)
  dtGetNumber cells := cells.foldl (fun (n : BitVec 64) cell => n <<< 32 ||| cell.setWidth 64) 0
  log2FloorU64_eq v n hlow hhigh := by
    have hlog : Nat.log 2 v.toNat = n := Nat.log_eq_of_pow_le_of_lt_pow hlow hhigh
    have hn : n < 64 := (Nat.pow_lt_pow_iff_right (by decide)).1 (hlow.trans_lt v.isLt)
    rw [hlog, BitVec.toNat_ofNat]
    omega
  roundUpPow2U64_eq v n _ hle hlt hn := by
    have hclog : Nat.clog 2 v.toNat = n := by
      apply le_antisymm (Nat.clog_le_of_le_pow hle)
      by_contra hless
      exact absurd (Nat.le_pow_clog (by decide : 1 < 2) v.toNat)
        (Nat.not_le.2 (hlt _ (Nat.not_le.1 hless)))
    have hpow : 2 ^ n < 2 ^ 64 := Nat.pow_lt_pow_right (by decide) hn
    rw [hclog, BitVec.toNat_ofNat, Nat.mod_eq_of_lt hpow]
  u32UpdateMask_eq x v mask s n hfield hn := by rw [firstBit_eq hfield hn]
  dtGetNumber_eq _ := rfl

end Emu68Common

end BcmPcie
