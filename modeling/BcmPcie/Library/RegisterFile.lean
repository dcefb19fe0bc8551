import Mathlib.Algebra.Ring.Nat
import Mathlib.Tactic.Common

/-! # Byte-addressed register files with hard-wired bits

A device's register space as one bit vector, together with the mask of the bits that a write can
change. A write of `w` bits at a byte offset replaces the writable bits of its field and leaves every
other bit of the space alone; a read returns the field as it stands. Nothing here depends on what
the registers mean, so any memory-mapped or configuration-space device can be described this way.

* `RegisterFile.read_write_disjoint` — a write leaves every non-overlapping field alone.
* `RegisterFile.read_write_of_agree` — a value that respects the hard-wired bits is read back.
* `RegisterFile.getLsbD_read_write` — the general per-bit law both are instances of.
* `RegisterFile.SameOutside` — agreement outside a list of byte ranges, which composes along a
  sequence of writes.
* `RegisterFile.SameDevice` — agreement on what no write can change, which every write keeps; what a
  register answers to a value written to it depends on nothing else, and neither does what a
  hard-wired field reads as (`SameDevice.read`).
* `RegisterFile.response_eq_iff` — which bits a register keeps, from its answers to all ones and to
  zero. -/

/-- A register space of `n` bytes: its contents and the mask of its writable bits. -/
structure RegisterFile (n : ℕ) where
  /-- The contents, byte `k` in bits `8 * k .. 8 * k + 7`. -/
  regs : BitVec (8 * n)
  /-- The bits a write can change; the others are hard-wired. -/
  rw : BitVec (8 * n)
  deriving DecidableEq

namespace RegisterFile

variable {n : ℕ}

/-- Read the `w`-bit field at byte offset `off`. -/
def read (f : RegisterFile n) (w off : ℕ) : BitVec w := f.regs.extractLsb' (8 * off) w

/-- The bits of the `w`-bit field at byte offset `off`. -/
def field (n w off : ℕ) : BitVec (8 * n) := (BitVec.allOnes w).setWidth (8 * n) <<< (8 * off)

/-- Write the `w`-bit field at byte offset `off`: its writable bits take the new value. -/
def write (f : RegisterFile n) (w off : ℕ) (v : BitVec w) : RegisterFile n :=
  let changed := f.rw &&& field n w off
  { f with regs := (f.regs &&& ~~~changed) ||| ((v.setWidth (8 * n) <<< (8 * off)) &&& changed) }

/-- The `w`-bit field at byte offset `off` has the writable bits of `mask`. -/
def Writable (f : RegisterFile n) (w off : ℕ) (mask : BitVec w) : Prop :=
  ∀ i < w, mask.getLsbD i = true → f.rw.getLsbD (8 * off + i) = true

@[simp] theorem write_rw (f : RegisterFile n) (w off : ℕ) (v : BitVec w) :
    (f.write w off v).rw = f.rw := rfl

@[simp] theorem writable_write (f : RegisterFile n) (w off w' off' : ℕ) (v : BitVec w)
    (mask : BitVec w') : (f.write w off v).Writable w' off' mask ↔ f.Writable w' off' mask :=
  Iff.rfl

/-- Bit `i` of a field is bit `8 * off + i` of the space. -/
@[simp] theorem getLsbD_read (f : RegisterFile n) (w off i : ℕ) :
    (f.read w off).getLsbD i = (decide (i < w) && f.regs.getLsbD (8 * off + i)) := by
  simp [read]

/-- A field as a number. -/
theorem toNat_read (f : RegisterFile n) (w off : ℕ) :
    (f.read w off).toNat = f.regs.toNat / 2 ^ (8 * off) % 2 ^ w := by
  rw [read, BitVec.extractLsb'_toNat, Nat.shiftRight_eq_div_pow]

/-- The two bytes of a word. -/
theorem toNat_read_mod (f : RegisterFile n) (off : ℕ) :
    (f.read 16 off).toNat % 256 = (f.read 8 off).toNat := by
  rw [toNat_read, toNat_read]
  exact Nat.mod_mod_of_dvd _ (by decide : 256 ∣ 2 ^ 16)

/-- The upper byte of a word is the byte behind its offset. -/
theorem toNat_read_div (f : RegisterFile n) (off : ℕ) :
    (f.read 16 off).toNat / 256 = (f.read 8 (off + 1)).toNat := by
  have hoff : 2 ^ (8 * (off + 1)) = 2 ^ (8 * off) * 256 := by
    rw [Nat.mul_succ, Nat.pow_add]
  rw [toNat_read, toNat_read, hoff, ← Nat.div_div_eq_div_mul]
  generalize f.regs.toNat / 2 ^ (8 * off) = x
  omega

/-- A byte of a doubleword. -/
theorem read_byte (f : RegisterFile n) (off : ℕ) {k : ℕ} (hk : k < 4) :
    (f.read 32 off >>> (8 * k) &&& 0xff).setWidth 8 = f.read 8 (off + k) := by
  have hmask : ∀ i : Fin 8, (0xff : BitVec 32).getLsbD i = true := by decide
  apply BitVec.eq_of_getLsbD_eq
  intro i hi
  have hoff : 8 * off + (8 * k + i) = 8 * (off + k) + i := by omega
  have hmask := hmask ⟨i, hi⟩
  dsimp only at hmask
  rw [BitVec.getLsbD_setWidth, BitVec.getLsbD_and, hmask, BitVec.getLsbD_ushiftRight, getLsbD_read,
    getLsbD_read, hoff]
  simp [hi, show 8 * k + i < 32 by omega]

/-- Bit `j` of the space lies in the field of `w` bits at byte offset `off`. -/
theorem getLsbD_field (n w off j : ℕ) :
    (field n w off).getLsbD j
      = (decide (j < 8 * n) && decide (8 * off ≤ j) && decide (j < 8 * off + w)) := by
  simp only [field, BitVec.getLsbD_shiftLeft, BitVec.getLsbD_setWidth, BitVec.getLsbD_allOnes]
  rw [Bool.eq_iff_iff]
  simp only [Bool.and_eq_true, Bool.not_eq_true', decide_eq_true_eq, decide_eq_false_iff_not]
  omega

/-- A write changes exactly the writable bits of its field. -/
theorem getLsbD_regs_write (f : RegisterFile n) (w off : ℕ) (v : BitVec w) (j : ℕ) :
    (f.write w off v).regs.getLsbD j
      = if f.rw.getLsbD j = true ∧ 8 * off ≤ j ∧ j < 8 * off + w then v.getLsbD (j - 8 * off)
        else f.regs.getLsbD j := by
  by_cases hj : j < 8 * n
  · simp only [write, BitVec.getLsbD_or, BitVec.getLsbD_and, BitVec.getLsbD_not, getLsbD_field,
      BitVec.getLsbD_shiftLeft, BitVec.getLsbD_setWidth, hj, decide_true, Bool.true_and,
      show j - 8 * off < 8 * n by omega]
    by_cases hin : 8 * off ≤ j ∧ j < 8 * off + w
    · have hge : ¬ j < 8 * off := by omega
      cases f.rw.getLsbD j <;> simp [hin, hge]
    · have hout : (decide (8 * off ≤ j) && decide (j < 8 * off + w)) = false := by simpa using hin
      simp [hin, hout]
  · rw [BitVec.getLsbD_of_ge _ _ (Nat.le_of_not_lt hj), if_neg,
      BitVec.getLsbD_of_ge _ _ (Nat.le_of_not_lt hj)]
    rintro ⟨h, -⟩
    rw [BitVec.getLsbD_of_ge _ _ (Nat.le_of_not_lt hj)] at h
    exact Bool.false_ne_true h

/-- A read after a write, bit by bit: the writable bits of the written field are new. -/
theorem getLsbD_read_write (f : RegisterFile n) (w off w' off' : ℕ) (v : BitVec w) (i : ℕ)
    (hi : i < w') :
    ((f.write w off v).read w' off').getLsbD i
      = if f.rw.getLsbD (8 * off' + i) = true ∧ 8 * off ≤ 8 * off' + i ∧ 8 * off' + i < 8 * off + w
        then v.getLsbD (8 * off' + i - 8 * off) else (f.read w' off').getLsbD i := by
  rw [getLsbD_read, getLsbD_regs_write, getLsbD_read]
  split <;> simp [hi]

/-- Two fields share no bit of the space. -/
def Apart (w off w' off' : ℕ) : Prop := 8 * off + w ≤ 8 * off' ∨ 8 * off' + w' ≤ 8 * off

instance (w off w' off' : ℕ) : Decidable (Apart w off w' off') := inferInstanceAs (Decidable (_ ∨ _))

/-- A write leaves every field it does not overlap alone. -/
theorem read_write_disjoint (f : RegisterFile n) {w off w' off' : ℕ} (v : BitVec w)
    (h : Apart w off w' off') : (f.write w off v).read w' off' = f.read w' off' := by
  apply BitVec.eq_of_getLsbD_eq
  intro i hi
  rw [getLsbD_read_write f w off w' off' v i hi, if_neg]
  unfold Apart at h
  omega

/-- A value that keeps the hard-wired bits of its field is read back as written. -/
theorem read_write_of_agree (f : RegisterFile n) (w off : ℕ) (v : BitVec w)
    (h : ∀ i < w, f.rw.getLsbD (8 * off + i) = false →
      v.getLsbD i = (f.read w off).getLsbD i) :
    (f.write w off v).read w off = v := by
  apply BitVec.eq_of_getLsbD_eq
  intro i hi
  rw [getLsbD_read_write f w off w off v i hi]
  by_cases hw : f.rw.getLsbD (8 * off + i) = true
  · rw [if_pos ⟨hw, by omega, by omega⟩, Nat.add_sub_cancel_left]
  · rw [if_neg (fun h' => hw h'.1)]
    exact (h i hi (by simpa using hw)).symm

/-- A value that differs from the field only inside a writable mask is read back as written. -/
theorem read_write_of_masked (f : RegisterFile n) (w off : ℕ) (v mask : BitVec w)
    (hmask : f.Writable w off mask) (hv : v &&& ~~~mask = f.read w off &&& ~~~mask) :
    (f.write w off v).read w off = v := by
  refine read_write_of_agree f w off v fun i hi hrw => ?_
  have hm : mask.getLsbD i = false := by
    by_contra hne
    rw [hmask i hi (by simpa using hne)] at hrw
    exact absurd hrw (by decide)
  have hbit := congrArg (BitVec.getLsbD · i) hv
  simpa only [BitVec.getLsbD_and, BitVec.getLsbD_not, hm, hi, decide_true, Bool.not_false,
    Bool.true_and, Bool.and_true] using hbit

/-! ## Frames -/

/-- Two register files agree outside the byte ranges `(offset, length)` of a list, and have the same
writable bits. -/
def SameOutside (ranges : List (ℕ × ℕ)) (f g : RegisterFile n) : Prop :=
  g.rw = f.rw ∧ ∀ w off, (∀ r ∈ ranges, Apart (8 * r.2) r.1 w off) → g.read w off = f.read w off

/-- A register file is the same as itself. -/
theorem SameOutside.refl (ranges : List (ℕ × ℕ)) (f : RegisterFile n) : SameOutside ranges f f :=
  ⟨rfl, fun _ _ _ => rfl⟩

/-- Registers the same outside some ranges are so outside more. -/
theorem SameOutside.mono {ranges ranges' : List (ℕ × ℕ)} {f g : RegisterFile n}
    (h : SameOutside ranges f g) (hsub : ∀ r ∈ ranges, r ∈ ranges') : SameOutside ranges' f g :=
  ⟨h.1, fun w off hap => h.2 w off fun r hr => hap r (hsub r hr)⟩

/-- Every range may grow. -/
theorem SameOutside.widen {ranges ranges' : List (ℕ × ℕ)} {f g : RegisterFile n}
    (h : SameOutside ranges f g)
    (hsub : ∀ r ∈ ranges, ∃ r' ∈ ranges', r'.1 ≤ r.1 ∧ r.1 + r.2 ≤ r'.1 + r'.2) :
    SameOutside ranges' f g := by
  refine ⟨h.1, fun w off hap => h.2 w off fun r hr => ?_⟩
  obtain ⟨r', hr', hlow, hhigh⟩ := hsub r hr
  have hap' := hap r' hr'
  unfold Apart at hap' ⊢
  omega

/-- Two steps with writes within the ranges have them together. -/
theorem SameOutside.trans {ranges : List (ℕ × ℕ)} {f g h : RegisterFile n}
    (hfg : SameOutside ranges f g) (hgh : SameOutside ranges g h) : SameOutside ranges f h :=
  ⟨hgh.1.trans hfg.1, fun w off hap => (hgh.2 w off hap).trans (hfg.2 w off hap)⟩

/-- A write changes nothing outside its own bytes. -/
theorem sameOutside_write (f : RegisterFile n) (len off : ℕ) (v : BitVec (8 * len))
    {ranges : List (ℕ × ℕ)} (hmem : (off, len) ∈ ranges) :
    SameOutside ranges f (f.write (8 * len) off v) :=
  ⟨rfl, fun _ _ hap => read_write_disjoint f v (hap _ hmem)⟩

/-- A write inside one of the ranges changes nothing outside them. -/
theorem sameOutside_write_of_within (f : RegisterFile n) (len off : ℕ) (v : BitVec (8 * len))
    {ranges : List (ℕ × ℕ)} {r : ℕ × ℕ} (hmem : r ∈ ranges) (hlow : r.1 ≤ off)
    (hhigh : off + len ≤ r.1 + r.2) : SameOutside ranges f (f.write (8 * len) off v) := by
  refine ⟨rfl, fun w' off' hap => read_write_disjoint f v ?_⟩
  have hr := hap r hmem
  unfold Apart at hr ⊢
  omega

/-! ## Hard-wired bits -/

/-- Two register files are states of one device: the same bits can be written, and the others read
the same. -/
def SameDevice (f g : RegisterFile n) : Prop :=
  g.rw = f.rw ∧ ∀ i, f.rw.getLsbD i = false → g.regs.getLsbD i = f.regs.getLsbD i

namespace SameDevice

variable {f g h : RegisterFile n}

/-- A device is the same as itself. -/
theorem refl (f : RegisterFile n) : SameDevice f f := ⟨rfl, fun _ _ => rfl⟩

/-- If one is the other after writes, the other is the one. -/
theorem symm (hfg : SameDevice f g) : SameDevice g f :=
  ⟨hfg.1.symm, fun i hi => (hfg.2 i (by rw [← hfg.1]; exact hi)).symm⟩

/-- The same device after some writes and after more. -/
theorem trans (hfg : SameDevice f g) (hgh : SameDevice g h) : SameDevice f h :=
  ⟨hgh.1.trans hfg.1, fun i hi => (hgh.2 i (by rw [hfg.1]; exact hi)).trans (hfg.2 i hi)⟩

/-- Writability is a matter of the device, not of its state. -/
theorem writable (hfg : SameDevice f g) {w off : ℕ} {mask : BitVec w} :
    g.Writable w off mask ↔ f.Writable w off mask := by
  unfold Writable
  rw [hfg.1]

end SameDevice

/-- The `w`-bit field at byte offset `off` has no writable bit. -/
def Hardwired (f : RegisterFile n) (w off : ℕ) : Prop :=
  ∀ i < w, f.rw.getLsbD (8 * off + i) = false

instance (f : RegisterFile n) (w off : ℕ) : Decidable (f.Hardwired w off) :=
  inferInstanceAs (Decidable (∀ i < w, _))

/-- A hard-wired field reads the same in every state of a device. -/
theorem SameDevice.read {f g : RegisterFile n} (h : SameDevice f g) {w off : ℕ}
    (hfixed : f.Hardwired w off) : g.read w off = f.read w off := by
  apply BitVec.eq_of_getLsbD_eq
  intro i hi
  rw [getLsbD_read, getLsbD_read, h.2 _ (hfixed i hi)]

/-- A write leaves the device the same. -/
theorem sameDevice_write (f : RegisterFile n) (w off : ℕ) (v : BitVec w) :
    SameDevice f (f.write w off v) := by
  refine ⟨rfl, fun i hi => ?_⟩
  rw [getLsbD_regs_write, if_neg]
  rintro ⟨hrw, -⟩
  rw [hi] at hrw
  exact Bool.false_ne_true hrw

/-- What a register reads as once a value has been written to it. -/
def response (f : RegisterFile n) (w off : ℕ) (v : BitVec w) : BitVec w :=
  (f.write w off v).read w off

/-- What a register answers, bit by bit: the value where it can be written. -/
theorem getLsbD_response (f : RegisterFile n) (w off : ℕ) (v : BitVec w) {i : ℕ} (hi : i < w) :
    (f.response w off v).getLsbD i
      = if f.rw.getLsbD (8 * off + i) = true then v.getLsbD i else (f.read w off).getLsbD i := by
  unfold response
  rw [getLsbD_read_write f w off w off v i hi, Nat.add_sub_cancel_left]
  by_cases hrw : f.rw.getLsbD (8 * off + i) = true
  · rw [if_pos ⟨hrw, by omega, by omega⟩, if_pos hrw]
  · rw [if_neg (fun h => hrw h.1), if_neg hrw]

/-- The answer to a written value is the same in every state of a device. -/
theorem SameDevice.response {f g : RegisterFile n} (h : SameDevice f g) (w off : ℕ) (v : BitVec w) :
    g.response w off v = f.response w off v := by
  apply BitVec.eq_of_getLsbD_eq
  intro i hi
  rw [getLsbD_response g w off v hi, getLsbD_response f w off v hi, h.1]
  by_cases hrw : f.rw.getLsbD (8 * off + i) = true
  · rw [if_pos hrw, if_pos hrw]
  · rw [if_neg hrw, if_neg hrw, getLsbD_read, getLsbD_read, h.2 _ (by simpa using hrw)]

/-- A register keeps the bits of `m` and answers those of `c` besides, just when it does so for all
ones and for zero. -/
theorem response_eq_iff (f : RegisterFile n) (w off : ℕ) (m c : BitVec w) :
    (∀ v, f.response w off v = (v &&& m) ||| c) ↔
      f.response w off (BitVec.allOnes w) = m ||| c ∧ f.response w off 0 = c := by
  constructor
  · intro h
    exact ⟨by rw [h, BitVec.allOnes_and], by rw [h]; simp⟩
  · rintro ⟨hones, hzero⟩ v
    apply BitVec.eq_of_getLsbD_eq
    intro i hi
    have hone := congrArg (BitVec.getLsbD · i) hones
    have hnull := congrArg (BitVec.getLsbD · i) hzero
    simp only [getLsbD_response _ _ _ _ hi, BitVec.getLsbD_or, BitVec.getLsbD_allOnes, hi,
      decide_true, BitVec.ofNat_eq_ofNat, BitVec.getLsbD_zero] at hone hnull
    rw [getLsbD_response _ _ _ _ hi, BitVec.getLsbD_or, BitVec.getLsbD_and]
    split at hone
    · rename_i hrw
      rw [if_pos hrw] at hnull ⊢
      rw [← hnull, Bool.or_false] at hone ⊢
      rw [← hone, Bool.and_true]
    · rename_i hrw
      rw [if_neg hrw] at hnull ⊢
      rw [hnull] at hone ⊢
      cases hc : c.getLsbD i
      · rw [hc, Bool.or_false] at hone
        rw [← hone, Bool.and_false]
        rfl
      · rw [Bool.or_true]

/-- Bits that the answer to their own mask has not are in no answer. -/
theorem response_and_ne_zero (f : RegisterFile n) (w off : ℕ) {v m : BitVec w}
    (h : f.response w off v &&& m ≠ 0) : f.response w off m &&& m ≠ 0 := by
  intro hnone
  apply h
  apply BitVec.eq_of_getLsbD_eq
  intro i hi
  have hbit := congrArg (BitVec.getLsbD · i) hnone
  simp only [BitVec.getLsbD_and, getLsbD_response _ _ _ _ hi, BitVec.ofNat_eq_ofNat,
    BitVec.getLsbD_zero] at hbit ⊢
  cases hm : m.getLsbD i
  · rw [Bool.and_false]
  · rw [hm] at hbit
    split at hbit
    · exact absurd hbit (by decide)
    · rename_i hrw
      rw [if_neg hrw]
      exact hbit

/-- A value that has the bits of a mask is answered with them, as the mask itself is. -/
theorem response_and_of_set (f : RegisterFile n) (w off : ℕ) {v m : BitVec w} (h : v &&& m = m) :
    f.response w off v &&& m = f.response w off m &&& m := by
  apply BitVec.eq_of_getLsbD_eq
  intro i hi
  have hbit := congrArg (BitVec.getLsbD · i) h
  simp only [BitVec.getLsbD_and, getLsbD_response _ _ _ _ hi] at hbit ⊢
  cases hm : m.getLsbD i
  · rw [Bool.and_false, Bool.and_false]
  · rw [hm, Bool.and_true] at hbit
    rw [hbit]

end RegisterFile
