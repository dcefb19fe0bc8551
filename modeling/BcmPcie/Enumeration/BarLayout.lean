import BcmPcie.Enumeration.RegionCalls
import BcmPcie.Enumeration.SetupDevice

/-! # The base address registers of a function

What a function decodes, slot by slot, as the bus specification has it: I/O addresses of 16 or 32
bits, memory addresses of 32 or 64, a power of two of them. A BAR keeps the address bits above its
size and answers the bits that say what it is; one of 64 bits has the register behind it for the upper
half of its address. `pciauto_setup_device` finds all this out by writing all ones.

* `BarLayout`, `LaidOut` — the BARs of a function, and the registers that go with them.
* `Bar.isMem64Bar_response`, `Bar.toNat_barSize` — what the code makes of the answer of a BAR.
* `Bar.and_lowMask_eq_iff`, `Implements.heldAddress` — when a BAR holds the address written to it. -/

namespace BcmPcie

variable {σ : Type*}

/-! ## Bits of powers of two -/

/-- The bits from `a` up to `b`. -/
theorem testBit_two_pow_sub {a b : ℕ} (h : a ≤ b) (i : ℕ) :
    (2 ^ b - 2 ^ a).testBit i = decide (a ≤ i ∧ i < b) := by
  have hsplit : 2 ^ b - 2 ^ a = 2 ^ a * (2 ^ (b - a) - 1) := by
    rw [Nat.mul_sub, ← Nat.pow_add, Nat.mul_one, Nat.add_sub_cancel' h]
  rw [hsplit, Nat.testBit_two_pow_mul, Nat.testBit_two_pow_sub_one, Bool.eq_iff_iff]
  simp only [Bool.and_eq_true, decide_eq_true_eq]
  omega

/-- A multiple of a power of two has no bit below it. -/
theorem testBit_of_dvd {a n i : ℕ} (h : 2 ^ a ∣ n) (hi : i < a) : n.testBit i = false := by
  obtain ⟨q, rfl⟩ := h
  rw [Nat.testBit_two_pow_mul, decide_eq_false (by omega : ¬ a ≤ i), Bool.false_and]

/-! ## Aligned addresses -/

/-- The predecessor of a multiple of a power of two has all bits below it. -/
theorem testBit_sub_one_of_dvd {k : ℕ} (hk : k ≤ 32) {size : BitVec 32} (h : 2 ^ k ∣ size.toNat)
    {i : ℕ} (hi : i < k) : (size - 1).getLsbD i = true := by
  have hneg : size - 1 = ~~~(-size) := by
    rw [BitVec.not_neg]
    rfl
  have hdvd : 2 ^ k ∣ (-size).toNat := by
    rw [BitVec.toNat_neg]
    exact (Nat.dvd_mod_iff (Nat.pow_dvd_pow 2 hk)).2 (Nat.dvd_sub (Nat.pow_dvd_pow 2 hk) h)
  have hbit : (-size).getLsbD i = false := testBit_of_dvd hdvd hi
  rw [hneg, BitVec.getLsbD_not, hbit, decide_eq_true (by omega)]
  rfl

/-- A granted address is aligned to any power of two that divides the size. -/
theorem dvd_address {k : ℕ} (hk : k ≤ 32) {lower size : BitVec 32} (h : 2 ^ k ∣ size.toNat) :
    2 ^ k ∣ (((lower - 1) ||| (size - 1)) + 1).toNat := by
  have hones : ((lower - 1) ||| (size - 1)).toNat % 2 ^ k = 2 ^ k - 1 := by
    apply Nat.eq_of_testBit_eq
    intro i
    rw [Nat.testBit_mod_two_pow, Nat.testBit_two_pow_sub_one]
    by_cases hi : i < k
    · have hbit : ((lower - 1) ||| (size - 1)).getLsbD i = true := by
        rw [BitVec.getLsbD_or, testBit_sub_one_of_dvd hk h hi, Bool.or_true]
      rw [decide_eq_true hi, Bool.true_and]
      exact hbit
    · rw [decide_eq_false hi, Bool.false_and]
  have hpos := Nat.two_pow_pos k
  rw [toNat_add_one]
  refine (Nat.dvd_mod_iff (Nat.pow_dvd_pow 2 hk)).2 (Nat.dvd_of_mod_eq_zero ?_)
  rw [Nat.add_mod, hones]
  rcases Nat.eq_zero_or_pos k with rfl | hkpos
  · rfl
  · have hone : 1 < 2 ^ k := Nat.one_lt_two_pow hkpos.ne'
    rw [Nat.mod_eq_of_lt hone, Nat.sub_add_cancel hpos, Nat.mod_self]

/-- The address granted is a multiple of every power of two that divides the size. -/
theorem PciController.allocate_dvd {pcie pcie' : PciController σ} {p : Option ℕ}
    {size addr : BitVec 32} {supports64bit : Bool} {k : ℕ} (hk : k ≤ 32)
    (hdvd : 2 ^ k ∣ size.toNat)
    (h : pcie.allocate p size supports64bit = some (addr, pcie')) : 2 ^ k ∣ addr.toNat := by
  unfold PciController.allocate at h
  obtain ⟨⟨addr', res'⟩, hr, heq⟩ := Option.map_eq_some_iff.1 h
  obtain ⟨rfl, -⟩ := Prod.mk.inj heq
  cases hres : pcie.region p with
  | none =>
    rw [hres] at hr
    cases hr
  | some res =>
    rw [hres, pciautoRegionAllocate_some] at hr
    split at hr
    · obtain ⟨rfl, -⟩ := Prod.mk.inj (Option.some.inj hr)
      exact dvd_address hk hdvd
    · cases hr

/-! ## Decoders -/

/-- How a BAR decodes addresses: I/O of 16 or 32 bits, memory of 32 or 64. -/
inductive BarDecoder
  | io16 | io32
  | mem32 (prefetch : Bool)
  | mem64 (prefetch : Bool)
  deriving DecidableEq, Repr

namespace BarDecoder

/-- The bits of an address it compares. -/
def width : BarDecoder → ℕ
  | io16 => 16
  | io32 | mem32 _ => 32
  | mem64 _ => 64

/-- The bits of the register below the address. -/
def flagBits : BarDecoder → ℕ
  | io16 | io32 => 2
  | mem32 _ | mem64 _ => 4

/-- The flag bits of its register. -/
def flagMask : BarDecoder → BitVec 32
  | io16 | io32 => 0x3#32
  | mem32 _ | mem64 _ => 0xf#32

/-- What these bits say. -/
def flags : BarDecoder → BitVec 32
  | io16 | io32 => 0x1#32
  | mem32 prefetch => if prefetch then 0x8#32 else 0x0#32
  | mem64 prefetch => if prefetch then 0xc#32 else 0x4#32

/-- The space it decodes. -/
def type : BarDecoder → BarType
  | io16 | io32 => .io
  | mem32 _ | mem64 _ => .mem

/-- The BAR has a second register. -/
def is64 : BarDecoder → Bool
  | mem64 _ => true
  | _ => false

variable (d : BarDecoder)

/-- The flag bits are the lowest bits of the register. -/
theorem flagMask_lt : d.flagMask.toNat < 2 ^ d.flagBits := by
  cases d <;> simp [flagMask, flagBits]

/-- No BAR is wider than 64 bits. -/
theorem width_le : d.width ≤ 64 := by
  cases d <;> simp [width]

/-- The flags lie within the flag bits. -/
theorem flags_and_flagMask : d.flags &&& d.flagMask = d.flags := by
  rcases d with _ | _ | (_ | _) | (_ | _) <;> decide

/-- The masks that the code takes the address with. -/
theorem not_flagMask :
    ~~~d.flagMask = if d.type = .io then pciBaseAddressIoMask else pciBaseAddressMemMask := by
  rcases d with _ | _ | (_ | _) | (_ | _) <;> decide

/-- Bit 0, which tells I/O from memory, is a flag bit. -/
theorem flagMask_and_space : d.flagMask &&& pciBaseAddressSpace = pciBaseAddressSpace := by
  rcases d with _ | _ | (_ | _) | (_ | _) <;> decide

/-- The type bits of a memory BAR are flag bits. -/
theorem flagMask_and_memType (h : d.type = .mem) :
    d.flagMask &&& pciBaseAddressMemTypeMask = pciBaseAddressMemTypeMask := by
  revert h
  rcases d with _ | _ | (_ | _) | (_ | _) <;> decide

/-- Bit 0 is set for I/O only. -/
theorem flags_space : d.flags &&& pciBaseAddressSpace ≠ 0 ↔ d.type = .io := by
  rcases d with _ | _ | (_ | _) | (_ | _) <;> decide

/-- The type bits say 64 for the 64-bit BARs of memory only. -/
theorem flags_memType :
    (d.type = .mem ∧ d.flags &&& pciBaseAddressMemTypeMask = pciBaseAddressMemType64) ↔
      d.is64 = true := by
  rcases d with _ | _ | (_ | _) | (_ | _) <;> decide

end BarDecoder

/-! ## BARs -/

/-- A BAR of `2 ^ log2` addresses. -/
structure Bar where
  decoder : BarDecoder
  log2 : ℕ
  flagBits_le : decoder.flagBits ≤ log2
  lt_width : log2 < decoder.width

namespace Bar

variable (b : Bar)

/-- The address bits that can be written. -/
def addressMask : BitVec 64 := BitVec.ofNat 64 (2 ^ b.decoder.width - 2 ^ b.log2)

/-- Those of them in the register of the BAR. -/
def lowMask : BitVec 32 := b.addressMask.setWidth 32

/-- Those of them in the register behind it. -/
def highMask : BitVec 32 := u64Hi32 b.addressMask

/-- What the register of the BAR answers to all ones. -/
def response : BitVec 32 := b.lowMask ||| b.decoder.flags

/-- The address bits of a BAR are those from the size up to its width. -/
theorem getLsbD_addressMask (i : ℕ) :
    b.addressMask.getLsbD i = decide (b.log2 ≤ i ∧ i < b.decoder.width) := by
  have hw := b.decoder.width_le
  rw [addressMask, BitVec.getLsbD_ofNat, testBit_two_pow_sub b.lt_width.le, Bool.eq_iff_iff]
  simp only [Bool.and_eq_true, decide_eq_true_eq]
  omega

/-- Of these the first register has the lower 32. -/
theorem getLsbD_lowMask {i : ℕ} (hi : i < 32) :
    b.lowMask.getLsbD i = decide (b.log2 ≤ i ∧ i < b.decoder.width) := by
  rw [lowMask, BitVec.getLsbD_setWidth, decide_eq_true hi, Bool.true_and, getLsbD_addressMask]

/-- And the second register has the others. -/
theorem getLsbD_highMask {i : ℕ} (hi : i < 32) :
    b.highMask.getLsbD i = decide (b.log2 ≤ 32 + i ∧ 32 + i < b.decoder.width) := by
  rw [highMask, u64Hi32, BitVec.getLsbD_setWidth, decide_eq_true hi, Bool.true_and,
    BitVec.getLsbD_ushiftRight, getLsbD_addressMask]

/-- The flags are below the address. -/
theorem lowMask_and_flagMask : b.lowMask &&& b.decoder.flagMask = 0 := by
  have hle := b.flagBits_le
  apply BitVec.eq_of_getLsbD_eq
  intro i hi
  rw [BitVec.getLsbD_and, getLsbD_lowMask b hi, BitVec.ofNat_eq_ofNat, BitVec.getLsbD_zero]
  by_cases hlow : b.log2 ≤ i
  · have hbit : b.decoder.flagMask.getLsbD i = false :=
      Nat.testBit_lt_two_pow (b.decoder.flagMask_lt.trans_le
        (Nat.pow_le_pow_right (by decide) (hle.trans hlow)))
    rw [hbit, Bool.and_false]
  · rw [decide_eq_false (fun h => hlow h.1), Bool.false_and]

/-- The register of a BAR, whatever address bits it keeps: below them are the flags. -/
theorem kept_and_flagMask (v : BitVec 32) :
    ((v &&& b.lowMask) ||| b.decoder.flags) &&& b.decoder.flagMask = b.decoder.flags := by
  have hlow := b.lowMask_and_flagMask
  have hflags := b.decoder.flags_and_flagMask
  apply BitVec.eq_of_getLsbD_eq
  intro i hi
  have hbit := congrArg (BitVec.getLsbD · i) hlow
  have hflag := congrArg (BitVec.getLsbD · i) hflags
  simp only [BitVec.getLsbD_and, BitVec.getLsbD_or, BitVec.ofNat_eq_ofNat,
    BitVec.getLsbD_zero] at hbit hflag ⊢
  rw [Bool.and_or_distrib_right, hflag, Bool.and_assoc, hbit, Bool.and_false, Bool.false_or]

/-- Above the flags are the address bits. -/
theorem kept_and_not_flagMask (v : BitVec 32) :
    ((v &&& b.lowMask) ||| b.decoder.flags) &&& ~~~b.decoder.flagMask = v &&& b.lowMask := by
  have hlow := b.lowMask_and_flagMask
  have hflags := b.decoder.flags_and_flagMask
  apply BitVec.eq_of_getLsbD_eq
  intro i hi
  have hbit := congrArg (BitVec.getLsbD · i) hlow
  have hflag := congrArg (BitVec.getLsbD · i) hflags
  simp only [BitVec.getLsbD_and, BitVec.getLsbD_or, BitVec.getLsbD_not, hi, decide_true,
    Bool.true_and, BitVec.ofNat_eq_ofNat, BitVec.getLsbD_zero] at hbit hflag ⊢
  cases hm : b.decoder.flagMask.getLsbD i
  · rw [hm, Bool.and_false] at hflag
    rw [← hflag, Bool.or_false, Bool.not_false, Bool.and_true]
  · rw [hm, Bool.and_true] at hbit
    rw [hbit, Bool.and_false, Bool.not_true, Bool.and_false]

/-- The first register answers ones in its address bits, and its flags. -/
theorem response_eq : b.response = (BitVec.allOnes 32 &&& b.lowMask) ||| b.decoder.flags := by
  rw [BitVec.allOnes_and]
  rfl

/-- What the answer says about the kind of BAR is its flags. -/
theorem response_and {m : BitVec 32} (hm : b.decoder.flagMask &&& m = m) :
    b.response &&& m = b.decoder.flags &&& m := by
  rw [← hm, ← BitVec.and_assoc, response_eq, kept_and_flagMask, ← BitVec.and_assoc,
    b.decoder.flags_and_flagMask]

/-- The answer says I/O if and only if the BAR is of I/O. -/
theorem isIoBar_response : isIoBar b.response = true ↔ b.decoder.type = .io := by
  unfold isIoBar
  rw [b.response_and b.decoder.flagMask_and_space, decide_eq_true_iff, b.decoder.flags_space]

/-- The answer says 64 bits if and only if the BAR has them. -/
theorem isMem64Bar_response : isMem64Bar b.response = b.decoder.is64 := by
  have hflags := b.decoder.flags_memType
  unfold isMem64Bar
  rw [Bool.eq_iff_iff, ← hflags, Bool.and_eq_true, Bool.not_eq_true', Bool.eq_false_iff, ne_eq,
    isIoBar_response]
  cases hd : b.decoder.type with
  | io => simp
  | mem =>
    rw [b.response_and (b.decoder.flagMask_and_memType hd), decide_eq_true_iff]
    simp

/-- A BAR answers, and not with all ones: it says what it is. -/
theorem response_implemented : ¬ (b.response = 0 ∨ b.response = 0xffffffff#32) := by
  have hflags : b.response &&& b.decoder.flagMask = b.decoder.flags := by
    rw [response_eq, kept_and_flagMask]
  rintro (hzero | hones)
  · cases hd : b.decoder with
    | mem32 prefetch =>
      -- a memory BAR of 32 bits may have no flag set, but it has its highest address bit
      have hlt := b.lt_width
      have hbit := congrArg (BitVec.getLsbD · 31) hzero
      simp only [response, BitVec.getLsbD_or, getLsbD_lowMask b (by decide : 31 < 32),
        BitVec.ofNat_eq_ofNat, BitVec.getLsbD_zero, Bool.or_eq_false_iff,
        decide_eq_false_iff_not] at hbit
      rw [hd] at hlt hbit
      simp only [BarDecoder.width] at hlt hbit
      omega
    | io16 | io32 =>
      rw [hzero, hd] at hflags
      exact absurd hflags (by decide)
    | mem64 prefetch =>
      rw [hzero, hd] at hflags
      cases prefetch <;> exact absurd hflags (by decide)
  · rw [hones] at hflags
    revert hflags
    rcases b.decoder with _ | _ | (_ | _) | (_ | _) <;> decide

/-! ## The size that the code reads -/

/-- The size computed is the two's complement of the address bits of the first register. -/
theorem barSize_response : barSize b.response = -b.lowMask := by
  have hmask := b.kept_and_not_flagMask (BitVec.allOnes 32)
  rw [← response_eq, b.decoder.not_flagMask, BitVec.allOnes_and] at hmask
  rw [BitVec.neg_eq_not_add]
  unfold barSize
  by_cases hio : b.decoder.type = .io
  · rw [if_pos hio] at hmask
    rw [if_pos (b.isIoBar_response.2 hio), hmask]
    rfl
  · rw [if_neg hio] at hmask
    rw [if_neg (fun h => hio (b.isIoBar_response.1 h)), hmask]
    rfl

/-- The address bits of the BAR register as a number. -/
theorem toNat_lowMask : b.lowMask.toNat = (2 ^ b.decoder.width - 2 ^ b.log2) % 2 ^ 32 := by
  rw [lowMask, addressMask, BitVec.toNat_setWidth, BitVec.toNat_ofNat]
  omega

/-- **The size that the code reads**: right for BARs of less than 4 GiB, with the upper half of the
word set for I/O of 16 bits, and 0 for BARs of 4 GiB or more. -/
theorem toNat_barSize :
    (barSize b.response).toNat =
      if b.decoder = .io16 then 0xffff0000 + 2 ^ b.log2
      else if b.log2 < 32 then 2 ^ b.log2
      else 0 := by
  have hlt := b.lt_width
  have hpos := Nat.two_pow_pos b.log2
  rw [barSize_response, BitVec.toNat_neg, toNat_lowMask]
  -- the code compares 32 bits: too many for I/O of 16, too few for 64-bit memory
  cases hd : b.decoder with
  | io16 =>
    rw [hd] at hlt
    have hsmall : 2 ^ b.log2 < 2 ^ 16 := Nat.pow_lt_pow_right (by decide) hlt
    rw [if_pos rfl]
    simp only [BarDecoder.width]
    omega
  | io32 | mem32 prefetch =>
    rw [hd] at hlt
    have hlt : b.log2 < 32 := hlt
    have hsmall : 2 ^ b.log2 < 2 ^ 32 := Nat.pow_lt_pow_right (by decide) hlt
    rw [if_neg BarDecoder.noConfusion, if_pos hlt]
    simp only [BarDecoder.width]
    omega
  | mem64 prefetch =>
    rw [if_neg BarDecoder.noConfusion]
    simp only [BarDecoder.width]
    by_cases hk : b.log2 < 32
    · have hsmall : 2 ^ b.log2 < 2 ^ 32 := Nat.pow_lt_pow_right (by decide) hk
      rw [if_pos hk]
      omega
    · have hsplit : 2 ^ b.log2 = 2 ^ 32 * 2 ^ (b.log2 - 32) := by
        rw [← Nat.pow_add, Nat.add_sub_cancel' (Nat.not_lt.1 hk)]
      rw [if_neg hk, hsplit]
      omega

/-- The code reads the size of a BAR right just when it compares 32 bits and has fewer than `2 ^ 32`
addresses. -/
theorem toNat_barSize_eq_iff :
    (barSize b.response).toNat = 2 ^ b.log2 ↔ b.decoder ≠ .io16 ∧ b.log2 < 32 := by
  have hpos := Nat.two_pow_pos b.log2
  rw [toNat_barSize]
  by_cases hio : b.decoder = .io16
  · rw [if_pos hio]
    exact iff_of_false (by omega) fun h => h.1 hio
  · rw [if_neg hio]
    by_cases hk : b.log2 < 32
    · rw [if_pos hk]
      exact iff_of_true rfl ⟨hio, hk⟩
    · rw [if_neg hk]
      exact iff_of_false (by omega) fun h => hk h.2

/-! ## The address that a BAR holds -/

/-- The address bits below 4 GiB that every address for the BAR leaves at zero. -/
def lowBits : ℕ := min b.log2 32

/-- The size computed is a multiple of the BAR's size, or of 4 GiB. -/
theorem two_pow_lowBits_dvd : 2 ^ b.lowBits ∣ (barSize b.response).toNat := by
  have hle : b.lowBits ≤ b.log2 := Nat.min_le_left _ _
  rw [toNat_barSize]
  by_cases hio : b.decoder = .io16
  · have hlt := b.lt_width
    rw [hio] at hlt
    have hlt : b.log2 < 16 := hlt
    have hbase : 2 ^ b.lowBits ∣ 2 ^ 16 := Nat.pow_dvd_pow 2 (by omega)
    rw [if_pos hio]
    exact Nat.dvd_add (Nat.dvd_trans hbase ⟨0xffff, rfl⟩) (Nat.pow_dvd_pow 2 hle)
  · rw [if_neg hio]
    split
    · exact Nat.pow_dvd_pow 2 hle
    · exact Nat.dvd_zero _

/-- **When a BAR can hold an address**: aligned to the BAR, it can be any but those above 64 KiB for
I/O of 16 bits. -/
theorem and_lowMask_eq_iff {addr : BitVec 32} (h : 2 ^ b.lowBits ∣ addr.toNat) :
    addr &&& b.lowMask = addr ↔ (b.decoder = .io16 → addr.toNat < 2 ^ 16) := by
  constructor
  · intro hkept hio
    have hlt : b.lowMask.toNat < 2 ^ 16 := by
      have hpos := Nat.two_pow_pos b.log2
      rw [toNat_lowMask, hio]
      simp only [BarDecoder.width]
      omega
    rw [← hkept, BitVec.toNat_and]
    exact Nat.and_le_right.trans_lt hlt
  · intro hsmall
    -- bit by bit: below the size the address is zero, above the width of the decoder too
    apply BitVec.eq_of_getLsbD_eq
    intro i hi
    rw [BitVec.getLsbD_and, getLsbD_lowMask b hi]
    cases hbit : addr.getLsbD i
    · rfl
    · rw [Bool.true_and, decide_eq_true_iff]
      constructor
      · by_contra hlow
        have hzero : addr.getLsbD i = false :=
          testBit_of_dvd h (lt_min (Nat.lt_of_not_le hlow) hi)
        rw [hbit] at hzero
        exact Bool.noConfusion hzero
      · by_contra hwide
        cases hd : b.decoder with
        | io16 =>
          rw [hd] at hwide
          have hwide : ¬ i < 16 := hwide
          have hzero : addr.getLsbD i = false := Nat.testBit_lt_two_pow
            ((hsmall hd).trans_le (Nat.pow_le_pow_right (by decide) (Nat.not_lt.1 hwide)))
          rw [hbit] at hzero
          exact Bool.noConfusion hzero
        | io32 | mem32 prefetch | mem64 prefetch =>
          rw [hd] at hwide
          simp only [BarDecoder.width] at hwide
          omega

end Bar

/-- The register of a BAR keeps the address bits of the BAR and answers its flags besides, and so does
the register behind it for the upper half. -/
structure Implements (cfg : RegisterFile 4096) (slot : ℕ) (b : Bar) : Prop where
  low : ∀ v, cfg.response 32 (pciBaseAddress0 + 4 * slot) v = (v &&& b.lowMask) ||| b.decoder.flags
  high : b.decoder.is64 = true →
    ∀ v, cfg.response 32 (pciBaseAddress0 + 4 * slot + 4) v = (v &&& b.highMask) ||| 0

/-- All ones and zero are enough to tell. -/
instance (cfg : RegisterFile 4096) (slot : ℕ) (b : Bar) : Decidable (Implements cfg slot b) :=
  decidable_of_iff
    ((cfg.response 32 (pciBaseAddress0 + 4 * slot) (BitVec.allOnes 32)
          = b.lowMask ||| b.decoder.flags ∧
        cfg.response 32 (pciBaseAddress0 + 4 * slot) 0 = b.decoder.flags) ∧
      (b.decoder.is64 = true →
        cfg.response 32 (pciBaseAddress0 + 4 * slot + 4) (BitVec.allOnes 32) = b.highMask ||| 0 ∧
          cfg.response 32 (pciBaseAddress0 + 4 * slot + 4) 0 = 0))
    ⟨fun h => ⟨(RegisterFile.response_eq_iff _ _ _ _ _).2 h.1,
        fun h64 => (RegisterFile.response_eq_iff _ _ _ _ _).2 (h.2 h64)⟩,
      fun h => ⟨(RegisterFile.response_eq_iff _ _ _ _ _).1 h.low,
        fun h64 => (RegisterFile.response_eq_iff _ _ _ _ _).1 (h.high h64)⟩⟩

/-- The address in the register of a BAR, with the register behind it if the BAR has 64 bits. -/
def heldAddress (dev : PciDevice) (slot : ℕ) (d : BarDecoder) : BitVec 64 :=
  let low := pciReadConfig32 dev (pciBaseAddress0 + 4 * slot) &&& ~~~d.flagMask
  let high := if d.is64 then pciReadConfig32 dev (pciBaseAddress0 + 4 * slot + 4) else 0#32
  high ++ low

namespace Implements

variable {cfg : RegisterFile 4096} {slot : ℕ} {b : Bar}

/-- A slot that implements a BAR answers as the BAR does. -/
theorem barResponse (h : Implements cfg slot b) : BcmPcie.barResponse cfg slot = b.response := by
  rw [b.response_eq]
  exact h.low _

/-- What is held of an address written to a BAR, with zero in the upper half. -/
theorem heldAddress (h : Implements cfg slot b) {dev : PciDevice} {addr : BitVec 32}
    (hlow : pciReadConfig32 dev (pciBaseAddress0 + 4 * slot)
      = cfg.response 32 (pciBaseAddress0 + 4 * slot) addr)
    (hhigh : b.decoder.is64 = true → pciReadConfig32 dev (pciBaseAddress0 + 4 * slot + 4)
      = cfg.response 32 (pciBaseAddress0 + 4 * slot + 4) 0) :
    BcmPcie.heldAddress dev slot b.decoder = (addr &&& b.lowMask).setWidth 64 := by
  have hupper : (if b.decoder.is64 = true then
      pciReadConfig32 dev (pciBaseAddress0 + 4 * slot + 4) else 0#32) = 0#32 := by
    split
    · rename_i h64
      rw [hhigh h64, h.high h64]
      simp
    · rfl
  unfold BcmPcie.heldAddress
  dsimp only
  rw [hupper, hlow, h.low, b.kept_and_not_flagMask]
  apply BitVec.eq_of_toNat_eq
  rw [BitVec.toNat_append, BitVec.toNat_setWidth]
  have hlt := (addr &&& b.lowMask).isLt
  simp only [BitVec.toNat_ofNat, Nat.zero_mod, Nat.zero_shiftLeft, Nat.zero_or]
  omega

end Implements

/-! ## The BARs of a function -/

/-- The BAR of each slot of a function with `barsNum` slots. A BAR of 64 bits has the slot behind it
for its upper half. -/
structure BarLayout (barsNum : ℕ) where
  bar : ℕ → Option Bar
  lt : ∀ {slot b}, bar slot = some b → slot < barsNum
  upper : ∀ {slot b}, bar slot = some b → b.decoder.is64 = true →
    slot + 1 < barsNum ∧ bar (slot + 1) = none

/-- The register of the slot is the upper half of a BAR. -/
def BarLayout.isUpper {barsNum : ℕ} (layout : BarLayout barsNum) : ℕ → Bool
  | 0 => false
  | slot + 1 => (layout.bar slot).any (·.decoder.is64)

/-- The registers of a function are those of its BARs, and the others answer nothing. -/
structure LaidOut (cfg : RegisterFile 4096) {barsNum : ℕ} (layout : BarLayout barsNum) : Prop where
  bar : ∀ {slot b}, layout.bar slot = some b → Implements cfg slot b
  empty : ∀ {slot}, slot < barsNum → layout.bar slot = none → layout.isUpper slot = false →
    barResponse cfg slot = 0

end BcmPcie
