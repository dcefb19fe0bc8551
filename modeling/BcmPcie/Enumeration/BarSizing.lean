import BcmPcie.Enumeration.BarRounds

/-! # Sizing BARs

What `pciauto_setup_device` records of the BARs of a function, held against the BARs that the function
has. A 16-bit I/O BAR answers zeros in its upper half, which are taken for address bits; the size of a
64-bit BAR is computed in 32 bits; and behind a 64-bit BAR that got no address the loop sizes the
register of its upper half as another BAR.

* `BarsSized` — every recorded BAR is one of the function, with its size and the address it holds.
* `barsSized_iff` — when that is so; `barsSized_of_small` — a kind of function for which it always is. -/

namespace BcmPcie

variable {σ : Type*}

/-- The record of a slot is that of the BAR `b`, which decodes all of the address it holds. -/
structure SizedBar (dev : PciDevice) (slot : ℕ) (b : Bar) : Prop where
  type : (dev.bars slot).type = b.decoder.type
  is64 : (dev.bars slot).is64 = b.decoder.is64
  size : (dev.bars slot).size.toNat = 2 ^ b.log2
  address : heldAddress dev slot b.decoder = (dev.bars slot).busAddr.setWidth 64
  aligned : 2 ^ b.log2 ∣ (dev.bars slot).busAddr.toNat

/-- Whatever a function is recorded to have behind its set-up is a BAR of it, rightly sized. -/
def BarsSized (pcie : PciController σ) (bridges : List PciDevice) (dev : PciDevice)
    (regions : RegionKind → Option ℕ) {barsNum : ℕ} (layout : BarLayout barsNum) : Prop :=
  let final := (pciautoSetupDevice pcie bridges dev regions).2
  ∀ slot, (final.bars slot).present = true → ∃ b ∈ layout.bar slot, SizedBar final slot b

/-- No round of the loop is granted an address for an upper half, for a 16-bit I/O BAR or for a BAR of
4 GiB or more. -/
def SizingClear (pcie : PciController σ) (dev : PciDevice) (regions : RegionKind → Option ℕ)
    {barsNum : ℕ} (layout : BarLayout barsNum) : Prop :=
  ∀ v ∈ deviceRounds pcie dev regions, (barGrant regions v.2 v.1).isSome = true →
    ∃ b ∈ layout.bar v.1, b.decoder ≠ .io16 ∧ b.log2 < 32

instance (pcie : PciController σ) (dev : PciDevice) (regions : RegionKind → Option ℕ) {barsNum : ℕ}
    (layout : BarLayout barsNum) : Decidable (SizingClear pcie dev regions layout) :=
  inferInstanceAs (Decidable (∀ v ∈ deviceRounds pcie dev regions, _ →
    ∃ b ∈ layout.bar v.1, b.decoder ≠ .io16 ∧ b.log2 < 32))

section Sizing

variable {pcie : PciController σ} {dev : PciDevice} {regions : RegionKind → Option ℕ}

/-- A BAR that was granted an address holds it, just when it is none above 64 KiB for 16-bit I/O. -/
theorem heldAddress_eq_iff (bridges : List PciDevice) (hnum : dev.barsNum ≤ 6)
    {layout : BarLayout dev.barsNum} (hlayout : LaidOut dev.cfg layout) {s : ℕ} {st : SetupState σ}
    (h : (s, st) ∈ deviceRounds pcie dev regions) {addr : BitVec 32} {pcie' : PciController σ}
    (hgrant : barGrant regions st s = some (addr, pcie')) {b : Bar} (hb : layout.bar s = some b) :
    heldAddress (pciautoSetupDevice pcie bridges dev regions).2 s b.decoder = addr.setWidth 64 ↔
      (b.decoder = .io16 → addr.toNat < 2 ^ 16) := by
  have himpl := hlayout.bar hb
  obtain ⟨-, hlow, hhigh, hdvd⟩ := granted_outcome bridges hnum h hgrant
  rw [himpl.barResponse] at hhigh hdvd
  have haddr : 2 ^ b.lowBits ∣ addr.toNat :=
    hdvd _ (Nat.min_le_right _ _) b.two_pow_lowBits_dvd
  have hheld := himpl.heldAddress hlow fun h64 =>
    hhigh (by rw [b.isMem64Bar_response]; exact h64) (by have := (layout.upper hb h64).1; omega)
  rw [hheld, ← b.and_lowMask_eq_iff haddr]
  constructor
  · intro heq
    have hnat := congrArg BitVec.toNat heq
    rw [BitVec.toNat_setWidth, BitVec.toNat_setWidth] at hnat
    apply BitVec.eq_of_toNat_eq
    omega
  · intro heq
    rw [heq]

/-- A BAR below 4 GiB that got an address is rightly sized. -/
theorem sizedBar_of_granted (bridges : List PciDevice) (hnum : dev.barsNum ≤ 6)
    {layout : BarLayout dev.barsNum} (hlayout : LaidOut dev.cfg layout) {s : ℕ} {st : SetupState σ}
    (h : (s, st) ∈ deviceRounds pcie dev regions)
    (hgrant : (barGrant regions st s).isSome = true) {b : Bar} (hb : layout.bar s = some b)
    (hio : b.decoder ≠ .io16) (hlog : b.log2 < 32) :
    SizedBar (pciautoSetupDevice pcie bridges dev regions).2 s b := by
  obtain ⟨⟨addr, pcie'⟩, hgrant⟩ := Option.isSome_iff_exists.1 hgrant
  obtain ⟨hinfo, -, -, hdvd⟩ := granted_outcome bridges hnum h hgrant
  rw [(hlayout.bar hb).barResponse] at hinfo hdvd
  have hheld := (heldAddress_eq_iff bridges hnum hlayout h hgrant hb).2 fun h => absurd h hio
  have hbits : b.lowBits = b.log2 := Nat.min_eq_left hlog.le
  constructor
  · rw [hinfo]
    show (if isIoBar b.response = true then BarType.io else .mem) = _
    by_cases htype : b.decoder.type = .io
    · rw [if_pos (b.isIoBar_response.2 htype), htype]
    · rw [if_neg fun h => htype (b.isIoBar_response.1 h)]
      cases ht : b.decoder.type with
      | io => exact absurd ht htype
      | mem => rfl
  · rw [hinfo]
    exact b.isMem64Bar_response
  · rw [hinfo]
    exact b.toNat_barSize_eq_iff.2 ⟨hio, hlog⟩
  · rw [hheld, hinfo]
    rfl
  · rw [hinfo, ← hbits]
    exact hdvd _ (Nat.min_le_right _ _) b.two_pow_lowBits_dvd

/-- **When the BARs are rightly sized**: just when no address is granted for a 16-bit I/O BAR, for a
BAR of 4 GiB or more, or for a register that is no BAR. -/
theorem barsSized_iff (pcie : PciController σ) (bridges : List PciDevice)
    (regions : RegionKind → Option ℕ) (hnum : dev.barsNum ≤ 6) {layout : BarLayout dev.barsNum}
    (hlayout : LaidOut dev.cfg layout) (hfresh : ∀ slot, (dev.bars slot).present = false) :
    BarsSized pcie bridges dev regions layout ↔ SizingClear pcie dev regions layout := by
  have hbars := (pciautoSetupDevice_loop pcie bridges dev hnum regions).1
  constructor
  · rintro hsized ⟨s, st⟩ hround hgrant
    obtain ⟨⟨addr, pcie'⟩, hsome⟩ := Option.isSome_iff_exists.1 hgrant
    obtain ⟨hinfo, -⟩ := granted_outcome bridges hnum hround hsome
    have hpresent : ((pciautoSetupDevice pcie bridges dev regions).2.bars s).present = true := by
      rw [hinfo]
      rfl
    obtain ⟨b, hb, hsized⟩ := hsized s hpresent
    refine ⟨b, hb, b.toNat_barSize_eq_iff.1 ?_⟩
    have hsize := hsized.size
    rw [hinfo, (hlayout.bar hb).barResponse] at hsize
    exact hsize
  · intro hclear slot hpresent
    rw [hbars] at hpresent
    rcases present_of_rounds hnum hpresent with hbefore | ⟨st, hround, hgrant⟩
    · exact absurd hbefore (by rw [show (setupStart pcie dev).dev = dev from rfl, hfresh]; simp)
    · obtain ⟨b, hb, hio, hlog⟩ := hclear _ hround hgrant
      exact ⟨b, hb, sizedBar_of_granted bridges hnum hlayout hround hgrant hb hio hlog⟩

/-- The upper half of a BAR up to 4 GiB does not answer as a BAR. -/
theorem barResponse_upper {cfg : RegisterFile 4096} {s : ℕ} {b : Bar} (h : Implements cfg s b)
    (h64 : b.decoder.is64 = true) (hlog : b.log2 ≤ 32) :
    barResponse cfg (s + 1) = 0xffffffff#32 := by
  have hones : barResponse cfg (s + 1) = (BitVec.allOnes 32 &&& b.highMask) ||| 0 :=
    h.high h64 (BitVec.allOnes 32)
  have hwidth : b.decoder.width = 64 := by
    revert h64
    cases b.decoder <;> simp [BarDecoder.is64, BarDecoder.width]
  have hmask : b.highMask = 0xffffffff#32 := by
    apply BitVec.eq_of_getLsbD_eq
    intro i hi
    have hbit : (0xffffffff#32).getLsbD i = true := by
      show (BitVec.allOnes 32).getLsbD i = true
      rw [BitVec.getLsbD_allOnes, decide_eq_true hi]
    rw [b.getLsbD_highMask hi, hwidth, hbit, decide_eq_true_iff]
    omega
  rw [hones, hmask]
  rfl

/-- A function whose BARs are all below 4 GiB, and none of 16-bit I/O, has them rightly sized in every
state of the regions. -/
theorem barsSized_of_small (pcie : PciController σ) (bridges : List PciDevice)
    (regions : RegionKind → Option ℕ) (hnum : dev.barsNum ≤ 6) {layout : BarLayout dev.barsNum}
    (hlayout : LaidOut dev.cfg layout) (hfresh : ∀ slot, (dev.bars slot).present = false)
    (hsmall : ∀ slot, ∀ b ∈ layout.bar slot, b.decoder ≠ .io16 ∧ b.log2 < 32) :
    BarsSized pcie bridges dev regions layout := by
  rw [barsSized_iff pcie bridges regions hnum hlayout hfresh]
  rintro ⟨s, st⟩ hround hgrant
  obtain ⟨-, hs, hdev, -, -⟩ := mem_barRounds hnum hround
  have hresponse : barResponse st.dev.cfg s = barResponse dev.cfg s := hdev.response _ _ _
  unfold barGrant at hgrant
  dsimp only at hgrant
  rw [hresponse] at hgrant
  cases hb : layout.bar s with
  | some b => exact ⟨b, rfl, hsmall s b hb⟩
  | none =>
    exfalso
    cases hupper : layout.isUpper s with
    | false =>
      rw [if_pos (Or.inl (hlayout.empty hs hb hupper))] at hgrant
      cases hgrant
    | true =>
      cases s with
      | zero => cases hupper
      | succ s =>
        obtain ⟨b, hb, h64⟩ := (Option.any_eq_true _ _).1 hupper
        rw [if_pos (Or.inr (barResponse_upper (hlayout.bar hb) h64 (hsmall s b hb).2.le))] at hgrant
        cases hgrant

end Sizing

/-! ## A function with one BAR -/

/-- A function with a memory BAR of 64 bits, `2 ^ n` bytes of it. -/
def mem64Function (n : ℕ) : PciDevice where
  cfg :=
    { regs := BitVec.ofNat _ (0x4 * 2 ^ (8 * pciBaseAddress0))
      rw := BitVec.ofNat _ ((2 ^ 64 - 2 ^ n) * 2 ^ (8 * pciBaseAddress0) + 0x7 * 2 ^ (8 * pciCommand)) }
  tableMem := fun _ => 0
  barsNum := 2

/-- Its BAR. -/
def mem64Layout (n : ℕ) (hlow : 4 ≤ n) (hhigh : n < 64) : BarLayout 2 where
  bar
    | 0 => some ⟨.mem64 false, n, hlow, hhigh⟩
    | _ => none
  lt {slot b} h := by
    cases slot with
    | zero => decide
    | succ slot => cases h
  upper {slot b} h _ := by
    cases slot with
    | zero => exact ⟨by decide, rfl⟩
    | succ slot => cases h

/-- The sample function implements its layout. -/
theorem laidOut_mem64Function {n : ℕ} {hlow : 4 ≤ n} {hhigh : n < 64}
    (h : Implements (mem64Function n).cfg 0 ⟨.mem64 false, n, hlow, hhigh⟩) :
    LaidOut (mem64Function n).cfg (mem64Layout n hlow hhigh) := by
  constructor
  · intro slot b hb
    cases slot with
    | zero =>
      obtain rfl := Option.some.inj hb
      exact h
    | succ slot => cases hb
  · intro slot hlt hnone hupper
    match slot, hlt with
    | 0, _ => cases hnone
    | 1, _ => cases hupper

/-- A BAR of 1 MiB in a region that ends at 4 GiB. -/
theorem barsSized_sample :
    let pcie := controllerOf (pciautoRegionInit topRegion)
    BarsSized pcie [] (mem64Function 20) pcie.ptr (mem64Layout 20 (by decide) (by decide)) := by
  intro pcie
  have hclear : SizingClear pcie (mem64Function 20) pcie.ptr
      (mem64Layout 20 (by decide) (by decide)) := by
    decide +kernel
  exact (barsSized_iff pcie [] pcie.ptr (by decide) (laidOut_mem64Function (by decide +kernel))
    fun _ => rfl).2 hclear

/-- **A BAR of 4 GiB.** It is sized as 0, placed at address 0 and recorded so. -/
theorem barsSized_fails :
    let pcie := controllerOf (pciautoRegionInit topRegion)
    LaidOut (mem64Function 32).cfg (mem64Layout 32 (by decide) (by decide)) ∧
      ¬ BarsSized pcie [] (mem64Function 32) pcie.ptr
        (mem64Layout 32 (by decide) (by decide)) := by
  refine ⟨laidOut_mem64Function (by decide +kernel), fun h => ?_⟩
  obtain ⟨b, -, hsized⟩ := h 0 (by decide +kernel)
  have hsize := hsized.size
  have hzero : ((pciautoSetupDevice (controllerOf (pciautoRegionInit topRegion)) []
      (mem64Function 32) (controllerOf (pciautoRegionInit topRegion)).ptr).2.bars 0).size = 0 := by
    decide +kernel
  rw [hzero] at hsize
  exact absurd hsize.symm (Nat.two_pow_pos _).ne'

end BcmPcie
