import BcmPcie.Enumeration.BarSizing

/-! # BARs without an address

The loop of `pciauto_setup_device` lets a BAR decode whether or not it got an address. One that got
none keeps its sizing value, near the top of the bus; and if it has 64 bits, the loop goes on at its
upper half as if that were a BAR.

* `BarsInert` — a BAR that decodes holds an address it was given, and upper halves are left alone.
* `barRounds_cover` — when every 64-bit BAR gets an address, the loop sizes just the slots that are
  no upper halves.
* `barsInert_iff` — when the BARs are inert. -/

namespace BcmPcie

variable {σ : Type*}

/-- The bit of the command register that turns on decoding in the space of a BAR. -/
def BarDecoder.enable (d : BarDecoder) : BitVec 16 :=
  if d.type = .io then pciCommandIo else pciCommandMemory

/-- The function can turn it on. -/
def CanDecode (dev : PciDevice) (d : BarDecoder) : Prop :=
  dev.cfg.response 16 pciCommand d.enable &&& d.enable ≠ 0

instance (dev : PciDevice) (d : BarDecoder) : Decidable (CanDecode dev d) :=
  inferInstanceAs (Decidable (_ ≠ _))

/-- Behind the set-up of a function, every BAR whose space is decoded holds an address that its round
was granted, and no upper half of a BAR had a round, or is recorded as a BAR. -/
structure BarsInert (pcie : PciController σ) (bridges : List PciDevice) (dev : PciDevice)
    (regions : RegionKind → Option ℕ) {barsNum : ℕ} (layout : BarLayout barsNum) : Prop where
  decoded : ∀ slot, ∀ b ∈ layout.bar slot,
    let final := (pciautoSetupDevice pcie bridges dev regions).2
    pciReadConfig16 final pciCommand &&& b.decoder.enable ≠ 0 →
      ∃ st addr pcie', (slot, st) ∈ deviceRounds pcie dev regions ∧
        barGrant regions st slot = some (addr, pcie') ∧
        heldAddress final slot b.decoder = addr.setWidth 64
  upper : ∀ slot, ∀ b ∈ layout.bar slot, b.decoder.is64 = true →
    (∀ v ∈ deviceRounds pcie dev regions, v.1 ≠ slot + 1) ∧
      ((pciautoSetupDevice pcie bridges dev regions).2.bars (slot + 1)).present = false

/-- Every BAR that the loop comes to is granted an address, which a 16-bit I/O BAR can hold; a 32-bit
BAR that cannot be let decode needs none. -/
def PlacedCond (pcie : PciController σ) (dev : PciDevice) (regions : RegionKind → Option ℕ)
    {barsNum : ℕ} (layout : BarLayout barsNum) : Prop :=
  ∀ v ∈ deviceRounds pcie dev regions, ∀ b ∈ layout.bar v.1,
    b.decoder.is64 = true ∨ CanDecode dev b.decoder →
      ∃ r ∈ barGrant regions v.2 v.1, b.decoder = .io16 → r.1.toNat < 2 ^ 16

instance (pcie : PciController σ) (dev : PciDevice) (regions : RegionKind → Option ℕ) {barsNum : ℕ}
    (layout : BarLayout barsNum) : Decidable (PlacedCond pcie dev regions layout) :=
  inferInstanceAs (Decidable (∀ v ∈ deviceRounds pcie dev regions, ∀ b ∈ layout.bar v.1, _ →
    ∃ r ∈ barGrant regions v.2 v.1, b.decoder = .io16 → r.1.toNat < 2 ^ 16))

section Rounds

variable {regions : RegionKind → Option ℕ} {barsNum slot : ℕ} {layout : BarLayout barsNum}
  {hw : RegisterFile 4096} {st : SetupState σ}

/-- The command bit that a response asks for is that of the decoder. -/
theorem barCommand_response (b : Bar) : barCommand b.response = b.decoder.enable := by
  unfold barCommand BarDecoder.enable
  by_cases htype : b.decoder.type = .io
  · rw [if_pos (b.isIoBar_response.2 htype), if_pos htype]
  · rw [if_neg fun h => htype (b.isIoBar_response.1 h), if_neg htype]

/-- A slot with a BAR is no upper half. -/
theorem BarLayout.isUpper_of_bar {s : ℕ} {b : Bar} (hb : layout.bar s = some b) :
    layout.isUpper s = false := by
  cases s with
  | zero => rfl
  | succ s =>
    rw [Bool.eq_false_iff]
    intro hany
    obtain ⟨b', hb', h64⟩ := (Option.any_eq_true _ _).1 hany
    rw [(layout.upper hb' h64).2] at hb
    cases hb

/-- A round goes on behind its BAR, if 64-bit BARs get an address. -/
theorem isUpper_next (hlayout : LaidOut hw layout) (hdev : hw.SameDevice st.dev.cfg)
    (hslot : slot < barsNum) (hupper : layout.isUpper slot = false)
    (hgrant : ∀ b ∈ layout.bar slot, b.decoder.is64 = true →
      (barGrant regions st slot).isSome = true) :
    layout.isUpper (slot + slotsTaken regions st slot) = false ∧
      ∀ s, slot < s → s < slot + slotsTaken regions st slot → layout.isUpper s = true := by
  have hresponse : barResponse st.dev.cfg slot = barResponse hw slot := hdev.response _ _ _
  unfold slotsTaken
  rw [hresponse]
  -- an empty slot and a 32-bit BAR take one slot, a 64-bit BAR two if it was granted an address
  cases hb : layout.bar slot with
  | none =>
    have hzero := hlayout.empty hslot hb hupper
    have hone : ((barGrant regions st slot).isSome && isMem64Bar (barResponse hw slot)) = false := by
      rw [hzero]
      exact Bool.and_false _
    rw [hone]
    refine ⟨?_, fun s hlow hhigh => ?_⟩
    · show (layout.bar slot).any _ = false
      rw [hb]
      rfl
    · simp only [Bool.false_eq_true, if_false] at hhigh
      omega
  | some b =>
    rw [(hlayout.bar hb).barResponse, b.isMem64Bar_response]
    cases h64 : b.decoder.is64 with
    | false =>
      rw [Bool.and_false]
      refine ⟨?_, fun s hlow hhigh => ?_⟩
      · show (layout.bar slot).any _ = false
        rw [hb]
        exact h64
      · simp only [Bool.false_eq_true, if_false] at hhigh
        omega
    | true =>
      rw [hgrant b hb h64]
      refine ⟨?_, fun s hlow hhigh => ?_⟩
      · show (layout.bar (slot + 1)).any _ = false
        rw [(layout.upper hb h64).2]
        rfl
      · simp only [Bool.and_self, if_true] at hhigh
        obtain rfl : s = slot + 1 := by omega
        show (layout.bar slot).any _ = true
        rw [hb]
        exact h64

/-- **The slots that are sized**: if every 64-bit BAR that the loop comes to gets an address, the loop
comes to just the slots that are no upper halves. -/
theorem barRounds_cover (hnum : barsNum ≤ 6) (hlayout : LaidOut hw layout) (rounds : ℕ)
    (hdev : hw.SameDevice st.dev.cfg) (hrounds : barsNum ≤ slot + rounds)
    (hupper : layout.isUpper slot = false)
    (hgrant : ∀ v ∈ barRounds regions barsNum rounds slot st, ∀ b ∈ layout.bar v.1,
      b.decoder.is64 = true → (barGrant regions v.2 v.1).isSome = true)
    {s : ℕ} (hlow : slot ≤ s) (hs : s < barsNum) :
    (∃ st', (s, st') ∈ barRounds regions barsNum rounds slot st) ↔ layout.isUpper s = false := by
  -- on the rounds left; the loop is never at an upper half, by `isUpper_next`
  induction rounds generalizing slot st with
  | zero => omega
  | succ rounds ih =>
    have hlt : slot < barsNum := by omega
    have hnext := setupBar_snd regions st (by omega : slot < 7)
    have htaken := slotsTaken_bounds regions st slot
    have hcons : barRounds regions barsNum (rounds + 1) slot st
        = (slot, st) :: barRounds regions barsNum rounds (setupBar regions st slot).2
            (setupBar regions st slot).1 := by
      rw [barRounds, if_pos hlt]
    rw [hcons] at hgrant ⊢
    obtain ⟨hupper', hskipped⟩ := isUpper_next hlayout hdev hlt hupper
      (hgrant _ (List.mem_cons_self ..))
    rw [← hnext] at hupper' hskipped
    -- either this round passes slot `s`, or a later one decides
    rcases Nat.lt_or_ge s (setupBar regions st slot).2 with hbefore | hbehind
    · by_cases heq : s = slot
      · rw [heq]
        exact iff_of_true ⟨st, List.mem_cons_self ..⟩ hupper
      · rw [hskipped s (by omega) hbefore]
        refine iff_of_false ?_ (by decide)
        rintro ⟨st', hmem⟩
        rcases List.mem_cons.1 hmem with hhead | htail
        · exact heq (Prod.mk.inj hhead).1
        · exact absurd (mem_barRounds hnum htail).1 (by omega)
    · have hdev' : hw.SameDevice (setupBar regions st slot).1.dev.cfg :=
        hdev.trans (setupBar_keeps regions st (by omega : slot < 7)).1.device
      rw [← ih hdev' (by omega) hupper' (fun v hv => hgrant v (List.mem_cons_of_mem _ hv)) hbehind]
      constructor
      · rintro ⟨st', hmem⟩
        rcases List.mem_cons.1 hmem with hhead | htail
        · exact absurd (Prod.mk.inj hhead).1 (by omega)
        · exact ⟨st', htail⟩
      · rintro ⟨st', hmem⟩
        exact ⟨st', List.mem_cons_of_mem _ hmem⟩

end Rounds

section Inert

variable {pcie : PciController σ} {dev : PciDevice} {regions : RegionKind → Option ℕ}

/-- The space of a BAR that had a round is decoded behind the set-up, if the function can. -/
theorem decodes_of_round (bridges : List PciDevice) (hnum : dev.barsNum ≤ 6) {barsNum : ℕ}
    {layout : BarLayout barsNum} (hlayout : LaidOut dev.cfg layout) {s : ℕ} {st : SetupState σ}
    (h : (s, st) ∈ deviceRounds pcie dev regions) {b : Bar} (hb : layout.bar s = some b)
    (hdecode : CanDecode dev b.decoder) :
    pciReadConfig16 (pciautoSetupDevice pcie bridges dev regions).2 pciCommand &&& b.decoder.enable
      ≠ 0 := by
  obtain ⟨-, hs, hdev, -, -⟩ := mem_barRounds hnum h
  obtain ⟨-, -, command, hkept, hread⟩ := pciautoSetupDevice_loop pcie bridges dev hnum regions
  have hresponse : barResponse st.dev.cfg s = b.response :=
    (hdev.response _ _ _).trans (hlayout.bar hb).barResponse
  have hbar : ¬ (barResponse st.dev.cfg s = 0 ∨ barResponse st.dev.cfg s = 0xffffffff#32) := by
    rw [hresponse]
    exact b.response_implemented
  have hbit := @setupBar_barCommand _ regions st s (by omega) hbar
  rw [hresponse, barCommand_response] at hbit
  have hset := hkept _ ((round_outcome hnum h).2 _ hbit)
  rw [hread, RegisterFile.response_and_of_set _ _ _ hset]
  exact hdecode

/-- **When the BARs are inert**: just when every BAR that the loop comes to is granted an address that
it can hold. -/
theorem barsInert_iff (pcie : PciController σ) (bridges : List PciDevice)
    (regions : RegionKind → Option ℕ) (hnum : dev.barsNum ≤ 6) {layout : BarLayout dev.barsNum}
    (hlayout : LaidOut dev.cfg layout) (hfresh : ∀ slot, (dev.bars slot).present = false) :
    BarsInert pcie bridges dev regions layout ↔ PlacedCond pcie dev regions layout := by
  constructor
  · rintro hinert ⟨s, st⟩ hround b hb hneeds
    have hb : layout.bar s = some b := hb
    obtain ⟨-, hs, hdev, -, -⟩ := mem_barRounds hnum hround
    -- a slot has one round, so the address that inertness speaks of is the one granted there
    have hheld (hdecode : CanDecode dev b.decoder) : ∃ addr pcie',
        barGrant regions st s = some (addr, pcie') ∧
          heldAddress (pciautoSetupDevice pcie bridges dev regions).2 s b.decoder
            = addr.setWidth 64 := by
      obtain ⟨st', addr, pcie', hround', hgrant, heq⟩ := hinert.decoded s b hb
        (decodes_of_round bridges hnum hlayout hround hb hdecode)
      obtain rfl := barRounds_unique hnum hround hround'
      exact ⟨addr, pcie', hgrant, heq⟩
    show ∃ r ∈ barGrant regions st s, _
    -- no address: either the loop goes on at the upper half, or the BAR is decoded at a stale one
    cases hgrant : barGrant regions st s with
    | none =>
      exfalso
      rcases hneeds with h64 | hdecode
      · -- the loop goes on at the upper half
        have hnext := setupBar_snd regions st (by omega : s < 7)
        have hone : slotsTaken regions st s = 1 := by
          unfold slotsTaken
          rw [hgrant]
          rfl
        rw [hone] at hnext
        have hlt := (layout.upper hb h64).1
        have hmem := next_mem_barRounds hnum (by omega) hround (by omega)
        exact (hinert.upper s b hb h64).1 _ hmem hnext
      · obtain ⟨addr, pcie', hsome, -⟩ := hheld hdecode
        rw [hgrant] at hsome
        cases hsome
    | some r =>
      obtain ⟨addr, pcie'⟩ := r
      refine ⟨_, rfl, fun hio => ?_⟩
      have hdecode : CanDecode dev b.decoder := by
        rcases hneeds with h64 | hdecode
        · rw [hio] at h64
          cases h64
        · exact hdecode
      obtain ⟨addr', pcie'', hsome, heq⟩ := hheld hdecode
      rw [hgrant] at hsome
      obtain ⟨rfl, -⟩ := Prod.mk.inj (Option.some.inj hsome)
      exact (heldAddress_eq_iff bridges hnum hlayout hround hgrant hb).1 heq hio
  -- with every 64-bit BAR granted, the rounds are just those of the slots that start a BAR
  · intro hcond
    have hgrant : ∀ v ∈ deviceRounds pcie dev regions, ∀ b ∈ layout.bar v.1,
        b.decoder.is64 = true → (barGrant regions v.2 v.1).isSome = true := by
      intro v hv b hb h64
      obtain ⟨r, hr, -⟩ := hcond v hv b hb (Or.inl h64)
      rw [Option.mem_def.1 hr]
      rfl
    have hcover {s : ℕ} (hs : s < dev.barsNum) :
        (∃ st, (s, st) ∈ deviceRounds pcie dev regions) ↔ layout.isUpper s = false :=
      barRounds_cover hnum hlayout dev.barsNum (RegisterFile.SameDevice.refl _) (by omega) rfl hgrant
        (Nat.zero_le s) hs
    constructor
    · intro slot b hb final hdecoded
      have hdecode : CanDecode dev b.decoder := by
        obtain ⟨-, -, command, -, hread⟩ := pciautoSetupDevice_loop pcie bridges dev hnum regions
        rw [show pciReadConfig16 final pciCommand = _ from hread] at hdecoded
        exact RegisterFile.response_and_ne_zero _ _ _ hdecoded
      obtain ⟨st, hround⟩ := (hcover (layout.lt hb)).2 (BarLayout.isUpper_of_bar hb)
      obtain ⟨⟨addr, pcie'⟩, hr, hio⟩ := hcond _ hround b hb (Or.inr hdecode)
      exact ⟨st, addr, pcie', hround, hr,
        (heldAddress_eq_iff bridges hnum hlayout hround hr hb).2 hio⟩
    · intro slot b hb h64
      have hupper : layout.isUpper (slot + 1) = true := by
        show (layout.bar slot).any _ = true
        rw [Option.mem_def.1 hb]
        exact h64
      have hnone (st : SetupState σ) : (slot + 1, st) ∉ deviceRounds pcie dev regions := by
        intro hmem
        have hfalse := (hcover (layout.upper hb h64).1).1 ⟨st, hmem⟩
        rw [hupper] at hfalse
        cases hfalse
      refine ⟨?_, ?_⟩
      · rintro ⟨s, st⟩ hmem rfl
        exact hnone st hmem
      · rw [Bool.eq_false_iff, (pciautoSetupDevice_loop pcie bridges dev hnum regions).1]
        intro hpresent
        -- a record is present from the start or through its own round, and here there is neither
        rcases present_of_rounds hnum hpresent with hbefore | ⟨st, hmem, -⟩
        · rw [show (setupStart pcie dev).dev = dev from rfl, hfresh] at hbefore
          cases hbefore
        · exact hnone st hmem

end Inert

/-! ## A function with one BAR -/

/-- A BAR of 1 MiB in a region that ends at 4 GiB. -/
theorem barsInert_sample :
    let pcie := controllerOf (pciautoRegionInit topRegion)
    BarsInert pcie [] (mem64Function 20) pcie.ptr (mem64Layout 20 (by decide) (by decide)) := by
  intro pcie
  have hcond : PlacedCond pcie (mem64Function 20) pcie.ptr
      (mem64Layout 20 (by decide) (by decide)) := by
    decide +kernel
  exact (barsInert_iff pcie [] pcie.ptr (by decide) (laidOut_mem64Function (by decide +kernel))
    fun _ => rfl).2 hcond

/-- A region of 4 KiB at the end of the bus. -/
def tightRegion : PciRegion := { topRegion with busStart := 0xfffff000, size := 0x1000 }

/-- **A BAR that finds no room.** It is left decoding at the end of the bus. -/
theorem barsInert_fails :
    let pcie := controllerOf (pciautoRegionInit tightRegion)
    LaidOut (mem64Function 20).cfg (mem64Layout 20 (by decide) (by decide)) ∧
      ¬ BarsInert pcie [] (mem64Function 20) pcie.ptr
        (mem64Layout 20 (by decide) (by decide)) := by
  intro pcie
  refine ⟨laidOut_mem64Function (by decide +kernel), fun h => ?_⟩
  have hdecoded : pciReadConfig16 (pciautoSetupDevice pcie [] (mem64Function 20) pcie.ptr).2
      pciCommand &&& (BarDecoder.mem64 false).enable ≠ 0 := by
    decide +kernel
  have hheld : heldAddress (pciautoSetupDevice pcie [] (mem64Function 20) pcie.ptr).2 0
      (.mem64 false) = 0xfffffffffff00000#64 := by
    decide +kernel
  obtain ⟨st, addr, pcie', -, -, heq⟩ := h.decoded 0 _ rfl hdecoded
  have hlt := addr.isLt
  have hnat := congrArg BitVec.toNat (hheld.symm.trans heq)
  rw [BitVec.toNat_setWidth, BitVec.toNat_ofNat] at hnat
  omega

end BcmPcie
