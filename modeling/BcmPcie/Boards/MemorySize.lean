import BcmPcie.Boards.ReadBack
import BcmPcie.Enumeration.BarSizing

/-! # The size of a BAR

`pciauto_setup_device` computes the size of a BAR from what the BAR answers and keeps both; a query of
`PRM_MemorySizeN` computes the size again, from the answer alone. The former looks at the answer to tell
a BAR of I/O space from one of memory, the latter at the address that the BAR is mapped at.

* `RecordedBars` — the records of the slots along the loop over the BARs; `recordedBars_of_setup`.
* `pdevBars_eq_ite` — what `pcie_make_pdev` copies of them.
* `MaskAgrees` — the two masks leave the same of an answer.
* `memorySize_stored_iff` — when a query stores the size that the BAR was given. -/

namespace BcmPcie

open TagLists

variable {σ : Type}

/-! ## Records of BARs -/

/-- What is kept of a BAR follows from what it has answered; a BAR of I/O space is not mapped. -/
structure SizedRecord (bar : PciBarInfo) : Prop where
  response_ne : bar.barResponse ≠ 0
  size : bar.size = barSize bar.barResponse
  type : bar.type = if isIoBar bar.barResponse then .io else .mem
  unmapped : isIoBar bar.barResponse = true → bar.virtAddr = none

/-- What is kept of a BAR that answers is a sized record. -/
theorem sizedRecord_barInfo (pcie : PciController σ) {response : BitVec 32} (h : response ≠ 0)
    (addr : BitVec 32) :
    SizedRecord (barInfo pcie (isIoBar response) (barSizing response) addr) := by
  refine ⟨h, rfl, rfl, fun hio => ?_⟩
  have hio : isIoBar response = true := hio
  unfold barInfo
  rw [hio]
  rfl

/-- The records of the slots when the loop over the BARs has come to `slot`: there is none from there
on, and none for the upper half of a BAR. -/
structure RecordedBars (barsNum slot : ℕ) (bars : ℕ → PciBarInfo) : Prop where
  behind : ∀ s, (bars s).present = true → s < slot ∧ s < barsNum
  upper : ∀ s, (bars s).present = true → (bars s).is64 = true →
    s + 1 < slot ∧ (bars (s + 1)).present = false
  record : ∀ s, (bars s).present = true → SizedRecord (bars s)

namespace RecordedBars

variable {barsNum slot : ℕ} {bars : ℕ → PciBarInfo}

/-- BARs recorded up to a slot are recorded up to a later one. -/
theorem mono (h : RecordedBars barsNum slot bars) {slot' : ℕ} (hle : slot ≤ slot') :
    RecordedBars barsNum slot' bars :=
  ⟨fun s hs => ⟨(h.behind s hs).1.trans_le hle, (h.behind s hs).2⟩,
    fun s hs h64 => ⟨(h.upper s hs h64).1.trans_le hle, (h.upper s hs h64).2⟩, h.record⟩

/-- From the slot on no BAR is recorded. -/
theorem absent (h : RecordedBars barsNum slot bars) {s : ℕ} (hs : slot ≤ s) :
    (bars s).present = false := by
  rw [← Bool.not_eq_true]
  intro hpresent
  have := (h.behind s hpresent).1
  omega

/-- A BAR is placed, and the loop goes on behind it. -/
theorem place (h : RecordedBars barsNum slot bars) (hslot : slot < barsNum) {bar : PciBarInfo}
    (hbar : SizedRecord bar) :
    RecordedBars barsNum (slot + if bar.is64 then 2 else 1) (Function.update bars slot bar) := by
  have hself : Function.update bars slot bar slot = bar := Function.update_self ..
  have hother {s : ℕ} (hs : s ≠ slot) : Function.update bars slot bar s = bars s :=
    Function.update_of_ne hs ..
  have hnext : slot < slot + if bar.is64 then 2 else 1 := by split <;> omega
  refine ⟨fun s hs => ?_, fun s hs h64 => ?_, fun s hs => ?_⟩
  · by_cases heq : s = slot
    · rw [heq]
      exact ⟨hnext, hslot⟩
    · rw [hother heq] at hs
      exact ⟨(h.behind s hs).1.trans hnext, (h.behind s hs).2⟩
  · by_cases heq : s = slot
    · -- the slot of the upper half is still to come
      rw [heq, hself] at h64
      rw [heq, h64, hother (Nat.succ_ne_self slot)]
      exact ⟨by rw [if_pos rfl]; omega, h.absent (Nat.le_succ slot)⟩
    · rw [hother heq] at hs h64
      obtain ⟨hlt, habsent⟩ := h.upper s hs h64
      rw [hother hlt.ne]
      exact ⟨hlt.trans hnext, habsent⟩
  · by_cases heq : s = slot
    · rw [heq, hself]
      exact hbar
    · rw [hother heq] at hs ⊢
      exact h.record s hs

/-- A round of the loop records the BAR of its slot. -/
theorem setupBar {st : SetupState σ} (h : RecordedBars barsNum slot st.dev.bars)
    (hslot : slot < barsNum) (hnum : barsNum ≤ 6) (regions : RegionKind → Option ℕ) :
    RecordedBars barsNum (BcmPcie.setupBar regions st slot).2
      (BcmPcie.setupBar regions st slot).1.dev.bars := by
  obtain ⟨dev, hdev, hround⟩ := setupBar_round regions st (by omega : slot < 7) rfl
  rcases hround with ⟨-, heq⟩ | ⟨-, -, heq⟩ | ⟨hbar, addr, pcie, -, -, heq⟩
  · rw [heq]
    show RecordedBars barsNum (slot + 1) dev.bars
    rw [hdev.bars]
    exact h.mono (Nat.le_succ slot)
  · rw [heq]
    show RecordedBars barsNum (slot + 1) dev.bars
    rw [hdev.bars]
    exact h.mono (Nat.le_succ slot)
  · rw [heq]
    exact h.place hslot (sizedRecord_barInfo pcie (fun h0 => hbar (Or.inl h0)) addr)

/-- So the loop records them all. -/
theorem setupBars (hnum : barsNum ≤ 6) (regions : RegionKind → Option ℕ) (rounds : ℕ)
    {st : SetupState σ} (h : RecordedBars barsNum slot st.dev.bars) :
    ∃ slot', RecordedBars barsNum slot' (BcmPcie.setupBars regions barsNum rounds slot st).dev.bars := by
  induction rounds generalizing slot st with
  | zero => exact ⟨slot, h⟩
  | succ rounds ih =>
    rw [BcmPcie.setupBars]
    split
    · rename_i hslot
      exact ih (h.setupBar hslot hnum regions)
    · exact ⟨slot, h⟩

end RecordedBars

/-- **The set-up of a function** that has no BAR yet. -/
theorem recordedBars_of_setup (pcie : PciController σ) (bridges : List PciDevice) {dev : PciDevice}
    (hnum : dev.barsNum ≤ 6) (hfresh : ∀ s, (dev.bars s).present = false)
    (regions : RegionKind → Option ℕ) :
    ∃ slot, RecordedBars dev.barsNum slot (pciautoSetupDevice pcie bridges dev regions).2.bars := by
  rw [(pciautoSetupDevice_loop pcie bridges dev hnum regions).1]
  have hstart : RecordedBars dev.barsNum 0 (setupStart pcie dev).dev.bars := by
    refine ⟨fun s hs => ?_, fun s hs => ?_, fun s hs => ?_⟩ <;>
      exact absurd hs (by rw [show (setupStart pcie dev).dev.bars s = dev.bars s from rfl, hfresh s];
                          exact Bool.false_ne_true)
  exact hstart.setupBars hnum regions dev.barsNum

/-! ## The public record -/

/-- The loop of `pcie_make_pdev` from slot `i` on copies what the BARs from there on have answered, and
where they are mapped. -/
theorem pdevBars_eq_ite {idev : PciDevice} {slot : ℕ}
    (h : RecordedBars idev.barsNum slot idev.bars) {rounds i : ℕ} (hrounds : idev.barsNum ≤ i + rounds)
    (pdev : PciDev) (s : ℕ) :
    ((pdevBars idev rounds i pdev).baseSize s, (pdevBars idev rounds i pdev).baseAddress s)
      = if i ≤ s ∧ (idev.bars s).present = true then
          ((idev.bars s).barResponse, (idev.bars s).virtAddr.getD 0)
        else (pdev.baseSize s, pdev.baseAddress s) := by
  -- behind the last slot there is nothing to copy
  have hdone (i : ℕ) (hi : idev.barsNum ≤ i) : ¬ (i ≤ s ∧ (idev.bars s).present = true) := by
    rintro ⟨hle, hs⟩
    have := (h.behind s hs).2
    omega
  induction rounds generalizing i pdev with
  | zero => rw [if_neg (hdone i hrounds)]; rfl
  | succ rounds ih =>
    rw [pdevBars]
    by_cases hlast : idev.barsNum ≤ i
    · rw [if_pos hlast, if_neg (hdone i hlast)]
    · rw [if_neg hlast]
      by_cases habsent : (idev.bars i).present = false
      · rw [if_pos habsent, ih (by omega)]
        refine if_congr ⟨fun hs => ⟨by omega, hs.2⟩, fun hs => ⟨?_, hs.2⟩⟩ rfl rfl
        rcases Nat.eq_or_lt_of_le hs.1 with rfl | hlt
        · exact absurd hs.2 (by rw [habsent]; exact Bool.false_ne_true)
        · exact hlt
      · rw [if_neg habsent]
        have hpresent : (idev.bars i).present = true := Bool.eq_true_of_not_eq_false habsent
        dsimp only
        rw [ih (by split <;> omega)]
        dsimp only
        by_cases heq : s = i
        · subst heq
          rw [if_neg (by split <;> omega), if_pos ⟨le_rfl, hpresent⟩, Function.update_self,
            Function.update_self]
        · rw [Function.update_of_ne heq, Function.update_of_ne heq]
          refine if_congr ⟨fun hs => ⟨(Nat.le_add_right _ _).trans hs.1, hs.2⟩,
            fun hs => ⟨?_, hs.2⟩⟩ rfl rfl
          -- the slot that is passed over has no BAR
          cases h64 : (idev.bars i).is64 with
          | false =>
            rw [if_neg (by decide)]
            omega
          | true =>
            have hnext : s ≠ i + 1 := by
              rintro rfl
              rw [(h.upper i hpresent h64).2] at hs
              exact Bool.false_ne_true hs.2
            rw [if_pos rfl]
            omega

/-- What the public record of a function holds of a BAR. -/
theorem board_bar (busNumber : ℕ) {idev : PciDevice} {slot : ℕ}
    (h : RecordedBars idev.barsNum slot idev.bars) (s : ℕ) :
    ((Board.of busNumber idev).baseSize s, (Board.of busNumber idev).baseAddress s)
      = if (idev.bars s).present = true then
          ((idev.bars s).barResponse, (idev.bars s).virtAddr.getD 0)
        else (0, 0) := by
  refine (pdevBars_eq_ite h (Nat.zero_add _).ge _ s).trans ?_
  exact if_congr (and_iff_right (Nat.zero_le s)) rfl rfl

/-! ## The two sizes -/

/-- The mask that the query takes leaves the same of the answer as the mask that the size was computed
with: the BAR is one of memory, at an even address, or the bits that the masks differ in are clear. -/
def MaskAgrees (bar : PciBarInfo) : Prop :=
  (bar.type = .mem ∧ bar.virtAddr.getD 0 &&& pciBaseAddressSpace = 0) ∨ bar.barResponse &&& 0xc = 0

instance (bar : PciBarInfo) : Decidable (MaskAgrees bar) := inferInstanceAs (Decidable (_ ∨ _))

/-- The two masks, of a BAR of I/O space and of one of memory. -/
theorem size_eq_iff (raw : BitVec 32) :
    ~~~(raw &&& pciBaseAddressMemMask) + 1 = ~~~(raw &&& pciBaseAddressIoMask) + 1 ↔
      raw &&& 0xc = 0 := by
  have hsplit : raw &&& pciBaseAddressIoMask = raw &&& pciBaseAddressMemMask ||| raw &&& 0xc := by
    rw [← BitVec.and_or_distrib_left]
    rfl
  rw [BitVec.add_left_inj, BitVec.not_inj, hsplit]
  refine ⟨fun h => ?_, fun h => by rw [h]; exact (BitVec.or_zero).symm⟩
  -- the bits are not in the mask of the left side
  have hbits := congrArg (· &&& (0xc : BitVec 32)) h
  simp only [BitVec.and_or_distrib_right, BitVec.and_assoc] at hbits
  simpa using hbits.symm

/-- `PRM_MemorySize` is the size of the BAR if and only if the mask suits the flags of its response.
-/
theorem memorySize_eq_iff {board : Board} {n : ℕ} {bar : PciBarInfo} (hbar : SizedRecord bar)
    (hsize : board.baseSize n = bar.barResponse)
    (haddress : board.baseAddress n = bar.virtAddr.getD 0) :
    memorySize board n = bar.size ↔ MaskAgrees bar := by
  unfold memorySize MaskAgrees
  dsimp only
  rw [hsize, haddress, hbar.size, if_pos hbar.response_ne, hbar.type]
  unfold barSize
  cases hio : isIoBar bar.barResponse with
  | true =>
    -- a BAR of I/O space is at no address, and taken for one of memory
    rw [hbar.unmapped hio]
    simp only [if_true]
    rw [if_neg (by decide), size_eq_iff]
    simp
  | false =>
    simp only [Bool.false_eq_true, if_false, true_and]
    by_cases heven : bar.virtAddr.getD 0 &&& pciBaseAddressSpace = 0
    · rw [if_neg (not_not.2 heven)]
      exact iff_of_true rfl (Or.inl heven)
    · rw [if_pos heven, eq_comm, size_eq_iff]
      exact (or_iff_right heven).symm

/-- The tag of a BAR. -/
theorem boardAttr_memorySize (ctrl : AttrController) (board : Board) {n : ℕ} (hn : n < 6) :
    boardAttr ctrl board (prmMemorySize0 + BitVec.ofNat 32 n) = some (memorySize board n) := by
  match n, hn with
  | 0, _ | 1, _ | 2, _ | 3, _ | 4, _ | 5, _ => rfl

/-- The tags of the sizes are not to be ignored. -/
theorem prmMemorySize_ne_tagIgnore {n : ℕ} (hn : n < 6) :
    prmMemorySize0 + BitVec.ofNat 32 n ≠ tagIgnore := by
  match n, hn with
  | 0, _ | 1, _ | 2, _ | 3, _ | 4, _ | 5, _ => simp [prmMemorySize0, tagIgnore]

/-- **A reported size is the one that the BAR was given**, and 0 where there is none, if and only if the
masks agree on the BAR that is there. -/
theorem memorySize_stored_iff (pcie : PciController σ) (bridges : List PciDevice) {dev : PciDevice}
    (hnum : dev.barsNum ≤ 6) (hfresh : ∀ s, (dev.bars s).present = false)
    (regions : RegionKind → Option ℕ) (busNumber : ℕ) {n : ℕ} (hn : n < 6) (ctrl : AttrController)
    {mem : Memory} {tags dest : BitVec 32} (hnull : tags ≠ 0) (hdest : dest ≠ 0)
    (hrow : Row mem tags [⟨prmMemorySize0 + BitVec.ofNat 32 n, dest⟩]) (regs : RcRegisters)
    {fuel : ℕ} (hfuel : 1 < fuel) :
    let idev := (pciautoSetupDevice pcie bridges dev regions).2
    (∃ s, libGetBoardAttrsA ctrl mem fuel (some (Board.of busNumber idev)) tags regs = some s ∧
        s.stores = [(dest, if (idev.bars n).present = true then (idev.bars n).size else 0)]) ↔
      ((idev.bars n).present = true → MaskAgrees (idev.bars n)) := by
  intro idev
  obtain ⟨slot, hrecorded⟩ := recordedBars_of_setup pcie bridges hnum hfresh regions
  have hnum' : idev.barsNum = dev.barsNum :=
    (congrArg PciDevice.barsNum (pciautoSetupDevice_frame pcie bridges hnum regions).2.record).trans rfl
  rw [← hnum'] at hrecorded
  have hcopied := board_bar busNumber hrecorded n
  obtain ⟨s, hget, hstores⟩ := libGetBoardAttrsA_stores hnull hrow ctrl (Board.of busNumber idev) regs
    hfuel
  have hignore := prmMemorySize_ne_tagIgnore hn
  -- the one tag of the row is answered, with what the loop over the address masks counts
  have hreported : s.stores = [(dest, memorySize (Board.of busNumber idev) n)] := by
    rw [hstores, reported_cons hignore hdest (boardAttr_memorySize ctrl _ hn), reported_nil]
  have hcall (size : BitVec 32) : (∃ s, libGetBoardAttrsA ctrl mem fuel
      (some (Board.of busNumber idev)) tags regs = some s ∧ s.stores = [(dest, size)]) ↔
        memorySize (Board.of busNumber idev) n = size := by
    rw [hget]
    constructor
    · rintro ⟨s', hs', hsize⟩
      obtain rfl := Option.some.inj hs'
      rw [hreported] at hsize
      exact (Prod.mk.inj (List.cons.inj hsize).1).2
    · rintro rfl
      exact ⟨s, rfl, hreported⟩
  rw [hcall]
  -- the board has the recorded size where the BAR is there, and 0 where it is not
  cases hpresent : (idev.bars n).present with
  | true =>
    rw [hpresent, if_pos rfl] at hcopied
    obtain ⟨hsize, haddress⟩ := Prod.mk.inj hcopied
    rw [if_pos rfl, memorySize_eq_iff (hrecorded.record n hpresent) hsize haddress]
    exact ⟨fun h _ => h, fun h => h rfl⟩
  | false =>
    rw [hpresent, if_neg Bool.false_ne_true] at hcopied
    refine iff_of_true ?_ (fun h => absurd h Bool.false_ne_true)
    rw [if_neg Bool.false_ne_true]
    unfold memorySize
    dsimp only
    rw [(Prod.mk.inj hcopied).1, if_neg (by decide)]

/-! ## Two functions with one BAR -/

/-- A query of the size of the first BAR. -/
def sizeTags : Memory := fun a =>
  if a = 0x1000 then some ⟨prmMemorySize0, 0x2000⟩ else if a = 0x1008 then some ⟨tagDone, 0⟩ else none

/-- The sample list asks for the size of BAR 0. -/
theorem sizeTags_row : Row sizeTags 0x1000 [⟨prmMemorySize0 + BitVec.ofNat 32 0, 0x2000⟩] :=
  .next rfl (by decide) (.done rfl rfl)

/-- Of a memory BAR of 1 MiB the size is reported. -/
theorem memorySize_stored_mem64 :
    let pcie := controllerOf (pciautoRegionInit topRegion)
    let idev := (pciautoSetupDevice pcie [] (mem64Function 20) pcie.ptr).2
    ∃ s, libGetBoardAttrsA ⟨0, none⟩ sizeTags 2 (some (Board.of 1 idev)) 0x1000 (fun _ => 0) = some s ∧
      s.stores = [(0x2000, if (idev.bars 0).present = true then (idev.bars 0).size else 0)] := by
  intro pcie idev
  refine (memorySize_stored_iff pcie [] (by decide) (fun _ => rfl) pcie.ptr 1 (by decide) ⟨0, none⟩
    (by decide) (by decide) sizeTags_row (fun _ => 0) (by decide)).2 fun _ => ?_
  decide +kernel

/-- A function with a BAR of `2 ^ n` ports. -/
def ioFunction (n : ℕ) : PciDevice where
  cfg :=
    { regs := BitVec.ofNat _ (0x1 * 2 ^ (8 * pciBaseAddress0))
      rw := BitVec.ofNat _ ((2 ^ 32 - 2 ^ n) * 2 ^ (8 * pciBaseAddress0) + 0x7 * 2 ^ (8 * pciCommand)) }
  tableMem := fun _ => 0
  barsNum := 1

/-- A controller with 64 KiB of I/O space. -/
def ioController : PciController Unit :=
  { controllerOf (pciautoRegionInit
      { busStart := 0x1000, physStart := 0x1000, size := 0x10000, flags := pciRegionIo }) with
    pciMem := none
    pciIo := some 0 }

/-- A BAR of 8 ports is placed, and 16 are reported. -/
theorem not_memorySize_stored :
    ¬ ∀ (pcie : PciController Unit) (bridges : List PciDevice) (dev : PciDevice), dev.barsNum ≤ 6 →
      (∀ s, (dev.bars s).present = false) → ∀ n < 6, ∀ (mem : Memory) (tags dest : BitVec 32),
      tags ≠ 0 → dest ≠ 0 → Row mem tags [⟨prmMemorySize0 + BitVec.ofNat 32 n, dest⟩] →
      let idev := (pciautoSetupDevice pcie bridges dev pcie.ptr).2
      ∃ s, libGetBoardAttrsA ⟨0, none⟩ mem 2 (some (Board.of 1 idev)) tags (fun _ => 0) = some s ∧
        s.stores = [(dest, if (idev.bars n).present = true then (idev.bars n).size else 0)] := by
  intro h
  obtain ⟨s, hget, hstores⟩ := h ioController [] (ioFunction 3) (by decide) (fun _ => rfl) 0 (by decide)
    sizeTags 0x1000 0x2000 (by decide) (by decide) sizeTags_row
  have hplaced : (let idev := (pciautoSetupDevice ioController [] (ioFunction 3) ioController.ptr).2
      if (idev.bars 0).present = true then (idev.bars 0).size else 0) = 8 := by
    decide +kernel
  have hreported : (libGetBoardAttrsA ⟨0, none⟩ sizeTags 2
      (some (Board.of 1 (pciautoSetupDevice ioController [] (ioFunction 3) ioController.ptr).2)) 0x1000
      (fun _ => 0)).map GetState.stores = some [(0x2000, 16)] := by
    decide +kernel
  rw [hget, Option.map_some, hstores] at hreported
  have hsize : (8 : BitVec 32) = 16 :=
    hplaced.symm.trans (Prod.mk.inj (List.cons.inj (Option.some.inj hreported)).1).2
  exact absurd hsize (by decide)

end BcmPcie
