import BcmPcie.Enumeration.BarSizing
import BcmPcie.Irq.EnableBits
import BcmPcie.Pci.ConfigProgram

/-! # Function level reset

`LibFLR` over `pci_flr`: a function that says in its PCI Express capability that it can be reset is
reset by a write to it, and the call waits until the function is back. What the library knows of the
registers of a function is in its record: the addresses of the BARs, the MSI mask, which interrupt
type is on. A reset does not touch the record, and nothing of it is written back.

* `PoweredOn` — what a reset does to a function.
* `CachedView` — the registers of a function hold what its record says.
* `cachedReady_run` — they do in every run, on each function that the run does not reset. -/

namespace BcmPcie

open Runs

variable {ι σ : Type*}

/-! ## The call -/

/-- The accesses of a call leave what a function implements. -/
theorem ConfigProgram.sameDevice_run {α : Type} (p : ConfigProgram α) (cfg : RegisterFile 4096) :
    cfg.SameDevice (p.run cfg).2 := by
  induction p generalizing cfg with
  | done a => exact RegisterFile.SameDevice.refl cfg
  | read w offset next ih => exact ih (cfg.read w offset) cfg
  | write w offset value next ih => exact (RegisterFile.sameDevice_write ..).trans (ih _)

/-- `pci_flr` resets the function: it has the capability, and says there that it can be reset. -/
def FlrCapable (dev : PciDevice) : Prop := (ConfigProgram.pciFlr.run dev.cfg).1 = true

instance (dev : PciDevice) : Decidable (FlrCapable dev) := inferInstanceAs (Decidable (_ = true))

/-- `pci_flr`, on hardware that resets a function as `reset` does once it is told to. -/
def pciFlr (reset : PciDevice → PciDevice) (dev : PciDevice) : PciDevice × Except Errno Unit :=
  let r := ConfigProgram.pciFlr.run dev.cfg
  let dev := { dev with cfg := r.2 }
  if r.1 then (reset dev, .ok ()) else (dev, .error .enoent)

@[simp] abbrev pcieErrNotsupp : ℤ := -4

/-- `LibFLR`. -/
def libFLR [DecidableEq ι] (reset : ι → PciDevice → PciDevice) (s : IrqState ι σ) (dev : Option ι) :
    IrqState ι σ × ℤ :=
  match dev with
  | none => (s, pcieErrInval)
  | some i =>
    let (dev, r) := pciFlr (reset i) (s.devs i)
    (s.put i s.pcie dev,
      match r with
      | .ok () => pcieOk
      | .error _ => pcieErrNotsupp)

/-- A function that is not reset is not written to either. -/
theorem pciFlr_of_not_flrCapable (reset : PciDevice → PciDevice) {dev : PciDevice}
    (h : ¬ FlrCapable dev) : (pciFlr reset dev).1 = dev := by
  have hcfg : (ConfigProgram.pciFlr.run dev.cfg).2 = dev.cfg := by
    unfold FlrCapable at h
    unfold ConfigProgram.pciFlr at h ⊢
    simp only [ConfigProgram.run_bind, ConfigProgram.run_pciFindCapability] at h ⊢
    split
    · rfl
    · rename_i hcap
      rw [if_neg hcap] at h
      simp only [ConfigProgram.run_bind, ConfigProgram.run_pciReadConfig] at h ⊢
      split
      · rfl
      · rename_i hflr
        rw [if_neg hflr] at h
        simp at h
  have hfalse : (ConfigProgram.pciFlr.run dev.cfg).1 = false := Bool.eq_false_of_not_eq_true h
  simp only [pciFlr, hfalse, hcfg]
  rfl

/-! ## What a reset does -/

/-- The registers that a reset clears, with their widths: those of the BARs, the command register,
and the ones that enable and mask MSI and MSI-X. -/
def resetRegisters (dev : PciDevice) : List (ℕ × ℕ) :=
  (List.range dev.barsNum).map (fun slot => (32, pciBaseAddress0 + 4 * slot)) ++
    [(16, pciCommand)] ++
    (if dev.msi.capOffset = 0 then [] else [(16, dev.msi.capOffset + pciMsiFlags)]) ++
    (if dev.msi.maskable then [(32, dev.msi.maskOffset)] else []) ++
    if dev.msix.capOffset = 0 then [] else [(16, dev.msix.capOffset + pciMsixFlags)]

/-- A function has been reset: these registers are as after power-on, zero where they can be
written, and its record is as it was. -/
structure PoweredOn (dev dev' : PciDevice) : Prop where
  record : dev' = { dev with cfg := dev'.cfg, tableMem := dev'.tableMem }
  device : dev.cfg.SameDevice dev'.cfg
  registers : ∀ r ∈ resetRegisters dev, dev'.cfg.read r.1 r.2 = dev.cfg.response r.1 r.2 0

/-- A reset leaves the same function, with the allocation it had. -/
theorem pciFlr_sameFunction {reset : PciDevice → PciDevice}
    (hreset : ∀ dev, PoweredOn dev (reset dev)) (dev : PciDevice) :
    SameFunction dev (pciFlr reset dev).1 ∧ (pciFlr reset dev).1.active = dev.active := by
  have hwritten := ConfigProgram.sameDevice_run ConfigProgram.pciFlr dev.cfg
  have hpower := hreset { dev with cfg := (ConfigProgram.pciFlr.run dev.cfg).2 }
  unfold pciFlr
  dsimp only
  split
  · refine ⟨⟨hpower.device.1.trans hwritten.1, ?_, ?_, ?_⟩, ?_⟩ <;> rw [hpower.record]
  · exact ⟨⟨hwritten.1, rfl, rfl, rfl⟩, rfl⟩

/-! ## Interrupt calls and resets -/

/-- The calls that touch the registers of a function behind its drivers. -/
inductive DeviceCall (ι : Type*)
  | irq (c : LibCall ι)
  | flr (dev : Option ι)

/-- The call resets the function. -/
def DeviceCall.Resets (s : IrqState ι σ) (i : ι) : DeviceCall ι → Prop
  | .flr (some j) => j = i ∧ FlrCapable (s.devs j)
  | _ => False

/-- One call. -/
def deviceStep [DecidableEq ι] [Gic400 σ] (reset : ι → PciDevice → PciDevice) (s : IrqState ι σ) :
    DeviceCall ι → IrqState ι σ
  | .irq c => libStep s c
  | .flr dev => (libFLR reset s dev).1

/-! ## The view -/

/-- The header of a function holds what its record says of the BARs: a BAR that is recorded holds the
address recorded for it, one of 16-bit I/O if it can, and memory is decoded if a memory BAR is
recorded. -/
structure HeaderView {barsNum : ℕ} (layout : BarLayout barsNum) (dev : PciDevice) : Prop where
  bars : ∀ slot, ∀ b ∈ layout.bar slot, (dev.bars slot).present = true →
    (b.decoder = .io16 → (dev.bars slot).busAddr.toNat < 2 ^ 16) →
      heldAddress dev slot b.decoder = (dev.bars slot).busAddr.setWidth 64
  memory : ∀ slot, (dev.bars slot).present = true → (dev.bars slot).type = .mem →
    (pciReadConfig16 dev pciCommand).getLsbD 1 = true

/-- **The registers of a function hold what its record says**: the BARs their addresses, the MSI mask
register the shadow of it, and of MSI and MSI-X that is enabled which is allocated. -/
structure CachedView {barsNum : ℕ} (layout : BarLayout barsNum) (dev : PciDevice) : Prop
    extends HeaderView layout dev where
  mask : MaskSynced dev
  enables : EnablesAgree dev

/-- The view rests on the records of the BARs, their registers and memory decoding. -/
theorem HeaderView.congr {barsNum : ℕ} {layout : BarLayout barsNum} {dev dev' : PciDevice}
    (h : HeaderView layout dev) (hbars : dev'.bars = dev.bars)
    (hread : ∀ slot < barsNum, pciReadConfig32 dev' (pciBaseAddress0 + 4 * slot)
      = pciReadConfig32 dev (pciBaseAddress0 + 4 * slot))
    (hmemory : (pciReadConfig16 dev pciCommand).getLsbD 1 = true →
      (pciReadConfig16 dev' pciCommand).getLsbD 1 = true) : HeaderView layout dev' := by
  refine ⟨fun slot b hb hpresent hio => ?_, fun slot hpresent htype => ?_⟩
  · rw [hbars] at hpresent hio ⊢
    rw [← h.bars slot b hb hpresent hio]
    unfold heldAddress
    dsimp only
    rw [hread slot (layout.lt hb)]
    cases h64 : b.decoder.is64 with
    | false => rfl
    | true =>
      -- the upper half is in the register of the next slot
      rw [if_pos rfl, if_pos rfl, Nat.add_assoc, ← Nat.mul_succ, hread _ (layout.upper hb h64).1]
  · rw [hbars] at hpresent htype
    exact hmemory (h.memory slot hpresent htype)

/-- The BAR registers are in the header. -/
theorem HeaderView.keep {barsNum : ℕ} {layout : BarLayout barsNum} (hnum : barsNum ≤ 6)
    {dev dev' : PciDevice} (h : HeaderView layout dev) (hkept : HeaderKept dev dev') :
    HeaderView layout dev' := by
  refine h.congr hkept.bars (fun slot hslot => ?_) hkept.memory
  refine pciReadConfig_of_sameOutside hkept.outside fun r hr => ?_
  simp only [List.mem_cons, List.not_mem_nil, or_false] at hr
  unfold RegisterFile.Apart
  rcases hr with rfl | rfl <;> simp only [pciCommand, pciBaseAddress0] <;> omega

/-! ## Runs -/

/-- What carries the view of a function from call to call. -/
structure CachedReady {barsNum : ℕ} (layout : BarLayout barsNum) (s : IrqState ι σ) (i : ι) : Prop where
  ready : GatesReady s
  writable : EnablesWritable (s.devs i)
  gate : DeviceGate s.pcie (s.devs i)
  header : HeaderView layout (s.devs i)
  enables : EnablesAgree (s.devs i)

/-- What is ready has the view of the cache. -/
theorem CachedReady.view {barsNum : ℕ} {layout : BarLayout barsNum} {s : IrqState ι σ} {i : ι}
    (h : CachedReady layout s i) : CachedView layout (s.devs i) :=
  ⟨h.header, h.gate.synced, h.enables⟩

section Calls

variable [DecidableEq ι] [Gic400 σ] {barsNum : ℕ} {layout : BarLayout barsNum} {s : IrqState ι σ}
  {i : ι}

/-- A core call keeps the view of each function. -/
theorem cachedReady_irqStep (hnum : barsNum ≤ 6) (h : CachedReady layout s i) (c : IrqCall ι)
    (hc : c.HasServer) : CachedReady layout (irqStep s c) i := by
  have hsame := irqStep_sameFunction s c i
  have hgate := deviceGate_irqStep h.ready h.gate c hc
  have hkept : RecordKept (s.devs i) ((irqStep s c).devs i) := by
    by_cases hi : i = c.target
    · rw [hi] at h ⊢
      rw [irqStep, put_devs_self]
      exact recordKept_apply s.pcie (h.ready.hardware _) h.writable h.enables c
    · rw [irqStep, put_devs_of_ne _ _ _ _ hi]
      exact ⟨HeaderKept.refl _, h.enables⟩
  exact ⟨h.ready.irqStep c, hsame.enablesWritable h.writable, hgate, h.header.keep hnum hkept.header,
    hkept.enables⟩

omit [Gic400 σ] in
/-- A change of one function that leaves its allocation, and is none of the registers of the function
asked for, keeps the view of that. -/
theorem CachedReady.put (hnum : barsNum ≤ 6) (h : CachedReady layout s i) (j : ι) {dev : PciDevice}
    (hsame : SameFunction (s.devs j) dev) (hactive : dev.active = (s.devs j).active)
    (hself : i = j → DeviceGate s.pcie dev ∧ RecordKept (s.devs j) dev) :
    CachedReady layout (s.put j s.pcie dev) i := by
  have hready : GatesReady (s.put j s.pcie dev) :=
    ⟨slotsOwned_put_same h.ready.ledger j hactive,
      forall_devs_put s j _ _ h.ready.hardware (hsame.gateHardware (h.ready.hardware j)),
      forall_devs_put s j _ _ h.ready.fits
        ((h.ready.fits j).congr hsame (by rw [hactive]) (by rw [hactive]))⟩
  by_cases hi : i = j
  · subst hi
    obtain ⟨hgate, hkept⟩ := hself rfl
    refine ⟨hready, ?_, ?_, ?_, ?_⟩ <;> rw [put_devs_self]
    · exact hsame.enablesWritable h.writable
    · exact hgate
    · exact h.header.keep hnum hkept.header
    · exact hkept.enables
  · refine ⟨hready, ?_, ?_, ?_, ?_⟩ <;> rw [put_devs_of_ne _ _ _ _ hi]
    · exact h.writable
    · exact h.gate
    · exact h.header
    · exact h.enables

/-- An interrupt call keeps the view of each function. -/
theorem cachedReady_libStep (hnum : barsNum ≤ 6) (h : CachedReady layout s i) (c : LibCall ι) :
    CachedReady layout (libStep s c) i := by
  refine libStep_invariant (P := fun s => CachedReady layout s i)
    (fun s c hc h => cachedReady_irqStep hnum h c hc) (fun s j b h => ?_) (fun s j b h => ?_) s c h
  · refine h.put hnum j ⟨rfl, rfl, rfl, rfl⟩ rfl fun hi => ?_
    subst hi
    exact ⟨h.gate.congr rfl rfl (fun _ => rfl) rfl fun _ _ _ => rfl, HeaderKept.of_cfg rfl rfl,
      h.enables.keep (enablesKept_of_cfg rfl rfl rfl) rfl⟩
  · refine h.put hnum j (SameFunction.of_sameRecord (pciIntx_sameRecord _ b) (pciIntx_rw _ b))
      (pciIntx_active _ b) fun hi => ?_
    subst hi
    exact ⟨h.gate.pciIntx (h.ready.hardware i) b, headerKept_pciIntx _ b,
      h.enables.keep (enablesKept_pciIntx (h.ready.hardware i) b) (by rw [pciIntx_active])⟩

/-- A reset of another function, and a call that resets none, keep the view. -/
theorem cachedReady_step (hnum : barsNum ≤ 6) {reset : ι → PciDevice → PciDevice}
    (hreset : ∀ j dev, PoweredOn dev (reset j dev)) (h : CachedReady layout s i) (c : DeviceCall ι)
    (hnot : ¬ c.Resets s i) : CachedReady layout (deviceStep reset s c) i := by
  cases c with
  | irq c => exact cachedReady_libStep hnum h c
  | flr dev =>
    cases dev with
    | none => exact h
    | some j =>
      obtain ⟨hsame, hactive⟩ := pciFlr_sameFunction (hreset j) (s.devs j)
      show CachedReady layout (s.put j s.pcie (pciFlr (reset j) (s.devs j)).1) i
      refine h.put hnum j hsame hactive fun hi => ?_
      subst hi
      have hunchanged := pciFlr_of_not_flrCapable (reset i) fun hcapable => hnot ⟨rfl, hcapable⟩
      rw [hunchanged]
      exact ⟨h.gate, HeaderKept.refl _, h.enables⟩

/-- **Runs of calls** keep the view of each function that they do not reset. -/
theorem cachedReady_run (hnum : barsNum ≤ 6) {reset : ι → PciDevice → PciDevice}
    (hreset : ∀ j dev, PoweredOn dev (reset j dev)) (h : CachedReady layout s i)
    (cs : List (DeviceCall ι))
    (hnot : EveryStep (deviceStep reset) (fun s c => ¬ c.Resets s i) s cs) :
    CachedReady layout (run (deviceStep reset) s cs) i :=
  Along.last (along_of_everyStep (P := fun s => CachedReady layout s i) (Q := fun _ => True)
    (fun _ _ _ => trivial) (fun _ c _ hready => cachedReady_step hnum hreset hready c) trivial h hnot)

end Calls

end BcmPcie
