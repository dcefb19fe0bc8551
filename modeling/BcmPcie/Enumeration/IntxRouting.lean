import BcmPcie.Enumeration.SetupDevice

/-! # Routing INTx pins

`pci_assign_irq` follows the pointers from a function to its bus and from the bus to the bridge it is
behind, and swizzles the pin by the number of the walker at each bus that is not the root bus.

* `BusLinks.pciAssignIrq` — the function on the pointers.
* `BusLinks.pciAssignIrq_eq` — it comes to an end, as the function on the list of the bridges.
* `BusLinks.pciAssignIrq_routed` — the pin, as a sum over the bridges. -/

namespace BcmPcie

variable {σ : Type*}

/-- The pointers between the records of functions and of buses. -/
structure BusLinks (δ β : Type*) where
  record : δ → PciDevice
  /-- The bus a function is on. -/
  bus : δ → β
  /-- The bus above a bus; the root bus has none. -/
  parent : β → Option β
  /-- The bridge a bus is behind. -/
  pciBridge : β → δ
  /-- The root bus has a single device: `brcm_pcie_config_address` refuses all numbers but 0. -/
  root_slot : ∀ d, parent (bus d) = none → pciDev (record d).devfn = 0

namespace BusLinks

variable {δ β : Type*} (links : BusLinks δ β)

/-- The loop of `pci_assign_irq`, for `fuel` tests of its condition: the pin on the root bus. -/
def swizzle : (fuel : ℕ) → (walker : δ) → (pin : ℕ) → Option ℕ
  | 0, _, _ => none
  | fuel + 1, walker, pin =>
    match links.parent (links.bus walker) with
    | none => some pin
    | some _ =>
      swizzle fuel (links.pciBridge (links.bus walker))
        (pciSwizzleInterruptPin (links.record walker) pin)

/-- `pci_assign_irq`. -/
def pciAssignIrq (fuel : ℕ) (pcie : PciController σ) (target : δ) : Option PciDevice :=
  let dev := links.record target
  let pinByte := pciReadConfig8 dev pciInterruptPin
  let dev := { dev with intx := { dev.intx with pin := pinByte } }
  let pin := if 4 < pinByte.toNat then 1 else pinByte.toNat
  if pin = 0 then some dev
  else
    (links.swizzle fuel target pin).map fun pin =>
      let dev := { dev with intx := { dev.intx with
        pinRouted := BitVec.ofNat 8 pin
        gicIrq := pcie.intXMapping (pin - 1) } }
      pciWriteConfig8 dev pciInterruptLine (BitVec.ofNat 8 pin)

/-- The bridges above a bus, the nearest first. -/
inductive Above : β → List δ → Prop
  | root {bus : β} : links.parent bus = none → Above bus []
  | behind {bus parent : β} {bridges : List δ} : links.parent bus = some parent →
      links.bus (links.pciBridge bus) = parent → Above parent bridges →
      Above bus (links.pciBridge bus :: bridges)

/-- The number of a device on its bus. -/
def slot (d : δ) : ℕ := pciDev (links.record d).devfn

/-- Those of some bridges that are not on the root bus. -/
def notOnRoot (bridges : List δ) : List δ :=
  bridges.filter fun d => (links.parent (links.bus d)).isSome

/-- The pin on the root bus of a pin of a function, counted from 1. -/
def routedPin (target : δ) (bridges : List δ) (pin : ℕ) : ℕ :=
  (pin - 1 + (links.slot target + ((links.notOnRoot bridges).map links.slot).sum)) % 4 + 1

variable {links}

/-- The loop ends after a test for each bridge and one for the root bus. -/
theorem swizzle_eq {walker : δ} {bridges : List δ} (h : links.Above (links.bus walker) bridges)
    {fuel : ℕ} (hfuel : bridges.length < fuel) (pin : ℕ) : links.swizzle fuel walker pin
      = some (swizzleToRoot (bridges.map links.record) (links.record walker) pin) := by
  generalize hbus : links.bus walker = bus at h
  induction h generalizing walker fuel pin with
  | root hroot =>
    cases fuel with
    | zero => exact absurd hfuel (Nat.not_lt_zero _)
    | succ fuel =>
      rw [swizzle, hbus, hroot]
      rfl
  | behind hparent hbridge _ ih =>
    cases fuel with
    | zero => exact absurd hfuel (Nat.not_lt_zero _)
    | succ fuel =>
      rw [swizzle, hbus, hparent]
      exact ih (Nat.lt_of_succ_lt_succ hfuel) _ hbridge

/-- Of the walker the loop reads its number alone. -/
theorem swizzleToRoot_intx (bridges : List PciDevice) (dev : PciDevice) (intx : DeviceIntx) (pin : ℕ) :
    swizzleToRoot bridges { dev with intx := intx } pin = swizzleToRoot bridges dev pin := by
  cases bridges <;> rfl

/-- **Termination.** The function on the pointers is the one on the list of the bridges. -/
theorem pciAssignIrq_eq {target : δ} {bridges : List δ}
    (h : links.Above (links.bus target) bridges) {fuel : ℕ} (hfuel : bridges.length < fuel)
    (pcie : PciController σ) : links.pciAssignIrq fuel pcie target
      = some (BcmPcie.pciAssignIrq pcie (bridges.map links.record) (links.record target)) := by
  unfold pciAssignIrq BcmPcie.pciAssignIrq
  dsimp only
  generalize (if 4 < (pciReadConfig8 (links.record target) pciInterruptPin).toNat then 1
    else (pciReadConfig8 (links.record target) pciInterruptPin).toNat) = pin
  by_cases hpin : pin = 0
  · rw [if_pos hpin, if_pos hpin]
  · have hwalker := swizzleToRoot_intx (bridges.map links.record) (links.record target)
      { (links.record target).intx with pin := pciReadConfig8 (links.record target) pciInterruptPin } pin
    rw [if_neg hpin, if_neg hpin, swizzle_eq h hfuel, Option.map_some, hwalker]

/-- A function on the root bus has number 0, and its pin stays as it is. -/
theorem swizzleToRoot_of_root {walker : δ} (hroot : links.parent (links.bus walker) = none) {pin : ℕ}
    (hpos : 0 < pin) (hle : pin ≤ 4) : pin = links.routedPin walker [] pin := by
  have hslot : links.slot walker = 0 := links.root_slot walker hroot
  unfold routedPin
  rw [hslot]
  show pin = (pin - 1 + (0 + 0)) % 4 + 1
  omega

/-- Every bridge adds the number of the walker before it; the last one, on the root bus, adds none of
its own. -/
theorem swizzleToRoot_eq_routedPin {walker : δ} {bridges : List δ}
    (h : links.Above (links.bus walker) bridges) {pin : ℕ} (hpos : 0 < pin) (hle : pin ≤ 4) :
    swizzleToRoot (bridges.map links.record) (links.record walker) pin
      = links.routedPin walker bridges pin := by
  generalize hbus : links.bus walker = bus at h
  induction h generalizing walker pin with
  | root hroot =>
    rw [← hbus] at hroot
    exact swizzleToRoot_of_root hroot hpos hle
  | @behind bus parent bridges hparent hbridge _ ih =>
    have hswizzled : pciSwizzleInterruptPin (links.record walker) pin
        = (pin - 1 + links.slot walker) % 4 + 1 := rfl
    have hpos' : 0 < pciSwizzleInterruptPin (links.record walker) pin := by omega
    have hle' : pciSwizzleInterruptPin (links.record walker) pin ≤ 4 := by omega
    have hnext := ih hpos' hle' hbridge
    rw [List.map_cons, swizzleToRoot, hnext, hswizzled]
    unfold routedPin notOnRoot
    rw [List.filter_cons, hbridge]
    cases hup : links.parent parent with
    | none =>
      have hslot : links.slot (links.pciBridge bus) = 0 := links.root_slot _ (by rw [hbridge, hup])
      rw [hslot]
      show _ = (pin - 1 + (links.slot walker + ((bridges.filter _).map _).sum)) % 4 + 1
      omega
    | some _ =>
      show _ = (pin - 1 + (links.slot walker + (links.slot (links.pciBridge bus) +
        ((bridges.filter _).map _).sum))) % 4 + 1
      omega

/-- The pin that is routed: an illegal one counts as INTA. -/
def legalPin (pin : BitVec 8) : ℕ := if 4 < pin.toNat then 1 else pin.toNat

/-- No pin is above 4. -/
theorem legalPin_le (pin : BitVec 8) : legalPin pin ≤ 4 := by
  unfold legalPin
  split <;> omega

/-- Pin 0 is none. -/
theorem legalPin_eq_zero_iff (pin : BitVec 8) : legalPin pin = 0 ↔ pin = 0 := by
  rw [← BitVec.toNat_inj]
  unfold legalPin
  show _ ↔ pin.toNat = 0
  split <;> omega

/-- What routing a pin leaves in the record of its function. -/
structure IntxRouted (pcie : PciController σ) (routed : ℕ) (dev dev' : PciDevice) : Prop where
  /-- The pin as the function has it. -/
  pin : dev'.intx.pin = pciReadConfig8 dev pciInterruptPin
  /-- Without a pin nothing else is set. -/
  unrouted : pciReadConfig8 dev pciInterruptPin = 0 →
    dev'.intx.pinRouted = dev.intx.pinRouted ∧ dev'.intx.gicIrq = dev.intx.gicIrq ∧ dev'.cfg = dev.cfg
  pinRouted : pciReadConfig8 dev pciInterruptPin ≠ 0 → dev'.intx.pinRouted.toNat = routed
  gicIrq : pciReadConfig8 dev pciInterruptPin ≠ 0 → dev'.intx.gicIrq = pcie.intXMapping (routed - 1)
  /-- The pin is written to the register of the interrupt line. -/
  line : pciReadConfig8 dev pciInterruptPin ≠ 0 →
    dev'.cfg = dev.cfg.write 8 pciInterruptLine (BitVec.ofNat 8 routed)

/-- The line assigned is that of the pin at the root. -/
theorem intxRouted_pciAssignIrq (pcie : PciController σ) {bridges : List PciDevice} {dev : PciDevice}
    {routed : ℕ}
    (h : pciReadConfig8 dev pciInterruptPin ≠ 0 →
      swizzleToRoot bridges dev (legalPin (pciReadConfig8 dev pciInterruptPin)) = routed ∧ routed < 256) :
    IntxRouted pcie routed dev (BcmPcie.pciAssignIrq pcie bridges dev) := by
  unfold BcmPcie.pciAssignIrq
  dsimp only
  generalize hp : pciReadConfig8 dev pciInterruptPin = p at h ⊢
  have hlegal : (if 4 < p.toNat then 1 else p.toNat) = legalPin p := rfl
  rw [hlegal]
  by_cases hzero : p = 0
  · rw [if_pos ((legalPin_eq_zero_iff p).2 hzero)]
    exact ⟨hp.symm, fun _ => ⟨rfl, rfl, rfl⟩, fun hne => absurd (hp.trans hzero) hne,
      fun hne => absurd (hp.trans hzero) hne, fun hne => absurd (hp.trans hzero) hne⟩
  · obtain ⟨hpin, hlt⟩ := h hzero
    have hwalker := swizzleToRoot_intx bridges dev { dev.intx with pin := p } (legalPin p)
    rw [if_neg (mt (legalPin_eq_zero_iff p).1 hzero), hwalker, hpin]
    exact ⟨hp.symm, fun h0 => absurd (hp.symm.trans h0) hzero, fun _ => Nat.mod_eq_of_lt hlt,
      fun _ => rfl, fun _ => rfl⟩

/-- **INTx routing**: behind any number of bridges, the pin on the root bus is the pin of the function
and the device numbers on the way, without those of the root bus. -/
theorem pciAssignIrq_routed {target : δ} {bridges : List δ}
    (h : links.Above (links.bus target) bridges) {fuel : ℕ} (hfuel : bridges.length < fuel)
    (pcie : PciController σ) : ∃ dev', links.pciAssignIrq fuel pcie target = some dev' ∧
      IntxRouted pcie
        (links.routedPin target bridges
          (legalPin (pciReadConfig8 (links.record target) pciInterruptPin)))
        (links.record target) dev' := by
  refine ⟨_, pciAssignIrq_eq h hfuel pcie, intxRouted_pciAssignIrq pcie fun hpin => ?_⟩
  generalize pciReadConfig8 (links.record target) pciInterruptPin = p at hpin ⊢
  have hpos : 0 < legalPin p := Nat.pos_of_ne_zero (mt (legalPin_eq_zero_iff p).1 hpin)
  refine ⟨swizzleToRoot_eq_routedPin h hpos (legalPin_le p), ?_⟩
  unfold routedPin
  omega

end BusLinks

/-- A function 3 behind a switch: the ports 1 and 0 of it, and the root port. -/
def switchLinks : BusLinks (Fin 4) (Fin 4) where
  record d :=
    { cfg := (⟨0, BitVec.allOnes _⟩ : RegisterFile 4096).write 8 pciInterruptPin 2
      tableMem := fun _ => 0
      devfn := if d = 0 then 0 else d * 2048 }
  bus d := d
  parent b := if b = 0 then none else some (b - 1)
  pciBridge b := b - 1
  root_slot d h := by
    have hd : d = 0 := by
      by_contra hne
      rw [if_neg hne] at h
      cases h
    subst hd
    rfl

/-- A controller whose INTD is interrupt 178. -/
def switchController : PciController Unit where
  msi := ⟨0xfffffffc, fun _ => none, 0⟩
  intr2 := ⟨0, BitVec.allOnes 32⟩
  gic400 := ()
  intXMapping i := if i = 3 then 178 else 0

/-- INTB of device 3, behind ports 2 and 1, comes in on INTD. -/
theorem switchLinks_routed : ∃ dev', switchLinks.pciAssignIrq 4 switchController 3 = some dev' ∧
    dev'.intx.pinRouted.toNat = 4 ∧ dev'.intx.gicIrq = 178 := by
  have habove : switchLinks.Above (switchLinks.bus 3) [2, 1, 0] :=
    .behind rfl rfl (.behind rfl rfl (.behind rfl rfl (.root rfl)))
  obtain ⟨dev', hrun, hrouted⟩ := BusLinks.pciAssignIrq_routed habove (by decide : 3 < 4)
    switchController
  have hpin : pciReadConfig8 (switchLinks.record 3) pciInterruptPin = 2 := by decide +kernel
  have hne : pciReadConfig8 (switchLinks.record 3) pciInterruptPin ≠ 0 := by
    rw [hpin]
    decide
  refine ⟨dev', hrun, (hrouted.pinRouted hne).trans ?_, (hrouted.gicIrq hne).trans ?_⟩
  · rw [hpin]
    decide
  · rw [hpin]
    decide

end BcmPcie
