import BcmPcie.Pci.Io

/-! # The capability list

`pci_find_capability`: the walk of the linked list of capability structures, bounded by a time to
live so that a list with a cycle ends.

* `pciFindCapability_spec` — the offset found is 0 or a doubleword of the space behind the header. -/

namespace BcmPcie

/-- The walk of `pci_find_next_capability` with `ttl` steps left. -/
def pciFindNextCapability (dev : PciDevice) (cap : ℕ) : (ttl pos : ℕ) → ℕ
  | 0, _ => 0
  | ttl + 1, pos =>
    if pos < pciStdHeaderSizeof then 0
    else
      let pos := pos - pos % 4
      let ent := pciReadConfig16 dev pos
      let id := ent.toNat % 256
      if id = 0xff then 0
      else if id = cap then pos
      else pciFindNextCapability dev cap ttl (ent.toNat / 256)

/-- `pci_find_capability`: the offset of the first capability `cap`, or 0. -/
def pciFindCapability (dev : PciDevice) (cap : ℕ) : ℕ :=
  if pciReadConfig16 dev pciStatus &&& pciStatusCapList = 0 then 0
  else
    let headerType := pciReadConfig8 dev pciHeaderType
    let pos :=
      if headerType.toNat % 128 = pciHeaderTypeCardbus then pciCbCapabilityList
      else pciCapabilityList
    pciFindNextCapability dev cap pciFindCapTtl (pciReadConfig8 dev pos).toNat

/-- Where a capability structure can start. -/
def IsCapOffset (pos : ℕ) : Prop := 64 ≤ pos ∧ pos < 256 ∧ pos % 4 = 0

/-- The search ends with no capability or with one behind the header. -/
theorem pciFindNextCapability_spec (dev : PciDevice) (cap ttl pos : ℕ) (hpos : pos < 256) :
    pciFindNextCapability dev cap ttl pos = 0 ∨
      IsCapOffset (pciFindNextCapability dev cap ttl pos) := by
  induction ttl generalizing pos with
  | zero => exact Or.inl rfl
  | succ ttl ih =>
    rw [pciFindNextCapability]
    split
    · exact Or.inl rfl
    · rename_i hge
      dsimp only
      split
      · exact Or.inl rfl
      · split
        · right
          simp only [pciStdHeaderSizeof] at hge
          unfold IsCapOffset
          omega
        · apply ih
          have := (pciReadConfig16 dev (pos - pos % 4)).isLt
          omega

/-- A capability is found behind the standard header, on a doubleword boundary. -/
theorem pciFindCapability_spec (dev : PciDevice) (cap : ℕ) :
    pciFindCapability dev cap = 0 ∨ IsCapOffset (pciFindCapability dev cap) := by
  unfold pciFindCapability
  split
  · exact Or.inl rfl
  · exact pciFindNextCapability_spec dev cap _ _ (BitVec.isLt _)

end BcmPcie
