import BcmPcie.Brcmstb.Probe
import BcmPcie.Library.Cells
import Mathlib.Data.List.GetD
import Mathlib.Data.List.Induction

/-! # The interrupt map

`brcm_devtree_parse` reads the routing of the INTx pins from entries whose length depends on the node
that each of them names. It stops at the first entry that names none, or one that has no use for it, or
that is cut off.

* `IntMapEntry` — an entry; `usableEntries` — those that are read.
* `interruptMappingAt` — the loop on the cells where they stand in the property.
* `interruptMapping_routed` — it reads nothing outside, and each pin has its last entry. -/

namespace BcmPcie

open Cells Computations

/-! ## Entries -/

/-- An entry of `interrupt-map`: the child's unit address and interrupt, then the parent, its unit
address and its interrupt. -/
structure IntMapEntry where
  address : List (BitVec 32)
  pin : List (BitVec 32)
  phandle : BitVec 32
  parentAddress : List (BitVec 32)
  interrupt : List (BitVec 32)
  deriving DecidableEq

namespace IntMapEntry

variable (e : IntMapEntry)

/-- The cells of an entry. -/
def encode : List (BitVec 32) :=
  e.address ++ (e.pin ++ (e.phandle :: (e.parentAddress ++ e.interrupt)))

/-- The entry has the cells that the node has it have, and those of the parent it names. -/
structure EncodedFor (node : PcieNode) (e : IntMapEntry) : Prop where
  address : e.address.length = node.addressCells.getD 2
  pin : e.pin.length = node.interruptCells.getD 1
  parent : ∀ parent, node.interruptParent e.phandle = some parent →
    e.parentAddress.length = parent.addressCells ∧ e.interrupt.length = parent.interruptCells

instance (node : PcieNode) : Decidable (e.EncodedFor node) :=
  decidable_of_iff (e.address.length = node.addressCells.getD 2 ∧
      e.pin.length = node.interruptCells.getD 1 ∧
      ∀ parent ∈ node.interruptParent e.phandle,
        e.parentAddress.length = parent.addressCells ∧ e.interrupt.length = parent.interruptCells)
    ⟨fun h => ⟨h.1, h.2.1, h.2.2⟩, fun h => ⟨h.address, h.pin, h.parent⟩⟩

/-- The entry names a parent with two interrupt cells or more, and is not cut off. -/
def usable (node : PcieNode) (left : ℕ) : Bool :=
  ((node.interruptParent e.phandle).any fun parent => decide (2 ≤ parent.interruptCells))
    && decide (e.encode.length ≤ left)

/-- The pin it is for, in the 32 bits that the code has for it. -/
def pinNumber (common : Emu68Common) : ℕ := ((common.dtGetNumber e.pin).setWidth 32).toNat

/-- The parent's interrupt is of type `GIC_SPI`. -/
def isSpi : Bool := decide (e.interrupt.getD 0 0 = 0)

/-- The absolute number of the parent's interrupt. -/
def irq : BitVec 32 := e.interrupt.getD 1 0 + 32

/-- The entry routes this pin to the GIC. -/
def routes (common : Emu68Common) (pin : ℕ) : Bool := decide (e.pinNumber common = pin) && e.isSpi

/-- The routing with that of the entry. -/
def route (common : Emu68Common) (mapping : ℕ → BitVec 32) : ℕ → BitVec 32 :=
  if 1 ≤ e.pinNumber common ∧ e.pinNumber common ≤ 4 ∧ e.interrupt.getD 0 0 = 0 then
    Function.update mapping (e.pinNumber common - 1) e.irq
  else mapping

/-- The length of an encoded entry. -/
theorem length_encode : e.encode.length
    = e.address.length + e.pin.length + 1 + e.parentAddress.length + e.interrupt.length := by
  unfold encode
  simp only [List.length_append, List.length_cons]
  omega

end IntMapEntry

/-- The entries up to the first that is not usable, in a property of which `left` cells are left. -/
def usableEntries (node : PcieNode) : (left : ℕ) → List IntMapEntry → List IntMapEntry
  | _, [] => []
  | left, e :: entries =>
    if e.usable node left then e :: usableEntries node (left - e.encode.length) entries else []

/-- The interrupt of a pin by some entries: that of the last one that routes it, 0 if there is none. -/
def routedIrq (common : Emu68Common) (entries : List IntMapEntry) (pin : ℕ) : BitVec 32 :=
  ((entries.filter (·.routes common pin)).getLast?.map (·.irq)).getD 0

/-- The last entry that routes a pin decides. -/
theorem routedIrq_concat (common : Emu68Common) (entries : List IntMapEntry) (e : IntMapEntry)
    (pin : ℕ) : routedIrq common (entries ++ [e]) pin
      = if e.routes common pin then e.irq else routedIrq common entries pin := by
  unfold routedIrq
  rw [List.filter_append]
  by_cases h : e.routes common pin = true
  · rw [if_pos h, List.filter_cons, if_pos h, List.filter_nil, List.getLast?_concat, Option.map_some,
      Option.getD_some]
  · rw [if_neg h, List.filter_cons, if_neg h, List.filter_nil, List.append_nil]

/-- An entry routes its own pin and leaves the others. -/
theorem IntMapEntry.route_eq (common : Emu68Common) (e : IntMapEntry) (mapping : ℕ → BitVec 32)
    {pin : ℕ} (hpos : 1 ≤ pin) (hle : pin ≤ 4) :
    e.route common mapping (pin - 1) = if e.routes common pin then e.irq else mapping (pin - 1) := by
  unfold route routes isSpi
  by_cases hpin : e.pinNumber common = pin
  · by_cases hspi : e.interrupt.getD 0 0 = 0
    · rw [if_pos ⟨by omega, by omega, hspi⟩, hpin, Function.update_self, decide_eq_true rfl,
        decide_eq_true hspi, Bool.and_self, if_pos rfl]
    · rw [if_neg fun h => hspi h.2.2, decide_eq_false hspi, Bool.and_false, if_neg Bool.false_ne_true]
  · rw [decide_eq_false hpin, Bool.false_and, if_neg Bool.false_ne_true]
    split
    · exact Function.update_of_ne (by omega) _ _
    · rfl

/-- One entry after the other, the last one of a pin stays. -/
theorem foldl_route (common : Emu68Common) (entries : List IntMapEntry) {mapping : ℕ → BitVec 32}
    (hzero : ∀ i, mapping i = 0) {pin : ℕ} (hpos : 1 ≤ pin) (hle : pin ≤ 4) :
    entries.foldl (fun mapping e => e.route common mapping) mapping (pin - 1)
      = routedIrq common entries pin := by
  induction entries using List.reverseRecOn with
  | nil => exact hzero _
  | append_singleton entries e ih =>
    rw [List.foldl_append, List.foldl_cons, List.foldl_nil, e.route_eq common _ hpos hle,
      routedIrq_concat, ih]

/-! ## The loop on the list of cells -/

section Loop

variable {common : Emu68Common} {node : PcieNode} {e : IntMapEntry} {tail : List (BitVec 32)}

/-- The cells of an entry, one part after the other. -/
theorem drop_encode_address (rest : List (BitVec 32)) :
    (e.encode ++ rest).drop e.address.length
      = e.pin ++ (e.phandle :: (e.parentAddress ++ (e.interrupt ++ rest))) := by
  unfold IntMapEntry.encode
  simp only [List.append_assoc, List.cons_append, List.drop_left]

/-- Behind the address and the pin stands the phandle. -/
theorem drop_encode_pin (rest : List (BitVec 32)) :
    (e.encode ++ rest).drop (e.address.length + e.pin.length)
      = e.phandle :: (e.parentAddress ++ (e.interrupt ++ rest)) := by
  rw [← List.drop_drop, drop_encode_address, List.drop_left]

/-- Behind the parent's address stands the interrupt. -/
theorem drop_encode_parent (rest : List (BitVec 32)) :
    (e.encode ++ rest).drop (e.address.length + e.pin.length + 1 + e.parentAddress.length)
      = e.interrupt ++ rest := by
  rw [← List.drop_drop, ← List.drop_drop, drop_encode_pin, List.drop_succ_cons, List.drop_zero,
    List.drop_left]

/-- The cell of the phandle. -/
theorem getD_phandle (rest : List (BitVec 32)) :
    (e.encode ++ rest).getD (e.address.length + e.pin.length) 0 = e.phandle := by
  rw [List.getD_eq_getElem?_getD, ← List.head?_drop, drop_encode_pin, List.head?_cons,
    Option.getD_some]

/-- A usable entry is read, and the loop goes on behind it. -/
theorem interruptMapEntry_usable (he : e.EncodedFor node) {left : ℕ} (h : e.usable node left = true)
    (mapping : ℕ → BitVec 32) :
    interruptMapEntry common node.interruptParent (node.addressCells.getD 2)
        (node.interruptCells.getD 1) ((e.encode ++ tail).take left) mapping
      = some (e.route common mapping, tail.take (left - e.encode.length)) := by
  unfold IntMapEntry.usable at h
  rw [Bool.and_eq_true, Option.any_eq_true, decide_eq_true_eq] at h
  obtain ⟨⟨parent, hparent, hcells⟩, hleft⟩ := h
  rw [decide_eq_true_eq] at hcells
  obtain ⟨hparentAddress, hinterrupt⟩ := he.parent parent hparent
  have hencode := e.length_encode
  rw [List.take_append, List.take_of_length_le hleft]
  generalize tail.take (left - e.encode.length) = rest
  have hlength : (e.encode ++ rest).length = e.encode.length + rest.length := List.length_append
  have hphandle : (e.encode ++ rest).getD (e.address.length + e.pin.length + 1 - 1) 0 = e.phandle :=
    getD_phandle rest
  have hrest : (e.encode ++ rest).drop
      (e.address.length + e.pin.length + 1 + e.parentAddress.length + e.interrupt.length) = rest := by
    rw [← hencode, List.drop_left]
  unfold interruptMapEntry
  rw [← he.address, ← he.pin]
  dsimp only
  rw [if_neg (by omega), hphandle, hparent]
  dsimp only
  rw [← hparentAddress, ← hinterrupt, if_neg (by omega), drop_encode_address, List.take_left,
    drop_encode_parent, hrest, List.getD_append _ _ _ _ (by omega), List.getD_append _ _ _ _ (by omega)]
  rfl

/-- At an entry that is not usable the loop ends. -/
theorem interruptMapEntry_not_usable (he : e.EncodedFor node) {left : ℕ}
    (h : e.usable node left = false) (mapping : ℕ → BitVec 32) :
    interruptMapEntry common node.interruptParent (node.addressCells.getD 2)
        (node.interruptCells.getD 1) ((e.encode ++ tail).take left) mapping = none := by
  unfold interruptMapEntry
  rw [← he.address, ← he.pin]
  dsimp only
  by_cases hshort : ((e.encode ++ tail).take left).length < e.address.length + e.pin.length + 1
  · rw [if_pos hshort]
  · have hleft : ((e.encode ++ tail).take left).length ≤ left := List.length_take_le _ _
    have hphandle : ((e.encode ++ tail).take left).getD (e.address.length + e.pin.length + 1 - 1) 0
        = e.phandle := by
      rw [← getD_phandle (e := e) tail, List.getD_eq_getElem?_getD, List.getD_eq_getElem?_getD,
        List.getElem?_take_of_lt (by omega)]
      rfl
    rw [if_neg hshort, hphandle]
    cases hparent : node.interruptParent e.phandle with
    | none => rfl
    | some parent =>
      dsimp only
      rw [if_pos]
      obtain ⟨hparentAddress, hinterrupt⟩ := he.parent parent hparent
      unfold IntMapEntry.usable at h
      rw [hparent, Option.any_some, Bool.and_eq_false_iff, decide_eq_false_iff_not,
        decide_eq_false_iff_not, Nat.not_le, Nat.not_le] at h
      have hencode := e.length_encode
      omega

/-- A usable entry has a cell or more, and is not cut off. -/
theorem IntMapEntry.length_of_usable {left : ℕ} (h : e.usable node left = true) :
    0 < e.encode.length ∧ e.encode.length ≤ left := by
  unfold IntMapEntry.usable at h
  rw [Bool.and_eq_true, decide_eq_true_eq] at h
  have hencode := e.length_encode
  exact ⟨by omega, h.2⟩

/-- **The loop** goes over the usable entries and no further. -/
theorem interruptMapLoop_encode {entries : List IntMapEntry} (he : ∀ e ∈ entries, e.EncodedFor node)
    (left : ℕ) {fuel : ℕ} (hfuel : ((entries.flatMap (·.encode)).take left).length ≤ fuel)
    (mapping : ℕ → BitVec 32) :
    interruptMapLoop common node.interruptParent (node.addressCells.getD 2)
        (node.interruptCells.getD 1) fuel ((entries.flatMap (·.encode)).take left) mapping
      = (usableEntries node left entries).foldl (fun mapping e => e.route common mapping) mapping := by
  induction entries generalizing left fuel mapping with
  | nil =>
    have hend : interruptMapEntry common node.interruptParent (node.addressCells.getD 2)
        (node.interruptCells.getD 1) [] mapping = none := by
      unfold interruptMapEntry
      exact if_pos (Nat.succ_pos _)
    rw [List.flatMap_nil, List.take_nil]
    cases fuel with
    | zero => rfl
    | succ fuel =>
      rw [interruptMapLoop, hend]
      rfl
  | cons e entries ih =>
    have hfirst := he e List.mem_cons_self
    rw [List.flatMap_cons] at hfuel ⊢
    rw [usableEntries]
    cases h : e.usable node left with
    | false =>
      rw [if_neg Bool.false_ne_true, List.foldl_nil]
      cases fuel with
      | zero => rfl
      | succ fuel => rw [interruptMapLoop, interruptMapEntry_not_usable hfirst h]
    | true =>
      obtain ⟨hpos, hfit⟩ := IntMapEntry.length_of_usable h
      -- the cells of the entry are in the list, so there is fuel for it and for those behind it
      rw [List.take_append, List.take_of_length_le hfit, List.length_append] at hfuel
      cases fuel with
      | zero => omega
      | succ fuel =>
        rw [interruptMapLoop, interruptMapEntry_usable hfirst h, if_pos rfl, List.foldl_cons]
        exact ih (fun e' he' => he e' (List.mem_cons_of_mem e he')) _ (by omega) _

end Loop

/-! ## The loop on the property -/

/-- The body of the loop over `interrupt-map`: the routing with that of the next entry and the position
behind it, or that the loop ends. A read outside the property is no outcome. -/
def interruptMapEntryAt (common : Emu68Common)
    (interruptParent : BitVec 32 → Option InterruptParent) (addrCells intCells : ℕ)
    (row : List (BitVec 32)) (entry : Cursor) (mapping : ℕ → BitVec 32) :
    Option (Option ((ℕ → BitVec 32) × Cursor)) :=
  let childCells := addrCells + intCells + 1
  if entry.left < childCells then some none
  else do
    let pinCells ← slice row (entry.next + addrCells) intCells
    let pin := (common.dtGetNumber pinCells).setWidth 32
    let phandle ← row[entry.next + (childCells - 1)]?
    match interruptParent phandle with
    | none => some none
    | some parent =>
      let entryCells := childCells + parent.addressCells + parent.interruptCells
      if parent.interruptCells < 2 ∨ entry.left < entryCells then some none
      else do
        let type ← row[entry.next + (childCells + parent.addressCells)]?
        let number ← row[entry.next + (childCells + parent.addressCells + 1)]?
        let mapping :=
          if 1 ≤ pin.toNat ∧ pin.toNat ≤ 4 ∧ type = 0 then
            Function.update mapping (pin.toNat - 1) (number + 32)
          else mapping
        some (some (mapping, entry.skip entryCells))

/-- The loop, for `fuel` tests of its condition. -/
def interruptMapLoopAt (common : Emu68Common)
    (interruptParent : BitVec 32 → Option InterruptParent) (addrCells intCells : ℕ)
    (row : List (BitVec 32)) : (fuel : ℕ) → Cursor → (ℕ → BitVec 32) → Option (ℕ → BitVec 32)
  | 0, _, _ => none
  | fuel + 1, entry, mapping => do
    match ← interruptMapEntryAt common interruptParent addrCells intCells row entry mapping with
    | none => some mapping
    | some (mapping, entry) =>
      interruptMapLoopAt common interruptParent addrCells intCells row fuel entry mapping

/-- The part of `brcm_devtree_parse` that reads `interrupt-map`. -/
def interruptMappingAt (common : Emu68Common) (node : PcieNode) (fuel : ℕ)
    (mapping : ℕ → BitVec 32) : Option (ℕ → BitVec 32) :=
  match node.interruptMap with
  | none => some mapping
  | some cells =>
    interruptMapLoopAt common node.interruptParent (node.addressCells.getD 2)
      (node.interruptCells.getD 1) cells fuel (.start cells) mapping

section At

variable {common : Emu68Common} {interruptParent : BitVec 32 → Option InterruptParent}
  {addrCells intCells : ℕ} {row : List (BitVec 32)} {entry : Cursor} {mapping : ℕ → BitVec 32}

/-- Where the loop goes on, nothing outside the property is read, and there is less left. -/
theorem interruptMapEntryAt_some (hon : entry.On row) {mapping' : ℕ → BitVec 32}
    {rest : List (BitVec 32)}
    (h : interruptMapEntry common interruptParent addrCells intCells (entry.rest row) mapping
      = some (mapping', rest)) :
    ∃ entry', interruptMapEntryAt common interruptParent addrCells intCells row entry mapping
        = some (some (mapping', entry')) ∧
      entry'.On row ∧ entry'.rest row = rest ∧ entry'.left < entry.left := by
  unfold interruptMapEntry at h
  dsimp only at h
  rw [hon.length_rest] at h
  -- the two checks of an entry, each in front of the cells it allows to be read
  by_cases hchild : entry.left < addrCells + intCells + 1
  · rw [if_pos hchild] at h
    cases h
  · rw [if_neg hchild] at h
    cases hparent : interruptParent ((entry.rest row).getD (addrCells + intCells + 1 - 1) 0) with
    | none =>
      rw [hparent] at h
      cases h
    | some parent =>
      rw [hparent] at h
      dsimp only at h
      by_cases hcells : parent.interruptCells < 2 ∨
          entry.left < addrCells + intCells + 1 + parent.addressCells + parent.interruptCells
      · rw [if_pos hcells] at h
        cases h
      · rw [if_neg hcells] at h
        obtain ⟨rfl, rfl⟩ := Prod.mk.inj (Option.some.inj h)
        refine ⟨entry.skip (addrCells + intCells + 1 + parent.addressCells + parent.interruptCells),
          ?_, hon.skip (by omega), Cursor.rest_skip _ _ _, ?_⟩
        · unfold interruptMapEntryAt
          dsimp only
          rw [if_neg hchild, hon.slice (by omega), hon.cell (by omega) 0]
          dsimp only [Option.bind_eq_bind, Option.bind_some]
          rw [hparent]
          dsimp only
          rw [if_neg hcells, hon.cell (by omega) 0, hon.cell (by omega) 0, getD_drop,
            getD_drop]
          rfl
        · rw [Cursor.left_skip]
          omega

/-- Where the loop ends, nothing outside the property is read. -/
theorem interruptMapEntryAt_none (hon : entry.On row)
    (h : interruptMapEntry common interruptParent addrCells intCells (entry.rest row) mapping = none) :
    interruptMapEntryAt common interruptParent addrCells intCells row entry mapping = some none := by
  unfold interruptMapEntry at h
  unfold interruptMapEntryAt
  dsimp only at h ⊢
  rw [hon.length_rest] at h
  by_cases hchild : entry.left < addrCells + intCells + 1
  · rw [if_pos hchild]
  · rw [if_neg hchild] at h ⊢
    rw [hon.slice (by omega), hon.cell (by omega) 0]
    dsimp only [Option.bind_eq_bind, Option.bind_some]
    cases hparent : interruptParent ((entry.rest row).getD (addrCells + intCells + 1 - 1) 0) with
    | none => rfl
    | some parent =>
      rw [hparent] at h
      dsimp only at h ⊢
      by_cases hcells : parent.interruptCells < 2 ∨
          entry.left < addrCells + intCells + 1 + parent.addressCells + parent.interruptCells
      · rw [if_pos hcells]
      · rw [if_neg hcells] at h
        cases h

/-- The loop ends, reads nothing outside the property, and does what it does on the list of what is
left. -/
theorem interruptMapLoopAt_eq (hon : entry.On row) {fuel fuel' : ℕ} (hfuel : entry.left < fuel)
    (hfuel' : entry.left ≤ fuel') :
    interruptMapLoopAt common interruptParent addrCells intCells row fuel entry mapping
      = some (interruptMapLoop common interruptParent addrCells intCells fuel' (entry.rest row)
          mapping) := by
  induction fuel generalizing fuel' entry mapping with
  | zero => exact absurd hfuel (Nat.not_lt_zero _)
  | succ fuel ih =>
    rw [interruptMapLoopAt]
    cases h : interruptMapEntry common interruptParent addrCells intCells (entry.rest row) mapping with
    | none =>
      rw [interruptMapEntryAt_none hon h]
      cases fuel' with
      | zero => rfl
      | succ fuel' =>
        rw [interruptMapLoop, h]
        rfl
    | some r =>
      obtain ⟨entry', hentry, hon', hrest, hless⟩ := interruptMapEntryAt_some hon h
      cases fuel' with
      | zero => omega
      | succ fuel' =>
        rw [hentry, interruptMapLoop, h]
        dsimp only [Option.bind_eq_bind, Option.bind_some]
        rw [ih hon' (by omega) (by omega : entry'.left ≤ fuel'), hrest]

end At

/-- `brcm_devtree_parse` leaves the routing that its loop makes, also where it fails behind it. -/
theorem brcmDevtreeParse_intXMapping {σ : Type} {plat : Platform} {node : PcieNode} (s : RcState σ)
    (hnode : plat.node = .ok node) (hbase : node.base ≠ 0) {cells : List (BitVec 32)}
    (hcells : node.mmioPhys = some cells) :
    (final (brcmDevtreeParse plat) s).pcie.intXMapping
      = interruptMapping plat.common node s.pcie.intXMapping := by
  unfold final brcmDevtreeParse
  rw [hnode, bind_ofExcept_ok, bind_require_pos hbase, bind_modify, hcells]
  dsimp only [Option.elim_some]
  rw [bind_ofExcept_ok, bind_modifyPcie, bind_modify]
  by_cases hirq : node.msiIrq.slt 0 = false
  · rw [bind_require_pos hirq]
    rfl
  · rw [bind_require_neg hirq]

/-- **The interrupt map**, cut off anywhere: the loop ends and reads nothing outside the property, and
a pin has the interrupt of the last usable entry that routes it. -/
theorem interruptMapping_routed {σ : Type} {plat : Platform} {node : PcieNode}
    (hnode : plat.node = .ok node) (hbase : node.base ≠ 0) {phys : List (BitVec 32)}
    (hphys : node.mmioPhys = some phys) {entries : List IntMapEntry}
    (he : ∀ e ∈ entries, e.EncodedFor node) {n : ℕ}
    (hmap : node.interruptMap = some ((entries.flatMap (·.encode)).take n)) {s : RcState σ}
    (hzero : ∀ i, s.pcie.intXMapping i = 0) {fuel : ℕ} (hfuel : n < fuel) :
    interruptMappingAt plat.common node fuel s.pcie.intXMapping
        = some (final (brcmDevtreeParse plat) s).pcie.intXMapping ∧
      ∀ pin, 1 ≤ pin → pin ≤ 4 →
        (final (brcmDevtreeParse plat) s).pcie.intXMapping (pin - 1)
          = routedIrq plat.common (usableEntries node n entries) pin := by
  have hle : ((entries.flatMap (·.encode)).take n).length ≤ n := List.length_take_le _ _
  rw [brcmDevtreeParse_intXMapping s hnode hbase hphys]
  unfold interruptMappingAt interruptMapping
  rw [hmap]
  dsimp only
  refine ⟨interruptMapLoopAt_eq (Cursor.on_start _) (lt_of_le_of_lt hle hfuel) le_rfl, ?_⟩
  intro pin hpos hpin
  rw [interruptMapLoop_encode he n le_rfl]
  exact foldl_route plat.common _ hzero hpos hpin

/-- Entries for two parents: the GIC with three interrupt cells, and a node with an address. -/
def pinEntries : List IntMapEntry :=
  [⟨[0, 0, 0], [1], 1, [], [0, 143, 4]⟩, ⟨[0, 0, 0], [4], 2, [0, 0], [0, 146]⟩,
    ⟨[0, 0, 0], [1], 1, [], [0, 147, 4]⟩, ⟨[0, 0, 0], [2], 1, [], [0, 148, 4]⟩]

/-- A node whose property ends inside the last of these. -/
def pinNode : PcieNode where
  addressCells := some 3
  interruptMap := some ((pinEntries.flatMap (·.encode)).take 30)
  interruptParent phandle :=
    if phandle = 1 then some ⟨0, 3⟩ else if phandle = 2 then some ⟨2, 2⟩ else none
  base := 0xfd500000
  mmioPhys := some [6, 0]

/-- The platform with that node. -/
def pinPlatform : Platform where
  common := .plain
  node := .ok pinNode
  memList := []
  answers := ⟨fun _ => 0, fun _ => 0, 0⟩
  demuxIsr := ⟨0x1000⟩

/-- A pin that two entries route has the second, one whose entry is cut off has none. -/
theorem pinNode_routed : ∃ mapping : ℕ → BitVec 32,
    interruptMappingAt .plain pinNode 31 (fun _ => 0) = some mapping ∧
    mapping 0 = 179 ∧ mapping 1 = 0 ∧ mapping 2 = 0 ∧ mapping 3 = 178 := by
  let s : RcState Unit :=
    { pcie := { msi := ⟨0, fun _ => none, 0⟩, intr2 := ⟨0, 0⟩, gic400 := () }, regs := fun _ => 0 }
  have he : ∀ e ∈ pinEntries, e.EncodedFor pinNode := by decide
  obtain ⟨hrun, hpins⟩ := @interruptMapping_routed Unit pinPlatform pinNode rfl (by decide) _ rfl
    pinEntries he 30 rfl s (fun _ => rfl) 31 (by decide)
  refine ⟨_, hrun, ?_, ?_, ?_, ?_⟩
  · exact (hpins 1 (by decide) (by decide)).trans (by decide)
  · exact (hpins 2 (by decide) (by decide)).trans (by decide)
  · exact (hpins 3 (by decide) (by decide)).trans (by decide)
  · exact (hpins 4 (by decide) (by decide)).trans (by decide)

end BcmPcie
