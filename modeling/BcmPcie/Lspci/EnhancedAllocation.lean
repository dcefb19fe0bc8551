import BcmPcie.Library.BitFields
import BcmPcie.Pci.Io

/-! # The enhanced allocation capability

`dump_ea_capability` of `lspci`: a device may list resources that cannot be moved, in entries of one to
eight doublewords behind the header of a capability. The tool reads the entries one after the other and
prints what they say.

* `EaEntry` — an entry by its fields; `EaEntry.dwords` — what it is in the capability.
* `dumpEaEntry`, `dumpEaCapability` — the functions.
* `dumpEaCapability_entries` — the entries of a capability are printed as they are, and no state of the
  registers makes the tool give up. -/

namespace BcmPcie

open BitFields

/-! ## Constants -/

def pciEaNumEnt : ℕ := 2
def pciEaNumEntMask : BitVec 8 := 0x3f
def pciEaFirstEnt : ℕ := 4
def pciEaFirstEntBridge : ℕ := 8
def pciEaEs : BitVec 32 := 0x00000007
def pciEaBei : BitVec 32 := 0x000000f0
def pciEaPp : BitVec 32 := 0x0000ff00
def pciEaSp : BitVec 32 := 0x00ff0000
def pciEaWritable : BitVec 32 := 0x40000000
def pciEaEnable : BitVec 32 := 0x80000000
def pciEaIs64 : BitVec 32 := 0x00000002
def pciEaFieldMask : BitVec 32 := 0xfffffffc
def pciEaPBridgeIo : BitVec 8 := 0x07
def pciEaPMemReserved : BitVec 8 := 0xfd

/-- `pci_ea_bei_name`. -/
def pciEaBeiName (bei : BitVec 8) : String :=
  match bei.toNat with
  | 0 => "BAR0" | 1 => "BAR1" | 2 => "BAR2" | 3 => "BAR3" | 4 => "BAR4" | 5 => "BAR5"
  | 6 => "Bridge window"
  | 7 => "Equivalent Not Indicated"
  | 8 => "Expansion ROM"
  | 9 => "VF BAR0" | 10 => "VF BAR1" | 11 => "VF BAR2" | 12 => "VF BAR3" | 13 => "VF BAR4"
  | 14 => "VF BAR5"
  | _ => "Unknown"

/-- `pci_ea_property_name`. -/
def pciEaPropertyName (prop : BitVec 8) : String :=
  match prop.toNat with
  | 0x00 => "Non-prefetchable memory"
  | 0x01 => "Prefetchable memory"
  | 0x02 => "I/O space"
  | 0x03 => "VF prefetchable memory"
  | 0x04 => "VF non-prefetchable memory"
  | 0x05 => "Bridge non-prefetchable memory"
  | 0x06 => "Bridge prefetchable memory"
  | 0x07 => "Bridge I/O space"
  | 0xfd => "Reserved memory"
  | 0xfe => "Reserved I/O"
  | 0xff => "Unavailable"
  | _ => "Unknown"

/-! ## The functions -/

/-- The lines `Base`, `Limit` and `Size`. -/
structure EaRange where
  base : BitVec 64
  limit : BitVec 64
  size : BitVec 64
  deriving DecidableEq, Repr

/-- What is printed of an entry; of a disabled one no range. -/
structure EaLine where
  index : ℕ
  size : ℕ
  bei : BitVec 8
  beiName : String
  property : BitVec 8
  propertyName : String
  enabled : Bool
  writable : Bool
  range : Option EaRange
  deriving DecidableEq, Repr

/-- `pci_read_config_long` of a register number that is cut to a byte. -/
def readConfigLong (dev : PciDevice) (offset : ℕ) : BitVec 32 := pciReadConfig32 dev (offset % 256)

/-- `dump_ea_entry`: what is printed, and the offset behind the entry. Offsets stay far below the
limits of their types. -/
def dumpEaEntry (dev : PciDevice) (startOffset index : ℕ) : EaLine × ℕ :=
  let dw0 := readConfigLong dev startOffset
  let entryOffset := startOffset + 4
  let entrySize := (((dw0 &&& pciEaEs) + 1) <<< 2).toNat
  let bei := ((dw0 &&& pciEaBei) >>> 4).setWidth 8
  let primaryProp := ((dw0 &&& pciEaPp) >>> 8).setWidth 8
  let secondaryProp := ((dw0 &&& pciEaSp) >>> 16).setWidth 8
  let property :=
    if pciEaPBridgeIo < primaryProp ∧ primaryProp < pciEaPMemReserved then secondaryProp
    else primaryProp
  let enabled := decide (dw0 &&& pciEaEnable ≠ 0)
  let writable := decide (dw0 &&& pciEaWritable ≠ 0)
  let line : EaLine := ⟨index, entrySize, bei, pciEaBeiName bei, property, pciEaPropertyName property,
    enabled, writable, none⟩
  if enabled = false then (line, startOffset + entrySize)
  else
    let baseLo := readConfigLong dev entryOffset
    let entryOffset := entryOffset + 4
    let maxOffsetLo := readConfigLong dev entryOffset
    let entryOffset := entryOffset + 4
    let start := (baseLo &&& pciEaFieldMask).setWidth 64
    let maxOffset := (maxOffsetLo &&& pciEaFieldMask).setWidth 64
    let (start, entryOffset) :=
      if baseLo &&& pciEaIs64 ≠ 0 then
        (start ||| (readConfigLong dev entryOffset).setWidth 64 <<< 32, entryOffset + 4)
      else (start, entryOffset)
    let (maxOffset, entryOffset) :=
      if maxOffsetLo &&& pciEaIs64 ≠ 0 then
        (maxOffset ||| (readConfigLong dev entryOffset).setWidth 64 <<< 32, entryOffset + 4)
      else (maxOffset, entryOffset)
    let limit := start + (maxOffset ||| 3)
    let length := if start ≤ limit then limit - start + 1 else 0
    let consumed := entryOffset - startOffset
    ({ line with range := some ⟨start, limit, length⟩ },
      if consumed < entrySize then startOffset + entrySize else entryOffset)

/-- A line of the list: an entry, or that it could not be parsed. -/
inductive EaOutput
  | entry (line : EaLine)
  | failed (index : ℕ)
  deriving DecidableEq, Repr

/-- The loop of `dump_ea_capability`, with `count` entries to go. -/
def dumpEaEntries (dev : PciDevice) : (count index entryOffset : ℕ) → List EaOutput
  | 0, _, _ => []
  | count + 1, index, entryOffset =>
    let (line, next) := dumpEaEntry dev entryOffset index
    .entry line :: if next ≤ entryOffset then [.failed index]
      else dumpEaEntries dev count (index + 1) next

/-- What `dump_ea_capability` prints: on a bridge also its fixed bus numbers, if there are any. -/
structure EaDump where
  numEntries : ℕ
  busNumbers : Option (Option (BitVec 8 × BitVec 8))
  entries : List EaOutput
  deriving DecidableEq, Repr

/-- `dump_ea_capability`. -/
def dumpEaCapability (dev : PciDevice) (capOffset headerLayout : ℕ) : EaDump :=
  let numEntries := (pciReadConfig8 dev ((capOffset + pciEaNumEnt) % 256) &&& pciEaNumEntMask).toNat
  let busInfo := readConfigLong dev (capOffset + pciEaFirstEnt)
  let eaSecondary := (busInfo &&& 0xff).setWidth 8
  let eaSubordinate := ((busInfo &&& 0xff00) >>> 8).setWidth 8
  { numEntries := numEntries
    busNumbers :=
      if headerLayout = pciHeaderTypeBridge then
        some (if eaSecondary ≠ 0 ∧ eaSecondary ≤ eaSubordinate then some (eaSecondary, eaSubordinate)
          else none)
      else none
    entries := dumpEaEntries dev numEntries 0
      (capOffset + if headerLayout = pciHeaderTypeBridge then pciEaFirstEntBridge else pciEaFirstEnt) }

/-! ## Entries -/

/-- A base or maximal offset of an entry: the bits from 2 to 31, and the upper half if it has 64. -/
structure EaField where
  field : BitVec 30
  upper : Option (BitVec 32)
  deriving DecidableEq, Repr

/-- Its first doubleword. -/
def EaField.low (f : EaField) : BitVec 32 := f.field ++ (BitVec.ofBool f.upper.isSome ++ 0#1)

/-- The number it stands for, with these bits 0 and 1. -/
def EaField.value (f : EaField) (fill : BitVec 2) : BitVec 64 := f.upper.getD 0 ++ (f.field ++ fill)

/-- An entry, with doublewords at its end that have no meaning; there are eight at most. -/
structure EaEntry where
  bei : BitVec 4
  primary : BitVec 8
  secondary : BitVec 8
  enabled : Bool
  writable : Bool
  base : EaField
  maxOffset : EaField
  spare : List (BitVec 32) := []
  fits : base.upper.toList.length + maxOffset.upper.toList.length + spare.length ≤ 5

namespace EaEntry

variable (e : EaEntry)

/-- The doublewords of an entry behind the first. -/
def tail : List (BitVec 32) :=
  e.base.low :: e.maxOffset.low :: (e.base.upper.toList ++ (e.maxOffset.upper.toList ++ e.spare))

/-- The first one. -/
def header : BitVec 32 :=
  BitVec.ofBool e.enabled ++ (BitVec.ofBool e.writable ++ (0#6 ++ (e.secondary ++ (e.primary ++
    (e.bei ++ (0#1 ++ BitVec.ofNat 3 e.tail.length))))))

/-- An entry as it stands in the capability. -/
def dwords : List (BitVec 32) := e.header :: e.tail

/-- The property an entry is used with: the secondary one where the primary is not known. -/
def property : BitVec 8 :=
  if pciEaPBridgeIo < e.primary ∧ e.primary < pciEaPMemReserved then e.secondary else e.primary

/-- The addresses of an entry: the size is that of the range, unless it runs past the end of the
address space. -/
def range : EaRange :=
  let base := e.base.value 0
  let limit := base + e.maxOffset.value 3
  ⟨base, limit, if base ≤ limit then limit - base + 1 else 0⟩

/-- What should be printed of an entry. -/
def line (index : ℕ) : EaLine where
  index := index
  size := 4 * e.dwords.length
  bei := e.bei.setWidth 8
  beiName := pciEaBeiName (e.bei.setWidth 8)
  property := e.property
  propertyName := pciEaPropertyName e.property
  enabled := e.enabled
  writable := e.writable
  range := if e.enabled then some e.range else none

/-- No entry has more than seven words behind its header. -/
theorem length_tail_le : e.tail.length ≤ 7 := by
  have hfits := e.fits
  simp only [tail, List.length_cons, List.length_append]
  omega

/-! ## The first doubleword -/

/-- The size of an entry is read from its header. -/
theorem extract_size : extract e.header 0 3 = BitVec.ofNat 3 e.tail.length := by
  unfold extract header
  repeat rw [BitVec.extractLsb'_append_eq_of_add_le (by decide)]
  exact BitVec.extractLsb'_eq_self

/-- So is the number of its BAR. -/
theorem extract_bei : extract e.header 4 4 = e.bei := by
  unfold extract header
  repeat rw [BitVec.extractLsb'_append_eq_of_add_le (by decide)]
  rw [BitVec.extractLsb'_append_eq_of_le (by decide)]
  exact BitVec.extractLsb'_eq_self

/-- So are its primary properties. -/
theorem extract_primary : extract e.header 8 8 = e.primary := by
  unfold extract header
  repeat rw [BitVec.extractLsb'_append_eq_of_add_le (by decide)]
  rw [BitVec.extractLsb'_append_eq_of_le (by decide)]
  exact BitVec.extractLsb'_eq_self

/-- So are its secondary properties. -/
theorem extract_secondary : extract e.header 16 8 = e.secondary := by
  unfold extract header
  repeat rw [BitVec.extractLsb'_append_eq_of_add_le (by decide)]
  rw [BitVec.extractLsb'_append_eq_of_le (by decide)]
  exact BitVec.extractLsb'_eq_self

/-- So is whether it can be written. -/
theorem extract_writable : extract e.header 30 1 = BitVec.ofBool e.writable := by
  unfold extract header
  repeat rw [BitVec.extractLsb'_append_eq_of_add_le (by decide)]
  rw [BitVec.extractLsb'_append_eq_of_le (by decide)]
  exact BitVec.extractLsb'_eq_self

/-- So is whether it is enabled. -/
theorem extract_enabled : extract e.header 31 1 = BitVec.ofBool e.enabled := by
  unfold extract header
  rw [BitVec.extractLsb'_append_eq_of_le (by decide)]
  exact BitVec.extractLsb'_eq_self

end EaEntry

/-! ## The fields of a range -/

/-- Two halves put together. -/
theorem or_shiftLeft_eq_append (upper lower : BitVec 32) :
    lower.setWidth 64 ||| upper.setWidth 64 <<< 32 = upper ++ lower := by
  apply BitVec.eq_of_getLsbD_eq
  intro i hi
  rw [BitVec.getLsbD_or, BitVec.getLsbD_setWidth, BitVec.getLsbD_shiftLeft, BitVec.getLsbD_setWidth,
    BitVec.getLsbD_append]
  by_cases hlow : i < 32
  · simp [hlow, hi]
  · simp [hlow, hi, show i - 32 < 64 by omega, BitVec.getLsbD_of_ge lower i (by omega)]

namespace EaField

variable (f : EaField)

/-- The lower word of a field, without its two flag bits, is the field. -/
theorem low_and_mask : f.low &&& pciEaFieldMask = f.field ++ 0#2 := by
  have hmask : ∀ i : Fin 32, pciEaFieldMask.getLsbD i = decide (2 ≤ i.val) := by decide
  apply BitVec.eq_of_getLsbD_eq
  intro i hi
  unfold low
  rw [BitVec.getLsbD_and, hmask ⟨i, hi⟩, BitVec.getLsbD_append, BitVec.getLsbD_append,
    BitVec.getLsbD_append]
  by_cases hlow : i < 2
  · simp [hlow, Nat.not_le.2 hlow]
  · simp [hlow, Nat.not_lt.1 hlow]

/-- The flag says whether there is an upper half. -/
theorem low_and_is64 : f.low &&& pciEaIs64 ≠ 0 ↔ f.upper.isSome = true := by
  refine and_ne_zero_iff (s := 1) (by decide) ?_
  unfold extract low
  rw [BitVec.extractLsb'_append_eq_of_add_le (by decide), BitVec.extractLsb'_append_eq_of_le (by decide)]
  exact BitVec.extractLsb'_eq_self

/-- What is read of the lower half, with the upper half where there is one. -/
theorem value_zero : f.value 0 = f.upper.getD 0 ++ (f.low &&& pciEaFieldMask) := by
  rw [low_and_mask]
  rfl

/-- The lowest two bits of a maximal offset are ones. -/
theorem value_or_three : f.value 0 ||| 3 = f.value 3 := by
  have hthree : ∀ i : Fin 64, (3 : BitVec 64).getLsbD i = decide (i.val < 2) := by decide
  apply BitVec.eq_of_getLsbD_eq
  intro i hi
  unfold value
  rw [BitVec.getLsbD_or, hthree ⟨i, hi⟩]
  repeat rw [BitVec.getLsbD_append]
  by_cases hlow : i < 2
  · obtain rfl | rfl : i = 0 ∨ i = 1 := by omega
    · simp
    · simp
  · simp [hlow]

end EaField

/-! ## Reading an entry -/

/-- Doublewords stand in the first 256 bytes of a configuration space, one behind the other. -/
def DwordsAt (dev : PciDevice) : (offset : ℕ) → List (BitVec 32) → Prop
  | _, [] => True
  | offset, d :: ds => (offset < 256 ∧ pciReadConfig32 dev offset = d) ∧ DwordsAt dev (offset + 4) ds

instance (dev : PciDevice) : (offset : ℕ) → (ds : List (BitVec 32)) → Decidable (DwordsAt dev offset ds)
  | _, [] => .isTrue trivial
  | offset, _ :: ds =>
    have := instDecidableDwordsAt dev (offset + 4) ds
    inferInstanceAs (Decidable (_ ∧ _))

/-- The first word is read at the offset. -/
theorem DwordsAt.head {dev : PciDevice} {offset : ℕ} {d : BitVec 32} {ds : List (BitVec 32)}
    (h : DwordsAt dev offset (d :: ds)) : readConfigLong dev offset = d := by
  obtain ⟨⟨hlt, hread⟩, -⟩ := h
  unfold readConfigLong
  rw [Nat.mod_eq_of_lt hlt, hread]

/-- Words after others stand behind them. -/
theorem dwordsAt_append {dev : PciDevice} {ds ds' : List (BitVec 32)} {offset : ℕ} :
    DwordsAt dev offset (ds ++ ds') ↔
      DwordsAt dev offset ds ∧ DwordsAt dev (offset + 4 * ds.length) ds' := by
  induction ds generalizing offset with
  | nil => simp [DwordsAt]
  | cons d ds ih =>
    rw [List.cons_append, DwordsAt, DwordsAt, ih, List.length_cons,
      show offset + 4 + 4 * ds.length = offset + 4 * (ds.length + 1) by omega]
    exact and_assoc.symm

/-- The size of an entry, from its first doubleword. -/
theorem EaEntry.size_eq (e : EaEntry) :
    (((e.header &&& pciEaEs) + 1) <<< 2).toNat = 4 * e.dwords.length := by
  have hle := e.length_tail_le
  have hfield : e.header &&& pciEaEs = (BitVec.ofNat 3 e.tail.length).setWidth 32 := by
    have h := @and_ushiftRight _ e.header pciEaEs 0 3 (by decide)
    rwa [e.extract_size, BitVec.ushiftRight_zero] at h
  rw [hfield, BitVec.toNat_shiftLeft, BitVec.toNat_add, BitVec.toNat_setWidth, BitVec.toNat_ofNat,
    EaEntry.dwords, List.length_cons, Nat.shiftLeft_eq]
  simp only [BitVec.ofNat_eq_ofNat, BitVec.toNat_ofNat]
  omega

/-- What is read of a base or a maximal offset whose upper half, if there is one, comes next. -/
theorem EaField.read_upper (f : EaField) {dev : PciDevice} {offset : ℕ} {ds : List (BitVec 32)}
    (h : DwordsAt dev offset (f.upper.toList ++ ds)) :
    (if f.low &&& pciEaIs64 ≠ 0 then
        ((f.low &&& pciEaFieldMask).setWidth 64 ||| (readConfigLong dev offset).setWidth 64 <<< 32, offset + 4)
      else ((f.low &&& pciEaFieldMask).setWidth 64, offset))
        = (f.value 0, offset + 4 * f.upper.toList.length) ∧
      DwordsAt dev (offset + 4 * f.upper.toList.length) ds := by
  obtain ⟨hupper, hrest⟩ := dwordsAt_append.1 h
  refine ⟨?_, hrest⟩
  have hflag := f.low_and_is64
  have hvalue := f.value_zero
  cases hf : f.upper with
  | none =>
    rw [hf] at hflag hvalue
    have hzero : (f.low &&& pciEaFieldMask).setWidth 64 = 0#32 ++ (f.low &&& pciEaFieldMask) := by
      rw [← or_shiftLeft_eq_append]
      simp
    have hclear : ¬ f.low &&& pciEaIs64 ≠ 0 := fun hset => absurd (hflag.1 hset) Bool.false_ne_true
    rw [if_neg hclear, hvalue, hzero]
    rfl
  | some upper =>
    rw [hf] at hflag hvalue hupper
    rw [if_pos (hflag.2 rfl), hupper.head, or_shiftLeft_eq_append, hvalue]
    rfl

/-- **An entry is printed as it is**, and the next one is looked for behind it. -/
theorem dumpEaEntry_eq (e : EaEntry) {dev : PciDevice} {offset : ℕ} (h : DwordsAt dev offset e.dwords)
    (index : ℕ) : dumpEaEntry dev offset index = (e.line index, offset + 4 * e.dwords.length) := by
  have hheader := h.head
  obtain ⟨-, h⟩ := h
  have hbase := h.head
  obtain ⟨-, h⟩ := h
  have hmax := h.head
  obtain ⟨-, hrest⟩ := h
  have hbei : ((e.header &&& pciEaBei) >>> 4).setWidth 8 = e.bei.setWidth 8 := by
    rw [@and_ushiftRight _ e.header pciEaBei 4 4 (by decide), e.extract_bei,
      BitVec.setWidth_setWidth_of_le _ (by decide)]
  have hprimary : ((e.header &&& pciEaPp) >>> 8).setWidth 8 = e.primary := by
    rw [@and_ushiftRight _ e.header pciEaPp 8 8 (by decide), e.extract_primary,
      BitVec.setWidth_setWidth_of_le _ (by decide), BitVec.setWidth_eq]
  have hsecondary : ((e.header &&& pciEaSp) >>> 16).setWidth 8 = e.secondary := by
    rw [@and_ushiftRight _ e.header pciEaSp 16 8 (by decide), e.extract_secondary,
      BitVec.setWidth_setWidth_of_le _ (by decide), BitVec.setWidth_eq]
  have henabled : decide (e.header &&& pciEaEnable ≠ 0) = e.enabled := by
    rw [Bool.eq_iff_iff, decide_eq_true_eq]
    exact and_ne_zero_iff (by decide) e.extract_enabled
  have hwritable : decide (e.header &&& pciEaWritable ≠ 0) = e.writable := by
    rw [Bool.eq_iff_iff, decide_eq_true_eq]
    exact and_ne_zero_iff (by decide) e.extract_writable
  obtain ⟨hstart, hrest⟩ := e.base.read_upper hrest
  obtain ⟨hlimit, -⟩ := e.maxOffset.read_upper hrest
  have hlength : e.dwords.length
      = 3 + e.base.upper.toList.length + e.maxOffset.upper.toList.length + e.spare.length := by
    simp only [EaEntry.dwords, EaEntry.tail, List.length_cons, List.length_append]
    omega
  unfold dumpEaEntry
  dsimp only
  rw [hheader, hbase, hmax, e.size_eq, hbei, hprimary, hsecondary, henabled, hwritable, hstart]
  dsimp only
  rw [hlimit]
  unfold EaEntry.line
  cases hon : e.enabled with
  | false => rfl
  | true =>
    have hnext : (if offset + 4 + 4 + 4 + 4 * e.base.upper.toList.length
          + 4 * e.maxOffset.upper.toList.length - offset < 4 * e.dwords.length then
        offset + 4 * e.dwords.length
      else offset + 4 + 4 + 4 + 4 * e.base.upper.toList.length + 4 * e.maxOffset.upper.toList.length)
        = offset + 4 * e.dwords.length := by
      split <;> omega
    rw [if_neg (by decide), if_pos rfl]
    dsimp only
    rw [hnext, EaField.value_or_three]
    rfl

/-! ## Reading a capability -/

/-- The next entry is looked for further on, whatever is read. -/
theorem lt_dumpEaEntry (dev : PciDevice) (offset index : ℕ) :
    offset < (dumpEaEntry dev offset index).2 := by
  have hsize : 0 < (((readConfigLong dev offset &&& pciEaEs) + 1) <<< 2).toNat := by
    have hle : (readConfigLong dev offset &&& pciEaEs).toNat ≤ 7 := by
      rw [BitVec.toNat_and]
      exact Nat.and_le_right
    rw [BitVec.toNat_shiftLeft, BitVec.toNat_add, Nat.shiftLeft_eq]
    simp only [BitVec.ofNat_eq_ofNat, BitVec.toNat_ofNat]
    omega
  unfold dumpEaEntry
  dsimp only
  generalize (((readConfigLong dev offset &&& pciEaEs) + 1) <<< 2).toNat = size at hsize ⊢
  split
  · exact Nat.lt_add_of_pos_right hsize
  · -- behind the first doubleword two or more have been read
    repeat' split
    all_goals dsimp only
    all_goals omega

/-- The loop prints as many entries as there are said to be. -/
theorem dumpEaEntries_entry (dev : PciDevice) (count index offset : ℕ) :
    (dumpEaEntries dev count index offset).length = count ∧
      ∀ o ∈ dumpEaEntries dev count index offset, ∃ line, o = .entry line := by
  induction count generalizing index offset with
  | zero => exact ⟨rfl, fun o ho => by cases ho⟩
  | succ count ih =>
    have hlt := lt_dumpEaEntry dev offset index
    obtain ⟨hlength, hentry⟩ := ih (index + 1) (dumpEaEntry dev offset index).2
    rw [dumpEaEntries]
    dsimp only
    rw [if_neg (Nat.not_le.2 hlt)]
    refine ⟨by rw [List.length_cons, hlength], fun o ho => ?_⟩
    rcases List.mem_cons.1 ho with rfl | ho
    · exact ⟨_, rfl⟩
    · exact hentry o ho

/-- The loop over the entries prints each of those encoded, with its index. -/
theorem dumpEaEntries_eq {dev : PciDevice} {entries : List EaEntry} {offset : ℕ}
    (h : DwordsAt dev offset (entries.flatMap EaEntry.dwords)) (index : ℕ) :
    dumpEaEntries dev entries.length index offset
      = (entries.zipIdx index).map fun p => .entry (p.1.line p.2) := by
  induction entries generalizing offset index with
  | nil => rfl
  | cons e entries ih =>
    rw [List.flatMap_cons] at h
    obtain ⟨hentry, hrest⟩ := dwordsAt_append.1 h
    have hpos : ¬ offset + 4 * e.dwords.length ≤ offset := by
      simp only [EaEntry.dwords, List.length_cons]
      omega
    rw [List.length_cons, dumpEaEntries, dumpEaEntry_eq e hentry, List.zipIdx_cons, List.map_cons]
    dsimp only
    rw [if_neg hpos, ih hrest]

/-- A function has an enhanced allocation capability with these entries. -/
structure HasEaEntries (dev : PciDevice) (capOffset headerLayout : ℕ) (entries : List EaEntry) : Prop where
  count : capOffset + pciEaNumEnt < 256 ∧
    (pciReadConfig8 dev (capOffset + pciEaNumEnt) &&& pciEaNumEntMask).toNat = entries.length
  dwords : DwordsAt dev
    (capOffset + if headerLayout = pciHeaderTypeBridge then pciEaFirstEntBridge else pciEaFirstEnt)
    (entries.flatMap EaEntry.dwords)

/-- **Enhanced allocation.** Whatever the registers of a function hold, the tool prints as many entries
as the capability is said to have and never fails to parse one; and the entries that a capability has
are printed as they are, in their order. -/
theorem dumpEaCapability_entries :
    (∀ dev capOffset headerLayout, let dump := dumpEaCapability dev capOffset headerLayout
      dump.entries.length = dump.numEntries ∧ ∀ o ∈ dump.entries, ∃ line, o = .entry line) ∧
    ∀ dev capOffset headerLayout entries, HasEaEntries dev capOffset headerLayout entries →
      (dumpEaCapability dev capOffset headerLayout).entries
        = entries.zipIdx.map fun p => .entry (p.1.line p.2) := by
  refine ⟨fun dev capOffset headerLayout => dumpEaEntries_entry dev _ 0 _,
    fun dev capOffset headerLayout entries h => ?_⟩
  obtain ⟨hlt, hcount⟩ := h.count
  unfold dumpEaCapability
  dsimp only
  rw [Nat.mod_eq_of_lt hlt, hcount]
  exact dumpEaEntries_eq h.dwords 0

/-- A range of memory of 64 KiB above 4 GiB, and an entry that is not enabled. -/
def sampleEaEntries : List EaEntry :=
  [{ bei := 0, primary := 0, secondary := 0xff, enabled := true, writable := false,
     base := ⟨0x38000000, some 6⟩, maxOffset := ⟨0x3fff, none⟩, fits := by decide },
   { bei := 2, primary := 0xfd, secondary := 0xff, enabled := false, writable := true,
     base := ⟨0, none⟩, maxOffset := ⟨0, none⟩, spare := [0x12345678], fits := by decide }]

/-- Doublewords in a register space, from an offset on. -/
def placeDwords : (offset : ℕ) → List (BitVec 32) → BitVec (8 * 4096)
  | _, [] => 0
  | offset, d :: ds => d.setWidth (8 * 4096) <<< (8 * offset) ||| placeDwords (offset + 4) ds

/-- A function with these entries in a capability at 64. -/
def eaFunction : PciDevice where
  cfg := ⟨placeDwords 64 (0x00020014 :: sampleEaEntries.flatMap EaEntry.dwords), 0⟩
  tableMem _ := 0

/-- The entries of the sample function are printed back. -/
theorem dumpEaCapability_sample : (dumpEaCapability eaFunction 64 0).entries
    = sampleEaEntries.zipIdx.map fun p => .entry (p.1.line p.2) :=
  dumpEaCapability_entries.2 eaFunction 64 0 sampleEaEntries
    ⟨by decide +kernel, by decide +kernel⟩

end BcmPcie
