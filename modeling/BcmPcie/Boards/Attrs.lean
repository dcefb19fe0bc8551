import BcmPcie.Boards.Find
import BcmPcie.Brcmstb.ConfigWindow

/-! # Attributes of boards

`LibGetBoardAttrsA` and `LibSetBoardAttrsA` of `pcie_board.c`: a loop over a tag list each, with a
`switch` over the tags.

* `boardAttr` — the value of an attribute; `getStep`, `setStep` — what the loops do with an item.
* `libGetBoardAttrsA`, `libSetBoardAttrsA` — the calls.
* `tagWalks_iff` — with `LibFindBoardA`, when they act on what a tag list enumerates. -/

namespace BcmPcie

open LinkedLists TagLists

/-! ## Tags -/

def prmBoardOwner : BitVec 32 := 0x6eda0005
def prmHeaderType : BitVec 32 := 0x6eda0009
def prmInterruptPin : BitVec 32 := 0x6eda000d
def prmLegacyIoSpace : BitVec 32 := 0x6eda000e
def prmPciToHostOffset : BitVec 32 := 0x6eda000f
def prmMemoryAddr0 : BitVec 32 := 0x6eda0010
def prmRomAddress : BitVec 32 := 0x6eda0016
def prmInterruptLine : BitVec 32 := 0x6eda001d
def prmConfigArea : BitVec 32 := 0x6eda001e
def prmMemorySize0 : BitVec 32 := 0x6eda0020
def prmRomSize : BitVec 32 := 0x6eda0026
def prmMemoryFlags0 : BitVec 32 := 0x6eda0030
def prmRomFlags : BitVec 32 := 0x6eda0036
def prmPciMemWindowLow : BitVec 32 := 0x6eda0050
def prmPciMemWindowHigh : BitVec 32 := 0x6eda0051

/-- The number of the BAR that a tag is for, of the six tags from `first` on. -/
def barOf (first tag : BitVec 32) : Option ℕ :=
  if first ≤ tag ∧ tag ≤ first + 5 then some (tag - first).toNat else none

/-! ## Reading -/

/-- What the calls read of the controller. -/
structure AttrController where
  /-- `ctrl->base`, where its registers are. -/
  base : BitVec 32
  /-- The region of `ctrl->pci_mem`. -/
  pciMem : Option PciRegion

/-- The size of a BAR, from what it has answered when it was sized. -/
def memorySize (board : Board) (bar : ℕ) : BitVec 32 :=
  let raw := board.baseSize bar
  let mask :=
    if board.baseAddress bar &&& pciBaseAddressSpace ≠ 0 then pciBaseAddressIoMask
    else pciBaseAddressMemMask
  if raw ≠ 0 then ~~~(raw &&& mask) + 1 else 0

/-- The `switch` of `LibGetBoardAttrsA`: the value of an attribute, if there is such an attribute. -/
def boardAttr (ctrl : AttrController) (board : Board) (tag : BitVec 32) : Option (BitVec 32) :=
  let idev := board.reserved
  if tag = prmVendor then some (board.vendor.setWidth 32)
  else if tag = prmDevice then some (board.device.setWidth 32)
  else if tag = prmClass then some (board.devclass >>> 16 &&& 0xff)
  else if tag = prmSubsysVendor then some (idev.subsysVendor.setWidth 32)
  else if tag = prmSubsysId then some (idev.subsysId.setWidth 32)
  else if tag = prmSubClass then some (board.devclass >>> 8 &&& 0xff)
  else if tag = prmRevision then some (idev.revision.setWidth 32)
  else if tag = prmHeaderType then some (BitVec.ofNat 32 idev.headerType)
  else if tag = prmInterface then some (board.devclass &&& 0xff)
  else if tag = prmBusNumber then some (BitVec.ofNat 32 board.busNumber)
  else if tag = prmSlotNumber then some ((board.devfn >>> 3).setWidth 32)
  else if tag = prmFunctionNumber then some ((board.devfn &&& 7).setWidth 32)
  else if tag = prmInterruptLine then some (idev.intx.pinRouted.setWidth 32)
  else if tag = prmInterruptPin then some (idev.intx.pin.setWidth 32)
  else if tag = prmLegacyIoSpace then some board.legacyIo
  else if tag = prmPciToHostOffset then some 0
  else if tag = prmRomAddress then some board.romAddress
  else if tag = prmRomSize then some board.romSize
  else if tag = prmRomFlags then some (pciReadConfig32 idev pciRomAddress &&& 1)
  else if tag = prmConfigArea then
    some (if pciBus idev.bdf = 0 then ctrl.base else ctrl.base + BitVec.ofNat 32 pcieExtCfgData)
  else if tag = prmBoardOwner then some board.owner
  else if tag = prmPciMemWindowLow then some ((ctrl.pciMem.map (·.busStart)).getD 0)
  else if tag = prmPciMemWindowHigh then
    some ((ctrl.pciMem.map fun region => region.busStart + region.size).getD 0)
  else
    match barOf prmMemoryAddr0 tag, barOf prmMemorySize0 tag, barOf prmMemoryFlags0 tag with
    | some bar, _, _ => some (board.baseAddress bar)
    | none, some bar, _ => some (memorySize board bar)
    | none, none, some bar => some (board.baseSize bar &&& 0xf)
    | none, none, none => none

/-- The registers after a query of `PRM_ConfigArea`: the window is left on the function, unless it is on
bus 0. -/
def selectConfigArea (idev : PciDevice) (regs : RcRegisters) : RcRegisters :=
  if pciBus idev.bdf = 0 then regs
  else mmioWrite32 regs (pcieEcamOffset (pciBus idev.bdf) (pciDev idev.bdf) (pciFunc idev.bdf) 0)
    pcieExtCfgIndex

/-- What `LibGetBoardAttrsA` has done so far: how many values it has given, where it has stored which,
and the registers of the controller. The caller's variables are not part of the tag list. -/
structure GetState where
  count : BitVec 32 := 0
  stores : List (BitVec 32 × BitVec 32) := []
  regs : RcRegisters

/-- The body of the loop of `LibGetBoardAttrsA`. -/
def getStep (ctrl : AttrController) (board : Board) (s : GetState) (tag : TagItem) : GetState :=
  if tag.tiTag = tagIgnore then s
  else if tag.tiData = 0 then s
  else
    match boardAttr ctrl board tag.tiTag with
    | none => s
    | some value =>
      { count := s.count + 1
        stores := s.stores ++ [(tag.tiData, value)]
        regs := if tag.tiTag = prmConfigArea then selectConfigArea board.reserved s.regs else s.regs }

/-- A loop over a tag list that is never left early. -/
def never {σ : Type} (_ : σ) : Bool := false

/-- `LibGetBoardAttrsA`. -/
def libGetBoardAttrsA (ctrl : AttrController) (mem : Memory) (fuel : ℕ) (dev : Option Board)
    (tags : BitVec 32) (regs : RcRegisters) : Option GetState :=
  match dev with
  | none => some { regs := regs }
  | some board =>
    if tags = 0 then some { regs := regs }
    else forTags mem (getStep ctrl board) never fuel tags { regs := regs }

/-! ## Writing -/

/-- What `LibSetBoardAttrsA` has done so far. -/
structure SetState where
  owner : BitVec 32
  allOk : Bool := true
  deriving DecidableEq, Repr

/-- The body of the loop of `LibSetBoardAttrsA`. -/
def setStep (s : SetState) (tag : TagItem) : SetState :=
  if tag.tiTag = tagIgnore then s
  else if tag.tiTag = prmBoardOwner then
    if tag.tiData ≠ 0 then
      if s.owner = 0 then { s with owner := tag.tiData } else { s with allOk := false }
    else { s with owner := 0 }
  else { s with allOk := false }

/-- `LibSetBoardAttrsA`: what it returns, and the board after it. -/
def libSetBoardAttrsA (mem : Memory) (fuel : ℕ) (dev : Option Board) (tags : BitVec 32) :
    Option (Bool × Option Board) :=
  match dev with
  | none => some (false, none)
  | some board =>
    if tags = 0 then some (false, some board)
    else (forTags mem setStep never fuel tags { owner := board.owner }).map fun s =>
      (s.allOk, some { board with owner := s.owner })

/-- `GetBoardAttrsA` does nothing for an item to ignore. -/
theorem getStep_ignore (ctrl : AttrController) (board : Board) (s : GetState) (tag : TagItem)
    (h : tag.tiTag = tagIgnore) : getStep ctrl board s tag = s := if_pos h

/-- Nor does `SetBoardAttrsA`. -/
theorem setStep_ignore (s : SetState) (tag : TagItem) (h : tag.tiTag = tagIgnore) :
    setStep s tag = s := if_pos h

/-! ## Tag lists -/

section Walks

variable {Addr : Type}

/-- `LibFindBoardA` finds the first of the boards behind `prev` that meets all items, and for each board
that it comes to acts on the items up to the first that the board does not meet. -/
def FindWalks (base : BoardBase Addr) (mem : Memory) (tags : BitVec 32) (prev : Option Addr)
    (boards : List (Addr × Board)) (items : List TagItem) : Prop :=
  (∃ fuel tagFuel, libFindBoardA base mem fuel tagFuel tags prev
    = some ((boards.find? fun x => items.all (meets x.2)).map Prod.fst)) ∧
  ∀ x, Examined (fun board => items.all (meets board)) boards x →
    Acts mem (matchStep x.2) Bool.not tags true (upTo (matchStep x.2) Bool.not true items)

/-- `LibGetBoardAttrsA` acts on the items, in their order. -/
def GetWalks (ctrl : AttrController) (mem : Memory) (tags : BitVec 32) (board : Board)
    (regs : RcRegisters) (items : List TagItem) : Prop :=
  Acts mem (getStep ctrl board) never tags { regs := regs } items ∧
    ∃ fuel, libGetBoardAttrsA ctrl mem fuel (some board) tags regs
      = some (items.foldl (getStep ctrl board) { regs := regs })

/-- `LibSetBoardAttrsA` acts on the items, in their order. -/
def SetWalks (mem : Memory) (tags : BitVec 32) (board : Board) (items : List TagItem) : Prop :=
  Acts mem setStep never tags { owner := board.owner } items ∧
    ∃ fuel, libSetBoardAttrsA mem fuel (some board) tags
      = some ((items.foldl setStep { owner := board.owner }).allOk,
          some { board with owner := (items.foldl setStep { owner := board.owner }).owner })

/-- What holds of each of some things from a number on holds of all of them from one on. -/
theorem exists_bound {α : Type*} {P : α → ℕ → Prop} (l : List α)
    (h : ∀ x ∈ l, ∃ n, ∀ m, n ≤ m → P x m) : ∃ n, ∀ x ∈ l, ∀ m, n ≤ m → P x m := by
  induction l with
  | nil => exact ⟨0, fun x hx => absurd hx List.not_mem_nil⟩
  | cons x l ih =>
    obtain ⟨n, hn⟩ := h x List.mem_cons_self
    obtain ⟨n', hn'⟩ := ih fun y hy => h y (List.mem_cons_of_mem x hy)
    refine ⟨max n n', fun y hy m hm => ?_⟩
    rcases List.mem_cons.1 hy with rfl | hy
    · exact hn m ((le_max_left _ _).trans hm)
    · exact hn' y hy m ((le_max_right _ _).trans hm)

section Find

variable {base : BoardBase Addr} {nodes : List (Addr × Board)} {mem : Memory} {tags : BitVec 32}
  {items : List TagItem} {i : ℕ} {prev : Option Addr}

/-- The search walks the tags of the boards it examines as they are enumerated if and only if these
lists have no other control items than those to ignore. -/
theorem findWalks_iff (hlinked : Linked base.heap nodes) (hready : base.ctrlReady = true)
    (henum : Enumerates mem tags items) (hi : i ≤ nodes.length)
    (hstart : start base.heap base.devListHead prev = some (address nodes i)) :
    FindWalks base mem tags prev (nodes.drop i) items ↔
      ∀ x, Examined (fun board => items.all (meets board)) (nodes.drop i) x →
        Plain mem (matchStep x.2) Bool.not tags true := by
  have hacts (x : Addr × Board) :
      Acts mem (matchStep x.2) Bool.not tags true (upTo (matchStep x.2) Bool.not true items) ↔
        Plain mem (matchStep x.2) Bool.not tags true :=
    acts_iff (fun _ _ => matchStep_ignore) rfl henum
  constructor
  · rintro ⟨-, hwalks⟩ x hx
    exact (hacts x).1 (hwalks x hx)
  · intro hplain
    refine ⟨?_, fun x hx => (hacts x).2 (hplain x hx)⟩
    -- enough fuel for the tags, whichever board is looked at
    obtain ⟨tagFuel, htag⟩ := @exists_bound _ (fun x m =>
        Examined (fun board => items.all (meets board)) (nodes.drop i) x →
          matchTags mem tags m x.2 = some (items.all (meets x.2))) (nodes.drop i) fun x _ => by
      by_cases hx : Examined (fun board => items.all (meets board)) (nodes.drop i) x
      · obtain ⟨n, hn⟩ := ((hacts x).2 (hplain x hx)).forTags_eq fun _ _ => matchStep_ignore
        refine ⟨n, fun m hm _ => (hn m hm).trans ?_⟩
        rw [foldl_upTo_match]
      · exact ⟨0, fun m _ hx' => absurd hx' hx⟩
    refine ⟨nodes.length + 1, tagFuel, ?_⟩
    unfold libFindBoardA BoardBase.search
    rw [hready, if_neg (by decide), hstart, Option.bind_some]
    exact hlinked.find_eq_of_examined hi (fun x hx => htag x hx.mem tagFuel le_rfl hx) (by omega)

end Find

section Attrs

variable {mem : Memory} {tags : BitVec 32} {items : List TagItem}

/-- `GetBoardAttrsA` walks a list so if and only if the list has no others. -/
theorem getWalks_iff (henum : Enumerates mem tags items) (hnull : tags ≠ 0) (ctrl : AttrController)
    (board : Board) (regs : RcRegisters) :
    GetWalks ctrl mem tags board regs items ↔ PlainList mem tags := by
  have hiff := acts_iff_plainList (getStep_ignore ctrl board) (fun _ => rfl : ∀ s, never s = false)
    { regs := regs } henum
  refine ⟨fun h => hiff.1 h.1, fun hplain => ⟨hiff.2 hplain, ?_⟩⟩
  obtain ⟨n, hn⟩ := (hiff.2 hplain).forTags_eq (getStep_ignore ctrl board)
  refine ⟨n, ?_⟩
  unfold libGetBoardAttrsA
  dsimp only
  rw [if_neg hnull, hn n le_rfl]

/-- So does `SetBoardAttrsA`. -/
theorem setWalks_iff (henum : Enumerates mem tags items) (hnull : tags ≠ 0) (board : Board) :
    SetWalks mem tags board items ↔ PlainList mem tags := by
  have hiff := acts_iff_plainList setStep_ignore (fun _ => rfl : ∀ s, never s = false)
    { owner := board.owner } henum
  refine ⟨fun h => hiff.1 h.1, fun hplain => ⟨hiff.2 hplain, ?_⟩⟩
  obtain ⟨n, hn⟩ := (hiff.2 hplain).forTags_eq setStep_ignore
  refine ⟨n, ?_⟩
  unfold libSetBoardAttrsA
  dsimp only
  rw [if_neg hnull, hn n le_rfl, Option.map_some]

end Attrs

/-- **The loops over tags** know no `TAG_SKIP` and no `TAG_MORE`: the attribute calls act on what a list
enumerates if and only if none of these stands in front of the first `TAG_DONE`, and the search if and
only if it meets none of them before a board fails an item. -/
theorem tagWalks_iff {base : BoardBase Addr} {nodes : List (Addr × Board)}
    (hlinked : Linked base.heap nodes) (hready : base.ctrlReady = true) {mem : Memory}
    {tags : BitVec 32} (hnull : tags ≠ 0) {items : List TagItem} (henum : Enumerates mem tags items)
    {i : ℕ} (hi : i ≤ nodes.length) {prev : Option Addr}
    (hstart : start base.heap base.devListHead prev = some (address nodes i)) (ctrl : AttrController)
    (board : Board) (regs : RcRegisters) :
    (FindWalks base mem tags prev (nodes.drop i) items ↔
      ∀ x, Examined (fun board => items.all (meets board)) (nodes.drop i) x →
        Plain mem (matchStep x.2) Bool.not tags true) ∧
    (GetWalks ctrl mem tags board regs items ↔ PlainList mem tags) ∧
    (SetWalks mem tags board items ↔ PlainList mem tags) :=
  ⟨findWalks_iff hlinked hready henum hi hstart, getWalks_iff henum hnull ctrl board regs,
    setWalks_iff henum hnull board⟩

end Walks

/-- A board that nobody has claimed. -/
def sampleBoard : Board := Board.of 1 (bareFunction 0x1106 0x3483 0x0c0330)

/-- A library with this board. -/
def sampleBase : BoardBase ℕ where
  heap a := if a = 1 then some ⟨sampleBoard, none, none⟩ else none
  devListHead := some 1
  ctrlReady := true

/-- The sample list has one board. -/
theorem sampleBase_linked : Linked sampleBase.heap [(1, sampleBoard)] := by
  refine ⟨List.nodup_singleton _, fun i a v h => ?_⟩
  cases i with
  | zero =>
    obtain ⟨rfl, rfl⟩ := Prod.mk.inj (Option.some.inj h)
    rfl
  | succ i => cases h

/-- A vendor, an item to be ignored and the end. -/
def plainTags : Memory := fun a =>
  if a = 0x1000 then some ⟨prmVendor, 0x1106⟩ else if a = 0x1008 then some ⟨tagIgnore, 7⟩
  else if a = 0x1010 then some ⟨tagDone, 0⟩ else none

/-- A list of two segments, of which the second one claims a board. -/
def chainedTags : Memory := fun a =>
  if a = 0x1000 then some ⟨tagMore, 0x2000⟩ else if a = 0x2000 then some ⟨prmBoardOwner, 7⟩
  else if a = 0x2008 then some ⟨tagDone, 0⟩ else none

/-- The plain list is walked as it is meant. -/
theorem plainTags_walked :
    FindWalks sampleBase plainTags 0x1000 none [(1, sampleBoard)] [⟨prmVendor, 0x1106⟩] ∧
      GetWalks ⟨0, none⟩ plainTags 0x1000 sampleBoard (fun _ => 0) [⟨prmVendor, 0x1106⟩] ∧
      SetWalks plainTags 0x1000 sampleBoard [⟨prmVendor, 0x1106⟩] := by
  have henum : Enumerates plainTags 0x1000 [⟨prmVendor, 0x1106⟩] :=
    .item rfl (by decide) (by decide) (.control rfl (by decide) (.done rfl rfl))
  have hplain : PlainList plainTags 0x1000 :=
    .next rfl (by decide) (by decide) (.next rfl (by decide) (by decide) (.done rfl rfl))
  have hstart : start sampleBase.heap sampleBase.devListHead none
      = some (address [(1, sampleBoard)] 0) := rfl
  obtain ⟨hfind, hget, hset⟩ := tagWalks_iff sampleBase_linked rfl (by decide) henum (Nat.zero_le 1)
    hstart ⟨0, none⟩ sampleBoard fun _ => 0
  refine ⟨hfind.2 fun x hx => ?_, hget.2 hplain, hset.2 hplain⟩
  rw [List.mem_singleton.1 hx.mem]
  exact .next rfl (by decide) (by decide) rfl (.ignore rfl rfl (.done rfl rfl))

/-- The other one is not: its first item is taken for an attribute, and the next one is read where the
segment has ended. -/
theorem not_setWalks_chainedTags :
    ¬ ∀ (mem : Memory) (tags : BitVec 32) (items : List TagItem) (board : Board), tags ≠ 0 →
      Enumerates mem tags items → SetWalks mem tags board items := by
  intro h
  have henum : Enumerates chainedTags 0x1000 [⟨prmBoardOwner, 7⟩] :=
    .control rfl (by decide) (.item rfl (by decide) (by decide) (.done rfl rfl))
  obtain ⟨hacts, -⟩ := h chainedTags 0x1000 _ sampleBoard (by decide) henum
  rcases hacts.head (t := ⟨tagMore, 0x2000⟩) rfl (by decide) (by decide) with ⟨-, heq⟩ | ⟨-, _, heq, -⟩
  · exact absurd heq (by decide)
  · exact absurd (List.cons.inj heq).1 (by decide)

end BcmPcie
