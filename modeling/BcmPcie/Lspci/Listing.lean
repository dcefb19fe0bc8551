import BcmPcie.Boards.MemorySize
import BcmPcie.Fabric.ConfigCycles
import BcmPcie.Lspci.ProbeDevice

/-! # The listing

`lspci`: the tool goes over the boards that the library finds, asks for their attributes and prints
them, in one line each or with all that a probe shows.

* `Locals`, `Locals.query` — a query into variables on the stack; `Locals.query_eq` — what they hold.
* `lspciMain` — the tool.
* `lspciMain_lists` — it lists each function of the machine once, in the order of the buses, and says of
  each what it is and where its BARs are. -/

namespace BcmPcie

open Computations LinkedLists TagLists

/-! ## Queries -/

/-- Variables for some attributes, and the tag list that names both, on the stack. -/
structure Locals (tags : List (BitVec 32)) where
  array : BitVec 32
  vars : List (BitVec 32)
  array_ne : array ≠ 0
  length : vars.length = tags.length
  ne_zero : 0 ∉ vars
  nodup : vars.Nodup

/-- What variables hold that were 0 before these stores. -/
def stored (stores : List (BitVec 32 × BitVec 32)) : BitVec 32 → BitVec 32 :=
  stores.foldl (fun vars store => Function.update vars store.1 store.2) fun _ => 0

section Locals

variable {tags : List (BitVec 32)} (l : Locals tags)

/-- The tag list. -/
def Locals.items : List TagItem := List.zipWith TagItem.mk tags l.vars

/-- `GetBoardAttrsA` with the tag list, and the variables after it. -/
def Locals.query (ctrl : AttrController) (board : Board) (regs : RcRegisters) :
    Option (List (BitVec 32)) :=
  (libGetBoardAttrsA ctrl (tagArray l.array l.items) (l.items.length + 1) (some board) l.array regs).map
    fun s => l.vars.map (stored s.stores)

end Locals

/-! ## The tool -/

/-- The attributes that are asked for. -/
def boardTags : List (BitVec 32) := [prmBusNumber, prmBoardOwner]
def barTags : List (BitVec 32) :=
  (List.range 6).map (fun n => prmMemoryAddr0 + BitVec.ofNat 32 n)
    ++ (List.range 6).map fun n => prmMemorySize0 + BitVec.ofNat 32 n

/-- What is printed of a BAR. -/
structure BarLine where
  bar : ℕ
  addr : BitVec 32
  size : BitVec 32
  deriving DecidableEq, Repr

/-- A line for a BAR, unless there is nothing to say: the tool takes the two's complement of the size that
the library reports. -/
def barLine (bar : ℕ) (addr size : BitVec 32) : Option BarLine :=
  let sz := if size ≠ 0 then ~~~size + 1 else 0
  if addr ≠ 0 ∨ sz ≠ 0 then some ⟨bar, addr, sz⟩ else none

/-- `list_bars`, from the values of `barTags`. -/
def listBars (values : List (BitVec 32)) : List BarLine :=
  (List.range 6).filterMap fun n => barLine n (values.getD n 0) (values.getD (6 + n) 0)

/-- What both listings print of a board. -/
structure DeviceLine where
  busNum : BitVec 32
  dev : BitVec 8
  func : BitVec 8
  vendor : BitVec 16
  device : BitVec 16
  baseClass : BitVec 32
  subClass : BitVec 32
  progIf : BitVec 32
  deriving DecidableEq, Repr

/-- The numbers, ids and class that are printed of a board. -/
def deviceLine (board : Board) (busNum : BitVec 32) : DeviceLine where
  busNum := busNum
  dev := board.devfn >>> 3 &&& 0x1f
  func := board.devfn &&& 0x07
  vendor := board.vendor
  device := board.device
  baseClass := board.devclass >>> 16 &&& 0xff
  subClass := board.devclass >>> 8 &&& 0xff
  progIf := board.devclass &&& 0xff

/-- What is printed of a board: the name of the task that has claimed it, if there is one (`-` in the
quiet listing otherwise), and the probe, which the quiet listing leaves out. -/
structure Output where
  line : DeviceLine
  owner : Option String
  bars : List BarLine
  probe : Option ProbeOutput
  deriving DecidableEq, Repr

/-- What the tool runs in: the names of tasks, the controller and its registers, its stack frames and its
static data. -/
structure LspciEnv where
  taskName : BitVec 32 → String
  ctrl : AttrController
  regs : RcRegisters
  boardLocals : Locals boardTags
  barLocals : Locals barTags
  machineLocals : Locals (boardTags ++ barTags)
  emptyTags : BitVec 32

namespace LspciEnv

variable (env : LspciEnv) (board : Board)

/-- The name of the task that has the board. -/
def ownerName (ownerPtr : BitVec 32) : Option String :=
  if ownerPtr ≠ 0 then some (env.taskName ownerPtr) else none

/-- `print_device` and `probe_pci_device`. -/
def printDevice : Option Output := do
  let values ← env.boardLocals.query env.ctrl board env.regs
  let bars ← env.barLocals.query env.ctrl board env.regs
  pure ⟨deviceLine board (values.getD 0 0), env.ownerName (values.getD 1 0), listBars bars,
    some (probePciDevice board.reserved)⟩

/-- `print_device_machine`. -/
def printDeviceMachine : Option Output := do
  let values ← env.machineLocals.query env.ctrl board env.regs
  pure ⟨deviceLine board (values.getD 0 0), env.ownerName (values.getD 1 0), listBars (values.drop 2),
    none⟩

end LspciEnv

/-- How the tool ends: with return code 10, if the library cannot be opened, or with 0. -/
inductive LspciResult
  | failedToOpen
  | listed (out : List Output)

/-- `main`; `fuel` is for the loop over the boards and for the searches of the library. -/
def lspciMain {Addr : Type} (env : LspciEnv) (quiet : Bool) (opened : Option (BoardBase Addr))
    (fuel : ℕ) : Option LspciResult :=
  match opened with
  | none => some .failedToOpen
  | some base =>
    let findBoardA := libFindBoardA base (tagArray env.emptyTags []) fuel 1 env.emptyTags
    let print dev := (base.heap dev).bind fun node =>
      if quiet then env.printDeviceMachine node.value else env.printDevice node.value
    ((findBoardA none).bind (forResults findBoardA print fuel)).map .listed

/-! ## What the variables hold -/

/-- Stores elsewhere leave a variable alone. -/
theorem foldl_update_of_notMem {stores : List (BitVec 32 × BitVec 32)} {a : BitVec 32}
    (h : a ∉ stores.map Prod.fst) (vars : BitVec 32 → BitVec 32) :
    stores.foldl (fun vars store => Function.update vars store.1 store.2) vars a = vars a := by
  induction stores generalizing vars with
  | nil => rfl
  | cons store stores ih =>
    rw [List.map_cons, List.mem_cons, not_or] at h
    rw [List.foldl_cons, ih h.2, Function.update_of_ne h.1]

/-- Each variable holds what was stored into it. -/
theorem map_stored_zip {vars values : List (BitVec 32)} (hnodup : vars.Nodup)
    (hlength : vars.length = values.length) : vars.map (stored (vars.zip values)) = values := by
  suffices h : ∀ before : BitVec 32 → BitVec 32, vars.map ((vars.zip values).foldl
      (fun vars store => Function.update vars store.1 store.2) before) = values from h _
  intro before
  induction vars generalizing values before with
  | nil =>
    obtain rfl := List.length_eq_zero_iff.1 hlength.symm
    rfl
  | cons a vars ih =>
    obtain ⟨value, values, rfl⟩ := List.exists_cons_of_length_eq_add_one hlength.symm
    obtain ⟨hnew, hnodup⟩ := List.nodup_cons.1 hnodup
    have hlength : vars.length = values.length := Nat.succ.inj hlength
    rw [List.zip_cons_cons, List.map_cons, List.foldl_cons, ih hnodup hlength,
      foldl_update_of_notMem (by rwa [List.map_fst_zip hlength.le]), Function.update_self]

section Query

variable {ctrl : AttrController} {board : Board}

/-- A query of attributes that there are stores them all. -/
theorem reported_zipWith {tags vars values : List (BitVec 32)}
    (hvalues : tags.map (boardAttr ctrl board) = values.map some) (hignore : tagIgnore ∉ tags)
    (hzero : 0 ∉ vars) (hlength : vars.length = tags.length) :
    reported ctrl board (List.zipWith TagItem.mk tags vars) = vars.zip values := by
  induction tags generalizing vars values with
  | nil =>
    obtain rfl := List.length_eq_zero_iff.1 hlength
    rfl
  | cons tag tags ih =>
    obtain ⟨a, vars, rfl⟩ := List.exists_cons_of_length_eq_add_one hlength
    obtain ⟨value, values, rfl, hvalue, hvalues⟩ := List.map_eq_cons_iff.1 hvalues.symm
    rw [List.mem_cons, not_or] at hignore hzero
    rw [List.zipWith_cons_cons, List.zip_cons_cons,
      reported_cons (Ne.symm hignore.1) (Ne.symm hzero.1) hvalue.symm,
      ih hvalues.symm hignore.2 hzero.2 (Nat.succ.inj hlength)]

/-- **A query into variables** comes back with the values of the attributes. -/
theorem Locals.query_eq {tags values : List (BitVec 32)} (l : Locals tags)
    (hvalues : tags.map (boardAttr ctrl board) = values.map some)
    (hplain : ∀ tag ∈ tags, tag ≠ tagDone ∧ tag ≠ tagIgnore) (hfits : tags.length < 2 ^ 29)
    (regs : RcRegisters) : l.query ctrl board regs = some values := by
  have hcount : l.items.length = tags.length := by
    rw [Locals.items, List.length_zipWith, l.length, Nat.min_self]
  have hdone : ∀ t ∈ l.items, t.tiTag ≠ tagDone := by
    intro t ht
    obtain ⟨i, hi, rfl⟩ := List.mem_iff_getElem.1 ht
    rw [hcount] at hi
    simp only [Locals.items, List.getElem_zipWith]
    exact (hplain _ (List.getElem_mem hi)).1
  obtain ⟨s, hget, hstores⟩ := libGetBoardAttrsA_stores l.array_ne
    (row_tagArray l.array hdone (by omega)) ctrl board regs (Nat.lt_succ_self _)
  have hlength : l.vars.length = values.length := by
    have h := congrArg List.length hvalues
    rw [List.length_map, List.length_map] at h
    exact l.length.trans h
  unfold Locals.query
  rw [hget, Option.map_some, hstores, Locals.items,
    reported_zipWith hvalues (fun h => (hplain _ h).2 rfl) l.ne_zero l.length, map_stored_zip l.nodup hlength]

end Query

/-! ## What is said of a board -/

/-- The tag of the address of BAR `n` asks for just that. -/
theorem boardAttr_memoryAddr (ctrl : AttrController) (board : Board) {n : ℕ} (hn : n < 6) :
    boardAttr ctrl board (prmMemoryAddr0 + BitVec.ofNat 32 n) = some (board.baseAddress n) := by
  match n, hn with
  | 0, _ | 1, _ | 2, _ | 3, _ | 4, _ | 5, _ => rfl

/-- The values of the attributes. -/
theorem map_boardTags (ctrl : AttrController) (board : Board) :
    boardTags.map (boardAttr ctrl board)
      = [BitVec.ofNat 32 board.busNumber, board.owner].map some := rfl

/-- The tags of the BARs ask for the six addresses and then the six sizes. -/
theorem map_barTags (ctrl : AttrController) (board : Board) :
    barTags.map (boardAttr ctrl board)
      = ((List.range 6).map board.baseAddress ++ (List.range 6).map (memorySize board)).map some := by
  unfold barTags
  rw [List.map_append, List.map_append, List.map_map, List.map_map, List.map_map, List.map_map]
  refine congrArg₂ _ (List.map_congr_left fun n hn => ?_) (List.map_congr_left fun n hn => ?_)
  · exact boardAttr_memoryAddr ctrl board (List.mem_range.1 hn)
  · exact boardAttr_memorySize ctrl board (List.mem_range.1 hn)

/-- The tags that `lspci` asks a board for are no control tags. -/
theorem plain_boardTags : ∀ tag ∈ boardTags, tag ≠ tagDone ∧ tag ≠ tagIgnore := by
  simp [boardTags, prmBusNumber, prmBoardOwner, tagDone, tagIgnore]

/-- Nor are the tags of the BARs. -/
theorem plain_barTags : ∀ tag ∈ barTags, tag ≠ tagDone ∧ tag ≠ tagIgnore := by
  have hplain (first : BitVec 32) (hfirst : first = prmMemoryAddr0 ∨ first = prmMemorySize0) (n : ℕ)
      (hn : n < 6) : first + BitVec.ofNat 32 n ≠ tagDone ∧ first + BitVec.ofNat 32 n ≠ tagIgnore := by
    rcases hfirst with rfl | rfl <;>
      match n, hn with
      | 0, _ | 1, _ | 2, _ | 3, _ | 4, _ | 5, _ => decide
  intro tag htag
  rcases List.mem_append.1 htag with htag | htag
  · obtain ⟨n, hn, rfl⟩ := List.mem_map.1 htag
    exact hplain _ (Or.inl rfl) n (List.mem_range.1 hn)
  · obtain ⟨n, hn, rfl⟩ := List.mem_map.1 htag
    exact hplain _ (Or.inr rfl) n (List.mem_range.1 hn)

/-- What the tool says of a board. -/
def LspciEnv.said (env : LspciEnv) (quiet : Bool) (board : Board) : Output where
  line := deviceLine board (BitVec.ofNat 32 board.busNumber)
  owner := env.ownerName board.owner
  bars := (List.range 6).filterMap fun n => barLine n (board.baseAddress n) (memorySize board n)
  probe := if quiet then none else some (probePciDevice board.reserved)

/-- What is printed of a board, in either form. -/
theorem LspciEnv.print_eq (env : LspciEnv) (quiet : Bool) (board : Board) :
    (if quiet then env.printDeviceMachine board else env.printDevice board)
      = some (env.said quiet board) := by
  have hboard := plain_boardTags
  have hbars := plain_barTags
  cases quiet with
  | true =>
    have hvalues := congrArg₂ (· ++ ·) (map_boardTags env.ctrl board) (map_barTags env.ctrl board)
    rw [← List.map_append, ← List.map_append] at hvalues
    have hquery := env.machineLocals.query_eq hvalues
      (fun tag htag => (List.mem_append.1 htag).elim (hboard tag) (hbars tag)) (by decide) env.regs
    unfold printDeviceMachine
    rw [if_pos rfl, hquery]
    rfl
  | false =>
    have hfirst := env.boardLocals.query_eq (map_boardTags env.ctrl board) hboard (by decide) env.regs
    have hsecond := env.barLocals.query_eq (map_barTags env.ctrl board) hbars (by decide) env.regs
    unfold printDevice
    rw [if_neg Bool.false_ne_true, hfirst, hsecond]
    rfl

/-- **The loop over the boards** says what there is to say of each board of the list. -/
theorem lspciMain_eq {Addr : Type} {base : BoardBase Addr} {nodes : List (Addr × Board)}
    (hlinked : Linked base.heap nodes) (hhead : base.devListHead = address nodes 0)
    (hready : base.ctrlReady = true) (env : LspciEnv) (quiet : Bool) {fuel : ℕ}
    (hfuel : nodes.length < fuel) :
    lspciMain env quiet (some base) fuel
      = some (.listed (nodes.map fun x => env.said quiet x.2)) := by
  have hrow : Row (tagArray env.emptyTags []) env.emptyTags [] :=
    row_tagArray _ (fun t ht => absurd ht List.not_mem_nil) (by decide)
  have hcall : libFindBoardA base (tagArray env.emptyTags []) fuel 1 env.emptyTags
      = base.search (matchTags (tagArray env.emptyTags []) env.emptyTags 1) fuel := by
    funext prev
    unfold libFindBoardA
    rw [hready, if_neg (by decide)]
  have hresults := base.results_search hlinked hhead
    (fun board => matchTags_row hrow (Nat.zero_lt_one) board) hfuel hfuel
  rw [← hcall] at hresults
  -- a board that was found is in memory
  have hprinted : ∀ x ∈ nodes, ((base.heap x.1).bind fun node =>
      if quiet then env.printDeviceMachine node.value else env.printDevice node.value)
        = some (env.said quiet x.2) := by
    intro x hx
    obtain ⟨i, hi⟩ := List.getElem?_of_mem hx
    rw [hlinked.node i x.1 x.2 hi, Option.bind_some]
    exact env.print_eq quiet x.2
  unfold lspciMain
  dsimp only
  rw [forResults_eq hresults]
  · rfl
  · have hall : (nodes.filter fun x => ([] : List TagItem).all (meets x.2)) = nodes :=
      List.filter_eq_self.2 fun _ _ => rfl
    rw [hall, List.map_map, List.map_map]
    exact List.map_congr_left hprinted

/-! ## The buses of a machine -/

/-- The buses behind bridges have the numbers of the bridges. -/
theorem map_busNumber_busesBehind {t : Forest ConfiguredFunction} {m m' : ℕ}
    (h : t.Numbered ConfiguredFunction.numbers m m') (bridges : List PciDevice) :
    (busesBehind bridges t).map PciBus.busNumber = t.firsts ConfiguredFunction.numbers := by
  induction t generalizing bridges m m' with
  | nil => rfl
  | node f below rest ihb ihr =>
    rw [busesBehind]
    cases hsecondary : f.secondary with
    | none =>
      have hnone : f.numbers = none := by rw [ConfiguredFunction.numbers, hsecondary, Option.map_none]
      obtain ⟨rfl, hrest⟩ := h.of_none hnone
      rw [Forest.firsts_node_of_none hnone]
      exact ihr hrest bridges
    | some bus =>
      have hsome : f.numbers = some (bus.number, bus.lastSub) := by
        rw [ConfiguredFunction.numbers, hsecondary, Option.map_some]
      obtain ⟨-, hbelow, hrest⟩ := h.of_some hsome
      rw [Forest.firsts_node_of_some hsome, List.map_cons, List.map_append, ihb hbelow, ihr hrest]

/-- What stands on a bus has its number in its address. -/
theorem PlacedOn.bus_of_mem {b : ℕ} {t : Forest ConfiguredFunction} (h : PlacedOn b t)
    (bridges : List PciDevice) :
    (∀ f ∈ t.roots, pciBus f.dev.bdf = b) ∧
      ∀ bus ∈ busesBehind bridges t, ∀ d ∈ bus.devices, pciBus d.bdf = bus.busNumber := by
  induction t generalizing b bridges with
  | nil => exact ⟨fun f hf => absurd hf List.not_mem_nil, fun bus hbus => absurd hbus List.not_mem_nil⟩
  | node f below rest ihb ihr =>
    obtain ⟨⟨hbus, hsecondary⟩, hrest⟩ := h
    obtain ⟨hroots, hbehind⟩ := ihr hrest bridges
    refine ⟨fun g hg => ?_, fun bus hmem => ?_⟩
    · rcases List.mem_cons.1 hg with rfl | hg
      · exact hbus
      · exact hroots g hg
    · rw [busesBehind] at hmem
      cases hs : f.secondary with
      | none =>
        rw [hs] at hmem
        exact hbehind bus hmem
      | some numbers =>
        rw [hs] at hmem hsecondary
        obtain ⟨-, -, -, hbelow⟩ := hsecondary
        obtain ⟨hrootsBelow, hbehindBelow⟩ := ihb hbelow (f.dev :: bridges)
        rcases List.mem_cons.1 hmem with rfl | hmem
        · intro d hd
          obtain ⟨g, hg, rfl⟩ := List.mem_map.1 hd
          exact hrootsBelow g hg
        · rcases List.mem_append.1 hmem with hmem | hmem
          · exact hbehindBelow bus hmem
          · exact hbehind bus hmem

/-- What is kept of the BARs of each function of a scan. -/
theorem Scan.recordedBars {σ : Type} {b last last' : ℕ} {bridges : List PciDevice}
    {pcie pcie' : PciController σ} {functions : Forest HwFunction}
    {configured : Forest ConfiguredFunction}
    (h : Scan b bridges pcie last functions configured pcie' last') :
    ∀ f ∈ configured.toList, f.dev.barsNum ≤ 6 ∧ ∃ slot, RecordedBars f.dev.barsNum slot f.dev.bars := by
  have hsetup {pcie pcie₁ : PciController σ} {bridges : List PciDevice} {hw : HwFunction} {b : ℕ}
      {dev : PciDevice} (h : pciautoSetupDevice pcie bridges (hw.record b) pcie.ptr = (pcie₁, dev)) :
      dev.barsNum ≤ 6 ∧ ∃ slot, RecordedBars dev.barsNum slot dev.bars := by
    have hframe := (pciautoSetupDevice_frame pcie bridges (record_barsNum hw b) pcie.ptr).2
    obtain ⟨slot, hrecorded⟩ := recordedBars_of_setup pcie bridges (record_barsNum hw b)
      (fun _ => rfl) pcie.ptr
    rw [h] at hframe hrecorded
    have hrecord := congrArg PciDevice.barsNum hframe.record
    have hnum : dev.barsNum = (hw.record b).barsNum := hrecord
    rw [hnum]
    exact ⟨record_barsNum hw b, slot, hrecorded⟩
  induction h with
  | nil => exact fun f hf => absurd hf List.not_mem_nil
  | leaf _ hdev _ ih =>
    intro f hf
    rcases List.mem_cons.1 hf with rfl | hf
    · exact hsetup hdev
    · exact ih f hf
  | @bridge _ _ _ _ hw _ _ _ _ pcie₁ dev pcie₂ lastSub _ _ _ hdev _ _ ihb ihr =>
    intro f hf
    rcases List.mem_cons.1 hf with rfl | hf
    · have hrewritten := scannedBridge_rewritten pcie₁.nextBus pcie₂ pcie₁.nextBus.busNumberLast lastSub
        hw.link { dev with activated := true }
      have hnum := congrArg PciDevice.barsNum hrewritten.record
      dsimp only at hnum
      dsimp only
      rw [hrewritten.bars, hnum]
      exact hsetup hdev
    · rcases List.mem_append.1 hf with hf | hf
      · exact ihb f hf
      · exact ihr f hf

section Machine

variable {σ : Type} {functions : Forest HwFunction} {root : PciBus}
  {configured : Forest ConfiguredFunction} {s s' : EnumState σ}

/-- The root bus has number 0. -/
theorem busNumber_of_enumerate (htopology : Topology functions)
    (h : enumerate functions s = .ok (root, configured) s') : root.busNumber = 0 := by
  obtain ⟨bus₀, s₁, hbind, h₁⟩ := bind_eq_ok.1 h
  obtain ⟨rfl, -⟩ := pciBindBusDevices_ok htopology.root rfl hbind
  obtain ⟨u, s₂, hinit, h₂⟩ := bind_eq_ok.1 h₁
  obtain rfl := modifyController_ok hinit
  have hplaced : PlacedBehind functions (pciautoConfigInit s₁.pcie).busNumberLast :=
    ⟨fun p hp n hn => (htopology.link p hp).of_one (by omega), htopology.below⟩
  exact (scan_of_ok htopology.root (fun f hf => hf) rfl hplaced h₂).2

/-- The list of an enumerated machine goes from bus to bus, and each board has the number of the bus in
its address. -/
theorem boards_of_enumerate (hn : Numberable functions s.pcie)
    (h : enumerate functions s = .ok (root, configured) s') :
    DevListExact root configured (boardsOf (ctrlBuses root configured)) ∧
      ∀ board ∈ boardsOf (ctrlBuses root configured), ∃ d ∈ configured.toList.map ConfiguredFunction.dev,
        board = Board.of (pciBus d.bdf) d := by
  obtain ⟨hplaced, hnumbered⟩ := hn.placed h
  have hroot := busNumber_of_enumerate hn.topology h
  obtain ⟨hroots, hbehind⟩ := hplaced.bus_of_mem []
  have hnumbers : (ctrlBuses root configured).map PciBus.busNumber
      = 0 :: List.range' 1 s'.pcie.busNumberLast := by
    unfold ctrlBuses
    rw [List.map_cons, map_busNumber_busesBehind hnumbered, hnumbered.firsts]
    exact congrArg (· :: _) hroot
  have hdistinct : ((ctrlBuses root configured).map PciBus.busNumber).Nodup := by
    rw [hnumbers]
    show (0 :: List.range' (0 + 1) _).Nodup
    rw [← List.range'_succ]
    exact List.nodup_range'
  have hexact := devListExact_boardsOf (enumerated_of_enumerate hn.topology h) hdistinct
  refine ⟨hexact, fun board hboard => ?_⟩
  have hmem : board.reserved ∈ configured.toList.map ConfiguredFunction.dev :=
    hexact.all.subset (List.mem_map_of_mem hboard)
  obtain ⟨bus, hbus, hboard⟩ := List.mem_flatMap.1 hboard
  obtain ⟨n, -, hbus⟩ := List.mem_filterMap.1 hbus
  obtain ⟨d, hd, rfl⟩ := List.mem_map.1 hboard
  rw [reserved_of] at hmem
  refine ⟨d, hmem, ?_⟩
  rcases List.mem_cons.1 (pciGetBus_some hbus).1 with rfl | hbus
  · obtain ⟨f, hf, rfl⟩ := List.mem_map.1 hd
    rw [hroots f hf, ← hroot]
  · rw [hbehind bus hbus d hd]

end Machine

/-! ## What is listed -/

/-- The record of a function after it was used: its registers may hold something else, and its interrupts
may be in use. -/
def UsedRecord (d d' : PciDevice) : Prop :=
  d' = { d with
    cfg := d'.cfg, tableMem := d'.tableMem, msi := d'.msi, msix := d'.msix, intx := d'.intx,
    active := d'.active }

/-- A board after it was used: it may also have been claimed. -/
structure KeptBoard (board now : Board) : Prop where
  record : now = { board with owner := now.owner, reserved := now.reserved }
  reserved : UsedRecord board.reserved now.reserved

/-- The list of the boards of a machine, at any time after it was enumerated. -/
structure CurrentList {Addr : Type} (base : BoardBase Addr) (root : PciBus)
    (functions : Forest ConfiguredFunction) (nodes : List (Addr × Board)) : Prop where
  linked : Linked base.heap nodes
  head : base.devListHead = address nodes 0
  ready : base.ctrlReady = true
  boards : List.Forall₂ KeptBoard (boardsOf (ctrlBuses root functions)) (nodes.map Prod.snd)

/-- What is listed of a board is so. The size of a BAR shows as its two's complement. -/
structure Listed (env : LspciEnv) (quiet : Bool) (board : Board) (o : Output) : Prop where
  bus : o.line.busNum.toNat = pciBus board.reserved.bdf
  dev : o.line.dev.toNat = pciDev board.reserved.devfn
  func : o.line.func.toNat = pciFunc board.reserved.devfn
  vendor : o.line.vendor = board.reserved.vendor
  device : o.line.device = board.reserved.device
  devclass : (o.line.baseClass, o.line.subClass, o.line.progIf) =
    (board.reserved.classCode >>> 16 &&& 0xff, board.reserved.classCode >>> 8 &&& 0xff,
      board.reserved.classCode &&& 0xff)
  owner : o.owner = env.ownerName board.owner
  barsOrder : o.bars.Pairwise fun l l' => l.bar < l'.bar
  barsThere : ∀ l ∈ o.bars, (board.reserved.bars l.bar).present = true ∧
    l.addr = (board.reserved.bars l.bar).virtAddr.getD 0
  bars : ∀ n, (board.reserved.bars n).present = true → MaskAgrees (board.reserved.bars n) →
    (board.reserved.bars n).size ≠ 0 →
      ⟨n, (board.reserved.bars n).virtAddr.getD 0, -(board.reserved.bars n).size⟩ ∈ o.bars
  probe : if quiet then o.probe = none else ∃ p, o.probe = some p ∧ ProbeExact board.reserved p

namespace UsedRecord

variable {d d' : PciDevice} (h : UsedRecord d d')

include h

/-- Use of a record leaves its address on the buses. -/
theorem bdf : d'.bdf = d.bdf := by rw [h]

/-- Use of a record leaves its slot. -/
theorem devfn : d'.devfn = d.devfn := by rw [h]

/-- Use of a record leaves its vendor. -/
theorem vendor : d'.vendor = d.vendor := by rw [h]

/-- Use of a record leaves its device. -/
theorem device : d'.device = d.device := by rw [h]

/-- Use of a record leaves its class. -/
theorem classCode : d'.classCode = d.classCode := by rw [h]

/-- Use of a record leaves its BARs. -/
theorem bars : d'.bars = d.bars := by rw [h]

end UsedRecord

/-- A line of a BAR has its number and its address, and is for a BAR that is there. -/
theorem barLine_eq_some {n : ℕ} {addr size : BitVec 32} {l : BarLine} (h : barLine n addr size = some l) :
    l.bar = n ∧ l.addr = addr ∧ (addr ≠ 0 ∨ size ≠ 0) := by
  unfold barLine at h
  obtain ⟨hne, hl⟩ := Option.ite_none_right_eq_some.1 h
  rw [← Option.some.inj hl]
  refine ⟨rfl, rfl, hne.imp_right fun hsz hzero => hsz ?_⟩
  rw [if_neg (not_not.2 hzero)]

/-- A BAR of nonzero size has a line. -/
theorem barLine_of_size {n : ℕ} {addr size : BitVec 32} (h : size ≠ 0) :
    barLine n addr size = some ⟨n, addr, -size⟩ := by
  have hne : -size ≠ 0 := fun hzero => h (BitVec.neg_eq_zero_iff.1 hzero)
  have hneg : ~~~size + 1 = -size := (BitVec.neg_eq_not_add size).symm
  unfold barLine
  dsimp only
  rw [if_pos h, hneg, if_pos (Or.inr hne)]

/-- **What is said of a board** is so. -/
theorem listed_said {d : PciDevice} (hbars : d.barsNum ≤ 6 ∧ ∃ slot, RecordedBars d.barsNum slot d.bars)
    {board : Board} (hkept : KeptBoard (Board.of (pciBus d.bdf) d) board) (env : LspciEnv) (quiet : Bool) :
    Listed env quiet board (env.said quiet board) := by
  obtain ⟨hnum, slot, hrecorded⟩ := hbars
  obtain ⟨-, hvendor, hdevice, hclass, hdevfn⟩ := describes_of (pciBus d.bdf) d
  have hused : UsedRecord d board.reserved := by
    have h := hkept.reserved
    rwa [reserved_of] at h
  have hrecord := hkept.record
  have hboard : board.devfn = (Board.of (pciBus d.bdf) d).devfn := by rw [hrecord]
  have hfunc : pciFunc d.devfn < 8 := Nat.mod_lt _ (by decide)
  have hdev : pciDev d.devfn < 32 := Nat.mod_lt _ (by decide)
  -- what is copied of a BAR, and the size that is reported of it
  have hcopied (n : ℕ) : (board.baseSize n, board.baseAddress n)
      = if (d.bars n).present = true then ((d.bars n).barResponse, (d.bars n).virtAddr.getD 0)
        else (0, 0) := by
    rw [hrecord]
    exact board_bar (pciBus d.bdf) hrecorded n
  have habsent (n : ℕ) (hne : board.baseAddress n ≠ 0 ∨ memorySize board n ≠ 0) :
      (d.bars n).present = true := by
    by_contra hpresent
    have hzero := hcopied n
    rw [if_neg hpresent] at hzero
    obtain ⟨hsize, haddr⟩ := Prod.mk.inj hzero
    refine hne.elim (fun h => h haddr) fun h => h ?_
    unfold memorySize
    dsimp only
    rw [hsize, if_neg (by decide)]
  have hdevfn : board.devfn.toNat = pciDev d.devfn * 8 + pciFunc d.devfn := by rw [hboard, hdevfn]
  refine ⟨?_, ?_, ?_, ?_, ?_, ?_, rfl, ?_, fun l hl => ?_, fun n hpresent hagrees hsize => ?_, ?_⟩
  · have hbus : board.busNumber = pciBus d.bdf := by rw [hrecord]; rfl
    have hlt : pciBus d.bdf < 256 := Nat.mod_lt _ (by decide)
    show (BitVec.ofNat 32 board.busNumber).toNat = _
    rw [hbus, hused.bdf, BitVec.toNat_ofNat, Nat.mod_eq_of_lt (by omega)]
  · show (board.devfn >>> 3 &&& 0x1f).toNat = _
    rw [hused.devfn, BitVec.toNat_and, BitVec.toNat_ushiftRight, Nat.shiftRight_eq_div_pow, hdevfn]
    show _ &&& (2 ^ 5 - 1) = _
    rw [Nat.and_two_pow_sub_one_eq_mod]
    omega
  · show (board.devfn &&& 0x07).toNat = _
    rw [hused.devfn, BitVec.toNat_and, hdevfn]
    show _ &&& (2 ^ 3 - 1) = _
    rw [Nat.and_two_pow_sub_one_eq_mod]
    omega
  · show board.vendor = _
    rw [hused.vendor, ← hvendor, hrecord]
  · show board.device = _
    rw [hused.device, ← hdevice, hrecord]
  · have hcode : board.devclass = board.reserved.classCode := by
      rw [hused.classCode, ← hclass, hrecord]
    rw [← hcode]
    rfl
  · refine List.pairwise_filterMap.2 (List.pairwise_lt_range.imp fun {n n'} hlt l hl l' hl' => ?_)
    rw [(barLine_eq_some hl).1, (barLine_eq_some hl').1]
    exact hlt
  · obtain ⟨n, -, hl⟩ := List.mem_filterMap.1 hl
    obtain ⟨rfl, haddr, hne⟩ := barLine_eq_some hl
    have hpresent := habsent _ hne
    have hthere := hcopied l.bar
    rw [if_pos hpresent] at hthere
    rw [hused.bars, haddr]
    exact ⟨hpresent, (Prod.mk.inj hthere).2⟩
  · rw [hused.bars] at hpresent hagrees hsize ⊢
    have hthere := hcopied n
    rw [if_pos hpresent] at hthere
    obtain ⟨hresponse, haddr⟩ := Prod.mk.inj hthere
    have hmemory := (memorySize_eq_iff (hrecorded.record n hpresent) hresponse haddr).2 hagrees
    have hn := (hrecorded.behind n hpresent).2
    refine List.mem_filterMap.2 ⟨n, List.mem_range.2 (by omega), ?_⟩
    rw [hmemory, haddr]
    exact barLine_of_size hsize
  · cases quiet with
    | true => rfl
    | false => exact ⟨_, rfl, probePciDevice_exact board.reserved⟩

/-! ## The listing of a machine -/

/-- Where a board is, as it is printed. -/
def Output.position (o : Output) : ℕ × ℕ × ℕ := (o.line.busNum.toNat, o.line.dev.toNat, o.line.func.toNat)

/-- Where a function is. -/
def PciDevice.position (d : PciDevice) : ℕ × ℕ × ℕ := (pciBus d.bdf, pciDev d.devfn, pciFunc d.devfn)

/-- **The listing of a machine**, quiet or not, at any time after it was enumerated: the tool ends, lists
each function of the machine once, from bus to bus, and what it says of each is so. -/
theorem lspciMain_lists {σ Addr : Type} {functions : Forest HwFunction} {root : PciBus}
    {configured : Forest ConfiguredFunction} {s s' : EnumState σ} (hn : Numberable functions s.pcie)
    (h : enumerate functions s = .ok (root, configured) s') {base : BoardBase Addr}
    {nodes : List (Addr × Board)} (hlist : CurrentList base root configured nodes) (env : LspciEnv)
    (quiet : Bool) {fuel : ℕ} (hfuel : nodes.length < fuel) :
    ∃ out, lspciMain env quiet (some base) fuel = some (.listed out) ∧
      List.Forall₂ (Listed env quiet) (nodes.map Prod.snd) out ∧
      (out.map Output.position).Perm (configured.toList.map fun f => f.dev.position) ∧
      (out.map fun o => o.position.1).Pairwise (· ≤ ·) := by
  obtain ⟨hexact, hof⟩ := boards_of_enumerate hn h
  have hrecorded := (scan_of_enumerate hn.topology h).recordedBars
  have hlisted : ∀ x ∈ nodes, Listed env quiet x.2 (env.said quiet x.2) := by
    intro x hx
    obtain ⟨board, hboard, hkept⟩ := Forest.exists_rel_of_mem hlist.boards (List.mem_map_of_mem hx)
    obtain ⟨d, hd, rfl⟩ := hof board hboard
    obtain ⟨f, hf, rfl⟩ := List.mem_map.1 hd
    exact listed_said (hrecorded f hf) hkept env quiet
  -- a board stands where it stood at first
  have hposition : nodes.map (fun x => (env.said quiet x.2).position)
      = (boardsOf (ctrlBuses root configured)).map fun board => board.reserved.position := by
    have hkept : List.Forall₂ (fun board now => board.reserved.position = now.reserved.position)
        (boardsOf (ctrlBuses root configured)) (nodes.map Prod.snd) := hlist.boards.imp fun _ _ hkept => by
      unfold PciDevice.position
      rw [hkept.reserved.bdf, hkept.reserved.devfn]
    have hmaps := List.forall₂_map_left_iff.2 (List.forall₂_map_right_iff.2 hkept)
    rw [List.forall₂_eq_eq_eq, List.map_map] at hmaps
    rw [hmaps]
    refine List.map_congr_left fun x hx => ?_
    have hx := hlisted x hx
    exact Prod.ext hx.bus (Prod.ext hx.dev hx.func)
  refine ⟨nodes.map fun x => env.said quiet x.2, lspciMain_eq hlist.linked hlist.head hlist.ready env quiet
    hfuel, ?_, ?_, ?_⟩
  · exact List.forall₂_map_left_iff.2 (List.forall₂_map_right_iff.2 (List.forall₂_same.2 hlisted))
  · have hperm := hexact.all.map PciDevice.position
    rw [List.map_map, List.map_map] at hperm
    rw [List.map_map]
    exact hposition ▸ hperm
  · have hbus := congrArg (List.map Prod.fst) hposition
    rw [List.map_map, List.map_map] at hbus
    rw [List.map_map]
    refine hbus ▸ List.pairwise_map.2 (hexact.byBus.imp_of_mem fun {board board'} hb hb' hle => ?_)
    obtain ⟨d, -, rfl⟩ := hof board hb
    obtain ⟨d', -, rfl⟩ := hof board' hb'
    show pciBus (Board.of _ d).reserved.bdf ≤ pciBus (Board.of _ d').reserved.bdf
    rw [reserved_of, reserved_of]
    exact hle

/-- The list that `pcie_build_dev_list` makes is such a list. -/
theorem currentList_of_build {Addr : Type} [DecidableEq Addr] {alloc : ℕ → Option Addr}
    (hfresh : FreshBlocks alloc) (hmem : ∀ k, (alloc k).isSome) (root : PciBus)
    (functions : Forest ConfiguredFunction) (heap : Heap Addr Board) :
    ∃ s' nodes, pcieBuildDevListAt alloc (ctrlBuses root functions) { heap := heap } = .ok () s' ∧
      CurrentList ⟨s'.heap, s'.devListHead, true⟩ root functions nodes := by
  obtain ⟨s', nodes, hrun, hbuilt, hnodes⟩ := built_pcieBuildDevListAt hfresh (fun k _ => hmem k) heap
  refine ⟨s', nodes, hrun, hbuilt.linked, hbuilt.head, rfl, ?_⟩
  rw [hnodes]
  exact List.forall₂_same.2 fun _ _ => ⟨rfl, rfl⟩

/-! ## A listing -/

/-- A stack frame with the variables from this address on. -/
def sampleVars (count start : ℕ) : List (BitVec 32) :=
  (List.range count).map fun i => BitVec.ofNat 32 (start + 4 * i)

/-- A tool whose variables stand from these addresses on. -/
def sampleEnv : LspciEnv where
  taskName _ := "driver"
  ctrl := ⟨0, none⟩
  regs _ := 0
  boardLocals := ⟨0x1000, sampleVars 2 0x1100, by decide, rfl, by decide +kernel, by decide +kernel⟩
  barLocals := ⟨0x1000, sampleVars 12 0x1100, by decide, rfl, by decide +kernel, by decide +kernel⟩
  machineLocals := ⟨0x1000, sampleVars 14 0x1100, by decide, rfl, by decide +kernel, by decide +kernel⟩
  emptyTags := 0x2000

/-- The listing of the sample machine. -/
theorem lspciMain_sample : ∃ root configured s' base nodes out,
    enumerate sampleMachine sampleEnum = .ok (root, configured) s' ∧
      CurrentList (base : BoardBase ℕ) root configured nodes ∧
      lspciMain sampleEnv false (some base) (nodes.length + 1) = some (.listed out) ∧
      List.Forall₂ (Listed sampleEnv false) (nodes.map Prod.snd) out ∧
      (out.map Output.position).Perm (configured.toList.map fun f => f.dev.position) ∧
      (out.map fun o => o.position.1).Pairwise (· ≤ ·) := by
  obtain ⟨root, configured, s', hok⟩ := sampleMachine_ok
  obtain ⟨st, nodes, -, hlist⟩ := currentList_of_build freshBlocks_some (fun _ => rfl) root configured
    fun _ => none
  obtain ⟨out, hout⟩ := lspciMain_lists sampleMachine_numberable hok hlist sampleEnv false
    (Nat.lt_succ_self _)
  exact ⟨root, configured, s', _, nodes, out, hok, hlist, hout⟩

end BcmPcie
