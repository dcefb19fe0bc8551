import BcmPcie.Boards.Attrs

/-! # Searching by class

`pci_find_class` and `FindBoardA` with `PRM_Class` are given one code, of the three bytes of base class,
subclass and programming interface. The former compares all three; the latter compares the base class of
a board with the low byte of the code, which is that of the programming interface.

* `FirstHasBoth` — the condition on the boards; `firstHasBoth_iff_of_ne` — for most codes that there is
  none of either kind.
* `findBoard_eq_findClass_iff` — when the two calls find the same. -/

namespace BcmPcie

open LinkedLists TagLists

/-- The test of `LibFindBoardA` for a `PRM_Class` of `devclass`. -/
def isClassTag (devclass : BitVec 32) (board : Board) : Bool := meets board ⟨prmClass, devclass⟩

/-- The base class of the board is the byte of the programming interface in `devclass`. -/
theorem isClassTag_iff {devclass : BitVec 32} {board : Board} :
    isClassTag devclass board = true ↔ board.devclass >>> 16 &&& 0xff = devclass &&& 0xff :=
  decide_eq_true_iff

/-- A board is of a class if its record has it. -/
theorem isClass_iff {devclass : BitVec 32} {board : Board} :
    isClass devclass board = true ↔ board.devclass = devclass := decide_eq_true_iff

/-- A board that passes both tests has a code that repeats its base class as its interface. -/
theorem repeats_of_both {devclass : BitVec 32} {board : Board} (htag : isClassTag devclass board = true)
    (hclass : isClass devclass board = true) : devclass >>> 16 &&& 0xff = devclass &&& 0xff := by
  rw [isClassTag_iff, isClass_iff.1 hclass] at htag
  exact htag

/-- Of some boards the first that has the class, or that has the low byte of the class as its base class,
has both. -/
def FirstHasBoth (devclass : BitVec 32) (boards : List Board) : Prop :=
  ∀ board, (boards.find? fun board => isClassTag devclass board || isClass devclass board) = some board →
    isClassTag devclass board = true ∧ isClass devclass board = true

/-- Of a code that does not repeat its base class no board passes both tests. -/
theorem firstHasBoth_iff_of_ne {devclass : BitVec 32}
    (h : devclass >>> 16 &&& 0xff ≠ devclass &&& 0xff) {boards : List Board} :
    FirstHasBoth devclass boards ↔
      ∀ board ∈ boards, isClassTag devclass board = false ∧ isClass devclass board = false := by
  have hnone : FirstHasBoth devclass boards ↔
      (boards.find? fun board => isClassTag devclass board || isClass devclass board) = none := by
    rw [Option.eq_none_iff_forall_ne_some]
    refine ⟨fun hboth board hboard => ?_, fun hnone board hboard => absurd hboard (hnone board)⟩
    obtain ⟨htag, hclass⟩ := hboth board hboard
    exact h (repeats_of_both htag hclass)
  rw [hnone, List.find?_eq_none]
  refine forall₂_congr fun board _ => ?_
  rw [Bool.not_eq_true, Bool.or_eq_false_iff]

section Searches

variable {Addr : Type} {base : BoardBase Addr} {nodes : List (Addr × Board)}

/-- Both calls start behind `prev`, and each goes to the first board that passes its test. -/
theorem libFindClass_eq (hlinked : Linked base.heap nodes) (hhead : base.devListHead = address nodes 0)
    (devclass : BitVec 32) {i fuel : ℕ} (hi : i ≤ nodes.length) (hfuel : nodes.length < fuel) :
    libFindClass base fuel devclass (before nodes i)
      = some (((nodes.drop i).find? fun x => isClass devclass x.2).map Prod.fst) := by
  unfold libFindClass BoardBase.search
  rw [hhead, hlinked.start_before hi, Option.bind_some]
  exact hlinked.find_eq (fun _ _ => rfl) hi (by omega)

/-- `FindBoardA` with a class returns the next board that the tag accepts. -/
theorem libFindBoardA_class (hlinked : Linked base.heap nodes)
    (hhead : base.devListHead = address nodes 0) (hready : base.ctrlReady = true) {mem : Memory}
    {tags devclass : BitVec 32} (hrow : Row mem tags [⟨prmClass, devclass⟩]) {i fuel tagFuel : ℕ}
    (hi : i ≤ nodes.length) (hfuel : nodes.length < fuel) (htagFuel : 1 < tagFuel) :
    libFindBoardA base mem fuel tagFuel tags (before nodes i)
      = some (((nodes.drop i).find? fun x => isClassTag devclass x.2).map Prod.fst) := by
  have htest (x : Addr × Board) (_ : x ∈ nodes) :
      matchTags mem tags tagFuel x.2 = some (isClassTag devclass x.2) := by
    rw [matchTags_row hrow htagFuel, List.all_cons, List.all_nil, Bool.and_true]
    rfl
  unfold libFindBoardA BoardBase.search
  rw [hready, if_neg (by decide), hhead, hlinked.start_before hi, Option.bind_some]
  exact hlinked.find_eq htest hi (by omega)

/-- **The two searches by class** find the same behind node `i` if and only if the first board there that
passes one of the tests passes both. -/
theorem findBoard_eq_findClass_iff (hlinked : Linked base.heap nodes)
    (hhead : base.devListHead = address nodes 0) (hready : base.ctrlReady = true) {mem : Memory}
    {tags devclass : BitVec 32} (hrow : Row mem tags [⟨prmClass, devclass⟩]) {i fuel tagFuel : ℕ}
    (hi : i ≤ nodes.length) (hfuel : nodes.length < fuel) (htagFuel : 1 < tagFuel) :
    libFindBoardA base mem fuel tagFuel tags (before nodes i)
        = libFindClass base fuel devclass (before nodes i) ↔
      FirstHasBoth devclass ((nodes.drop i).map Prod.snd) := by
  have hnodup : ((nodes.drop i).map Prod.fst).Nodup := by
    rw [List.map_drop]
    exact hlinked.nodup.sublist (List.drop_sublist _ _)
  rw [libFindBoardA_class hlinked hhead hready hrow hi hfuel htagFuel,
    libFindClass_eq hlinked hhead devclass hi hfuel, Option.some_inj, find?_fst_eq_iff hnodup]
  unfold FirstHasBoth
  rw [List.find?_map]
  constructor
  · intro h board hboard
    obtain ⟨x, hx, rfl⟩ := Option.map_eq_some_iff.1 hboard
    exact h x hx
  · intro h x hx
    exact h x.2 (Option.map_eq_some_iff.2 ⟨x, hx, rfl⟩)

end Searches

/-- A search for an Ethernet controller. -/
def networkTags : Memory := fun a =>
  if a = 0x1000 then some ⟨prmClass, 0x020000⟩ else if a = 0x1008 then some ⟨tagDone, 0⟩ else none

/-- Neither call takes a USB controller for one. -/
theorem findBoard_eq_findClass_network :
    libFindBoardA sampleBase networkTags 2 2 0x1000 none = libFindClass sampleBase 2 0x020000 none := by
  have hrow : Row networkTags 0x1000 [⟨prmClass, 0x020000⟩] :=
    .next rfl (by decide) (.done rfl rfl)
  refine (findBoard_eq_findClass_iff sampleBase_linked rfl rfl hrow (Nat.zero_le 1) (by decide)
    (by decide)).2 ?_
  exact (firstHasBoth_iff_of_ne (by decide)).2 (by decide)

/-- The search of the developer guide. -/
def usbTags : Memory := fun a =>
  if a = 0x1000 then some ⟨prmClass, 0x0c0330⟩ else if a = 0x1008 then some ⟨tagDone, 0⟩ else none

/-- `pci_find_class` finds the controller that it is for, and `FindBoardA` finds nothing. -/
theorem not_findBoard_eq_findClass :
    ¬ ∀ (base : BoardBase ℕ) (nodes : List (ℕ × Board)) (mem : Memory) (tags devclass : BitVec 32)
      (fuel : ℕ), Linked base.heap nodes → base.devListHead = address nodes 0 →
      base.ctrlReady = true → devclass < 0x1000000 → Row mem tags [⟨prmClass, devclass⟩] →
      ∀ i ≤ nodes.length, nodes.length < fuel →
      libFindBoardA base mem fuel 2 tags (before nodes i)
        = libFindClass base fuel devclass (before nodes i) := by
  intro h
  have hrow : Row usbTags 0x1000 [⟨prmClass, 0x0c0330⟩] := .next rfl (by decide) (.done rfl rfl)
  have hboard : libFindBoardA sampleBase usbTags 2 2 0x1000 none = some none := rfl
  have hclass : libFindClass sampleBase 2 0x0c0330 none = some (some 1) := rfl
  have hsame := h sampleBase [(1, sampleBoard)] usbTags 0x1000 0x0c0330 2 sampleBase_linked rfl rfl
    (by decide) hrow 0 (Nat.zero_le 1) (by decide)
  exact absurd (hboard.symm.trans (hsame.trans hclass)) (by decide)

end BcmPcie
