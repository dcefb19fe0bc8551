import BcmPcie.Enumeration.Regions

/-! # Runs of the region allocator

A region from `pciauto_region_init` on, under any calls of `pciauto_region_allocate` and
`pciauto_region_align`. Its pointer is a 32-bit number that can pass 4 GiB, and the sum in the check
for room can too.

* `regionStep`, `regionBlocks` — a call, and the blocks that a run of calls hands out.
* `busStart_le_pointer` — in every run the pointer stays above the start of the region.
* `allocatorSound_iff` — a run hands out sound blocks just when no request that passes the check for
  room has a size that is no power of two or a sum that wraps. -/

namespace BcmPcie

open Bump Runs

/-! ## Calls -/

/-- A call on a region. -/
inductive RegionCall
  | allocate (size : BitVec 32) (supports64bit : Bool)
  | align (size : BitVec 32)
  deriving DecidableEq

/-- The region after a call. -/
def regionStep (res : PciRegion) : RegionCall → PciRegion
  | .allocate size supports64bit =>
    match pciautoRegionAllocate (some res) size supports64bit with
    | some (_, res') => res'
    | none => res
  | .align size => pciautoRegionAlign res size

/-- The block a call is granted. -/
def regionGranted (res : PciRegion) : RegionCall → Option (Block Unit)
  | .allocate size supports64bit =>
    (pciautoRegionAllocate (some res) size supports64bit).map fun r => ⟨r.1.toNat, size.toNat, ()⟩
  | .align _ => none

/-- The blocks granted along a run of calls. -/
def regionBlocks : PciRegion → List RegionCall → List (Block Unit)
  | _, [] => []
  | res, c :: cs => (regionGranted res c).toList ++ regionBlocks (regionStep res c) cs

/-- The blocks of some calls after others are those of both. -/
theorem regionBlocks_append (res : PciRegion) (cs ds : List RegionCall) :
    regionBlocks res (cs ++ ds)
      = regionBlocks res cs ++ regionBlocks (run regionStep res cs) ds := by
  induction cs generalizing res with
  | nil => rfl
  | cons c cs ih => simp only [List.cons_append, regionBlocks, ih, run_cons, List.append_assoc]

/-- The check for room of `pciauto_region_allocate` passes. -/
def HasRoom (res : PciRegion) (size : BitVec 32) : Prop :=
  ¬ res.size < ((res.busLower - 1) ||| (size - 1)) + 1 - res.busStart + size

instance (res : PciRegion) (size : BitVec 32) : Decidable (HasRoom res size) :=
  inferInstanceAs (Decidable (¬ _))

section Step

variable (res : PciRegion) (c : RegionCall)

/-- An allocation is decided by the check for room alone. -/
theorem pciautoRegionAllocate_some (size : BitVec 32) (supports64bit : Bool) :
    pciautoRegionAllocate (some res) size supports64bit =
      if HasRoom res size then
        some (((res.busLower - 1) ||| (size - 1)) + 1,
          { res with busLower := ((res.busLower - 1) ||| (size - 1)) + 1 + size })
      else none := by
  unfold pciautoRegionAllocate
  dsimp only
  by_cases hroom : res.size < ((res.busLower - 1) ||| (size - 1)) + 1 - res.busStart + size
  · have hno : ¬ HasRoom res size := not_not.2 hroom
    rw [if_pos hroom, if_neg hno]
  · have hyes : HasRoom res size := hroom
    rw [if_neg hroom, if_neg (fun h => h.1 (u64Hi32_setWidth _)), if_pos hyes]

/-- The bits of a request's size are set in the predecessor of its address: the address is at or above
the pointer, and at most 4 GiB. -/
theorem pointer_le_address (size : BitVec 32) :
    res.pointer ≤ ((res.busLower - 1) ||| (size - 1)).toNat + 1 := by
  have hor : (res.busLower - 1).toNat ≤ ((res.busLower - 1) ||| (size - 1)).toNat := by
    rw [BitVec.toNat_or]
    exact Nat.left_le_or
  unfold PciRegion.pointer
  omega

/-- One more than a word, which may wrap. -/
theorem toNat_add_one (x : BitVec 32) : (x + 1).toNat = (x.toNat + 1) % 2 ^ 32 := by
  have hone : (1 : BitVec 32).toNat = 1 := rfl
  rw [BitVec.toNat_add, hone]

/-- A call moves the pointer of its region and changes nothing else. -/
theorem regionStep_eq : ∃ lower, regionStep res c = { res with busLower := lower } := by
  cases c with
  | allocate size supports64bit =>
    simp only [regionStep, pciautoRegionAllocate_some]
    by_cases hroom : HasRoom res size
    · rw [if_pos hroom]
      exact ⟨_, rfl⟩
    · rw [if_neg hroom]
      exact ⟨res.busLower, rfl⟩
  | align size => exact ⟨_, rfl⟩

/-- Calls on a region move its pointer only. -/
theorem run_regionStep_eq (cs : List RegionCall) :
    ∃ lower, run regionStep res cs = { res with busLower := lower } := by
  induction cs generalizing res with
  | nil => exact ⟨res.busLower, rfl⟩
  | cons c cs ih =>
    obtain ⟨lower, hstep⟩ := regionStep_eq res c
    obtain ⟨lower', hrun⟩ := ih { res with busLower := lower }
    exact ⟨lower', by rw [run_cons, hstep, hrun]⟩

/-- A granted block is the request's, at the computed address, and the check for room has passed. -/
theorem regionGranted_eq_some {res : PciRegion} {c : RegionCall} {b : Block Unit}
    (h : regionGranted res c = some b) :
    ∃ size supports64bit, c = .allocate size supports64bit ∧ HasRoom res size ∧
      b = ⟨((res.busLower - 1 ||| (size - 1)) + 1).toNat, size.toNat, ()⟩ ∧
      regionStep res c
        = { res with busLower := ((res.busLower - 1) ||| (size - 1)) + 1 + size } := by
  cases c with
  | align size => cases h
  | allocate size supports64bit =>
    simp only [regionGranted, regionStep, pciautoRegionAllocate_some] at h ⊢
    by_cases hroom : HasRoom res size
    · rw [if_pos hroom] at h ⊢
      cases h
      exact ⟨size, supports64bit, rfl, hroom, rfl, rfl⟩
    · rw [if_neg hroom] at h
      cases h

/-- An allocation that is granted nothing leaves the region as it was. -/
theorem regionStep_of_granted_none {size : BitVec 32} {supports64bit : Bool}
    (h : regionGranted res (.allocate size supports64bit) = none) :
    regionStep res (.allocate size supports64bit) = res := by
  simp only [regionGranted, Option.map_eq_none_iff] at h
  simp only [regionStep, h]

/-- **The pointer stays in the region**, whatever is asked for: even where the sum in the check for
room wraps, the pointer comes to lie above the start of the region. -/
theorem busStart_le_pointer_step (hfits : res.Fits) (h : res.busStart.toNat ≤ res.pointer) :
    (regionStep res c).busStart.toNat ≤ (regionStep res c).pointer := by
  cases hg : regionGranted res c with
  | some b =>
    obtain ⟨size, -, -, hroom, -, hstep⟩ := regionGranted_eq_some hg
    have hmono := pointer_le_address res size
    have hone : (1 : BitVec 32).toNat = 1 := rfl
    have hstart := res.busStart.isLt
    have hlen := res.size.isLt
    have hsize := size.isLt
    rw [hstep]
    unfold HasRoom at hroom
    rw [BitVec.lt_def, BitVec.toNat_add, BitVec.toNat_sub, toNat_add_one] at hroom
    unfold PciRegion.Fits at hfits
    show res.busStart.toNat ≤ _
    unfold PciRegion.pointer at h hmono ⊢
    dsimp only
    rw [BitVec.toNat_sub, BitVec.toNat_add, toNat_add_one, hone]
    -- the check compares the wrapped sum, and what it lets through still ends above the start
    have haddr := (res.busLower - 1 ||| size - 1).isLt
    generalize (res.busLower - 1 ||| size - 1).toNat = m at *
    omega
  | none =>
    cases c with
    | allocate size supports64bit =>
      rw [regionStep_of_granted_none res hg]
      exact h
    | align size =>
      have hmono := pointer_le_address res size
      have hpointer : (pciautoRegionAlign res size).pointer
          = ((res.busLower - 1) ||| (size - 1)).toNat + 1 := by
        unfold PciRegion.pointer pciautoRegionAlign
        rw [BitVec.add_sub_cancel]
      show res.busStart.toNat ≤ (pciautoRegionAlign res size).pointer
      omega

end Step

/-- In every run from `pciauto_region_init` the pointer stays above the start of the region. -/
theorem busStart_le_pointer (res : PciRegion) (hfits : res.Fits) (cs : List RegionCall) :
    res.busStart.toNat ≤ (run regionStep (pciautoRegionInit res) cs).pointer := by
  have hinv : ∀ (r : PciRegion) (c : RegionCall),
      (r.Fits ∧ r.busStart = res.busStart ∧ r.busStart.toNat ≤ r.pointer) →
      (regionStep r c).Fits ∧ (regionStep r c).busStart = res.busStart ∧
        (regionStep r c).busStart.toNat ≤ (regionStep r c).pointer := by
    rintro r c ⟨hfits, hstart, hle⟩
    have hstep := busStart_le_pointer_step r c hfits hle
    obtain ⟨lower, heq⟩ := regionStep_eq r c
    exact ⟨by rw [heq]; exact hfits, by rw [heq]; exact hstart, hstep⟩
  have hinit : res.busStart.toNat ≤ (pciautoRegionInit res).pointer := by
    rw [pointer_pciautoRegionInit]
    exact res.busStart_le_arena_start
  obtain ⟨-, hstart, hle⟩ := run_invariant hinv (pciautoRegionInit res) cs ⟨hfits, rfl, hinit⟩
  rwa [hstart] at hle

/-! ## Sound blocks -/

/-- A block handed out by a region after others: not empty, aligned to its size, inside the region and
apart from the blocks before it. -/
structure SoundBlock (res : PciRegion) (earlier : List (Block Unit)) (b : Block Unit) : Prop where
  nonempty : 0 < b.size
  aligned : b.size ∣ b.addr
  low : res.busStart.toNat ≤ b.addr
  high : b.addr + b.size ≤ res.busStart.toNat + res.size.toNat
  apart : ∀ e ∈ earlier, e.Apart b

/-- Every allocation of a run returns a sound block, or fails and leaves the pointer. -/
def AllocatorSound (res : PciRegion) (cs : List RegionCall) : Prop :=
  ∀ pre size supports64bit post, cs = pre ++ .allocate size supports64bit :: post →
    let r := run regionStep (pciautoRegionInit res) pre
    match regionGranted r (.allocate size supports64bit) with
    | some b => SoundBlock res (regionBlocks (pciautoRegionInit res) pre) b
    | none => (regionStep r (.allocate size supports64bit)).busLower = r.busLower

/-- A request that passes the check for room asks for a power of two, and the sum in that check does
not wrap. -/
def CallClear (res : PciRegion) : RegionCall → Prop
  | .allocate size _ =>
    HasRoom res size → (∃ k, size.toNat = 2 ^ k) ∧
      alignUp res.pointer size.toNat + size.toNat < 2 ^ 32 + res.busStart.toNat
  | .align _ => True

/-- The sizes `pciauto_setup_device` asks for: a power of two, the same with the upper half of the
word set for an I/O BAR of 16 bits, or 0 for a memory BAR of 4 GiB or more. -/
def SetupSize (size : BitVec 32) : Prop :=
  size = 0 ∨ (∃ k, size.toNat = 2 ^ k) ∨ ∃ k < 16, size.toNat = 0xffff0000 + 2 ^ k

/-- A clear request that is granted gets the rounded pointer, and the pointer moves behind it. -/
theorem CallClear.granted {r : PciRegion} {c : RegionCall} {b : Block Unit} (hclear : CallClear r c)
    (hfits : r.Fits) (hle : r.busStart.toNat ≤ r.pointer) (h : regionGranted r c = some b) :
    0 < b.size ∧ b.size ∣ b.addr ∧ r.pointer ≤ b.addr ∧
      b.addr + b.size ≤ r.busStart.toNat + r.size.toNat ∧
      (regionStep r c).pointer = b.addr + b.size := by
  obtain ⟨size, supports64bit, rfl, hroom, rfl, hstep⟩ := regionGranted_eq_some h
  obtain ⟨⟨k, hk⟩, hsum⟩ := hclear hroom
  have hpos : 0 < size.toNat := by
    rw [hk]
    exact Nat.two_pow_pos k
  have hge : r.pointer ≤ alignUp r.pointer size.toNat := le_alignUp hpos r.pointer
  -- where the sum does not wrap, the check is the one of the arena
  have hfit : alignUp r.pointer size.toNat + size.toNat ≤ r.arena.limit := by
    by_contra hno
    have hcheck := room_check_iff (t := ()) r hk hfits hle (Or.inl hsum)
    exact hroom (hcheck.2 hno)
  unfold PciRegion.arena at hfit
  dsimp only at hfit
  unfold PciRegion.Fits at hfits
  have haddr := toNat_allocate_addr r hk
  rw [Nat.mod_eq_of_lt (by omega)] at haddr
  refine ⟨hpos, ?_, ?_, ?_, ?_⟩
  · rw [haddr]
    exact dvd_alignUp _ _
  · rw [haddr]
    exact hge
  · rw [haddr]
    exact hfit
  · have hlower : ((r.busLower - 1) ||| (size - 1)) + 1 + size
        = BitVec.ofNat 32 (alignUp r.pointer size.toNat + size.toNat) := by
      apply BitVec.eq_of_toNat_eq
      rw [BitVec.toNat_add, haddr, BitVec.toNat_ofNat]
    rw [hstep, hlower, r.pointer_ofNat (by omega) (by omega), haddr]

/-- A call without a block moves the pointer up. -/
theorem pointer_le_of_granted_none {r : PciRegion} {c : RegionCall} (h : regionGranted r c = none) :
    r.pointer ≤ (regionStep r c).pointer := by
  cases c with
  | allocate size supports64bit => rw [regionStep_of_granted_none r h]
  | align size =>
    have hmono := pointer_le_address r size
    have hpointer : (pciautoRegionAlign r size).pointer
        = ((r.busLower - 1) ||| (size - 1)).toNat + 1 := by
      unfold PciRegion.pointer pciautoRegionAlign
      rw [BitVec.add_sub_cancel]
    rw [regionStep, hpointer]
    exact hmono

/-- In a clear run every block lies below the pointer. -/
theorem blocks_le_pointer {r : PciRegion} {cs : List RegionCall} (hfits : r.Fits)
    (hle : r.busStart.toNat ≤ r.pointer) (hclear : EveryStep regionStep CallClear r cs) :
    r.pointer ≤ (run regionStep r cs).pointer ∧
      ∀ b ∈ regionBlocks r cs, b.addr + b.size ≤ (run regionStep r cs).pointer := by
  induction cs generalizing r with
  | nil => exact ⟨le_rfl, fun b hb => by cases hb⟩
  | cons c cs ih =>
    rw [everyStep_cons] at hclear
    have hle' := busStart_le_pointer_step r c hfits hle
    have hfits' : (regionStep r c).Fits := by
      obtain ⟨lower, heq⟩ := regionStep_eq r c
      rw [heq]
      exact hfits
    obtain ⟨hmono, hblocks⟩ := ih hfits' hle' hclear.2
    rw [run_cons, regionBlocks]
    cases hg : regionGranted r c with
    | none => exact ⟨(pointer_le_of_granted_none hg).trans hmono, hblocks⟩
    | some b =>
      obtain ⟨hpos, -, hlow, -, hpointer⟩ := hclear.1.granted hfits hle hg
      rw [hpointer] at hmono
      refine ⟨by omega, fun e he => ?_⟩
      rcases List.mem_cons.1 he with rfl | he
      · exact hmono
      · exact hblocks e he

/-- A 16-bit I/O size, or an empty one, makes no sound block above address 0. -/
theorem pow_of_soundBlock {res r : PciRegion} {size : BitVec 32} {earlier : List (Block Unit)}
    (hsize : SetupSize size) (hfits : res.Fits) (hpos : 0 < res.busStart.toNat)
    (h : SoundBlock res earlier ⟨(((r.busLower - 1) ||| (size - 1)) + 1).toNat, size.toNat, ()⟩) :
    ∃ k, size.toNat = 2 ^ k := by
  rcases hsize with rfl | hpow | ⟨k, hk, hsize⟩
  · exact absurd h.nonempty (lt_irrefl 0)
  · exact hpow
  · -- the address is above the upper half of the word, and the block runs past 4 GiB
    have hlt : 2 ^ k < 2 ^ 16 := Nat.pow_lt_pow_right (by decide) hk
    have hkpos : 0 < 2 ^ k := Nat.two_pow_pos k
    have hpred : (size - 1).toNat = size.toNat - 1 := toNat_sub_one (by omega)
    have hor : (size - 1).toNat ≤ ((r.busLower - 1) ||| (size - 1)).toNat := by
      rw [BitVec.toNat_or]
      exact Nat.right_le_or
    have hlow := h.low
    have hhigh := h.high
    unfold PciRegion.Fits at hfits
    dsimp only at hlow hhigh
    rw [toNat_add_one] at hlow hhigh
    have hlt := ((r.busLower - 1) ||| (size - 1)).isLt
    omega

/-- A granted block that is sound tells that the request was clear. -/
theorem callClear_of_soundBlock {res r : PciRegion} {size : BitVec 32} {supports64bit : Bool}
    {earlier : List (Block Unit)} (hsize : SetupSize size) (hfits : res.Fits)
    (hpos : 0 < res.busStart.toNat) (hstart : r.busStart = res.busStart)
    (h : ∀ b, regionGranted r (.allocate size supports64bit) = some b → SoundBlock res earlier b) :
    CallClear r (.allocate size supports64bit) := by
  intro hroom
  have hgranted : regionGranted r (.allocate size supports64bit)
      = some ⟨(((r.busLower - 1) ||| (size - 1)) + 1).toNat, size.toNat, ()⟩ := by
    simp only [regionGranted, pciautoRegionAllocate_some]
    rw [if_pos hroom]
    rfl
  have hsound := h _ hgranted
  obtain ⟨k, hk⟩ := pow_of_soundBlock hsize hfits hpos hsound
  refine ⟨⟨k, hk⟩, ?_⟩
  have haddr := toNat_allocate_addr r hk
  have hle := alignUp_pointer_le r hk
  have hlow := hsound.low
  have hhigh := hsound.high
  have hnonempty := hsound.nonempty
  unfold PciRegion.Fits at hfits
  rw [hstart]
  dsimp only at hlow hhigh hnonempty
  rw [haddr] at hlow hhigh
  generalize alignUp r.pointer size.toNat = a at *
  omega

/-- A clear run hands out sound blocks. -/
theorem allocatorSound_of_clear {res : PciRegion} (hfits : res.Fits) {cs : List RegionCall}
    (hclear : EveryStep regionStep CallClear (pciautoRegionInit res) cs) : AllocatorSound res cs := by
  have hinit : (pciautoRegionInit res).busStart.toNat ≤ (pciautoRegionInit res).pointer :=
    busStart_le_pointer res hfits []
  rintro pre size supports64bit post rfl r
  rw [everyStep_append, everyStep_cons] at hclear
  obtain ⟨hpre, hcall, -⟩ := hclear
  have hle : res.busStart.toNat ≤ r.pointer := busStart_le_pointer res hfits pre
  obtain ⟨lower, hr⟩ : ∃ lower, r = { pciautoRegionInit res with busLower := lower } :=
    run_regionStep_eq _ pre
  have hstart : r.busStart = res.busStart := by
    rw [hr]
    rfl
  have hlen : r.size = res.size := by
    rw [hr]
    rfl
  have hfits' : r.Fits := by
    unfold PciRegion.Fits
    rw [hstart, hlen]
    exact hfits
  cases hg : regionGranted r (.allocate size supports64bit) with
  | none => exact congrArg PciRegion.busLower (regionStep_of_granted_none r hg)
  | some b =>
    obtain ⟨hpos, hdvd, hlow, hhigh, -⟩ := hcall.granted hfits' (by rw [hstart]; exact hle) hg
    rw [hstart, hlen] at hhigh
    have hblocks := (@blocks_le_pointer (pciautoRegionInit res) pre hfits hinit hpre).2
    exact ⟨hpos, hdvd, hle.trans hlow, hhigh, fun e he => Or.inl ((hblocks e he).trans hlow)⟩

/-- **The region allocator.** A run in which every request that passes the check for room asks for a
power of two, with a sum that does not wrap, hands out sound blocks. On a region above address 0 there
is no other such run with the sizes of the device set-up. -/
theorem allocatorSound_iff (res : PciRegion) (hfits : res.Fits) (cs : List RegionCall) :
    (EveryStep regionStep CallClear (pciautoRegionInit res) cs → AllocatorSound res cs) ∧
    (0 < res.busStart.toNat →
      (∀ size supports64bit, .allocate size supports64bit ∈ cs → SetupSize size) →
      AllocatorSound res cs → EveryStep regionStep CallClear (pciautoRegionInit res) cs) := by
  refine ⟨allocatorSound_of_clear hfits, fun hpos hsizes hsound => ?_⟩
  rw [everyStep_iff_forall_split]
  intro pre c post hcs
  cases c with
  | align size => trivial
  | allocate size supports64bit =>
    have hmem : RegionCall.allocate size supports64bit ∈ cs := by
      rw [hcs]
      exact List.mem_append_right _ List.mem_cons_self
    obtain ⟨lower, hr⟩ := run_regionStep_eq (pciautoRegionInit res) pre
    have hstart : (run regionStep (pciautoRegionInit res) pre).busStart = res.busStart := by
      rw [hr]
      rfl
    refine @callClear_of_soundBlock res _ size supports64bit (regionBlocks (pciautoRegionInit res) pre)
      (hsizes size supports64bit hmem) hfits hpos hstart fun b hb => ?_
    have hblock := hsound pre size supports64bit post hcs
    dsimp only at hblock
    rw [hb] at hblock
    exact hblock

/-- A region that ends at 4 GiB. -/
def topRegion : PciRegion :=
  { busStart := 0xc0000000, physStart := 0x600000000, size := 0x40000000, flags := pciRegionMem }

/-- A controller with one region of memory. -/
def controllerOf (res : PciRegion) : PciController Unit where
  msi := ⟨0, fun _ => none, 0⟩
  intr2 := ⟨0, 0⟩
  gic400 := ()
  regions := [res]
  pciMem := some 0

/-- Two blocks from the top region, the second behind a rounded pointer. -/
theorem allocatorSound_sample :
    topRegion.Fits ∧
      AllocatorSound topRegion [.allocate 0x1000 false, .align 0x100000, .allocate 0x100000 true] := by
  refine ⟨by decide, (allocatorSound_iff topRegion (by decide) _).1 ⟨?_, trivial, ?_, trivial⟩⟩
  · exact fun _ => ⟨⟨12, by decide⟩, by decide +kernel⟩
  · exact fun _ => ⟨⟨20, by decide⟩, by decide +kernel⟩

/-- **An empty block is handed out.** The size of a memory BAR of 4 GiB or more is 0, which passes the
check for room of a region that ends at 4 GiB, and the address returned is 0. -/
theorem allocatorSound_fails :
    topRegion.Fits ∧ SetupSize 0 ∧ ¬ AllocatorSound topRegion [.allocate 0 true] := by
  refine ⟨by decide, Or.inl rfl, fun h => ?_⟩
  have hgranted : regionGranted (pciautoRegionInit topRegion) (.allocate 0 true)
      = some ⟨0, 0, ()⟩ := by decide +kernel
  have hblock := h [] 0 true [] rfl
  simp only [run_nil, hgranted] at hblock
  exact absurd hblock.nonempty (lt_irrefl 0)

/-- Powers of two below the start of the region never make the sum wrap. -/
theorem allocatorSound_of_small {res : PciRegion} (hfits : res.Fits) {cs : List RegionCall}
    (hsizes : ∀ size supports64bit, .allocate size supports64bit ∈ cs →
      (∃ k, size.toNat = 2 ^ k) ∧ size.toNat < res.busStart.toNat) : AllocatorSound res cs := by
  refine allocatorSound_of_clear hfits ?_
  rw [everyStep_iff_forall_split]
  intro pre c post hcs
  cases c with
  | align size => trivial
  | allocate size supports64bit =>
    obtain ⟨⟨k, hk⟩, hlt⟩ := hsizes size supports64bit (by simp [hcs])
    intro _
    obtain ⟨lower, hr⟩ := run_regionStep_eq (pciautoRegionInit res) pre
    have hle := alignUp_pointer_le (run regionStep (pciautoRegionInit res) pre) hk
    refine ⟨⟨k, hk⟩, ?_⟩
    rw [hr] at hle ⊢
    show _ < 2 ^ 32 + res.busStart.toNat
    omega

end BcmPcie
