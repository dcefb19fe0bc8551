import BcmPcie.Library.Walks
import BcmPcie.Pci.ConfigProgram

/-! # What the searches for capabilities find

`pci_find_capability` and `pci_find_ext_capability` follow the pointers of a function's capabilities,
which may come back to where they have been or lead nowhere, and stop after 72 and 480 positions. There
are only 48 positions for the capabilities of the first kind; of the second kind 480 fit, if they do
not overlap.

* `pciFindCapability_first` — the first capability of an id, for every configuration space.
* `pciFindExtCapability_first` — the same for extended capabilities that do not overlap; what is found
  is one of the id in any case. -/

namespace BcmPcie

open Walks

/-- `pos` is the first position of a walk with `p`, or 0 and there is none. -/
structure FirstOrZero (next : ℕ → Option ℕ) (start : Option ℕ) (p : ℕ → Bool) (pos : ℕ) : Prop where
  first : pos ≠ 0 → FirstOnChain next start p pos
  none : pos = 0 → ∀ q, OnChain next start q → p q = false

/-- What a search that is long enough finds, with 0 for nothing. -/
theorem firstOrZero_search {next : ℕ → Option ℕ} {start : Option ℕ} {p : ℕ → Bool} {fuel : ℕ}
    (hcard : ∀ s : Finset ℕ, (∀ q ∈ s, OnChain next start q) → s.card ≤ fuel)
    (hpos : ∀ q, OnChain next start q → q ≠ 0) :
    FirstOrZero next start p ((search next p fuel start).getD 0) := by
  cases hfound : search next p fuel start with
  | none => exact ⟨fun h => absurd rfl h, fun _ => (search_eq_none_iff hcard).1 hfound⟩
  | some q =>
    have hfirst := (search_eq_some_iff hcard).1 hfound
    exact ⟨fun _ => hfirst, fun h => absurd h (hpos q hfirst.onChain)⟩

/-! ## The capabilities of the first 256 bytes -/

section Standard

variable (dev : PciDevice)

/-- The id of the capability at `pos`, and its pointer to the next. -/
def capId (pos : ℕ) : ℕ := (pciReadConfig8 dev pos).toNat
def capPointer (pos : ℕ) : ℕ := (pciReadConfig8 dev (pos + 1)).toNat

/-- Where a pointer leads: nowhere, if it is below 0x40 or the id there is 0xff. -/
def capPosition (pointer : ℕ) : Option ℕ :=
  if pointer < 0x40 ∨ capId dev (pointer - pointer % 4) = 0xff then none
  else some (pointer - pointer % 4)

/-- The position behind `pos`. -/
def capNext (pos : ℕ) : Option ℕ := capPosition dev (capPointer dev pos)

/-- The register of the pointer to the first capability. -/
def capHeaderPointer : ℕ :=
  if (pciReadConfig8 dev pciHeaderType).toNat % 128 = pciHeaderTypeCardbus then 0x14 else 0x34

/-- The first position, if the status register says that there is a list. -/
def capStart : Option ℕ :=
  if pciReadConfig16 dev pciStatus &&& pciStatusCapList = 0 then none
  else capPosition dev (pciReadConfig8 dev (capHeaderPointer dev)).toNat

/-- The capability at `pos` has the id asked for. -/
def hasCapId (cap pos : ℕ) : Bool := decide (capId dev pos = cap)

end Standard

section

variable {dev : PciDevice}

/-- The walk of `pci_find_next_capability` is a search. -/
theorem pciFindNextCapability_eq (cap ttl : ℕ) {pos : ℕ} (hpos : pos < 256) :
    pciFindNextCapability dev cap ttl pos
      = (search (capNext dev) (hasCapId dev cap) ttl (capPosition dev pos)).getD 0 := by
  -- on the time to live; the walk ends below the header and at an entry that is not there
  induction ttl generalizing pos with
  | zero => rfl
  | succ ttl ih =>
    have hlt : ¬ 4096 ≤ pos - pos % 4 := by omega
    have hlt' : ¬ 4096 ≤ pos - pos % 4 + 1 := by omega
    have hid : (pciReadConfig16 dev (pos - pos % 4)).toNat % 256 = capId dev (pos - pos % 4) := by
      unfold capId pciReadConfig16 pciReadConfig8 pciReadConfig
      rw [if_neg hlt, if_neg hlt]
      exact RegisterFile.toNat_read_mod _ _
    have hnext : (pciReadConfig16 dev (pos - pos % 4)).toNat / 256 = capPointer dev (pos - pos % 4) := by
      unfold capPointer pciReadConfig16 pciReadConfig8 pciReadConfig
      rw [if_neg hlt, if_neg hlt']
      exact RegisterFile.toNat_read_div _ _
    rw [pciFindNextCapability]
    dsimp only
    rw [hid, hnext]
    unfold capPosition
    by_cases hend : pos < 0x40
    · rw [if_pos hend, if_pos (Or.inl hend)]
      rfl
    · rw [if_neg hend]
      by_cases hff : capId dev (pos - pos % 4) = 0xff
      · rw [if_pos hff, if_pos (Or.inr hff)]
        rfl
      · rw [if_neg hff, if_neg (not_or.2 ⟨hend, hff⟩), search]
        unfold hasCapId
        by_cases hcap : capId dev (pos - pos % 4) = cap
        · rw [if_pos hcap, if_pos (decide_eq_true hcap), Option.getD_some]
        · rw [if_neg hcap, if_neg (by rwa [decide_eq_true_eq])]
          exact ih (BitVec.isLt _)

/-- The walk stays among the capabilities. -/
theorem isCapOffset_capPosition {pointer pos : ℕ} (hlt : pointer < 256)
    (h : capPosition dev pointer = some pos) : IsCapOffset pos := by
  unfold capPosition at h
  split at h
  · cases h
  · rename_i hne
    obtain rfl := Option.some.inj h
    rw [not_or] at hne
    unfold IsCapOffset
    omega

/-- The positions of the walk are doublewords behind the header. -/
theorem isCapOffset_of_onChain {pos : ℕ} (h : OnChain (capNext dev) (capStart dev) pos) :
    IsCapOffset pos := by
  obtain ⟨k, hk⟩ := h
  cases k with
  | zero =>
    rw [chain_zero] at hk
    unfold capStart at hk
    split at hk
    · cases hk
    · exact isCapOffset_capPosition (BitVec.isLt _) hk
  | succ k =>
    obtain ⟨q, -, hnext⟩ := Option.bind_eq_some_iff.1 hk
    exact isCapOffset_capPosition (BitVec.isLt _) hnext

/-- There are 48 such positions. -/
theorem card_le_of_isCapOffset {s : Finset ℕ} (h : ∀ q ∈ s, IsCapOffset q) : s.card ≤ 48 := by
  have hsub : s ⊆ (Finset.range 48).image fun i => 64 + 4 * i := by
    intro q hq
    obtain ⟨hlow, hhigh, hmod⟩ := h q hq
    exact Finset.mem_image.2 ⟨(q - 64) / 4, Finset.mem_range.2 (by omega), by omega⟩
  exact (Finset.card_le_card hsub).trans (Finset.card_image_le.trans (Finset.card_range 48).le)

end

/-- The reads of the header: the status, the header type and the pointer to the first capability. -/
def headerReads : List (ℕ × ℕ) :=
  [(16, pciStatus), (8, pciHeaderType), (8, pciCapabilityList), (8, pciCbCapabilityList)]

/-- Every read is one of the header, or of bytes from 0x40 to 0xff. -/
def ReadsBehindHeader (reads : List (ℕ × ℕ)) : Prop :=
  ∀ r ∈ reads, r ∈ headerReads ∨ 0x40 ≤ r.2 ∧ 8 * r.2 + r.1 ≤ 8 * 0x100

/-- The walk reads behind the header and below 256. -/
theorem reads_pciFindNextCapability (dev : PciDevice) (cap ttl : ℕ) {pos : ℕ} (hpos : pos < 256) :
    ∀ r ∈ (ConfigProgram.pciFindNextCapability cap ttl pos).reads dev.cfg,
      0x40 ≤ r.2 ∧ 8 * r.2 + r.1 ≤ 8 * 0x100 := by
  -- on the time to live: a pointer is one byte, so the next word lies below 0x100 too
  induction ttl generalizing pos with
  | zero =>
    intro r hr
    cases hr
  | succ ttl ih =>
    intro r hr
    unfold ConfigProgram.pciFindNextCapability at hr
    split at hr
    · cases hr
    · rename_i hge
      have hlt : pos - pos % 4 < 4096 := by omega
      dsimp only at hr
      rw [ConfigProgram.reads_bind, ConfigProgram.reads_pciReadConfig 16 dev.cfg hlt, List.mem_append,
        List.mem_singleton] at hr
      rcases hr with rfl | hr
      · dsimp only [pciStdHeaderSizeof] at hge ⊢
        omega
      · split at hr
        · cases hr
        · split at hr
          · cases hr
          · rw [ConfigProgram.run_pciReadConfig] at hr
            refine ih ?_ r hr
            have hent := (pciReadConfig 16 dev (pos - pos % 4)).isLt
            dsimp only
            omega

/-- So does the search of a capability, but for the header's own fields. -/
theorem readsBehindHeader_pciFindCapability (dev : PciDevice) (cap : ℕ) :
    ReadsBehindHeader ((ConfigProgram.pciFindCapability cap).reads dev.cfg) := by
  intro r hr
  unfold ConfigProgram.pciFindCapability at hr
  rw [ConfigProgram.reads_bind, ConfigProgram.reads_pciReadConfig 16 dev.cfg (by decide), List.mem_append,
    List.mem_singleton] at hr
  rcases hr with rfl | hr
  · exact Or.inl (by decide)
  · rw [ConfigProgram.run_pciReadConfig] at hr
    split at hr
    · cases hr
    · rw [ConfigProgram.reads_bind, ConfigProgram.reads_pciReadConfig 8 dev.cfg (by decide),
        List.mem_append, List.mem_singleton] at hr
      rcases hr with rfl | hr
      · exact Or.inl (by decide)
      · rw [ConfigProgram.run_pciReadConfig, ConfigProgram.reads_bind,
          ConfigProgram.reads_pciReadConfig 8 dev.cfg (by split <;> decide), List.mem_append,
          List.mem_singleton, ConfigProgram.run_pciReadConfig] at hr
        rcases hr with rfl | hr
        · left
          split <;> decide
        · exact Or.inr (reads_pciFindNextCapability dev cap _ (BitVec.isLt _) r hr)

/-- The search for a capability is long enough: there are only 48 positions. -/
theorem pciFindCapability_firstOrZero (dev : PciDevice) (cap : ℕ) :
    FirstOrZero (capNext dev) (capStart dev) (hasCapId dev cap) (pciFindCapability dev cap) := by
  have hsearch : pciFindCapability dev cap
      = (search (capNext dev) (hasCapId dev cap) pciFindCapTtl (capStart dev)).getD 0 := by
    unfold pciFindCapability capStart
    split
    · rfl
    · exact pciFindNextCapability_eq cap _ (BitVec.isLt _)
  rw [hsearch]
  refine firstOrZero_search (fun s hs => ?_) fun q hq => ?_
  · exact (card_le_of_isCapOffset fun q hq => isCapOffset_of_onChain (hs q hq)).trans (by decide)
  · obtain ⟨hlow, -⟩ := isCapOffset_of_onChain hq
    omega

/-- **The search for a capability** finds the first of its id on the walk from the header's pointer,
and reads nothing but that header and what lies behind it in the first 256 bytes. -/
theorem pciFindCapability_first (dev : PciDevice) (cap : ℕ) :
    FirstOrZero (capNext dev) (capStart dev) (hasCapId dev cap) (pciFindCapability dev cap) ∧
      ReadsBehindHeader ((ConfigProgram.pciFindCapability cap).reads dev.cfg) :=
  ⟨pciFindCapability_firstOrZero dev cap, readsBehindHeader_pciFindCapability dev cap⟩

/-! ## The extended capabilities -/

section Extended

variable (dev : PciDevice)

/-- The id of the extended capability at `pos`. -/
def extCapId (pos : ℕ) : ℕ := (pciReadConfig32 dev pos).toNat % 65536

/-- The position behind `pos`: nowhere, if the pointer of the header is below 0x100. -/
def extCapNext (pos : ℕ) : Option ℕ :=
  let next := (pciReadConfig32 dev pos).toNat / 1048576
  if next - next % 4 < 0x100 then none else some (next - next % 4)

/-- The extended capability at `pos` has the id asked for. -/
def hasExtCapId (cap pos : ℕ) : Bool := decide (extCapId dev pos = cap)

/-- The walk from 0x100 comes to `pos`. -/
def OnExtChain (pos : ℕ) : Prop := OnChain (extCapNext dev) (some 0x100) pos

/-- With these sizes, the extended capabilities have 8 bytes at least and do not overlap. -/
structure ExtApart (size : ℕ → ℕ) : Prop where
  eight_le : ∀ pos, OnExtChain dev pos → 8 ≤ size pos
  apart : ∀ pos pos', OnExtChain dev pos → OnExtChain dev pos' → pos ≠ pos' →
    pos + size pos ≤ pos' ∨ pos' + size pos' ≤ pos

end Extended

section

variable {dev : PciDevice}

/-- The loop of `pci_find_next_ext_capability` is a search. -/
theorem run_pciFindNextExtCapability (cap ttl pos : ℕ) :
    ((ConfigProgram.pciFindNextExtCapability cap ttl pos (pciReadConfig32 dev pos)).run dev.cfg).1
      = (search (extCapNext dev) (hasExtCapId dev cap) ttl (some pos)).getD 0 := by
  induction ttl generalizing pos with
  | zero => rfl
  | succ ttl ih =>
    rw [ConfigProgram.pciFindNextExtCapability, search]
    unfold hasExtCapId extCapId
    by_cases hcap : (pciReadConfig32 dev pos).toNat % 65536 = cap
    · rw [if_pos hcap, if_pos (decide_eq_true hcap), Option.getD_some]
      rfl
    · have hother : ¬ decide ((pciReadConfig32 dev pos).toNat % 65536 = cap) = true :=
        mt of_decide_eq_true hcap
      rw [if_neg hcap, if_neg hother]
      unfold extCapNext
      dsimp only [pciCfgSpaceSize]
      split
      · cases ttl <;> rfl
      · rw [ConfigProgram.run_bind, ConfigProgram.run_pciReadConfig]
        exact ih _

/-- The search for an extended capability that is not 0: a header of zeros has none, and none
behind it. -/
theorem run_pciFindExtCapability_eq {cap : ℕ} (hcap : cap ≠ 0) :
    ((ConfigProgram.pciFindExtCapability cap).run dev.cfg).1
      = (search (extCapNext dev) (hasExtCapId dev cap) 480 (some 0x100)).getD 0 := by
  rw [← run_pciFindNextExtCapability]
  unfold ConfigProgram.pciFindExtCapability
  rw [ConfigProgram.run_bind, ConfigProgram.run_pciReadConfig]
  dsimp only
  split
  · rename_i hzero
    have hread : pciReadConfig32 dev 0x100 = 0 := hzero
    rw [hread, ConfigProgram.pciFindNextExtCapability, if_neg (fun h => hcap h.symm)]
    rfl
  · rfl

/-- The positions of the walk are doublewords of the extended space. -/
theorem extPosition_of_onExtChain {pos : ℕ} (h : OnExtChain dev pos) :
    0x100 ≤ pos ∧ pos ≤ 0xffc ∧ pos % 4 = 0 := by
  obtain ⟨k, hk⟩ := h
  cases k with
  | zero =>
    obtain rfl := Option.some.inj hk
    decide
  | succ k =>
    obtain ⟨q, -, hnext⟩ := Option.bind_eq_some_iff.1 hk
    have hlt := (pciReadConfig32 dev q).isLt
    unfold extCapNext at hnext
    dsimp only at hnext
    split at hnext
    · cases hnext
    · obtain rfl := Option.some.inj hnext
      omega

/-- Of capabilities that do not overlap there are 480 at most: no two begin in the same eight bytes. -/
theorem ExtApart.card_le {size : ℕ → ℕ} (h : ExtApart dev size) {s : Finset ℕ}
    (hs : ∀ q ∈ s, OnExtChain dev q) : s.card ≤ 480 := by
  have hinj : Set.InjOn (fun q => (q - 0x100) / 8) (s : Set ℕ) := by
    intro q hq q' hq' heq
    by_contra hne
    have hsize := h.eight_le q (hs q hq)
    have hsize' := h.eight_le q' (hs q' hq')
    have hpos := extPosition_of_onExtChain (hs q hq)
    have hpos' := extPosition_of_onExtChain (hs q' hq')
    have hapart := h.apart q q' (hs q hq) (hs q' hq') hne
    dsimp only at heq
    omega
  have hsub : s.image (fun q => (q - 0x100) / 8) ⊆ Finset.range 480 := by
    intro i hi
    obtain ⟨q, hq, rfl⟩ := Finset.mem_image.1 hi
    have hpos := extPosition_of_onExtChain (hs q hq)
    exact Finset.mem_range.2 (by omega)
  have hle := Finset.card_le_card hsub
  rwa [Finset.card_image_of_injOn hinj, Finset.card_range] at hle

/-- A read of a whole doubleword of the extended space. -/
def IsExtRead (r : ℕ × ℕ) : Prop := r.1 = 32 ∧ r.2 % 4 = 0 ∧ 0x100 ≤ r.2 ∧ r.2 ≤ 0xffc

/-- The extended walk makes no more reads than it is given, all of extended headers. -/
theorem reads_pciFindNextExtCapability (dev : PciDevice) (cap ttl pos : ℕ) (header : BitVec 32) :
    ((ConfigProgram.pciFindNextExtCapability cap ttl pos header).reads dev.cfg).length ≤ ttl ∧
      ∀ r ∈ (ConfigProgram.pciFindNextExtCapability cap ttl pos header).reads dev.cfg, IsExtRead r := by
  induction ttl generalizing pos header with
  | zero => exact ⟨Nat.le_refl _, fun r hr => by cases hr⟩
  | succ ttl ih =>
    rw [ConfigProgram.pciFindNextExtCapability]
    split
    · exact ⟨Nat.zero_le _, fun r hr => by cases hr⟩
    · dsimp only [pciCfgSpaceSize]
      split
      · exact ⟨Nat.zero_le _, fun r hr => by cases hr⟩
      · rename_i hge
        have hlt := header.isLt
        rw [ConfigProgram.reads_bind, ConfigProgram.reads_pciReadConfig 32 dev.cfg (by omega),
          ConfigProgram.run_pciReadConfig]
        obtain ⟨hlength, hreads⟩ := ih (header.toNat / 1048576 - header.toNat / 1048576 % 4)
          (pciReadConfig32 dev (header.toNat / 1048576 - header.toNat / 1048576 % 4))
        refine ⟨Nat.succ_le_succ hlength, fun r hr => ?_⟩
        rcases List.mem_cons.1 hr with rfl | hr
        · exact ⟨rfl, by dsimp only; omega⟩
        · exact hreads r hr

/-- So does the search, with at most 481. -/
theorem reads_pciFindExtCapability (cap : ℕ) :
    ((ConfigProgram.pciFindExtCapability cap).reads dev.cfg).length ≤ 481 ∧
      ∀ r ∈ (ConfigProgram.pciFindExtCapability cap).reads dev.cfg, IsExtRead r := by
  unfold ConfigProgram.pciFindExtCapability
  rw [ConfigProgram.reads_bind, ConfigProgram.reads_pciReadConfig 32 dev.cfg (by decide),
    ConfigProgram.run_pciReadConfig]
  have hfirst : IsExtRead (32, pciCfgSpaceSize) := ⟨rfl, by decide⟩
  split
  · refine ⟨Nat.le_add_left 1 480, fun r hr => ?_⟩
    rcases List.mem_cons.1 hr with rfl | hr
    · exact hfirst
    · cases hr
  · obtain ⟨hlength, hreads⟩ := reads_pciFindNextExtCapability dev cap 480 pciCfgSpaceSize
      (pciReadConfig32 dev pciCfgSpaceSize)
    refine ⟨Nat.succ_le_succ hlength, fun r hr => ?_⟩
    rcases List.mem_cons.1 hr with rfl | hr
    · exact hfirst
    · exact hreads r hr

end

/-- The search for an extended capability is long enough, if they do not overlap. -/
theorem extCapability_firstOrZero (dev : PciDevice) {cap : ℕ} (hcap : cap ≠ 0) {size : ℕ → ℕ}
    (h : ExtApart dev size) : FirstOrZero (extCapNext dev) (some 0x100) (hasExtCapId dev cap)
      ((ConfigProgram.pciFindExtCapability cap).run dev.cfg).1 := by
  rw [run_pciFindExtCapability_eq hcap]
  refine firstOrZero_search (fun s hs => h.card_le hs) fun q hq => ?_
  obtain ⟨hlow, -⟩ := extPosition_of_onExtChain hq
  omega

/-- Whatever the capabilities are like, one that is found is on the walk and has the id. -/
theorem onExtChain_of_found (dev : PciDevice) {cap : ℕ} (hcap : cap ≠ 0)
    (h : ((ConfigProgram.pciFindExtCapability cap).run dev.cfg).1 ≠ 0) :
    OnExtChain dev ((ConfigProgram.pciFindExtCapability cap).run dev.cfg).1 ∧
      extCapId dev ((ConfigProgram.pciFindExtCapability cap).run dev.cfg).1 = cap := by
  rw [run_pciFindExtCapability_eq hcap] at h ⊢
  cases hfound : search (extCapNext dev) (hasExtCapId dev cap) 480 (some 0x100) with
  | none =>
    rw [hfound] at h
    exact absurd rfl h
  | some pos =>
    obtain ⟨k, hk, hid, -⟩ := firstOnChain_of_search hfound
    exact ⟨⟨k, hk⟩, of_decide_eq_true hid⟩

/-- **The search for an extended capability** reads 481 headers at most; what it finds is on the walk
from 0x100 and has the id; of capabilities that do not overlap it is the first with the id. -/
theorem pciFindExtCapability_first (dev : PciDevice) {cap : ℕ} (hcap : cap ≠ 0) :
    (((ConfigProgram.pciFindExtCapability cap).reads dev.cfg).length ≤ 481 ∧
      ∀ r ∈ (ConfigProgram.pciFindExtCapability cap).reads dev.cfg, IsExtRead r) ∧
    (((ConfigProgram.pciFindExtCapability cap).run dev.cfg).1 ≠ 0 →
      OnExtChain dev ((ConfigProgram.pciFindExtCapability cap).run dev.cfg).1 ∧
        extCapId dev ((ConfigProgram.pciFindExtCapability cap).run dev.cfg).1 = cap) ∧
    ∀ size, ExtApart dev size →
      FirstOrZero (extCapNext dev) (some 0x100) (hasExtCapId dev cap)
        ((ConfigProgram.pciFindExtCapability cap).run dev.cfg).1 :=
  ⟨reads_pciFindExtCapability cap, onExtChain_of_found dev hcap,
    fun _ hsize => extCapability_firstOrZero dev hcap hsize⟩

/-- A function with an error reporting capability at 0x100 and a serial number at 0x148. -/
def extFunction : PciDevice where
  cfg :=
    let space : RegisterFile 4096 := ⟨0, BitVec.allOnes _⟩
    (space.write 32 0x100 0x14810001).write 32 0x148 0x00010003
  tableMem := fun _ => 0

/-- The sample chain has two capabilities. -/
theorem extFunction_onExtChain {pos : ℕ} (h : OnExtChain extFunction pos) :
    pos = 0x100 ∨ pos = 0x148 := by
  obtain ⟨k, hk⟩ := h
  rcases k with - | - | k
  · exact Or.inl (Option.some.inj hk).symm
  · have hsecond : chain (extCapNext extFunction) (some 0x100) 1 = some 0x148 := by decide +kernel
    exact Or.inr (Option.some.inj (hk.symm.trans hsecond))
  · have hend : chain (extCapNext extFunction) (some 0x100) 2 = none := by decide +kernel
    obtain ⟨q, hq⟩ := chain_ne_none hk (Nat.le_add_left 2 k)
    rw [hend] at hq
    cases hq

/-- The serial number of this function is found. -/
theorem extFunction_first :
    ((ConfigProgram.pciFindExtCapability 3).run extFunction.cfg).1 = 0x148 ∧
      FirstOrZero (extCapNext extFunction) (some 0x100) (hasExtCapId extFunction 3) 0x148 := by
  have hfound : ((ConfigProgram.pciFindExtCapability 3).run extFunction.cfg).1 = 0x148 := by
    decide +kernel
  refine ⟨hfound, ?_⟩
  obtain ⟨-, -, hfirst⟩ := pciFindExtCapability_first extFunction (by decide : 3 ≠ 0)
  rw [← hfound]
  refine hfirst (fun _ => 8) ⟨fun _ _ => Nat.le_refl 8, fun pos pos' hpos hpos' hne => ?_⟩
  have hpos := extFunction_onExtChain hpos
  have hpos' := extFunction_onExtChain hpos'
  omega

end BcmPcie
