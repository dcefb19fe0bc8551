import BcmPcie.Enumeration.Regions

/-! # The regions in use

Which region of a controller is used for I/O, memory and prefetchable memory is settled by the flags
and sizes of all of them, and does not change while addresses are handed out: only the pointers move.
`RegionAt` says where the pointer of a kind stands.

* `pciautoConfigInit_spec` — the regions in use are the ones `pciauto_config_init` picks, and picking
  again picks the same.
* `RegionAt.allocate` — an allocation from the region of a kind is a step of its bump allocator.
* `PciController.Selected.chosen_allocate_of_ne` — and leaves the regions of the other kinds alone. -/

namespace BcmPcie

open Bump

variable {σ τ : Type*} {pcie pcie' : PciController σ} {k k' : RegionKind}

/-! ## Picking regions -/

/-- What a region is picked by. -/
def PciRegion.key (res : PciRegion) : BitVec 32 × BitVec 32 := (res.flags, res.size)

/-- The choice depends on the flags and sizes alone. -/
theorem selectRegion_congr (flags : BitVec 32) {regions regions' : List PciRegion}
    (h : regions'.map PciRegion.key = regions.map PciRegion.key) (i : ℕ)
    (best : Option (ℕ × BitVec 32)) :
    selectRegion flags regions' i best = selectRegion flags regions i best := by
  induction regions generalizing regions' i best with
  | nil =>
    rw [List.map_nil, List.map_eq_nil_iff] at h
    rw [h]
  | cons res regions ih =>
    obtain ⟨res', rest, rfl, hkey, hrest⟩ := List.map_eq_cons_iff.1 h
    have hflags : res'.flags = res.flags := congrArg Prod.fst hkey
    have hsize : res'.size = res.size := congrArg Prod.snd hkey
    simp only [selectRegion, hflags, hsize, ih hrest]

/-- A region that is picked has the flags asked for. -/
theorem selectRegion_flags {flags : BitVec 32} {regions : List PciRegion} {i j : ℕ}
    {best : Option (ℕ × BitVec 32)} (h : selectRegion flags regions i best = some j) :
    best.map Prod.fst = some j ∨ ∃ n res, regions[n]? = some res ∧ res.flags = flags ∧ j = i + n := by
  induction regions generalizing i best with
  | nil => exact Or.inl h
  | cons res regions ih =>
    rw [selectRegion] at h
    split at h
    · rename_i hres
      obtain hj | ⟨n, r, hr, hflags, rfl⟩ := ih h
      · exact Or.inr ⟨0, res, rfl, hres.1, by simpa using hj.symm⟩
      · exact Or.inr ⟨n + 1, r, hr, hflags, by omega⟩
    · obtain hj | ⟨n, r, hr, hflags, rfl⟩ := ih h
      · exact Or.inl hj
      · exact Or.inr ⟨n + 1, r, hr, hflags, by omega⟩

namespace PciController

/-- The regions in use are the ones `pciauto_config_init` picks. -/
def Selected (pcie : PciController σ) : Prop :=
  ∀ k, pcie.ptr k = selectRegion k.flags pcie.regions 0 none

/-- The region in use of a kind. -/
def chosen (pcie : PciController σ) (k : RegionKind) : Option PciRegion := pcie.region (pcie.ptr k)

@[simp] theorem ptr_updateRegion (p : Option ℕ) (f : PciRegion → PciRegion) :
    (pcie.updateRegion p f).ptr k = pcie.ptr k := by
  cases p <;> cases k <;> rfl

/-- Different kinds use different regions. -/
theorem Selected.ptr_ne (h : pcie.Selected) (hne : k ≠ k') {i j : ℕ} (hi : pcie.ptr k = some i)
    (hj : pcie.ptr k' = some j) : i ≠ j := by
  rw [h k] at hi
  rw [h k'] at hj
  obtain hi | ⟨n, r, hr, hflags, rfl⟩ := selectRegion_flags hi
  · cases hi
  · obtain hj | ⟨m, r', hr', hflags', rfl⟩ := selectRegion_flags hj
    · cases hj
    · intro heq
      obtain rfl : n = m := by omega
      rw [hr] at hr'
      obtain rfl := Option.some.inj hr'
      have hkinds : k.flags = k'.flags := hflags.symm.trans hflags'
      cases k <;> cases k' <;> first | exact hne rfl | exact absurd hkinds (by decide)

/-- A change of a region that keeps its key keeps the choice. -/
theorem Selected.updateRegion (h : pcie.Selected) (p : Option ℕ) {f : PciRegion → PciRegion}
    (hf : ∀ i res, p = some i → pcie.regions[i]? = some res → (f res).key = res.key) :
    (pcie.updateRegion p f).Selected := by
  intro k
  rw [ptr_updateRegion, h k]
  refine (selectRegion_congr _ ?_ 0 none).symm
  cases p with
  | none => rfl
  | some i =>
    apply List.ext_getElem?
    intro n
    simp only [PciController.updateRegion, List.getElem?_map, List.getElem?_modify]
    cases hn : pcie.regions[n]? with
    | none => rfl
    | some res =>
      by_cases hi : i = n
      · subst hi
        simp [hf i res rfl hn]
      · simp [hi]

/-- The region of another kind is not touched. -/
theorem Selected.chosen_updateRegion_of_ne (h : pcie.Selected) (hne : k' ≠ k)
    (f : PciRegion → PciRegion) : (pcie.updateRegion (pcie.ptr k') f).chosen k = pcie.chosen k := by
  unfold chosen region
  rw [ptr_updateRegion]
  cases hi : pcie.ptr k with
  | none => rfl
  | some i =>
    cases hj : pcie.ptr k' with
    | none => rfl
    | some j =>
      have hij : j ≠ i := h.ptr_ne hne hj hi
      simp [PciController.updateRegion, List.getElem?_modify, hij]

/-- After a change of the chosen region the chosen one is the changed. -/
theorem chosen_updateRegion_self (pcie : PciController σ) (k : RegionKind)
    (f : PciRegion → PciRegion) :
    (pcie.updateRegion (pcie.ptr k) f).chosen k = (pcie.chosen k).map f := by
  unfold chosen region
  rw [ptr_updateRegion]
  cases hi : pcie.ptr k with
  | none => rfl
  | some i => simp [PciController.updateRegion, List.getElem?_modify]

/-- A successful allocation moves the pointer of one region and changes nothing else. -/
theorem allocate_eq_some {p : Option ℕ} {size addr : BitVec 32} {supports64bit : Bool}
    (h : pcie.allocate p size supports64bit = some (addr, pcie')) :
    ∃ res lower, pcie.region p = some res ∧
      pcie' = pcie.updateRegion p fun _ => { res with busLower := lower } := by
  unfold allocate at h
  obtain ⟨⟨addr', res'⟩, hr, heq⟩ := Option.map_eq_some_iff.1 h
  obtain ⟨-, rfl⟩ := Prod.mk.inj heq
  cases hres : pcie.region p with
  | none =>
    rw [hres] at hr
    cases hr
  | some res =>
    rw [hres] at hr
    unfold pciautoRegionAllocate at hr
    dsimp only at hr
    split at hr
    · cases hr
    · split at hr
      · cases hr
      · obtain ⟨-, rfl⟩ := Prod.mk.inj (Option.some.inj hr)
        exact ⟨res, _, rfl, rfl⟩

/-- Taking a block leaves the regions selected. -/
theorem Selected.allocate (hsel : pcie.Selected) {p : Option ℕ} {size addr : BitVec 32}
    {supports64bit : Bool} (h : pcie.allocate p size supports64bit = some (addr, pcie')) :
    pcie'.Selected := by
  obtain ⟨res, lower, hres, rfl⟩ := allocate_eq_some h
  refine hsel.updateRegion p fun i res' hi hres' => ?_
  unfold region at hres
  rw [hi, Option.bind_some, hres'] at hres
  rw [Option.some.inj hres]
  rfl

/-- Taking a block of one kind leaves the regions of the others. -/
theorem Selected.chosen_allocate_of_ne (hsel : pcie.Selected) (hne : k' ≠ k)
    {size addr : BitVec 32} {supports64bit : Bool}
    (h : pcie.allocate (pcie.ptr k') size supports64bit = some (addr, pcie')) :
    pcie'.chosen k = pcie.chosen k := by
  obtain ⟨res, lower, -, rfl⟩ := allocate_eq_some h
  exact hsel.chosen_updateRegion_of_ne hne _

end PciController

/-! ## Where the pointer stands -/

/-- The region with its pointer at `p`. -/
def PciRegion.atPointer (res : PciRegion) (p : ℕ) : PciRegion :=
  { res with busLower := BitVec.ofNat 32 p }

/-- The bump allocator of a region; without one, no block fits. -/
def regionArena : Option PciRegion → Arena
  | none => ⟨1, 0⟩
  | some res => res.arena

/-- `PciRegion.RoomExact` of the region, if there is one. -/
def RegionExact (res : Option PciRegion) (p : ℕ) (r : Request τ) : Prop :=
  ∀ res' ∈ res, res'.RoomExact p r

/-- The region in use of kind `k` is `res`, with its pointer at `p`. -/
structure RegionAt (pcie : PciController σ) (k : RegionKind) (res : Option PciRegion) (p : ℕ) :
    Prop where
  chosen : pcie.chosen k = res.map (·.atPointer p)
  fits : ∀ res' ∈ res, res'.Fits
  start_le : (regionArena res).start ≤ p
  le : p ≤ 2 ^ 32

@[simp] theorem arena_atPointer (res : PciRegion) (p : ℕ) : (res.atPointer p).arena = res.arena := rfl

/-- No arena starts at 0. -/
theorem pos_regionArena_start (res : Option PciRegion) : 0 < (regionArena res).start := by
  cases res with
  | none => exact Nat.one_pos
  | some res =>
    rw [regionArena, ← pointer_pciautoRegionInit]
    exact PciRegion.pointer_pos _

/-- An arena starts within the 32-bit addresses. -/
theorem regionArena_start_le (res : Option PciRegion) : (regionArena res).start ≤ 2 ^ 32 := by
  cases res with
  | none => decide
  | some res =>
    rw [regionArena, ← pointer_pciautoRegionInit]
    exact PciRegion.pointer_le _

namespace RegionAt

variable {res : Option PciRegion} {p : ℕ}

/-- A state with the same region is at the same place. -/
theorem congr (h : RegionAt pcie k res p) (hchosen : pcie'.chosen k = pcie.chosen k) :
    RegionAt pcie' k res p :=
  ⟨hchosen.trans h.chosen, h.fits, h.start_le, h.le⟩

/-- The pointer of a region that is at `p` is `p`. -/
theorem pointer_eq {res' : PciRegion} (h : RegionAt pcie k (some res') p) :
    (res'.atPointer p).pointer = p :=
  res'.pointer_ofNat (Nat.lt_of_lt_of_le (pos_regionArena_start _) h.start_le) h.le

/-- An allocation from the region of a kind is a step of its bump allocator. -/
theorem allocate (h : RegionAt pcie k res p) {size : BitVec 32} {n : ℕ} (hsize : size.toNat = 2 ^ n)
    (supports64bit : Bool) {t : τ} (hexact : RegionExact res p (.take size.toNat t)) :
    ((regionArena res).granted p (.take size.toNat t) = none ∧
      pcie.allocate (pcie.ptr k) size supports64bit = none) ∨
    ∃ b pcie', (regionArena res).granted p (.take size.toNat t) = some b ∧
      pcie.allocate (pcie.ptr k) size supports64bit = some (BitVec.ofNat 32 b.addr, pcie') ∧
      RegionAt pcie' k res (b.addr + b.size) := by
  have hchosen : pcie.region (pcie.ptr k) = res.map (·.atPointer p) := h.chosen
  -- without a region the arena has no room
  cases res with
  | none =>
    left
    refine ⟨if_neg ?_, by rw [PciController.allocate, hchosen]; rfl⟩
    have := Nat.two_pow_pos n
    show ¬ _ ≤ 0
    omega
  | some res =>
    have hpointer := h.pointer_eq
    -- with one, the function of the code is the grant of the arena at its pointer
    have heq := pciautoRegionAllocate_eq (res.atPointer p) hsize supports64bit (t := t)
      (h.fits res rfl)
      (by rw [hpointer]; exact (PciRegion.busStart_le_arena_start res).trans h.start_le)
      (by rw [hpointer]; exact hexact res rfl)
    rw [hpointer, arena_atPointer] at heq
    have hallocate : pcie.allocate (pcie.ptr k) size supports64bit
        = (res.arena.granted p (.take size.toNat t)).map fun b => (BitVec.ofNat 32 b.addr,
            pcie.updateRegion (pcie.ptr k) fun _ => res.atPointer (b.addr + b.size)) := by
      rw [PciController.allocate, hchosen, Option.map_some, heq, Option.map_map]
      rfl
    simp only [regionArena]
    cases hg : res.arena.granted p (.take size.toNat t) with
    | none => exact Or.inl ⟨rfl, by rw [hallocate, hg]; rfl⟩
    | some b =>
      obtain ⟨-, haddr, hlimit, -⟩ := res.arena.granted_eq_some hg
      refine Or.inr ⟨b, _, rfl, by rw [hallocate, hg]; rfl, ?_, h.fits, ?_, ?_⟩
      · rw [PciController.chosen_updateRegion_self, h.chosen]
        rfl
      · have hbsize : size.toNat = b.size := by
          have := (res.arena.granted_eq_some hg).1
          injection this
        have hle : p ≤ alignUp p b.size :=
          le_alignUp (by rw [← hbsize, hsize]; exact Nat.two_pow_pos n) p
        have := h.start_le
        omega
      · exact hlimit.trans (h.fits res rfl)

/-- Rounding the pointer of a region. -/
theorem align (h : RegionAt pcie k res p) {size : BitVec 32} {n : ℕ} (hsize : size.toNat = 2 ^ n) :
    RegionAt (pcie.updateRegion (pcie.ptr k) (pciautoRegionAlign · size)) k res
      (if res.isSome then alignUp p size.toNat else p) := by
  cases res with
  | none =>
    refine ⟨?_, h.fits, h.start_le, h.le⟩
    rw [PciController.chosen_updateRegion_self, h.chosen]
    rfl
  | some res =>
    have hpos : 0 < size.toNat := by rw [hsize]; exact Nat.two_pow_pos n
    have hpointer := h.pointer_eq
    have halign := pointer_pciautoRegionAlign (res.atPointer p) hsize
    rw [hpointer] at halign
    have hle : alignUp p size.toNat ≤ 2 ^ 32 := by
      rw [← halign]
      exact PciRegion.pointer_le _
    refine ⟨?_, h.fits, h.start_le.trans (le_alignUp hpos p), hle⟩
    rw [PciController.chosen_updateRegion_self, h.chosen]
    apply congrArg some
    have haddr := toNat_allocate_addr (res.atPointer p) hsize
    rw [hpointer] at haddr
    simp only [pciautoRegionAlign, PciRegion.atPointer, if_pos, Option.isSome_some] at haddr ⊢
    congr 1
    apply BitVec.eq_of_toNat_eq
    rw [haddr, BitVec.toNat_ofNat]

end RegionAt

/-! ## Setting the pointers back -/

/-- After the choice the regions are selected. -/
theorem selected_select (pcie : PciController σ) : pcie.select.Selected := by
  intro k
  cases k <;> rfl

/-- Choosing again chooses the same. -/
theorem PciController.Selected.select_eq (h : pcie.Selected) : pcie.select = pcie := by
  have hio : pcie.pciIo = _ := h .io
  have hmem : pcie.pciMem = _ := h .mem
  have hprefetch : pcie.pciPrefetch = _ := h .prefetch
  unfold PciController.select
  rw [← hio, ← hmem, ← hprefetch]

/-- The three regions in use are set back one after the other. -/
theorem pciautoConfigInit_eq (pcie : PciController σ) :
    pciautoConfigInit pcie
      = ((pcie.select.updateRegion (pcie.select.ptr .mem) pciautoRegionInit).updateRegion
          (pcie.select.ptr .prefetch) pciautoRegionInit).updateRegion (pcie.select.ptr .io)
          pciautoRegionInit := by
  unfold pciautoConfigInit
  dsimp only
  generalize pcie.select = q
  have hprefetch (p : Option ℕ) (f : PciRegion → PciRegion) :
      (q.updateRegion p f).pciPrefetch = q.ptr .prefetch :=
    PciController.ptr_updateRegion (k := .prefetch) p f
  have hio (p : Option ℕ) (f : PciRegion → PciRegion) (r : PciController σ) :
      (r.updateRegion p f).pciIo = r.ptr .io := PciController.ptr_updateRegion (k := .io) p f
  rw [hprefetch, hio, PciController.ptr_updateRegion]
  rfl

/-- Setting pointers back keeps the choice of regions, and starts each from its beginning. -/
theorem pciautoConfigInit_spec (pcie : PciController σ) :
    (pciautoConfigInit pcie).Selected ∧ (∀ k, (pciautoConfigInit pcie).ptr k = pcie.select.ptr k) ∧
      ∀ k, (pciautoConfigInit pcie).chosen k = (pcie.select.chosen k).map pciautoRegionInit := by
  rw [pciautoConfigInit_eq]
  have hsel := selected_select pcie
  generalize pcie.select = q at hsel
  have hkey (r : PciController σ) (p : Option ℕ) (h : r.Selected) :
      (r.updateRegion p pciautoRegionInit).Selected := h.updateRegion p fun _ _ _ _ => rfl
  set q₁ := q.updateRegion (q.ptr .mem) pciautoRegionInit with hq₁
  set q₂ := q₁.updateRegion (q.ptr .prefetch) pciautoRegionInit with hq₂
  have hptr₁ (k : RegionKind) : q₁.ptr k = q.ptr k := PciController.ptr_updateRegion _ _
  have hptr₂ (k : RegionKind) : q₂.ptr k = q.ptr k :=
    (PciController.ptr_updateRegion _ _).trans (hptr₁ k)
  have hsel₁ : q₁.Selected := hkey q _ hsel
  have hsel₂ : q₂.Selected := hkey q₁ _ hsel₁
  refine ⟨hkey q₂ _ hsel₂, fun k => (PciController.ptr_updateRegion _ _).trans (hptr₂ k), ?_⟩
  rw [← hptr₂ .io]
  intro k
  cases k with
  | io =>
    rw [PciController.chosen_updateRegion_self, hq₂, ← hptr₁ .prefetch,
      hsel₁.chosen_updateRegion_of_ne (by decide), hq₁, hsel.chosen_updateRegion_of_ne (by decide)]
  | mem =>
    rw [hsel₂.chosen_updateRegion_of_ne (by decide), hq₂, ← hptr₁ .prefetch,
      hsel₁.chosen_updateRegion_of_ne (by decide), hq₁, PciController.chosen_updateRegion_self]
  | prefetch =>
    rw [hsel₂.chosen_updateRegion_of_ne (by decide), hq₂, ← hptr₁ .prefetch,
      PciController.chosen_updateRegion_self, hq₁, hsel.chosen_updateRegion_of_ne (by decide)]

/-- Initialising a region puts its pointer to the start of its arena. -/
theorem pciautoRegionInit_eq_atPointer (res : PciRegion) :
    pciautoRegionInit res = res.atPointer res.arena.start := by
  unfold PciRegion.atPointer PciRegion.arena
  rw [BitVec.ofNat_toNat, BitVec.setWidth_eq]
  rfl

/-- After `pciauto_config_init` each pointer is at the start of its region. -/
theorem regionAt_pciautoConfigInit (pcie : PciController σ) (k : RegionKind)
    (hfits : ∀ res ∈ pcie.select.chosen k, res.Fits) :
    RegionAt (pciautoConfigInit pcie) k (pcie.select.chosen k)
      (regionArena (pcie.select.chosen k)).start := by
  refine ⟨?_, hfits, le_rfl, regionArena_start_le _⟩
  rw [(pciautoConfigInit_spec pcie).2.2 k]
  cases pcie.select.chosen k with
  | none => rfl
  | some res => exact congrArg some (pciautoRegionInit_eq_atPointer res)

/-- Running it again sets the same pointers back. -/
theorem RegionAt.configInit {res : Option PciRegion} {p : ℕ} (h : RegionAt pcie k res p)
    (hsel : pcie.Selected) :
    RegionAt (pciautoConfigInit pcie) k res (regionArena res).start := by
  refine ⟨?_, h.fits, le_rfl, regionArena_start_le res⟩
  rw [(pciautoConfigInit_spec pcie).2.2 k, hsel.select_eq, h.chosen]
  cases res with
  | none => rfl
  | some res => exact congrArg some (pciautoRegionInit_eq_atPointer (res.atPointer p))

end BcmPcie
