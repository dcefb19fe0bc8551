import BcmPcie.Enumeration.SetupDevice

/-! # The blocks a function is given

`pciauto_setup_device` against the bump allocator of a region: the requests of a function are known
from its registers beforehand, and the BARs it has afterwards are the blocks granted for them.

* `setupBars_spec` — the loop over the BARs.
* `pciautoSetupDevice_spec` — a whole function, expansion ROM included. -/

namespace BcmPcie

open Bump Runs

variable {σ : Type*}

/-- The kind of region a BAR was placed in. -/
def PciBarInfo.kind (prefetch : Bool) (bar : PciBarInfo) : RegionKind :=
  match bar.type with
  | .io => .io
  | .mem =>
    if prefetch && decide (bar.barResponse &&& pciBaseAddressMemPrefetch ≠ 0) then .prefetch else .mem

/-- The addresses of a BAR. -/
def PciBarInfo.block (bar : PciBarInfo) : Block BlockUse :=
  ⟨bar.busAddr.toNat, bar.size.toNat, .bar⟩

/-- The BARs of a list that are present and were placed in a region of kind `k`. -/
def ofKind (prefetch : Bool) (k : RegionKind) (bars : List PciBarInfo) : List PciBarInfo :=
  bars.filter fun bar => bar.present && decide (bar.kind prefetch = k)

/-- The BARs of a function, slot by slot. -/
def PciDevice.slots (dev : PciDevice) : List PciBarInfo := (List.range dev.barsNum).map dev.bars

/-- A BAR that is placed is of the kind that its response asked for. -/
theorem PlacedBar.kind {response addr : BitVec 32} {bar : PciBarInfo}
    (h : PlacedBar response addr bar) (prefetch : Bool) :
    bar.kind prefetch = barKind prefetch response := by
  unfold PciBarInfo.kind barKind
  rw [h.type, h.response_eq]
  cases isIoBar response <;> rfl

/-- The first BAR is one of the kind or it is not. -/
theorem ofKind_cons (prefetch : Bool) (k : RegionKind) (bar : PciBarInfo) (bars : List PciBarInfo) :
    ofKind prefetch k (bar :: bars)
      = (if bar.present && decide (bar.kind prefetch = k) then [bar] else []) ++
          ofKind prefetch k bars := by
  unfold ofKind
  rw [List.filter_cons]
  split <;> rfl

/-! ## The requests of a function -/

section Requests

variable (k : RegionKind) (prefetch : Bool) (cfg : RegisterFile 4096) (barsNum : ℕ)

/-- More rounds than slots ask for nothing more. -/
theorem barRequests_congr {rounds rounds' slot : ℕ} (h : barsNum ≤ slot + rounds)
    (h' : barsNum ≤ slot + rounds') :
    barRequests k prefetch cfg barsNum rounds slot
      = barRequests k prefetch cfg barsNum rounds' slot := by
  induction rounds generalizing rounds' slot with
  | zero =>
    cases rounds' with
    | zero => rfl
    | succ rounds' => rw [barRequests, barRequests, if_neg (by omega)]
  | succ rounds ih =>
    cases rounds' with
    | zero => rw [barRequests, barRequests, if_neg (by omega)]
    | succ rounds' =>
      rw [barRequests, barRequests]
      split
      · dsimp only
        split
        · exact ih (by omega) (by omega)
        · congr 1
          apply ih <;> split <;> omega
      · rfl

/-- What is asked for from a slot on: the BAR of the slot, if it is one, and the rest. -/
theorem barRequests_step {slot : ℕ} (hslot : slot < barsNum) {response : BitVec 32}
    (hresponse : barResponse cfg slot = response) :
    barRequests k prefetch cfg barsNum barsNum slot
      = if response = 0 ∨ response = 0xffffffff#32 then
          barRequests k prefetch cfg barsNum barsNum (slot + 1)
        else
          (if barKind prefetch response = k then [.take (barSize response).toNat .bar] else []) ++
            barRequests k prefetch cfg barsNum barsNum
              (slot + if isMem64Bar response then 2 else 1) := by
  rw [@barRequests_congr k prefetch cfg barsNum barsNum (barsNum + 1) slot (by omega) (by omega),
    barRequests, if_pos hslot, hresponse]

end Requests

/-- Behind a 64-bit BAR that is not placed the loop looks at the register of its upper half, which is
no BAR. -/
theorem barRequests_unplaced {k : RegionKind} {prefetch : Bool} {cfg : RegisterFile 4096}
    {headerType barsNum slot : ℕ} (hconf : ConformingBars cfg headerType barsNum)
    (hslot : slot < barsNum) {response : BitVec 32} (hresponse : barResponse cfg slot = response)
    (hbar : ¬ (response = 0 ∨ response = 0xffffffff#32)) :
    barRequests k prefetch cfg barsNum barsNum slot
      = (if barKind prefetch response = k then [.take (barSize response).toNat .bar] else []) ++
          barRequests k prefetch cfg barsNum barsNum (slot + 1) := by
  rw [barRequests_step k prefetch cfg barsNum hslot hresponse, if_neg hbar]
  congr 1
  cases h64 : isMem64Bar response with
  | false => rfl
  | true =>
    have hio : isIoBar response = false := by
      unfold isMem64Bar at h64
      cases hio : isIoBar response
      · rfl
      · simp [hio] at h64
    subst hresponse
    obtain ⟨hnext, hones⟩ := (hconf.bars slot hslot (fun h => hbar (Or.inl h))
      (fun h => hbar (Or.inr h)) hio).2 h64
    rw [barRequests_step k prefetch cfg barsNum hnext hones, if_pos (Or.inr rfl)]
    rfl

/-! ## The loop over the BARs -/

/-- A region after a block of another kind, or of its own, was asked for: it has made the step of its
bump allocator, and a block of its own kind that was placed is the one granted. -/
theorem regionAt_allocate {pcie : PciController σ} {k kind : RegionKind}
    {res : Option PciRegion} {p : ℕ} (hsel : pcie.Selected) (h : RegionAt pcie k res p)
    {size : BitVec 32} (hsize : kind = k → ∃ n, size.toNat = 2 ^ n) (mem64 : Bool) (use : BlockUse)
    (hexact : kind = k → RegionExact res p (.take size.toNat use)) :
    let reqs : List (Request BlockUse) := if kind = k then [.take size.toNat use] else []
    match pcie.allocate (pcie.ptr kind) size mem64 with
    | none => RegionAt pcie k res ((regionArena res).run p reqs) ∧ (regionArena res).blocks p reqs = []
    | some (addr, pcie') => RegionAt pcie' k res ((regionArena res).run p reqs) ∧
        (regionArena res).blocks p reqs
          = if kind = k then [⟨addr.toNat, size.toNat, use⟩] else [] := by
  intro reqs
  -- a block of the kind is a step of its arena; one of another kind leaves the region alone
  by_cases hk : kind = k
  · subst hk
    obtain ⟨n, hn⟩ := hsize rfl
    have hreqs : reqs = [.take size.toNat use] := if_pos rfl
    rw [hreqs]
    obtain ⟨hg, hnone⟩ | ⟨b, pcie', hg, hsome, hat⟩ := h.allocate hn mem64 (hexact rfl)
    · rw [hnone]
      have hstep : (regionArena res).step p (.take size.toNat use) = p := by
        simp only [Arena.granted] at hg
        split at hg
        · cases hg
        · rename_i hfit
          exact if_neg hfit
      refine ⟨?_, by rw [Arena.blocks_cons, hg]; rfl⟩
      rw [Arena.run, run_cons, hstep]
      exact h
    · rw [hsome]
      obtain ⟨htake, -, hlimit, hstep⟩ := (regionArena res).granted_eq_some hg
      obtain ⟨hbsize, hbtag⟩ : size.toNat = b.size ∧ use = b.tag := by
        injection htake with h₁ h₂
        exact ⟨h₁, h₂⟩
      refine ⟨?_, ?_⟩
      · rw [Arena.run, run_cons, hstep]
        exact hat
      · have hpos : 0 < b.size := by rw [← hbsize, hn]; exact Nat.two_pow_pos n
        have hlt : b.addr < 2 ^ 32 := by
          have := hat.le
          omega
        rw [if_pos rfl, Arena.blocks_cons, hg, BitVec.toNat_ofNat, Nat.mod_eq_of_lt hlt, hbsize,
          hbtag]
        rfl
  · have hreqs : reqs = [] := if_neg hk
    rw [hreqs]
    cases halloc : pcie.allocate (pcie.ptr kind) size mem64 with
    | none => exact ⟨h, rfl⟩
    | some r => exact ⟨h.congr (hsel.chosen_allocate_of_ne hk halloc), (if_neg hk).symm⟩

/-- A register passed over because of what it answers is no 64-bit BAR. -/
theorem ConformingBars.next_of_mem64 {hw : RegisterFile 4096} {headerType barsNum slot : ℕ}
    (h : ConformingBars hw headerType barsNum) (hslot : slot < barsNum)
    (h64 : isMem64Bar (barResponse hw slot) = true) : slot + 1 < barsNum := by
  have hio : isIoBar (barResponse hw slot) = false := by
    unfold isMem64Bar at h64
    cases hio : isIoBar (barResponse hw slot)
    · rfl
    · simp [hio] at h64
  refine ((h.bars slot hslot (fun h0 => ?_) (fun h1 => ?_) hio).2 h64).1
  · rw [h0] at h64
    exact absurd h64 (by decide)
  · rw [h1] at hio
    exact absurd hio (by decide)

/-- A BAR of memory is of a power of two. -/
theorem ConformingBars.size_of_kind {hw : RegisterFile 4096} {headerType barsNum slot : ℕ}
    (h : ConformingBars hw headerType barsNum) {k : RegionKind} (hk : k ≠ .io) (hslot : slot < barsNum)
    {response : BitVec 32} (hr : barResponse hw slot = response)
    (hbar : ¬ (response = 0 ∨ response = 0xffffffff#32)) {prefetch : Bool}
    (hkind : barKind prefetch response = k) : ∃ n, (barSize response).toNat = 2 ^ n := by
  have hio : isIoBar response = false := by
    cases hio : isIoBar response
    · rfl
    · unfold barKind at hkind
      rw [hio] at hkind
      exact absurd hkind.symm hk
  subst hr
  exact (h.bars slot hslot (fun h0 => hbar (Or.inl h0)) (fun h1 => hbar (Or.inr h1)) hio).1

section Bars

variable {k : RegionKind} {res : Option PciRegion} {hw : RegisterFile 4096} {headerType barsNum : ℕ}
  {regions : RegionKind → Option ℕ}

/-- A round of the loop at `slot` leaves the state `st₁` and goes on at `slot'`: it asked for the blocks
of `head`, and the BAR of the slot is the block granted. -/
structure BarRound (k : RegionKind) (res : Option PciRegion) (prefetch : Bool) (hw : RegisterFile 4096)
    (barsNum p : ℕ) (st : SetupState σ) (slot : ℕ) (head : List (Request BlockUse))
    (st₁ : SetupState σ) (slot' : ℕ) : Prop where
  frame : SetupFrame [barRange barsNum] st st₁
  next : slot' = slot + 1 ∨ slot' = slot + 2 ∧ slot + 1 < barsNum
  requests : barRequests k prefetch hw barsNum barsNum slot
    = head ++ barRequests k prefetch hw barsNum barsNum slot'
  region : RegionAt st₁.pcie k res ((regionArena res).run p head)
  kept : ∀ i, i ≠ slot → st₁.dev.bars i = st.dev.bars i
  blocks : (ofKind prefetch k [st₁.dev.bars slot]).map PciBarInfo.block = (regionArena res).blocks p head

/-- What the first request of a round is granted is exact, if what all requests are granted is. -/
theorem everyStep_head {kind : RegionKind} {p size : ℕ} {rest : List (Request BlockUse)}
    (hkind : kind = k) (h : EveryStep (regionArena res).step (RegionExact res) p
      ((if kind = k then [.take size .bar] else []) ++ rest)) :
    RegionExact res p (.take size BlockUse.bar) := by
  rw [if_pos hkind] at h
  exact h.1

/-- **One round of the loop.** A slot that is no BAR, or whose BAR gets no address, asks for what it
is not given; a BAR that is placed has the address granted. -/
theorem setupBar_spec (hconf : ConformingBars hw headerType barsNum) (hnum : barsNum ≤ 6)
    (hk : k ≠ .io) {slot p : ℕ} (hslot : slot < barsNum) {st : SetupState σ}
    (hdev : hw.SameDevice st.dev.cfg) (hregions : ∀ k, regions k = st.pcie.ptr k)
    (hsel : st.pcie.Selected) (hat : RegionAt st.pcie k res p) (hfresh : st.dev.bars slot = {})
    (hexact : EveryStep (regionArena res).step (RegionExact res) p
      (barRequests k (regions .prefetch).isSome hw barsNum barsNum slot)) :
    ∃ head, BarRound k res (regions .prefetch).isSome hw barsNum p st slot head
      (setupBar regions st slot).1 (setupBar regions st slot).2 := by
  have hresponse : barResponse st.dev.cfg slot = barResponse hw slot := hdev.response _ _ _
  obtain ⟨dev, hdev', hcases⟩ := setupBar_cases regions st hslot (by omega) hresponse
    (hconf.next_of_mem64 hslot)
  generalize hr : barResponse hw slot = response at hcases
  obtain ⟨hnone, heq⟩ | ⟨hbar, halloc, command, heq⟩ |
    ⟨hbar, addr, pcie, command, bar, halloc, hplaced, heq⟩ := hcases
  · -- no BAR
    refine ⟨[], ?_⟩
    rw [heq]
    refine ⟨SetupFrame.of_rewritten hdev', Or.inl rfl, ?_, hat, fun i _ => by rw [hdev'.bars], ?_⟩
    · rw [List.nil_append]
      exact (barRequests_step _ _ _ _ hslot hr).trans (if_pos hnone)
    · rw [hdev'.bars, hfresh]
      rfl
  · -- a BAR that gets no address
    have hreqs := @barRequests_unplaced k (regions .prefetch).isSome _ _ _ _ hconf hslot _ hr hbar
    have hspec := regionAt_allocate hsel hat (hconf.size_of_kind hk hslot hr hbar)
      (isMem64Bar response) .bar (fun hkind => everyStep_head hkind (hreqs ▸ hexact))
    rw [← hregions, halloc] at hspec
    refine ⟨if barKind (regions .prefetch).isSome response = k then
      [.take (barSize response).toNat .bar] else [], ?_⟩
    rw [heq]
    refine ⟨SetupFrame.of_rewritten hdev', Or.inl rfl, hreqs, hspec.1,
      fun i _ => by rw [hdev'.bars], ?_⟩
    rw [hspec.2, hdev'.bars, hfresh]
    rfl
  · -- a BAR that is placed
    have hreqs := barRequests_step k (regions .prefetch).isSome hw barsNum hslot hr
    rw [if_neg hbar] at hreqs
    have hspec := regionAt_allocate hsel hat (hconf.size_of_kind hk hslot hr hbar)
      (isMem64Bar response) .bar (fun hkind => everyStep_head hkind (hreqs ▸ hexact))
    rw [← hregions, halloc] at hspec
    refine ⟨if barKind (regions .prefetch).isSome response = k then
      [.take (barSize response).toNat .bar] else [], ?_⟩
    rw [heq]
    refine ⟨?_, ?_, hreqs, hspec.1, fun i hi => Function.update_of_ne hi _ _, ?_⟩
    · exact ⟨OnlyRegions.allocate halloc, by rw [hdev'.record], hdev'.device, hdev'.outside⟩
    · cases h64 : isMem64Bar response with
      | false => exact Or.inl rfl
      | true => exact Or.inr ⟨rfl, hconf.next_of_mem64 hslot (by rw [hr]; exact h64)⟩
    · rw [hspec.2]
      dsimp only
      rw [Function.update_self, ofKind_cons, hplaced.present, hplaced.kind]
      by_cases hkind : barKind (regions .prefetch).isSome response = k
      · rw [if_pos hkind, if_pos (by simpa using hkind)]
        simp [ofKind, PciBarInfo.block, hplaced.busAddr, hplaced.size]
      · rw [if_neg hkind, if_neg (by simpa using hkind)]
        rfl

/-- The BARs placed from a slot on are that of the slot and those from the next one on: the slot of
an upper half holds none. -/
theorem BarRound.ofKind_eq {prefetch : Bool} {p slot slot' : ℕ} {st st₁ st' : SetupState σ}
    {head : List (Request BlockUse)}
    (h : BarRound k res prefetch hw barsNum p st slot head st₁ slot') (hslot : slot < barsNum)
    (hfresh : ∀ i, slot ≤ i → st.dev.bars i = {})
    (hkept : ∀ i < slot', st'.dev.bars i = st₁.dev.bars i) :
    ofKind prefetch k ((List.range' slot (barsNum - slot)).map st'.dev.bars)
      = ofKind prefetch k [st₁.dev.bars slot] ++
          ofKind prefetch k ((List.range' slot' (barsNum - slot')).map st'.dev.bars) := by
  have htail : ofKind prefetch k ((List.range' (slot + 1) (barsNum - (slot + 1))).map st'.dev.bars)
      = ofKind prefetch k ((List.range' slot' (barsNum - slot')).map st'.dev.bars) := by
    rcases h.next with rfl | ⟨rfl, hlt⟩
    · rfl
    · have hskip : st'.dev.bars (slot + 1) = {} := by
        rw [hkept (slot + 1) (by omega), h.kept (slot + 1) (by omega), hfresh (slot + 1) (by omega)]
      rw [show barsNum - (slot + 1) = barsNum - (slot + 2) + 1 by omega, List.range'_succ,
        List.map_cons, ofKind_cons, hskip]
      rfl
  have hslot' : slot < slot' := by
    rcases h.next with rfl | ⟨rfl, -⟩ <;> omega
  rw [show barsNum - slot = barsNum - (slot + 1) + 1 by omega, List.range'_succ, List.map_cons,
    ofKind_cons, htail, hkept slot hslot', ofKind_cons _ _ (st₁.dev.bars slot)]
  simp [ofKind]

/-- **The loop over the BARs.** From a slot on, the BARs placed from a region of memory are the blocks
its bump allocator grants to the BARs that go there. -/
theorem setupBars_spec (hconf : ConformingBars hw headerType barsNum) (hnum : barsNum ≤ 6)
    (hk : k ≠ .io) {rounds slot p : ℕ} {st : SetupState σ} (hrounds : barsNum ≤ slot + rounds)
    (hdev : hw.SameDevice st.dev.cfg) (hregions : ∀ k, regions k = st.pcie.ptr k)
    (hsel : st.pcie.Selected) (hat : RegionAt st.pcie k res p)
    (hfresh : ∀ i, slot ≤ i → st.dev.bars i = {})
    (hexact : EveryStep (regionArena res).step (RegionExact res) p
      (barRequests k (regions .prefetch).isSome hw barsNum barsNum slot)) :
    let reqs := barRequests k (regions .prefetch).isSome hw barsNum barsNum slot
    let st' := setupBars regions barsNum rounds slot st
    SetupFrame [barRange barsNum] st st' ∧ RegionAt st'.pcie k res ((regionArena res).run p reqs) ∧
      (∀ i < slot, st'.dev.bars i = st.dev.bars i) ∧
      (ofKind (regions .prefetch).isSome k
          ((List.range' slot (barsNum - slot)).map st'.dev.bars)).map PciBarInfo.block
        = (regionArena res).blocks p reqs := by
  induction rounds generalizing slot p st with
  | zero =>
    have hdone : ¬ slot < barsNum := by omega
    have hreqs : barRequests k (regions .prefetch).isSome hw barsNum barsNum slot = [] := by
      rw [@barRequests_congr _ _ _ _ _ 0 _ (by omega) (by omega), barRequests]
    rw [hreqs, Nat.sub_eq_zero_of_le (by omega)]
    exact ⟨SetupFrame.refl _ _, hat, fun _ _ => rfl, rfl⟩
  | succ rounds ih =>
    intro reqs st'
    by_cases hslot : slot < barsNum
    case neg =>
      have hreqs : reqs = [] := by
        show barRequests _ _ _ _ _ _ = []
        rw [@barRequests_congr _ _ _ _ _ 0 _ (by omega) (by omega), barRequests]
      have hst : st' = st := if_neg hslot
      rw [hreqs, hst, Nat.sub_eq_zero_of_le (by omega)]
      exact ⟨SetupFrame.refl _ _, hat, fun _ _ => rfl, rfl⟩
    obtain ⟨head, hround⟩ := setupBar_spec hconf hnum hk hslot hdev hregions hsel hat
      (hfresh slot le_rfl) hexact
    have hst : st' = setupBars regions barsNum rounds (setupBar regions st slot).2
        (setupBar regions st slot).1 := by
      show setupBars regions barsNum (rounds + 1) slot st = _
      rw [setupBars, if_pos hslot]
    generalize (setupBar regions st slot).1 = st₁ at hround hst
    generalize (setupBar regions st slot).2 = slot' at hround hst
    have hle : slot < slot' := by
      rcases hround.next with rfl | ⟨rfl, -⟩ <;> omega
    have hreqs : reqs = head ++ _ := hround.requests
    rw [hround.requests, everyStep_append] at hexact
    -- the rest of the loop starts behind the blocks of this round
    obtain ⟨hframe, hat', hkept, hrest⟩ := @ih slot' _ st₁ (by omega) (hdev.trans hround.frame.device)
      (fun k' => (hregions k').trans (hround.frame.pcie.ptr k').symm)
      (hround.frame.pcie.selected hsel) hround.region
      (fun i hi => (hround.kept i (by omega)).trans (hfresh i (by omega))) hexact.2
    rw [← hst] at hframe hat' hkept hrest
    refine ⟨hround.frame.trans hframe, ?_,
      fun i hi => (hkept i (by omega)).trans (hround.kept i (by omega)), ?_⟩
    · rw [hreqs, Arena.run, run_append]
      exact hat'
    · rw [hround.ofKind_eq hslot hfresh hkept, List.map_append, hround.blocks, hrest, hreqs,
        Arena.blocks_append]

/-- The expansion ROM takes what its register asks for from the memory region. -/
theorem setupRom_spec (hconf : ConformingBars hw headerType barsNum) {p : ℕ} {st : SetupState σ}
    (hheader : st.dev.headerType = headerType) (hdev : hw.SameDevice st.dev.cfg)
    (hregions : ∀ k, regions k = st.pcie.ptr k) (hsel : st.pcie.Selected)
    (hat : RegionAt st.pcie k res p)
    (hexact : EveryStep (regionArena res).step (RegionExact res) p (romRequests k hw headerType)) :
    (setupRom regions st).dev.bars = st.dev.bars ∧
      RegionAt (setupRom regions st).pcie k res
        ((regionArena res).run p (romRequests k hw headerType)) := by
  have hresponse : romResponse st.dev.cfg st.dev.headerType = romResponse hw headerType := by
    unfold romResponse
    rw [hheader]
    split
    · rfl
    · exact hdev.response _ _ _
  obtain ⟨dev, hdev', hcases⟩ := setupRom_cases regions st hresponse
  generalize hr : romResponse hw headerType = response at hcases
  -- a ROM is always taken from the memory region, never from the prefetchable one
  have hreqs (hne : response ≠ 0) : romRequests k hw headerType
      = if RegionKind.mem = k then [.take (romSize response).toNat .rom] else [] := by
    unfold romRequests
    rw [hr]
    by_cases hk : k = .mem
    · rw [if_pos ⟨hk, hne⟩, if_pos hk.symm]
    · rw [if_neg (fun h => hk h.1), if_neg (fun h => hk h.symm)]
  have hspec (hne : response ≠ 0) := @regionAt_allocate _ _ _ .mem _ _ hsel hat (romSize response)
    (fun _ => by rw [← hr]; exact hconf.rom (by rw [hr]; exact hne)) false .rom
    (fun hkind => by
      rw [hreqs hne, if_pos hkind] at hexact
      exact hexact.1)
  obtain ⟨hzero, heq⟩ | ⟨hne, halloc, command, heq⟩ | ⟨hne, addr, pcie, command, halloc, heq⟩ := hcases
  · have hnone : romRequests k hw headerType = [] := by
      unfold romRequests
      rw [hr, if_neg (fun h => h.2 hzero)]
    rw [heq, hnone]
    exact ⟨hdev'.bars, hat⟩
  · have h := hspec hne
    rw [← hregions, halloc] at h
    rw [heq, hreqs hne]
    exact ⟨hdev'.bars, h.1⟩
  · have h := hspec hne
    rw [← hregions, halloc] at h
    rw [heq, hreqs hne]
    exact ⟨hdev'.bars, h.1⟩

end Bars

/-! ## A whole function -/

/-- What a function asks of the regions of kind `k`: its BARs, then its expansion ROM. -/
def deviceRequests (k : RegionKind) (prefetch : Bool) (cfg : RegisterFile 4096)
    (headerType barsNum : ℕ) : List (Request BlockUse) :=
  barRequests k prefetch cfg barsNum barsNum 0 ++ romRequests k cfg headerType

/-- What the BARs ask for is tagged so. -/
theorem tag_of_mem_barRequests {k : RegionKind} {prefetch : Bool} {cfg : RegisterFile 4096}
    {barsNum rounds slot size : ℕ} {use : BlockUse}
    (h : .take size use ∈ barRequests k prefetch cfg barsNum rounds slot) : use = .bar := by
  induction rounds generalizing slot with
  | zero => cases h
  | succ rounds ih =>
    rw [barRequests] at h
    split at h
    · dsimp only at h
      split at h
      · exact ih h
      · obtain h | h := List.mem_append.1 h
        · split at h
          · rw [List.mem_singleton] at h
            injection h
          · cases h
        · exact ih h
    · cases h

/-- What the expansion ROM asks for is tagged so. -/
theorem tag_of_mem_romRequests {k : RegionKind} {cfg : RegisterFile 4096} {headerType size : ℕ}
    {use : BlockUse} (h : .take size use ∈ romRequests k cfg headerType) : use = .rom := by
  unfold romRequests at h
  split at h
  · rw [List.mem_singleton] at h
    injection h
  · cases h

/-- Of the blocks granted to a function, the ones for its BARs. -/
theorem filter_bar_blocks_deviceRequests (a : Arena) (p : ℕ) (k : RegionKind) (prefetch : Bool)
    (cfg : RegisterFile 4096) (headerType barsNum : ℕ) :
    (a.blocks p (deviceRequests k prefetch cfg headerType barsNum)).filter (·.tag = .bar)
      = a.blocks p (barRequests k prefetch cfg barsNum barsNum 0) := by
  have hbar : ∀ b ∈ a.blocks p (barRequests k prefetch cfg barsNum barsNum 0), b.tag = .bar :=
    fun b hb => tag_of_mem_barRequests (a.take_mem_of_mem_blocks hb)
  have hrom (q : ℕ) : ∀ b ∈ a.blocks q (romRequests k cfg headerType), ¬ b.tag = .bar := by
    intro b hb heq
    rw [tag_of_mem_romRequests (a.take_mem_of_mem_blocks hb)] at heq
    cases heq
  unfold deviceRequests
  rw [Arena.blocks_append, List.filter_append, List.filter_eq_self.2 (by simpa using hbar),
    List.filter_eq_nil_iff.2 (by simpa using hrom _), List.append_nil]

/-- **A whole function.** Its set-up makes the steps of the bump allocator of each region of memory
for the BARs and the ROM that go there, and its BARs there are the blocks granted for them. -/
theorem pciautoSetupDevice_spec {k : RegionKind} {res : Option PciRegion} {hw : RegisterFile 4096}
    {pcie : PciController σ} (bridges : List PciDevice) {dev : PciDevice}
    (hconf : ConformingBars hw dev.headerType dev.barsNum) (hnum : dev.barsNum ≤ 6) (hk : k ≠ .io)
    (hdev : hw.SameDevice dev.cfg) (hfresh : ∀ i, dev.bars i = {}) (hsel : pcie.Selected) {p : ℕ}
    (hat : RegionAt pcie k res p)
    (hexact : EveryStep (regionArena res).step (RegionExact res) p
      (deviceRequests k (pcie.ptr .prefetch).isSome hw dev.headerType dev.barsNum)) :
    let reqs := deviceRequests k (pcie.ptr .prefetch).isSome hw dev.headerType dev.barsNum
    let r := pciautoSetupDevice pcie bridges dev pcie.ptr
    RegionAt r.1 k res ((regionArena res).run p reqs) ∧
      (ofKind (pcie.ptr .prefetch).isSome k r.2.slots).map PciBarInfo.block
        = ((regionArena res).blocks p reqs).filter (·.tag = .bar) := by
  intro reqs r
  have hbarsNum : r.2.barsNum = dev.barsNum := by
    rw [(pciautoSetupDevice_frame pcie bridges hnum pcie.ptr).2.record]
  have hexact' := hexact
  unfold deviceRequests at hexact'
  rw [everyStep_append] at hexact'
  have hr : r = pciautoSetupDevice pcie bridges dev pcie.ptr := rfl
  unfold pciautoSetupDevice at hr
  dsimp only at hr
  generalize hst₀ : (⟨pcie, dev, _⟩ : SetupState σ) = st₀ at hr
  have hdev₀ : st₀.dev = dev := by rw [← hst₀]
  have hpcie₀ : st₀.pcie = pcie := by rw [← hst₀]
  -- the loop over the BARs, then the ROM; what follows writes registers only
  obtain ⟨hframe, hat₁, -, hblocks⟩ := @setupBars_spec _ _ _ _ _ _ pcie.ptr
    hconf hnum hk dev.barsNum 0 _ st₀ (by omega) (hdev₀ ▸ hdev) (fun k => by rw [hpcie₀])
    (hpcie₀ ▸ hsel) (hpcie₀ ▸ hat) (fun i _ => by rw [hdev₀]; exact hfresh i) hexact'.1
  generalize setupBars pcie.ptr dev.barsNum dev.barsNum 0 st₀ = st₁ at hframe hat₁ hblocks hr
  have hheader : st₁.dev.headerType = dev.headerType := by rw [hframe.record, hdev₀]
  obtain ⟨hbars₂, hat₂⟩ := @setupRom_spec _ _ _ _ _ _ pcie.ptr hconf _ _ hheader
    ((hdev₀ ▸ hdev : hw.SameDevice st₀.dev.cfg).trans hframe.device)
    (fun k => by rw [hframe.pcie.ptr, hpcie₀]) (hframe.pcie.selected (hpcie₀ ▸ hsel)) hat₁ hexact'.2
  generalize setupRom pcie.ptr st₁ = st₂ at hbars₂ hat₂ hr
  generalize (if pciReadConfig16 st₂.dev pciClassDevice = pciClassDisplayVga then
    st₂.command ||| pciCommandIo else st₂.command) = command at hr
  have hpcie : r.1 = st₂.pcie := by rw [hr]
  have hbars : r.2.bars = st₁.dev.bars := by
    rw [hr]
    exact (pciautoSetupDevice_tail st₂.pcie bridges st₂.dev command).2.1.trans hbars₂
  refine ⟨?_, ?_⟩
  · rw [hpcie]
    show RegionAt _ _ _ (run _ p (deviceRequests _ _ _ _ _))
    unfold deviceRequests
    rw [run_append]
    exact hat₂
  · show _ = ((regionArena res).blocks p (deviceRequests _ _ _ _ _)).filter _
    rw [filter_bar_blocks_deviceRequests, ← hblocks, PciDevice.slots, hbarsNum, hbars, Nat.sub_zero,
      List.range_eq_range']

end BcmPcie
