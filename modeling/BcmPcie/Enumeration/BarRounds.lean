import BcmPcie.Enumeration.BarLayout

/-! # The loop over the BARs, round by round

The loop of `pciauto_setup_device` goes on by one slot or by two, as the BAR it has just sized turned
out, and each round finds the regions as the rounds before it left them. What became of a BAR is what
its own round made of it: the rounds behind it write other registers.

* `barGrant`, `barRounds` — what a round is granted, and the rounds the loop makes.
* `mem_barRounds` — the loop from any of its rounds on.
* `granted_outcome`, `present_of_rounds` — the registers and the record of a BAR behind the set-up. -/

namespace BcmPcie

variable {σ : Type*}

/-- What the round of a slot is granted for its BAR: an address, and the controller without it. -/
def barGrant (regions : RegionKind → Option ℕ) (st : SetupState σ) (slot : ℕ) :
    Option (BitVec 32 × PciController σ) :=
  let response := barResponse st.dev.cfg slot
  if response = 0 ∨ response = 0xffffffff#32 then none
  else st.pcie.allocate (regions (barKind (regions .prefetch).isSome response)) (barSize response)
    (isMem64Bar response)

/-- The rounds of `setupBars`: the slots the loop comes to, with the state it finds at each. -/
def barRounds (regions : RegionKind → Option ℕ) (barsNum : ℕ) :
    (rounds slot : ℕ) → SetupState σ → List (ℕ × SetupState σ)
  | 0, _, _ => []
  | rounds + 1, slot, st =>
    if slot < barsNum then
      let next := setupBar regions st slot
      (slot, st) :: barRounds regions barsNum rounds next.2 next.1
    else []

variable {regions : RegionKind → Option ℕ} {st st' : SetupState σ} {slot : ℕ}

/-! ## One round -/

section Round

/-- The slots a round goes on by. -/
def slotsTaken (regions : RegionKind → Option ℕ) (st : SetupState σ) (slot : ℕ) : ℕ :=
  if (barGrant regions st slot).isSome && isMem64Bar (barResponse st.dev.cfg slot) then 2 else 1

/-- A round goes on behind the slots it takes. -/
theorem setupBar_snd (regions : RegionKind → Option ℕ) (st : SetupState σ) (hslot : slot < 7) :
    (setupBar regions st slot).2 = slot + slotsTaken regions st slot := by
  obtain ⟨dev, -, hround⟩ := setupBar_round regions st hslot rfl
  unfold slotsTaken barGrant
  dsimp only
  rcases hround with ⟨hnone, heq⟩ | ⟨hbar, hfailed, heq⟩ | ⟨hbar, addr, pcie, halloc, -, heq⟩
  · rw [heq, if_pos hnone]
    rfl
  · rw [heq, if_neg hbar, hfailed]
    rfl
  · rw [heq, if_neg hbar, halloc]
    simp

/-- The registers from a slot on. -/
def barsFrom (slot : ℕ) : ℕ × ℕ := (pciBaseAddress0 + 4 * slot, 4 * (8 - slot))

/-- A round writes the registers of its slot and the next, and fills in its slot alone. -/
theorem setupBar_keeps (regions : RegionKind → Option ℕ) (st : SetupState σ) (hslot : slot < 7) :
    SetupFrame [barsFrom slot] st (setupBar regions st slot).1 ∧
      ∀ s, s ≠ slot → (setupBar regions st slot).1.dev.bars s = st.dev.bars s := by
  obtain ⟨dev, hdev, hround⟩ := setupBar_round regions st hslot rfl
  have hdev : Rewritten [barsFrom slot] st.dev dev := by
    refine hdev.widen fun r hr => ⟨_, List.mem_singleton_self _, ?_⟩
    obtain rfl := List.mem_singleton.1 hr
    simp only [barRegisters, barsFrom]
    split <;> omega
  rcases hround with ⟨-, heq⟩ | ⟨-, -, heq⟩ | ⟨-, addr, pcie, halloc, -, heq⟩
  · rw [heq]
    exact ⟨SetupFrame.of_rewritten hdev, fun s _ => by rw [hdev.bars]⟩
  · rw [heq]
    exact ⟨SetupFrame.of_rewritten hdev, fun s _ => by rw [hdev.bars]⟩
  · rw [heq]
    exact ⟨⟨OnlyRegions.allocate halloc, by rw [hdev.record], hdev.device, hdev.outside⟩,
      fun s hs => Function.update_of_ne hs _ _⟩

/-- The round of a BAR that gets no address leaves the record of its slot as it was. -/
theorem setupBar_bars_of_none (hslot : slot < 7) (h : barGrant regions st slot = none) :
    (setupBar regions st slot).1.dev.bars slot = st.dev.bars slot := by
  obtain ⟨dev, hdev, hround⟩ := setupBar_round regions st hslot rfl
  unfold barGrant at h
  dsimp only at h
  rcases hround with ⟨-, heq⟩ | ⟨-, -, heq⟩ | ⟨hbar, addr, pcie, halloc, -, heq⟩
  · rw [heq, hdev.bars]
  · rw [heq, hdev.bars]
  · rw [if_neg hbar, halloc] at h
    cases h

/-- The round of a BAR that gets an address fills in the record of its slot and puts the address into
its registers. -/
theorem setupBar_granted (hslot : slot < 7) {addr : BitVec 32} {pcie : PciController σ}
    (h : barGrant regions st slot = some (addr, pcie)) :
    let response := barResponse st.dev.cfg slot
    let dev := (setupBar regions st slot).1.dev
    dev.bars slot = barInfo pcie (isIoBar response) (barSizing response) addr ∧
      pciReadConfig32 dev (pciBaseAddress0 + 4 * slot)
        = st.dev.cfg.response 32 (pciBaseAddress0 + 4 * slot) addr ∧
      (isMem64Bar response = true → pciReadConfig32 dev (pciBaseAddress0 + 4 * slot + 4)
        = st.dev.cfg.response 32 (pciBaseAddress0 + 4 * slot + 4) 0) := by
  obtain ⟨dev, -, hround⟩ := setupBar_round regions st hslot rfl
  unfold barGrant at h
  dsimp only at h ⊢
  rcases hround with ⟨hnone, -⟩ | ⟨hbar, hfailed, -⟩ | ⟨hbar, addr', pcie', halloc, hread, heq⟩
  · rw [if_pos hnone] at h
    cases h
  · rw [if_neg hbar, hfailed] at h
    cases h
  · rw [if_neg hbar, halloc] at h
    obtain ⟨rfl, rfl⟩ := Prod.mk.inj (Option.some.inj h)
    rw [heq]
    exact ⟨Function.update_self .., hread⟩

/-- A bit that is set stays set when others are added. -/
theorem and_of_or {w : ℕ} {c d m : BitVec w} (h : c &&& m = m ∨ d &&& m = m) :
    (c ||| d) &&& m = m := by
  apply BitVec.eq_of_getLsbD_eq
  intro i hi
  rw [BitVec.getLsbD_and, BitVec.getLsbD_or]
  rcases h with h | h
  all_goals
    have hbit := congrArg (BitVec.getLsbD · i) h
    simp only [BitVec.getLsbD_and] at hbit
    rw [Bool.and_or_distrib_right, hbit]
  · exact Bool.or_eq_left_iff_imp.2 fun h => (Bool.and_eq_true_iff.1 h).2
  · exact Bool.or_eq_right_iff_imp.2 fun h => (Bool.and_eq_true_iff.1 h).2

/-- No bit of the command value is taken back. -/
theorem setupBar_command (hslot : slot < 7) {m : BitVec 16} (h : st.command &&& m = m) :
    (setupBar regions st slot).1.command &&& m = m := by
  obtain ⟨dev, -, hround⟩ := setupBar_round regions st hslot rfl
  rcases hround with ⟨-, heq⟩ | ⟨-, -, heq⟩ | ⟨-, addr, pcie, -, -, heq⟩
  · rw [heq]
    exact h
  · rw [heq]
    exact and_of_or (Or.inl h)
  · rw [heq]
    exact and_of_or (Or.inl h)

/-- A BAR is let decode, placed or not. -/
theorem setupBar_barCommand (hslot : slot < 7)
    (hbar : ¬ (barResponse st.dev.cfg slot = 0 ∨ barResponse st.dev.cfg slot = 0xffffffff#32)) :
    (setupBar regions st slot).1.command &&& barCommand (barResponse st.dev.cfg slot)
      = barCommand (barResponse st.dev.cfg slot) := by
  obtain ⟨dev, -, hround⟩ := setupBar_round regions st hslot rfl
  rcases hround with ⟨hnone, -⟩ | ⟨-, -, heq⟩ | ⟨-, addr, pcie, -, -, heq⟩
  · exact absurd hnone hbar
  · rw [heq]
    exact and_of_or (Or.inr (BitVec.and_self ..))
  · rw [heq]
    exact and_of_or (Or.inr (BitVec.and_self ..))

end Round

/-! ## The whole loop -/

section Loop

variable {barsNum : ℕ}

/-- The registers of later slots are among those of earlier ones and later. -/
theorem barsFrom_within {n m : ℕ} (h : n ≤ m) (hm : m ≤ 8) :
    ∀ r ∈ [barsFrom m], ∃ r' ∈ [barsFrom n], r'.1 ≤ r.1 ∧ r.1 + r.2 ≤ r'.1 + r'.2 := by
  intro r hr
  obtain rfl := List.mem_singleton.1 hr
  refine ⟨_, List.mem_singleton_self _, ?_⟩
  simp only [barsFrom]
  omega

/-- A round takes one slot or two. -/
theorem slotsTaken_bounds (regions : RegionKind → Option ℕ) (st : SetupState σ) (slot : ℕ) :
    0 < slotsTaken regions st slot ∧ slotsTaken regions st slot ≤ 2 := by
  unfold slotsTaken
  split <;> omega

/-- The loop from a slot on leaves the slots before it alone, and takes back no bit of the command
value. -/
theorem setupBars_keeps (hnum : barsNum ≤ 6) (rounds : ℕ) (hslot : slot ≤ 8) :
    SetupFrame [barsFrom slot] st (setupBars regions barsNum rounds slot st) ∧
      (∀ s < slot, (setupBars regions barsNum rounds slot st).dev.bars s = st.dev.bars s) ∧
      ∀ m, st.command &&& m = m →
        (setupBars regions barsNum rounds slot st).command &&& m = m := by
  induction rounds generalizing slot st with
  | zero => exact ⟨SetupFrame.refl _ _, fun _ _ => rfl, fun _ h => h⟩
  | succ rounds ih =>
    rw [setupBars]
    by_cases hlt : slot < barsNum
    · have htaken := slotsTaken_bounds regions st slot
      have hnext := setupBar_snd regions st (by omega : slot < 7)
      obtain ⟨hframe, hbars⟩ := setupBar_keeps regions st (by omega : slot < 7)
      obtain ⟨hframe', hbars', hcommand'⟩ := @ih (setupBar regions st slot).1
        (setupBar regions st slot).2 (by omega)
      have hwide : SetupFrame [barsFrom slot] (setupBar regions st slot).1
          (setupBars regions barsNum rounds (setupBar regions st slot).2
            (setupBar regions st slot).1) :=
        ⟨hframe'.pcie, hframe'.record, hframe'.device,
          hframe'.outside.widen (barsFrom_within (by omega) (by omega))⟩
      rw [if_pos hlt]
      refine ⟨hframe.trans hwide, fun s hs => ?_, fun m hm => ?_⟩
      · exact (hbars' s (by omega)).trans (hbars s (by omega))
      · exact hcommand' m (setupBar_command (by omega) hm)
    · rw [if_neg hlt]
      exact ⟨SetupFrame.refl _ _, fun _ _ => rfl, fun _ h => h⟩

/-- **The loop from any of its rounds on**: it is the loop from the next slot, with the rounds that are
left. -/
theorem mem_barRounds (hnum : barsNum ≤ 6) {rounds s : ℕ}
    (h : (s, st') ∈ barRounds regions barsNum rounds slot st) :
    slot ≤ s ∧ s < barsNum ∧ st.dev.cfg.SameDevice st'.dev.cfg ∧
      st'.dev.bars s = st.dev.bars s ∧ ∃ rounds',
        setupBars regions barsNum rounds slot st
          = setupBars regions barsNum rounds' (setupBar regions st' s).2 (setupBar regions st' s).1 ∧
        (∀ v ∈ barRounds regions barsNum rounds' (setupBar regions st' s).2
            (setupBar regions st' s).1, v ∈ barRounds regions barsNum rounds slot st) ∧
        (barsNum ≤ slot + rounds → barsNum ≤ (setupBar regions st' s).2 + rounds') := by
  -- on the rounds left: the round asked for is this one, or one of those behind it
  induction rounds generalizing slot st with
  | zero => cases h
  | succ rounds ih =>
    rw [barRounds] at h
    by_cases hlt : slot < barsNum
    · rw [if_pos hlt] at h
      have hloop : setupBars regions barsNum (rounds + 1) slot st
          = setupBars regions barsNum rounds (setupBar regions st slot).2
              (setupBar regions st slot).1 := by
        rw [setupBars, if_pos hlt]
      have hrounds : barRounds regions barsNum (rounds + 1) slot st
          = (slot, st) :: barRounds regions barsNum rounds (setupBar regions st slot).2
              (setupBar regions st slot).1 := by
        rw [barRounds, if_pos hlt]
      have hnext := setupBar_snd regions st (by omega : slot < 7)
      have htaken := slotsTaken_bounds regions st slot
      rcases List.mem_cons.1 h with heq | htail
      · obtain ⟨rfl, rfl⟩ := Prod.mk.inj heq
        refine ⟨le_rfl, hlt, RegisterFile.SameDevice.refl _, rfl, rounds, hloop, fun v hv => ?_, ?_⟩
        · rw [hrounds]
          exact List.mem_cons_of_mem _ hv
        · omega
      · obtain ⟨hframe, hbars⟩ := setupBar_keeps regions st (by omega : slot < 7)
        obtain ⟨hle, hs, hdev, hkept, rounds', hloop', hmem, hleft⟩ := ih htail
        refine ⟨by omega, hs, hframe.device.trans hdev, hkept.trans (hbars s (by omega)), rounds',
          hloop.trans hloop', fun v hv => ?_, fun h => hleft (by omega)⟩
        rw [hrounds]
        exact List.mem_cons_of_mem _ (hmem v hv)
    · rw [if_neg hlt] at h
      cases h

/-- The next slot has a round too. -/
theorem next_mem_barRounds (hnum : barsNum ≤ 6) {rounds s : ℕ} (hrounds : barsNum ≤ slot + rounds)
    (h : (s, st') ∈ barRounds regions barsNum rounds slot st)
    (hnext : (setupBar regions st' s).2 < barsNum) :
    ((setupBar regions st' s).2, (setupBar regions st' s).1)
      ∈ barRounds regions barsNum rounds slot st := by
  obtain ⟨-, -, -, -, rounds', -, hmem, hleft⟩ := mem_barRounds hnum h
  have hleft := hleft hrounds
  apply hmem
  cases rounds' with
  | zero => omega
  | succ rounds' =>
    rw [barRounds, if_pos hnext]
    exact List.mem_cons_self ..

/-- A slot has one round at most. -/
theorem barRounds_unique (hnum : barsNum ≤ 6) {rounds s : ℕ} {st'' : SetupState σ}
    (h : (s, st') ∈ barRounds regions barsNum rounds slot st)
    (h' : (s, st'') ∈ barRounds regions barsNum rounds slot st) : st' = st'' := by
  induction rounds generalizing slot st with
  | zero => cases h
  | succ rounds ih =>
    rw [barRounds] at h h'
    by_cases hlt : slot < barsNum
    · rw [if_pos hlt] at h h'
      have hnext := setupBar_snd regions st (by omega : slot < 7)
      have htaken := slotsTaken_bounds regions st slot
      have hlater {st₀ : SetupState σ} (hmem : (s, st₀) ∈ barRounds regions barsNum rounds
          (setupBar regions st slot).2 (setupBar regions st slot).1) : slot < s := by
        have hle := (mem_barRounds hnum hmem).1
        omega
      rcases List.mem_cons.1 h with heq | htail <;> rcases List.mem_cons.1 h' with heq' | htail'
      · exact (Prod.mk.inj heq).2.trans (Prod.mk.inj heq').2.symm
      · exact absurd (hlater htail') (by rw [(Prod.mk.inj heq).1]; exact lt_irrefl _)
      · exact absurd (hlater htail) (by rw [(Prod.mk.inj heq').1]; exact lt_irrefl _)
      · exact ih htail htail'
    · rw [if_neg hlt] at h
      cases h

/-- Behind the loop a BAR stands as its round left it. -/
theorem round_outcome (hnum : barsNum ≤ 6) {rounds s : ℕ}
    (h : (s, st') ∈ barRounds regions barsNum rounds slot st) :
    let final := setupBars regions barsNum rounds slot st
    let next := setupBar regions st' s
    (∀ r < next.2, final.dev.bars r = next.1.dev.bars r ∧
        pciReadConfig32 final.dev (pciBaseAddress0 + 4 * r)
          = pciReadConfig32 next.1.dev (pciBaseAddress0 + 4 * r)) ∧
      ∀ m, next.1.command &&& m = m → final.command &&& m = m := by
  intro final next
  obtain ⟨-, hs, -, -, rounds', hloop, -, -⟩ := mem_barRounds hnum h
  have hnext := setupBar_snd regions st' (by omega : s < 7)
  have htaken := slotsTaken_bounds regions st' s
  have hle : next.2 ≤ 8 := by
    show (setupBar regions st' s).2 ≤ 8
    omega
  obtain ⟨hframe, hbars, hcommand⟩ :=
    @setupBars_keeps _ regions next.1 _ _ hnum rounds' hle
  have hfinal : final = setupBars regions barsNum rounds' next.2 next.1 := hloop
  rw [hfinal]
  refine ⟨fun r hr => ⟨hbars r hr, ?_⟩, hcommand⟩
  refine pciReadConfig_of_sameOutside hframe.outside fun range hrange => ?_
  obtain rfl := List.mem_singleton.1 hrange
  refine Or.inr ?_
  simp only [barsFrom]
  omega

/-- A slot that has a BAR behind the loop had it before, or in its round an address was granted. -/
theorem present_of_rounds (hnum : barsNum ≤ 6) {rounds s : ℕ}
    (h : ((setupBars regions barsNum rounds slot st).dev.bars s).present = true) :
    (st.dev.bars s).present = true ∨
      ∃ st', (s, st') ∈ barRounds regions barsNum rounds slot st ∧
        (barGrant regions st' s).isSome = true := by
  induction rounds generalizing slot st with
  | zero => exact Or.inl h
  | succ rounds ih =>
    rw [setupBars] at h
    rw [barRounds]
    by_cases hlt : slot < barsNum
    · rw [if_pos hlt] at h ⊢
      rcases ih h with hbefore | ⟨st', hmem, hgrant⟩
      · by_cases hs : s = slot
        · rw [hs] at hbefore ⊢
          cases hgrant : barGrant regions st slot with
          | none =>
            rw [setupBar_bars_of_none (by omega) hgrant] at hbefore
            exact Or.inl hbefore
          | some r => exact Or.inr ⟨st, List.mem_cons_self .., by rw [hgrant]; rfl⟩
        · rw [(setupBar_keeps regions st (by omega)).2 s hs] at hbefore
          exact Or.inl hbefore
      · exact Or.inr ⟨st', List.mem_cons_of_mem _ hmem, hgrant⟩
    · rw [if_neg hlt] at h
      exact Or.inl h

end Loop

/-! ## The whole function -/

/-- What the loop starts with: the function as it is, decoding turned off in the command value. -/
def setupStart (pcie : PciController σ) (dev : PciDevice) : SetupState σ :=
  ⟨pcie, dev, (pciReadConfig16 dev pciCommand &&& ~~~(pciCommandIo ||| pciCommandMemory)) |||
    pciCommandMaster⟩

/-- The rounds that the set-up of a function makes over its BARs. -/
def deviceRounds (pcie : PciController σ) (dev : PciDevice) (regions : RegionKind → Option ℕ) :
    List (ℕ × SetupState σ) :=
  barRounds regions dev.barsNum dev.barsNum 0 (setupStart pcie dev)

/-- The expansion ROM leaves the BARs alone, and takes back no bit of the command value. -/
theorem setupRom_keeps (regions : RegionKind → Option ℕ) (st : SetupState σ) :
    (setupRom regions st).dev.bars = st.dev.bars ∧
      ∀ m, st.command &&& m = m → (setupRom regions st).command &&& m = m := by
  unfold setupRom
  cases romOffset st.dev.headerType with
  | none => exact ⟨rfl, fun _ h => h⟩
  | some romAddr =>
    dsimp only
    split
    · exact ⟨rfl, fun _ h => h⟩
    · split <;> exact ⟨rfl, fun _ h => and_of_or (Or.inl h)⟩

/-- What the set-up of a function does behind the loop over its BARs: the BARs keep their registers and
records, and the command register gets all bits of the command value. -/
theorem pciautoSetupDevice_loop (pcie : PciController σ) (bridges : List PciDevice)
    (dev : PciDevice) (hnum : dev.barsNum ≤ 6) (regions : RegionKind → Option ℕ) :
    let st := setupBars regions dev.barsNum dev.barsNum 0 (setupStart pcie dev)
    let final := (pciautoSetupDevice pcie bridges dev regions).2
    final.bars = st.dev.bars ∧
      (∀ r < 6, pciReadConfig32 final (pciBaseAddress0 + 4 * r)
        = pciReadConfig32 st.dev (pciBaseAddress0 + 4 * r)) ∧
      ∃ command, (∀ m, st.command &&& m = m → command &&& m = m) ∧
        pciReadConfig16 final pciCommand = dev.cfg.response 16 pciCommand command := by
  intro st final
  have hloop : SetupFrame [barsFrom 0] (setupStart pcie dev) st :=
    (setupBars_keeps hnum dev.barsNum (Nat.zero_le 8)).1
  have hrom := setupRom_frame regions st
  obtain ⟨hromBars, hromCommand⟩ := setupRom_keeps regions st
  have hfinal : final = (pciautoSetupDevice pcie bridges dev regions).2 := rfl
  unfold pciautoSetupDevice at hfinal
  dsimp only at hfinal
  -- the loop of the code is the one above
  have hst : setupBars regions dev.barsNum dev.barsNum 0 ⟨pcie, dev,
      (pciReadConfig16 dev pciCommand &&& ~~~(pciCommandIo ||| pciCommandMemory)) |||
        pciCommandMaster⟩ = st := rfl
  rw [hst] at hfinal
  generalize setupRom regions st = st₂ at hrom hromBars hromCommand hfinal
  generalize hcmd : (if pciReadConfig16 st₂.dev pciClassDevice = pciClassDisplayVga then
    st₂.command ||| pciCommandIo else st₂.command) = command at hfinal
  obtain ⟨htail, htailBars, hread⟩ := pciautoSetupDevice_tail st₂.pcie bridges st₂.dev command
  rw [← hfinal] at htail htailBars hread
  refine ⟨htailBars.trans hromBars, fun r hr => ?_, command, fun m hm => ?_, ?_⟩
  · have hap : ∀ range ∈ tailRanges ++ romRanges,
        RegisterFile.Apart (8 * range.2) range.1 32 (pciBaseAddress0 + 4 * r) := by
      intro range hrange
      simp only [tailRanges, behindRanges, romRanges, List.cons_append, List.nil_append,
        List.mem_cons, List.not_mem_nil, or_false] at hrange
      unfold RegisterFile.Apart
      rcases hrange with rfl | rfl | rfl | rfl | rfl | rfl | rfl
      all_goals
        simp only [pciBaseAddress0, pciCommand, pciCacheLineSize, pciLatencyTimer,
          pciInterruptLine, pciRomAddress, pciRomAddress1]
        omega
    refine (htail.read fun range hrange => hap range (List.mem_append_left _ hrange)).trans ?_
    exact pciReadConfig_of_sameOutside hrom.outside fun range hrange =>
      hap range (List.mem_append_right _ hrange)
  · have hm₂ := hromCommand m hm
    rw [← hcmd]
    split
    · exact and_of_or (Or.inl hm₂)
    · exact hm₂
  · exact hread.trans ((hloop.device.trans hrom.device).response _ _ _)

/-- **A BAR that got an address**: behind the set-up its record and its registers are those of that
address, which is aligned as the size is. -/
theorem granted_outcome {pcie pcie' : PciController σ} (bridges : List PciDevice) {dev : PciDevice}
    (hnum : dev.barsNum ≤ 6) {s : ℕ} {addr : BitVec 32} (h : (s, st') ∈ deviceRounds pcie dev regions)
    (hgrant : barGrant regions st' s = some (addr, pcie')) :
    let final := (pciautoSetupDevice pcie bridges dev regions).2
    let response := barResponse dev.cfg s
    final.bars s = barInfo pcie' (isIoBar response) (barSizing response) addr ∧
      pciReadConfig32 final (pciBaseAddress0 + 4 * s)
        = dev.cfg.response 32 (pciBaseAddress0 + 4 * s) addr ∧
      (isMem64Bar response = true → s + 1 < 6 →
        pciReadConfig32 final (pciBaseAddress0 + 4 * s + 4)
          = dev.cfg.response 32 (pciBaseAddress0 + 4 * s + 4) 0) ∧
      ∀ k ≤ 32, 2 ^ k ∣ (barSize response).toNat → 2 ^ k ∣ addr.toNat := by
  intro final response
  obtain ⟨-, hs, hdev, -, -⟩ := mem_barRounds hnum h
  obtain ⟨hbars, hregs, -⟩ := pciautoSetupDevice_loop pcie bridges dev hnum regions
  -- no later round touches the slots that this one took
  obtain ⟨hround, -⟩ := round_outcome hnum h
  have hresponse : barResponse st'.dev.cfg s = response := hdev.response _ _ _
  have hgranted := setupBar_granted (by omega) hgrant
  rw [hresponse] at hgranted
  obtain ⟨hinfo, hlow, hhigh⟩ := hgranted
  have hnext := setupBar_snd regions st' (by omega : s < 7)
  have htaken := slotsTaken_bounds regions st' s
  refine ⟨?_, ?_, fun h64 hs' => ?_, fun k hk hdvd => ?_⟩
  · rw [hbars, (hround s (by omega)).1]
    exact hinfo
  · rw [hregs s (by omega), (hround s (by omega)).2]
    exact hlow.trans (hdev.response _ _ _)
  · have htwo : slotsTaken regions st' s = 2 := by
      unfold slotsTaken
      rw [hresponse, hgrant, h64]
      rfl
    have hupper := (hregs (s + 1) hs').trans (hround (s + 1) (by omega)).2
    exact hupper.trans ((hhigh h64).trans (hdev.response _ _ _))
  · unfold barGrant at hgrant
    dsimp only at hgrant
    rw [hresponse] at hgrant
    split at hgrant
    · cases hgrant
    · exact PciController.allocate_dvd hk hdvd hgrant

end BcmPcie
