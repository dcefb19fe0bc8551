import BcmPcie.Irq.Intx
import BcmPcie.Pci.Capability

/-! # Configuration accesses, one by one

What a call does to the configuration space of its function, as the sequence of its reads and writes,
where each may depend on what the reads before it have returned. Run by itself on a function such a
program does what the function of the source does on the record of it; between the accesses of one
call others may come.

* `ConfigProgram` — a sequence of accesses; `ConfigProgram.run` — the program by itself.
* `run_pciIntx`, `run_pciFindCapability` — the programs are those of the functions modelled before. -/

namespace BcmPcie

/-- The accesses of a call to the configuration space of its function, and what it returns. -/
inductive ConfigProgram (α : Type)
  | done (a : α)
  | read (w offset : ℕ) (next : BitVec w → ConfigProgram α)
  | write (w offset : ℕ) (value : BitVec w) (next : ConfigProgram α)

namespace ConfigProgram

variable {α β : Type}

/-- One program after the other. -/
def bind : ConfigProgram α → (α → ConfigProgram β) → ConfigProgram β
  | .done a, f => f a
  | .read w offset next, f => .read w offset fun v => (next v).bind f
  | .write w offset value next, f => .write w offset value (next.bind f)

instance : Monad ConfigProgram where
  pure := .done
  bind := .bind

/-- The program by itself on a configuration space. -/
def run : ConfigProgram α → RegisterFile 4096 → α × RegisterFile 4096
  | .done a, cfg => (a, cfg)
  | .read w offset next, cfg => (next (cfg.read w offset)).run cfg
  | .write w offset value next, cfg => next.run (cfg.write w offset value)

/-- What the program by itself reads: the width and the offset of each field. -/
def reads : ConfigProgram α → RegisterFile 4096 → List (ℕ × ℕ)
  | .done _, _ => []
  | .read w offset next, cfg => (w, offset) :: (next (cfg.read w offset)).reads cfg
  | .write w offset value next, cfg => next.reads (cfg.write w offset value)

@[simp] theorem run_pure (a : α) (cfg : RegisterFile 4096) :
    (pure a : ConfigProgram α).run cfg = (a, cfg) := rfl

@[simp] theorem run_bind (p : ConfigProgram α) (f : α → ConfigProgram β) (cfg : RegisterFile 4096) :
    (p >>= f).run cfg = (f (p.run cfg).1).run (p.run cfg).2 := by
  show (p.bind f).run cfg = _
  induction p generalizing cfg with
  | done a => rfl
  | read w offset next ih => exact ih (cfg.read w offset) cfg
  | write w offset value next ih => exact ih (cfg.write w offset value)

@[simp] theorem reads_pure (a : α) (cfg : RegisterFile 4096) :
    (pure a : ConfigProgram α).reads cfg = [] := rfl

@[simp] theorem reads_bind (p : ConfigProgram α) (f : α → ConfigProgram β) (cfg : RegisterFile 4096) :
    (p >>= f).reads cfg = p.reads cfg ++ (f (p.run cfg).1).reads (p.run cfg).2 := by
  show (p.bind f).reads cfg = _
  induction p generalizing cfg with
  | done a => rfl
  | read w offset next ih => exact congrArg ((w, offset) :: ·) (ih (cfg.read w offset) cfg)
  | write w offset value next ih => exact ih (cfg.write w offset value)

/-! ## Accesses -/

/-- `pci_read_config` of `w` bits: past the end of the space there is no access. -/
def pciReadConfig (w offset : ℕ) : ConfigProgram (BitVec w) :=
  if 4096 ≤ offset then pure (BitVec.allOnes w) else .read w offset pure

/-- `pci_write_config` of `w` bits: past the end of the space there is no access. -/
def pciWriteConfig (w offset : ℕ) (value : BitVec w) : ConfigProgram Unit :=
  if 4096 ≤ offset then pure () else .write w offset value (pure ())

@[simp] theorem run_pciReadConfig (w offset : ℕ) (dev : PciDevice) :
    (pciReadConfig w offset).run dev.cfg = (BcmPcie.pciReadConfig w dev offset, dev.cfg) := by
  unfold pciReadConfig BcmPcie.pciReadConfig
  split <;> rfl

/-- A read makes that read. -/
theorem reads_pciReadConfig (w : ℕ) {offset : ℕ} (cfg : RegisterFile 4096) (h : offset < 4096) :
    (pciReadConfig w offset).reads cfg = [(w, offset)] := by
  unfold pciReadConfig
  rw [if_neg (Nat.not_le.2 h)]
  rfl

@[simp] theorem run_pciWriteConfig (w offset : ℕ) (value : BitVec w) (dev : PciDevice) :
    (pciWriteConfig w offset value).run dev.cfg
      = ((), (BcmPcie.pciWriteConfig w dev offset value).cfg) := by
  unfold pciWriteConfig BcmPcie.pciWriteConfig
  split <;> rfl

/-- `pci_clrset_config16`. -/
def pciClrsetConfig16 (offset : ℕ) (clr set : BitVec 16) : ConfigProgram Unit := do
  let value ← pciReadConfig 16 offset
  pciWriteConfig 16 offset (value &&& ~~~clr ||| set)

/-- `pci_intx`. -/
def pciIntx (enable : Bool) : ConfigProgram Unit := do
  let command ← pciReadConfig 16 pciCommand
  let newCommand := intxCommand command enable
  if newCommand = command then pure () else pciWriteConfig 16 pciCommand newCommand

/-- The accesses of `LibSetMaster`; the result is the command word it reads back. -/
def libSetMaster : ConfigProgram (BitVec 16) := do
  let command ← pciReadConfig 16 pciCommand
  pciWriteConfig 16 pciCommand (command ||| pciCommandMaster)
  pciReadConfig 16 pciCommand

/-! ## Capabilities -/

/-- The walk of `pci_find_next_capability` with `ttl` steps left. -/
def pciFindNextCapability (cap : ℕ) : (ttl pos : ℕ) → ConfigProgram ℕ
  | 0, _ => pure 0
  | ttl + 1, pos =>
    if pos < pciStdHeaderSizeof then pure 0
    else do
      let pos := pos - pos % 4
      let ent ← pciReadConfig 16 pos
      let id := ent.toNat % 256
      if id = 0xff then pure 0
      else if id = cap then pure pos
      else pciFindNextCapability cap ttl (ent.toNat / 256)

/-- `pci_find_capability`. -/
def pciFindCapability (cap : ℕ) : ConfigProgram ℕ := do
  let status ← pciReadConfig 16 pciStatus
  if status &&& pciStatusCapList = 0 then pure 0
  else do
    let headerType ← pciReadConfig 8 pciHeaderType
    let pos ← pciReadConfig 8
      (if headerType.toNat % 128 = pciHeaderTypeCardbus then pciCbCapabilityList
        else pciCapabilityList)
    pciFindNextCapability cap pciFindCapTtl pos.toNat

/-- The loop of `pci_find_next_ext_capability` with `ttl` steps left, on the header read at `pos`. -/
def pciFindNextExtCapability (cap : ℕ) : (ttl pos : ℕ) → BitVec 32 → ConfigProgram ℕ
  | 0, _, _ => pure 0
  | ttl + 1, pos, header =>
    if header.toNat % 65536 = cap then pure pos
    else
      let pos := header.toNat / 1048576 - header.toNat / 1048576 % 4
      if pos < pciCfgSpaceSize then pure 0
      else do
        let header ← pciReadConfig 32 pos
        pciFindNextExtCapability cap ttl pos header

/-- `pci_find_ext_capability`. -/
def pciFindExtCapability (cap : ℕ) : ConfigProgram ℕ := do
  let header ← pciReadConfig 32 pciCfgSpaceSize
  if header = 0 then pure 0
  else
    pciFindNextExtCapability cap ((pciCfgSpaceExpSize - pciCfgSpaceSize) / 8) pciCfgSpaceSize header

/-- `pci_flr`, with whether it has reset the function. -/
def pciFlr : ConfigProgram Bool := do
  let pcieOff ← pciFindCapability pciCapIdExp
  if pcieOff = 0 then pure false
  else do
    let cap ← pciReadConfig 32 (pcieOff + pciExpDevcap)
    if cap &&& pciExpDevcapFlr = 0 then pure false
    else do
      pciClrsetConfig16 (pcieOff + pciExpDevctl) 0 pciExpDevctlBcrFlr
      pure true

/-! ## The programs by themselves -/

/-- The program of `pci_intx`. -/
theorem run_pciIntx (dev : PciDevice) (enable : Bool) :
    (pciIntx enable).run dev.cfg = ((), (BcmPcie.pciIntx dev enable).cfg) := by
  simp only [pciIntx, run_bind, run_pciReadConfig]
  unfold BcmPcie.pciIntx
  dsimp only
  split
  · rfl
  · exact run_pciWriteConfig _ _ _ dev

/-- The walk reads where the walk on the record reads, and writes nothing. -/
theorem run_pciFindNextCapability (dev : PciDevice) (cap ttl pos : ℕ) :
    (pciFindNextCapability cap ttl pos).run dev.cfg
      = (BcmPcie.pciFindNextCapability dev cap ttl pos, dev.cfg) := by
  induction ttl generalizing pos with
  | zero => rfl
  | succ ttl ih =>
    rw [pciFindNextCapability, BcmPcie.pciFindNextCapability]
    split
    · rfl
    · simp only [run_bind, run_pciReadConfig]
      split
      · rfl
      · split
        · rfl
        · exact ih _

/-- The program of `pci_find_capability`. -/
theorem run_pciFindCapability (dev : PciDevice) (cap : ℕ) :
    (pciFindCapability cap).run dev.cfg = (BcmPcie.pciFindCapability dev cap, dev.cfg) := by
  simp only [pciFindCapability, run_bind, run_pciReadConfig]
  unfold BcmPcie.pciFindCapability
  split
  · rfl
  · simp only [run_bind, run_pciReadConfig]
    exact run_pciFindNextCapability dev cap _ _

/-- Looking for an extended capability writes nothing. -/
theorem run_pciFindExtCapability (dev : PciDevice) (cap : ℕ) :
    ((pciFindExtCapability cap).run dev.cfg).2 = dev.cfg := by
  have hloop : ∀ (ttl pos : ℕ) (header : BitVec 32),
      ((pciFindNextExtCapability cap ttl pos header).run dev.cfg).2 = dev.cfg := by
    intro ttl
    induction ttl with
    | zero => exact fun _ _ => rfl
    | succ ttl ih =>
      intro pos header
      rw [pciFindNextExtCapability]
      split
      · rfl
      · dsimp only
        split
        · rfl
        · simp only [run_bind, run_pciReadConfig]
          exact ih _ _
  simp only [pciFindExtCapability, run_bind, run_pciReadConfig]
  split
  · rfl
  · exact hloop _ _ _

end ConfigProgram

end BcmPcie
