import BcmPcie.Library.Polling
import BcmPcie.Pci.Constants
import Mathlib.Order.Monotone.Defs

/-! # Watching a link

`pciauto_exp_link_stable` of `pci_auto.c`: the link status of a port is sampled for 200 ms, or until the
link is active, and a link that has not been training in the second half of the samples is taken for
stable. The time is that of a clock of 32 bits, which wraps around every 72 minutes.

* `pciautoExpLinkStable` — the function, over the samples and the readings of the clock.
* `SamplingEnds`, `Stable` — when sampling is to end, and what is to be found.
* `linkChecked_iff` — when the function does so. -/

namespace BcmPcie

open Polling

/-! ## The function -/

/-- `PCI_EXP_LNKSTA_DLLLA` and `PCI_EXP_LNKSTA_LT` of a link status. -/
def linkActive (expLnksta : BitVec 16) : Bool := decide (expLnksta &&& pciExpLnkstaDllla ≠ 0)
def linkTraining (expLnksta : BitVec 16) : Bool := decide (expLnksta &&& pciExpLnkstaLt ≠ 0)

/-- The local variables of the loop. -/
structure LinkLoop where
  loops : BitVec 32 := 0
  trcount : BitVec 32 := 0
  ntrcount : BitVec 32 := 0
  flips : BitVec 32 := 0
  plnktr : Bool
  dllla : Bool := false
  deriving DecidableEq, Repr

/-- The body of the loop, for sample `n`. -/
def linkStep (sample : ℕ → BitVec 16) (n : ℕ) (st : LinkLoop) : LinkLoop :=
  let dllla := linkActive (sample n)
  let lnktr := linkTraining (sample n)
  { loops := st.loops + 1
    trcount := if lnktr then st.trcount + 1 else st.trcount
    ntrcount := if lnktr then 0 else st.ntrcount + 1
    flips := st.flips + if st.plnktr ≠ lnktr then 1 else 0
    plnktr := lnktr
    dllla := dllla }

/-- The condition of the loop; the clock is read behind each sample that is not of an active link. -/
def linkAgain (clock : ℕ → BitVec 32) (deadline : BitVec 32) (n : ℕ) (st : LinkLoop) : Bool :=
  !st.dllla && decide (clock n < deadline)

/-- `pciauto_exp_link_stable`: how many samples it takes, and what it returns. Sample 0 and reading 0 of
the clock are those in front of the loop. -/
def pciautoExpLinkStable (sample : ℕ → BitVec 16) (clock : ℕ → BitVec 32) (fuel : ℕ) :
    Option (ℕ × Bool) :=
  let plnktr := linkTraining (sample 0)
  let deadline := clock 0 + 200000
  (poll (linkStep sample) (linkAgain clock deadline) fuel 0 { plnktr }).map fun r =>
    (r.1, r.2.dllla || decide (r.2.loops / 2 ≤ r.2.ntrcount))

/-! ## What it is for -/

/-- `get_time`, of a count of microseconds. -/
def getTime (time : ℕ → ℕ) (n : ℕ) : BitVec 32 := BitVec.ofNat 32 (time n)

/-- Sample `m` is the last one to be taken: the link is active, or 200 ms have passed. -/
structure SamplingEnds (sample : ℕ → BitVec 16) (time : ℕ → ℕ) (m : ℕ) : Prop where
  pos : 0 < m
  ended : linkActive (sample m) = true ∨ time 0 + 200000 ≤ time m
  before : ∀ n, 0 < n → n < m → linkActive (sample n) = false ∧ time n < time 0 + 200000

/-- The link is active in sample `m`, or has not been training in the second half of the samples. -/
def Stable (sample : ℕ → BitVec 16) (m : ℕ) : Prop :=
  linkActive (sample m) = true ∨ ∀ n, m - m / 2 < n → n ≤ m → linkTraining (sample n) = false

/-- The function takes `m` samples, and finds the link stable if it is. -/
def LinkChecked (sample : ℕ → BitVec 16) (time : ℕ → ℕ) (m : ℕ) : Prop :=
  ∃ fuel stable, pciautoExpLinkStable sample (getTime time) fuel = some (m, stable) ∧
    (stable = true ↔ Stable sample m)

/-! ## Counters -/

/-- The samples that are not of a training link. -/
def quiet (sample : ℕ → BitVec 16) (n : ℕ) : Bool := !linkTraining (sample n)

/-- The counters behind sample `n`, with the wraps of 32 bits. -/
theorem linkLoop_after (sample : ℕ → BitVec 16) (plnktr : Bool) (n : ℕ) :
    (after (linkStep sample) { plnktr } n).loops = BitVec.ofNat 32 n ∧
      (after (linkStep sample) { plnktr } n).ntrcount
        = BitVec.ofNat 32 (trailing (quiet sample) n) := by
  induction n with
  | zero => exact ⟨rfl, rfl⟩
  | succ n ih =>
    rw [after]
    generalize after (linkStep sample) { plnktr } n = st at ih
    obtain ⟨hloops, hntrcount⟩ := ih
    unfold linkStep
    dsimp only
    rw [hloops, hntrcount, trailing, BitVec.ofNat_add]
    refine ⟨rfl, ?_⟩
    cases htraining : linkTraining (sample (n + 1)) with
    | true =>
      rw [if_pos rfl, quiet, htraining]
      rfl
    | false =>
      rw [if_neg Bool.false_ne_true, quiet, htraining, Bool.not_false, if_pos rfl, BitVec.ofNat_add]
      rfl

/-- The loop has seen the last sample. -/
theorem dllla_after (sample : ℕ → BitVec 16) (st : LinkLoop) {n : ℕ} (hn : 0 < n) :
    (after (linkStep sample) st n).dllla = linkActive (sample n) := by
  cases n with
  | zero => cases hn
  | succ n => rfl

/-- Half of the samples have been taken in a row from a link that is not training. -/
theorem half_le_trailing_iff (sample : ℕ → BitVec 16) (m : ℕ) :
    m / 2 ≤ trailing (quiet sample) m ↔
      ∀ n, m - m / 2 < n → n ≤ m → linkTraining (sample n) = false := by
  rw [le_trailing_iff _ (Nat.div_le_self m 2)]
  refine forall_congr' fun n => imp_congr_right fun _ => imp_congr_right fun _ => ?_
  unfold quiet
  rw [Bool.not_eq_true']

/-! ## When the function does what it is for -/

/-- The clock does not wrap around between a reading that is to be followed by another one and the
deadline, and the last reading is not in front of the deadline again. -/
structure DeadlineHolds (sample : ℕ → BitVec 16) (time : ℕ → ℕ) (m : ℕ) : Prop where
  before : ∀ n, 0 < n → n < m → time n / 2 ^ 32 = (time 0 + 200000) / 2 ^ 32
  last : linkActive (sample m) = true ∨ (time 0 + 200000) % 2 ^ 32 ≤ time m % 2 ^ 32

/-- The counters compare as what they count does. -/
def CountersHold (sample : ℕ → BitVec 16) (m : ℕ) : Prop :=
  linkActive (sample m) = true ∨
    (m % 2 ^ 32 / 2 ≤ trailing (quiet sample) m % 2 ^ 32 ↔ m / 2 ≤ trailing (quiet sample) m)

/-- The counters hold as long as there are fewer than 2^32 samples. -/
theorem countersHold_of_lt (sample : ℕ → BitVec 16) {m : ℕ} (hm : m < 2 ^ 32) :
    CountersHold sample m := by
  have hle := trailing_le (quiet sample) m
  unfold CountersHold
  rw [Nat.mod_eq_of_lt hm, Nat.mod_eq_of_lt (hle.trans_lt hm)]
  exact Or.inr Iff.rfl

/-- The condition of the loop, of a link that is not active. -/
theorem linkAgain_iff {sample : ℕ → BitVec 16} {time : ℕ → ℕ} {st : LinkLoop} {n : ℕ} (hn : 0 < n) :
    linkAgain (getTime time) (getTime time 0 + 200000) n (after (linkStep sample) st n) = true ↔
      linkActive (sample n) = false ∧ time n % 2 ^ 32 < (time 0 + 200000) % 2 ^ 32 := by
  unfold linkAgain
  rw [Bool.and_eq_true, decide_eq_true_iff, dllla_after sample st hn, Bool.not_eq_true']
  have hdeadline : getTime time 0 + 200000 = BitVec.ofNat 32 (time 0 + 200000) := by
    rw [BitVec.ofNat_add]
    rfl
  rw [hdeadline, BitVec.lt_def, getTime, BitVec.toNat_ofNat, BitVec.toNat_ofNat]

/-- What is returned behind sample `m`. -/
theorem verdict_after (sample : ℕ → BitVec 16) (plnktr : Bool) {m : ℕ} (hm : 0 < m) :
    ((after (linkStep sample) { plnktr } m).dllla ||
        decide ((after (linkStep sample) { plnktr } m).loops / 2
          ≤ (after (linkStep sample) { plnktr } m).ntrcount))
      = (linkActive (sample m) ||
          decide (m % 2 ^ 32 / 2 ≤ trailing (quiet sample) m % 2 ^ 32)) := by
  obtain ⟨hloops, hntrcount⟩ := linkLoop_after sample plnktr m
  have hle : BitVec.ofNat 32 m / 2 ≤ BitVec.ofNat 32 (trailing (quiet sample) m) ↔
      m % 2 ^ 32 / 2 ≤ trailing (quiet sample) m % 2 ^ 32 := by
    rw [BitVec.le_def, BitVec.toNat_udiv, BitVec.toNat_ofNat, BitVec.toNat_ofNat]
    rfl
  rw [dllla_after sample _ hm, hloops, hntrcount, decide_eq_decide.2 hle]

/-- What the function does. -/
theorem pciautoExpLinkStable_iff (sample : ℕ → BitVec 16) (time : ℕ → ℕ) (m : ℕ) (stable : Bool) :
    (∃ fuel, pciautoExpLinkStable sample (getTime time) fuel = some (m, stable)) ↔
      0 < m ∧ (∀ n, 0 < n → n < m → linkActive (sample n) = false ∧
          time n % 2 ^ 32 < (time 0 + 200000) % 2 ^ 32) ∧
        ¬ (linkActive (sample m) = false ∧ time m % 2 ^ 32 < (time 0 + 200000) % 2 ^ 32) ∧
        stable = (linkActive (sample m) ||
          decide (m % 2 ^ 32 / 2 ≤ trailing (quiet sample) m % 2 ^ 32)) := by
  unfold pciautoExpLinkStable
  dsimp only
  constructor
  · rintro ⟨fuel, h⟩
    obtain ⟨⟨m', st⟩, hpoll, heq⟩ := Option.map_eq_some_iff.1 h
    obtain ⟨rfl, rfl⟩ := Prod.mk.inj heq
    obtain ⟨hpos, rfl, hbefore, hlast⟩ := exists_poll_iff.1 ⟨fuel, hpoll⟩
    refine ⟨hpos, fun n hn hlt => (linkAgain_iff hn).1 (hbefore n hn hlt), fun hagain => ?_,
      verdict_after sample _ hpos⟩
    rw [(linkAgain_iff hpos).2 hagain] at hlast
    cases hlast
  · rintro ⟨hpos, hbefore, hlast, rfl⟩
    obtain ⟨fuel, hpoll⟩ := exists_poll_iff.2 ⟨hpos, rfl,
      fun n hn hlt => (@linkAgain_iff sample time { plnktr := linkTraining (sample 0) } n hn).2
        (hbefore n hn hlt),
      Bool.eq_false_iff.2 fun hagain => hlast ((linkAgain_iff hpos).1 hagain)⟩
    refine ⟨fuel, ?_⟩
    rw [hpoll, Option.map_some, verdict_after sample _ hpos]

/-- **Watching a link**: sampling ends when it is to end, and the link is found stable if it is, if and
only if the clock does not wrap around in front of the deadline, nor the last reading in front of it
again, and the counters compare as what they count. -/
theorem linkChecked_iff {sample : ℕ → BitVec 16} {time : ℕ → ℕ} (hmono : Monotone time) {m : ℕ}
    (hends : SamplingEnds sample time m) :
    LinkChecked sample time m ↔ DeadlineHolds sample time m ∧ CountersHold sample m := by
  -- a reading in front of the deadline still compares below it just when neither or both wrapped
  have hmod {n : ℕ} (hlt : time n < time 0 + 200000) :
      time n % 2 ^ 32 < (time 0 + 200000) % 2 ^ 32 ↔ time n / 2 ^ 32 = (time 0 + 200000) / 2 ^ 32 :=
    @mod_lt_mod_iff (2 ^ 32) (time 0) _ _ (hmono (Nat.zero_le n)) hlt (by omega)
  -- the verdict is the one asked for just when the two counters did not wrap apart
  have hverdict : ((linkActive (sample m) ||
      decide (m % 2 ^ 32 / 2 ≤ trailing (quiet sample) m % 2 ^ 32)) = true ↔ Stable sample m) ↔
        CountersHold sample m := by
    unfold Stable CountersHold
    rw [← half_le_trailing_iff, Bool.or_eq_true, decide_eq_true_iff]
    cases linkActive (sample m) <;> simp
  -- so the sampling and the verdict can be looked at one after the other
  have hchecked : LinkChecked sample time m ↔
      (∃ fuel, pciautoExpLinkStable sample (getTime time) fuel = some (m, linkActive (sample m) ||
        decide (m % 2 ^ 32 / 2 ≤ trailing (quiet sample) m % 2 ^ 32))) ∧ CountersHold sample m := by
    constructor
    · rintro ⟨fuel, stable, hrun, hstable⟩
      obtain ⟨-, -, -, rfl⟩ := (pciautoExpLinkStable_iff sample time m stable).1 ⟨fuel, hrun⟩
      exact ⟨⟨fuel, hrun⟩, hverdict.1 hstable⟩
    · rintro ⟨⟨fuel, hrun⟩, hcounters⟩
      exact ⟨fuel, _, hrun, hverdict.2 hcounters⟩
  rw [hchecked, pciautoExpLinkStable_iff]
  refine and_congr_left fun _ => ⟨?_, ?_⟩
  · rintro ⟨-, hbefore, hlast, -⟩
    refine ⟨fun n hn hlt => (hmod (hends.before n hn hlt).2).1 (hbefore n hn hlt).2, ?_⟩
    cases hactive : linkActive (sample m) with
    | true => exact Or.inl rfl
    | false => exact Or.inr (Nat.le_of_not_lt fun hlt => hlast ⟨hactive, hlt⟩)
  · intro hdeadline
    refine ⟨hends.pos, fun n hn hlt => ?_, ?_, rfl⟩
    · obtain ⟨hinactive, htime⟩ := hends.before n hn hlt
      exact ⟨hinactive, (hmod htime).2 (hdeadline.before n hn hlt)⟩
    · rintro ⟨hinactive, hlt⟩
      rcases hdeadline.last with hactive | hle
      · rw [hinactive] at hactive
        cases hactive
      · omega

/-! ## Two links -/

/-- A link that is training in the first sample, and then no longer. -/
def settling (n : ℕ) : BitVec 16 := if n ≤ 1 then 0x0800 else 0

/-- Sampled every 100 ms from time 0 on it is found stable behind two samples. -/
theorem linkChecked_settling : LinkChecked settling (100000 * ·) 2 ∧ Stable settling 2 := by
  have hends : SamplingEnds settling (100000 * ·) 2 := by
    refine ⟨by decide, Or.inr (by decide), fun n hn hlt => ?_⟩
    obtain rfl : n = 1 := by omega
    decide
  refine ⟨(linkChecked_iff (fun a b h => Nat.mul_le_mul_left _ h) hends).2
    ⟨⟨fun n hn hlt => ?_, Or.inr (by decide)⟩, countersHold_of_lt settling (by decide)⟩,
    Or.inr fun n hlt hle => ?_⟩
  · obtain rfl : n = 1 := by omega
    decide
  · obtain rfl : n = 2 := by omega
    decide

/-- Of a link that never stops training, watched from 100 ms before the clock wraps around, one sample is
taken, and it is found stable. -/
theorem not_linkChecked :
    ¬ ∀ (sample : ℕ → BitVec 16) (time : ℕ → ℕ), Monotone time →
      ∀ m, SamplingEnds sample time m → LinkChecked sample time m := by
  intro h
  have hends : SamplingEnds (fun _ => 0x0800) (fun n => 2 ^ 32 - 100000 + 50000 * n) 4 := by
    refine ⟨by decide, Or.inr (by decide), fun n hn hlt => ⟨rfl, ?_⟩⟩
    omega
  obtain ⟨fuel, stable, hrun, -⟩ := h _ _ (fun a b hab => by omega) 4 hends
  obtain ⟨-, hbefore, -⟩ := (pciautoExpLinkStable_iff _ _ 4 stable).1 ⟨fuel, hrun⟩
  exact absurd (hbefore 1 (by decide) (by decide)).2 (by decide)

end BcmPcie
