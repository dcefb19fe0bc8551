import Mathlib.Algebra.Order.Group.Nat
import BcmPcie.Library.Runs

/-! # Bump allocation with rewinds

An arena hands out aligned blocks from a pointer that moves up. Apart from taking a block, a client
can round the pointer up and can rewind it to the start of the arena, after which blocks are handed
out again that may still be in use. The requests of a client are a list; what it is granted is a
function of the list.

* `Arena.blocks` — the blocks granted along a list of requests, in order.
* `Arena.tagged_ascending` — a kind of block never overlaps when no rewind stands between two of its
  requests.
* `Arena.oneStretch_of_pairwise_apart` — and only then, where everything asked for suits the start of
  the arena. -/

namespace Bump

/-! ## Rounding -/

/-- `p` rounded up to a multiple of `grain`. -/
def alignUp (p grain : ℕ) : ℕ := (p + grain - 1) / grain * grain

variable {p q grain : ℕ}

/-- Rounding up does not go down. -/
theorem le_alignUp (h : 0 < grain) (p : ℕ) : p ≤ alignUp p grain := by
  have hlt := Nat.lt_div_mul_add (a := p + grain - 1) h
  unfold alignUp
  omega

/-- What is rounded up is a multiple. -/
theorem dvd_alignUp (p grain : ℕ) : grain ∣ alignUp p grain :=
  Nat.dvd_mul_left _ _

/-- The rounded value is the least multiple at or above. -/
theorem alignUp_le (hpq : p ≤ q) (hq : grain ∣ q) : alignUp p grain ≤ q := by
  obtain ⟨c, rfl⟩ := hq
  obtain rfl | hpos := Nat.eq_zero_or_pos grain
  · simp [alignUp]
  · have hdiv : (p + grain - 1) / grain < c + 1 := by
      apply Nat.div_lt_of_lt_mul
      rw [Nat.mul_succ]
      omega
    calc (p + grain - 1) / grain * grain ≤ c * grain := Nat.mul_le_mul_right _ (by omega)
      _ = grain * c := Nat.mul_comm _ _

/-- A multiple is rounded up to itself. -/
theorem alignUp_of_dvd (h : 0 < grain) (hp : grain ∣ p) : alignUp p grain = p :=
  Nat.le_antisymm (alignUp_le le_rfl hp) (le_alignUp h p)

/-- Rounding keeps the order of addresses. -/
theorem alignUp_mono (h : 0 < grain) (hpq : p ≤ q) : alignUp p grain ≤ alignUp q grain :=
  alignUp_le (hpq.trans (le_alignUp h q)) (dvd_alignUp q grain)

/-- Rounding to one grain is done once. -/
theorem alignUp_alignUp (h : 0 < grain) (p : ℕ) : alignUp (alignUp p grain) grain = alignUp p grain :=
  alignUp_of_dvd h (dvd_alignUp p grain)

/-- Rounding up to a power of two is setting the low bits of the predecessor. -/
theorem or_two_pow_succ (x k : ℕ) : (x ||| (2 ^ k - 1)) + 1 = alignUp (x + 1) (2 ^ k) := by
  have hpos : 0 < 2 ^ k := Nat.two_pow_pos k
  have hlow : x ||| (2 ^ k - 1) = 2 ^ k * (x / 2 ^ k) + (2 ^ k - 1) := by
    rw [Nat.two_pow_add_eq_or_of_lt (by omega)]
    apply Nat.eq_of_testBit_eq
    intro i
    rw [Nat.testBit_or, Nat.testBit_or, Nat.testBit_two_pow_sub_one, Nat.testBit_two_pow_mul,
      Nat.testBit_div_two_pow]
    by_cases hi : i < k
    · simp [hi]
    · have hge : k ≤ i := Nat.le_of_not_lt hi
      simp [hi, hge, Nat.sub_add_cancel hge]
  have hdiv : (x + 1 + 2 ^ k - 1) / 2 ^ k = x / 2 ^ k + 1 := by
    rw [show x + 1 + 2 ^ k - 1 = x + 2 ^ k by omega, Nat.add_div_right _ hpos]
  rw [hlow, alignUp, hdiv, Nat.succ_mul, Nat.mul_comm]
  omega

/-! ## Requests and blocks -/

/-- What a client can ask: a block, tagged with its kind, or a movement of the pointer. -/
inductive Request (τ : Type*)
  | take (size : ℕ) (tag : τ)
  | round (grain : ℕ)
  | rewind
  deriving DecidableEq

/-- A block `[addr, addr + size)`. -/
structure Block (τ : Type*) where
  addr : ℕ
  size : ℕ
  tag : τ
  deriving DecidableEq

/-- Two blocks share no address. -/
def Block.Apart {τ : Type*} (a b : Block τ) : Prop :=
  a.addr + a.size ≤ b.addr ∨ b.addr + b.size ≤ a.addr

/-- The addresses `[start, limit)` that blocks are taken from. -/
structure Arena where
  start : ℕ
  limit : ℕ

namespace Arena

variable {τ : Type*} (a : Arena) {t : τ} {r : Request τ} {rs ss : List (Request τ)}

/-- The pointer after a request; a block that does not fit leaves it. -/
def step (p : ℕ) : Request τ → ℕ
  | .take size _ =>
    if alignUp p size + size ≤ a.limit then alignUp p size + size else p
  | .round grain => alignUp p grain
  | .rewind => a.start

/-- The block a request is granted. -/
def granted (p : ℕ) : Request τ → Option (Block τ)
  | .take size tag =>
    if alignUp p size + size ≤ a.limit then some ⟨alignUp p size, size, tag⟩ else none
  | .round _ => none
  | .rewind => none

/-- The pointer after a list of requests. -/
abbrev run (p : ℕ) (rs : List (Request τ)) : ℕ := Runs.run a.step p rs

/-- The blocks granted along a list of requests. -/
def blocks : ℕ → List (Request τ) → List (Block τ)
  | _, [] => []
  | p, r :: rs => (a.granted p r).toList ++ blocks (a.step p r) rs

/-- The sizes and grains of the requests are positive. -/
def Positive (rs : List (Request τ)) : Prop :=
  ∀ r ∈ rs, match r with
    | .take size _ => 0 < size
    | .round grain => 0 < grain
    | .rewind => True

@[simp] theorem blocks_nil (p : ℕ) : a.blocks p ([] : List (Request τ)) = [] := rfl

@[simp] theorem blocks_cons (p : ℕ) (r : Request τ) (rs : List (Request τ)) :
    a.blocks p (r :: rs) = (a.granted p r).toList ++ a.blocks (a.step p r) rs := rfl

@[simp] theorem step_round (p grain : ℕ) :
    a.step p (.round grain : Request τ) = alignUp p grain := rfl

@[simp] theorem step_rewind (p : ℕ) : a.step p (.rewind : Request τ) = a.start := rfl

/-- Rounding up grants nothing. -/
theorem blocks_round (p grain : ℕ) (rs : List (Request τ)) :
    a.blocks p (.round grain :: rs) = a.blocks (alignUp p grain) rs := rfl

/-- Going back to the start grants nothing. -/
theorem blocks_rewind (p : ℕ) (rs : List (Request τ)) :
    a.blocks p (.rewind :: rs) = a.blocks a.start rs := rfl

/-- Without requests the pointer stays. -/
theorem run_nil (p : ℕ) : a.run p ([] : List (Request τ)) = p := rfl

/-- Rounding up moves the pointer to the next multiple. -/
theorem run_round (p grain : ℕ) (rs : List (Request τ)) :
    a.run p (.round grain :: rs) = a.run (alignUp p grain) rs := rfl

/-- Going back puts the pointer to the start. -/
theorem run_rewind (p : ℕ) (rs : List (Request τ)) :
    a.run p (.rewind :: rs) = a.run a.start rs := rfl

/-- Some requests after others start where those ended. -/
theorem run_append (p : ℕ) (rs ss : List (Request τ)) :
    a.run p (rs ++ ss) = a.run (a.run p rs) ss := Runs.run_append p rs ss

/-- The blocks of some requests after others are those of both. -/
theorem blocks_append (p : ℕ) (rs ss : List (Request τ)) :
    a.blocks p (rs ++ ss) = a.blocks p rs ++ a.blocks (a.run p rs) ss := by
  induction rs generalizing p with
  | nil => rfl
  | cons r rs ih => rw [List.cons_append, blocks_cons, blocks_cons, ih, List.append_assoc]; rfl

/-- Requests of positive sizes but for the first. -/
theorem Positive.of_cons (h : Positive (r :: rs)) : Positive rs :=
  fun s hs => h s (List.mem_cons_of_mem r hs)

/-- A granted block was asked for, is aligned up from the pointer and ends where the pointer moves. -/
theorem granted_eq_some {p : ℕ} {b : Block τ} (h : a.granted p r = some b) :
    r = .take b.size b.tag ∧ b.addr = alignUp p b.size ∧ b.addr + b.size ≤ a.limit ∧
      a.step p r = b.addr + b.size := by
  cases r with
  | take size tag =>
    simp only [granted] at h
    split at h
    · rename_i hfit
      cases h
      exact ⟨rfl, rfl, hfit, by simp only [step, if_pos hfit]⟩
    · cases h
  | round grain => cases h
  | rewind => cases h

/-- Nothing but a rewind moves the pointer down. -/
theorem le_step (hpos : Positive [r]) (hr : r ≠ .rewind) (p : ℕ) : p ≤ a.step p r := by
  cases r with
  | take size tag =>
    have hle := le_alignUp (hpos (.take size tag) (by simp)) p
    simp only [step]
    split
    · omega
    · exact le_rfl
  | round grain => exact le_alignUp (hpos (.round grain) (by simp)) p
  | rewind => exact absurd rfl hr

/-- Without a rewind the pointer moves up. -/
theorem le_run (hpos : Positive rs) (hr : Request.rewind ∉ rs) (p : ℕ) : p ≤ a.run p rs := by
  induction rs generalizing p with
  | nil => exact le_rfl
  | cons r rs ih =>
    have hstep : p ≤ a.step p r :=
      a.le_step (fun s hs => hpos s (by simp_all)) (fun h => hr (h ▸ List.mem_cons_self)) p
    exact hstep.trans (ih hpos.of_cons (fun h => hr (List.mem_cons_of_mem r h)) _)

/-- The pointer never falls below the start. -/
theorem start_le_run (hpos : Positive rs) {p : ℕ} (hp : a.start ≤ p) : a.start ≤ a.run p rs := by
  induction rs generalizing p with
  | nil => exact hp
  | cons r rs ih =>
    refine ih hpos.of_cons ?_
    by_cases hr : r = .rewind
    · rw [hr]
      exact le_rfl
    · exact hp.trans (a.le_step (fun s hs => hpos s (by simp_all)) hr p)

/-- From where a rewind would leave the pointer, it never falls. -/
theorem le_run_of_rewound (hpos : Positive rs) {p : ℕ} (hp : Request.rewind ∈ rs → p = a.start) :
    p ≤ a.run p rs := by
  by_cases hr : Request.rewind ∈ rs
  · rw [hp hr]
    exact a.start_le_run hpos le_rfl
  · exact a.le_run hpos hr p

/-- The pointer stays below any address that is above the arena and rounded already. -/
theorem run_le {m : ℕ} (hlimit : a.limit ≤ m) (hstart : a.start ≤ m)
    (hround : ∀ grain, Request.round grain ∈ rs → grain ∣ m) {p : ℕ} (hp : p ≤ m) :
    a.run p rs ≤ m := by
  induction rs generalizing p with
  | nil => exact hp
  | cons r rs ih =>
    refine ih (fun grain hgrain => hround grain (List.mem_cons_of_mem r hgrain)) ?_
    cases r with
    | take size tag =>
      simp only [step]
      split
      · omega
      · exact hp
    | round grain => exact alignUp_le hp (hround grain List.mem_cons_self)
    | rewind => exact hstart

/-- Every block lies inside the arena. -/
theorem blocks_subset {p : ℕ} (hpos : Positive rs) (hp : a.start ≤ p) :
    ∀ b ∈ a.blocks p rs, 0 < b.size ∧ a.start ≤ b.addr ∧ b.addr + b.size ≤ a.limit := by
  induction rs generalizing p with
  | nil => simp
  | cons r rs ih =>
    intro b hb
    rw [blocks_cons, List.mem_append, Option.mem_toList] at hb
    obtain hb | hb := hb
    · obtain ⟨rfl, haddr, hlimit, -⟩ := a.granted_eq_some hb
      have hsize : 0 < b.size := hpos (.take b.size b.tag) List.mem_cons_self
      have hle := le_alignUp hsize p
      exact ⟨hsize, by omega, hlimit⟩
    · refine ih hpos.of_cons ?_ b hb
      by_cases hr : r = .rewind
      · rw [hr]
        exact le_rfl
      · exact hp.trans (a.le_step (fun s hs => hpos s (by simp_all)) hr p)

/-- No block lies below where the first block of its size could. -/
theorem alignUp_start_le {p : ℕ} (hpos : Positive rs) (hp : a.start ≤ p) :
    ∀ b ∈ a.blocks p rs, alignUp a.start b.size ≤ b.addr := by
  induction rs generalizing p with
  | nil => simp
  | cons r rs ih =>
    intro b hb
    rw [blocks_cons, List.mem_append, Option.mem_toList] at hb
    obtain hb | hb := hb
    · obtain ⟨rfl, haddr, -⟩ := a.granted_eq_some hb
      rw [haddr]
      exact alignUp_le (hp.trans (le_alignUp (hpos (.take b.size b.tag) List.mem_cons_self) p))
        (dvd_alignUp p b.size)
    · have hstep : a.start ≤ a.run p [r] := a.start_le_run (fun s hs => hpos s (by simp_all)) hp
      exact ih hpos.of_cons hstep b hb

/-- A granted block was asked for. -/
theorem take_mem_of_mem_blocks {p : ℕ} {b : Block τ} (hb : b ∈ a.blocks p rs) :
    Request.take b.size b.tag ∈ rs := by
  induction rs generalizing p with
  | nil => cases hb
  | cons r rs ih =>
    rw [blocks_cons, List.mem_append, Option.mem_toList] at hb
    obtain hb | hb := hb
    · obtain ⟨rfl, -⟩ := a.granted_eq_some hb
      exact List.mem_cons_self
    · exact List.mem_cons_of_mem r (ih hb)

/-! ## Rewinds between blocks -/

/-- No rewind stands between two requests for blocks of kind `t`. -/
def OneStretch (t : τ) (rs : List (Request τ)) : Prop :=
  ∀ size size', ¬ [.take size t, .rewind, .take size' t].Sublist rs

/-- Without the first request a tag keeps its one stretch. -/
theorem OneStretch.of_cons (h : OneStretch t (r :: rs)) : OneStretch t rs :=
  fun size size' hsub => h size size' (hsub.trans (List.sublist_cons_self r rs))

/-- Blocks of a kind that is not asked for after a rewind lie above the pointer. -/
theorem le_addr_of_no_rewind (hpos : Positive rs) (p : ℕ)
    (h : ∀ size, ¬ [.rewind, .take size t].Sublist rs) :
    ∀ b ∈ a.blocks p rs, b.tag = t → p ≤ b.addr := by
  induction rs generalizing p with
  | nil => simp
  | cons r rs ih =>
    intro b hb ht
    rw [blocks_cons, List.mem_append, Option.mem_toList] at hb
    obtain hb | hb := hb
    · obtain ⟨rfl, haddr, -⟩ := a.granted_eq_some hb
      exact haddr ▸ le_alignUp (hpos (.take b.size b.tag) List.mem_cons_self) p
    · have hr : r ≠ .rewind := by
        rintro rfl
        apply h b.size
        rw [List.cons_sublist_cons, List.singleton_sublist, ← ht]
        exact a.take_mem_of_mem_blocks hb
      have hstep : p ≤ a.step p r := a.le_step (fun s hs => hpos s (by simp_all)) hr p
      exact hstep.trans
        (ih hpos.of_cons _ (fun size hsub => h size (hsub.trans (List.sublist_cons_self r rs))) b hb ht)

/-- From where a rewind would leave the pointer, every block lies above it. -/
theorem le_addr_of_rewound (hpos : Positive rs) {p : ℕ} (hp : Request.rewind ∈ rs → p = a.start) :
    ∀ b ∈ a.blocks p rs, p ≤ b.addr := by
  intro b hb
  by_cases hr : Request.rewind ∈ rs
  · rw [hp hr] at hb ⊢
    exact (a.blocks_subset hpos le_rfl b hb).2.1
  · exact a.le_addr_of_no_rewind hpos p
      (fun size hsub => hr (hsub.subset List.mem_cons_self)) b hb rfl

/-- **Blocks of one stretch.** When no rewind stands between two requests of a kind, its blocks are
handed out one behind the other. -/
theorem tagged_ascending (hpos : Positive rs) (p : ℕ) (h : OneStretch t rs) :
    (a.blocks p rs).Pairwise fun b c => b.tag = t → c.tag = t → b.addr + b.size ≤ c.addr := by
  induction rs generalizing p with
  | nil => exact List.Pairwise.nil
  | cons r rs ih =>
    have hrest := ih hpos.of_cons (a.step p r) h.of_cons
    rw [blocks_cons]
    cases hg : a.granted p r with
    | none => exact hrest
    | some b =>
      obtain ⟨rfl, -, -, hnext⟩ := a.granted_eq_some hg
      refine List.pairwise_cons.2 ⟨fun c hc hb ht => ?_, hrest⟩
      rw [← hnext]
      refine a.le_addr_of_no_rewind hpos.of_cons _ (fun size hsub => h b.size size ?_) c hc ht
      rw [show Request.take b.size t = Request.take b.size b.tag by rw [hb]]
      exact hsub.cons_cons _

/-- Nothing is asked for before a rewind. -/
def Settled (rs : List (Request τ)) : Prop := ∀ size t, ¬ [.take size t, .rewind].Sublist rs

/-- Some of the requests of a settled list are settled. -/
theorem Settled.of_sublist (h : Settled rs) (hsub : ss.Sublist rs) : Settled ss :=
  fun size t hs => h size t (hs.trans hsub)

/-- Where nothing is taken before the pointer goes back every tag has one stretch. -/
theorem Settled.oneStretch (h : Settled rs) (t : τ) : OneStretch t rs := by
  intro size size' hsub
  have hpre : [Request.take size t, .rewind].Sublist [.take size t, .rewind, .take size' t] :=
    List.sublist_append_left [Request.take size t, .rewind] [.take size' t]
  exact h size t (hpre.trans hsub)

/-- What stands before a rewind takes nothing. -/
theorem Settled.take_notMem (h : Settled (rs ++ ss)) (hrewind : Request.rewind ∈ ss) :
    ∀ size t, Request.take size t ∉ rs := by
  intro size t hmem
  exact h size t ((List.singleton_sublist.2 hmem).append (List.singleton_sublist.2 hrewind))

/-- Everything is asked for after the last rewind. -/
theorem settled_append (hr : ∀ size t, Request.take size t ∉ rs) (hs : Request.rewind ∉ ss) :
    Settled (rs ++ ss) := by
  intro size t hsub
  obtain ⟨l₁, l₂, hl, h₁, h₂⟩ := List.sublist_append_iff.1 hsub
  cases l₁ with
  | nil =>
    rw [List.nil_append] at hl
    rw [← hl] at h₂
    exact hs (h₂.subset (by simp))
  | cons r l₁ =>
    obtain ⟨rfl, -⟩ := List.cons.inj hl
    exact hr size t (h₁.subset List.mem_cons_self)

/-- Where nothing is taken and nothing rounded away from it, the pointer stays at the start. -/
theorem run_eq_start (htake : ∀ size t, Request.take size t ∉ rs) (hpos : Positive rs)
    (hround : ∀ grain, Request.round grain ∈ rs → grain ∣ a.start) : a.run a.start rs = a.start := by
  induction rs with
  | nil => rfl
  | cons r rs ih =>
    have hrest := ih (fun size t h => htake size t (List.mem_cons_of_mem r h)) hpos.of_cons
      (fun grain h => hround grain (List.mem_cons_of_mem r h))
    have hstep : a.step a.start r = a.start := by
      cases r with
      | take size t => exact absurd List.mem_cons_self (htake size t)
      | round grain =>
        exact alignUp_of_dvd (hpos (.round grain) List.mem_cons_self)
          (hround grain List.mem_cons_self)
      | rewind => rfl
    rw [Arena.run, Runs.run_cons, hstep]
    exact hrest

/-- Whether something has been taken since the last rewind. -/
def taken (since : Bool) : Request τ → Bool
  | .take _ _ => true
  | .round _ => since
  | .rewind => false

/-- What has been taken was asked for. -/
theorem take_mem_of_taken {since : Bool} (h : Runs.run taken since rs = true) :
    since = true ∨ ∃ size t, Request.take size t ∈ rs := by
  induction rs generalizing since with
  | nil => exact Or.inl h
  | cons r rs ih =>
    rcases ih h with hsince | ⟨size, t, hmem⟩
    · cases r with
      | take size t => exact Or.inr ⟨size, t, List.mem_cons_self⟩
      | round grain => exact Or.inl hsince
      | rewind => cases hsince
    · exact Or.inr ⟨size, t, List.mem_cons_of_mem _ hmem⟩

/-- Where nothing has been taken since the last rewind, the pointer is at the start or where rounding
has moved it from there. -/
theorem run_of_not_taken {since : Bool} (hgrain : 0 < grain)
    (hround : ∀ g, Request.round g ∈ rs → g = grain) {p : ℕ}
    (hp : since = false → p = a.start ∨ p = alignUp a.start grain)
    (h : Runs.run taken since rs = false) :
    a.run p rs = a.start ∨ a.run p rs = alignUp a.start grain := by
  induction rs generalizing since p with
  | nil => exact hp h
  | cons r rs ih =>
    refine ih (fun g hg => hround g (List.mem_cons_of_mem r hg)) (fun hsince => ?_) h
    cases r with
    | take size t => cases hsince
    | round g =>
      obtain rfl := hround g List.mem_cons_self
      rw [step_round]
      rcases hp hsince with rfl | rfl
      · exact Or.inr rfl
      · exact Or.inr (alignUp_alignUp hgrain _)
    | rewind => exact Or.inl rfl

/-- Where nothing is asked for before a rewind, every block ends below the pointer. -/
theorem le_run_of_settled (hpos : Positive rs) (h : Settled rs) (p : ℕ) :
    ∀ b ∈ a.blocks p rs, b.addr + b.size ≤ a.run p rs := by
  induction rs generalizing p with
  | nil => simp
  | cons r rs ih =>
    intro b hb
    rw [blocks_cons, List.mem_append, Option.mem_toList] at hb
    rcases hb with hb | hb
    · obtain ⟨rfl, -, -, hnext⟩ := a.granted_eq_some hb
      have hrewind : Request.rewind ∉ rs := fun hmem =>
        h b.size b.tag ((List.singleton_sublist.2 hmem).cons_cons _)
      rw [← hnext]
      exact a.le_run hpos.of_cons hrewind _
    · exact ih hpos.of_cons (h.of_sublist (List.sublist_cons_self r rs)) _ b hb

/-- What is asked for suits the start of the arena: blocks fit there, and nothing is rounded away from
it. -/
def Natural (rs : List (Request τ)) : Prop :=
  ∀ r ∈ rs, match r with
    | .take size _ => size ∣ a.start ∧ a.start + size ≤ a.limit
    | .round grain => grain ∣ a.start
    | .rewind => True

/-- Requests of natural alignment but for the first. -/
theorem Natural.of_cons (h : a.Natural (r :: rs)) : a.Natural rs :=
  fun s hs => h s (List.mem_cons_of_mem r hs)

/-- From the start of the arena, the first block taken is at the start. -/
theorem exists_block_at_start (hpos : Positive rs) (hnat : a.Natural rs)
    (htake : ∃ size tag, Request.take size tag ∈ rs) : ∃ b ∈ a.blocks a.start rs, b.addr = a.start := by
  induction rs with
  | nil =>
    obtain ⟨_, _, h⟩ := htake
    cases h
  | cons r rs ih =>
    have hhead := hnat r List.mem_cons_self
    have hpos' := hpos r List.mem_cons_self
    -- a request that does not take a block leaves the pointer at the start
    have hlater (hstay : a.step a.start r = a.start)
        (hrest : ∃ size tag, Request.take size tag ∈ rs) :
        ∃ b ∈ a.blocks a.start (r :: rs), b.addr = a.start := by
      obtain ⟨b, hb, haddr⟩ := ih hpos.of_cons hnat.of_cons hrest
      refine ⟨b, ?_, haddr⟩
      rw [blocks_cons, hstay]
      exact List.mem_append_right _ hb
    cases r with
    | take size tag =>
      have hstart : alignUp a.start size = a.start := alignUp_of_dvd hpos' hhead.1
      refine ⟨⟨a.start, size, tag⟩, ?_, rfl⟩
      simp only [blocks_cons, granted, hstart, if_pos hhead.2]
      exact List.mem_cons_self
    | round grain =>
      refine hlater (alignUp_of_dvd hpos' hhead) ?_
      simpa using htake
    | rewind =>
      refine hlater rfl ?_
      simpa using htake

/-- Where everything suits the start of the arena, what has been taken since the last rewind has moved
the pointer. -/
theorem start_lt_run_of_taken {since : Bool} (hpos : Positive rs) (hnat : a.Natural rs) {p : ℕ}
    (hp : a.start ≤ p) (hsince : since = true → a.start < p) (h : Runs.run taken since rs = true) :
    a.start < a.run p rs := by
  induction rs generalizing since p with
  | nil => exact hsince h
  | cons r rs ih =>
    have hposr := hpos r List.mem_cons_self
    have hnatr := hnat r List.mem_cons_self
    cases r with
    | take size t =>
      have hlt : a.start < a.step p (.take size t) := by
        have hsize : 0 < size := hposr
        have hle := le_alignUp hsize p
        rw [step]
        split
        · omega
        · rename_i hfull
          refine lt_of_le_of_ne hp fun heq => hfull ?_
          rw [← heq, alignUp_of_dvd hsize hnatr.1]
          exact hnatr.2
      exact ih hpos.of_cons hnat.of_cons hlt.le (fun _ => hlt) h
    | round grain =>
      have hle : p ≤ alignUp p grain := le_alignUp hposr p
      exact ih hpos.of_cons hnat.of_cons (hp.trans hle)
        (fun hs => (hsince hs).trans_le hle) h
    | rewind =>
      have hrest : Runs.run taken false rs = true := h
      exact ih hpos.of_cons hnat.of_cons le_rfl (fun hs => absurd hs Bool.false_ne_true) hrest

/-- A request rounds the pointer to a value below `x`, if it does. -/
def RoundsBelow (x p : ℕ) : Request τ → Prop
  | .take _ _ => True
  | .round grain => alignUp p grain < x
  | .rewind => True

instance decidableRoundsBelow (x p : ℕ) (r : Request τ) : Decidable (RoundsBelow x p r) :=
  match r with
  | .take _ _ => .isTrue trivial
  | .round _ => inferInstanceAs (Decidable (_ < _))
  | .rewind => .isTrue trivial

/-- The arena cut off, or drawn out, to end at `x`. -/
def upTo (x : ℕ) : Arena := ⟨a.start, x⟩

@[simp] theorem start_upTo (x : ℕ) : (a.upTo x).start = a.start := rfl

@[simp] theorem limit_upTo (x : ℕ) : (a.upTo x).limit = x := rfl

/-- A request is granted; movements of the pointer are. -/
def Grants (p : ℕ) : Request τ → Prop
  | .take size _ => alignUp p size + size ≤ a.limit
  | .round _ => True
  | .rewind => True

instance decidableGrants (p : ℕ) (r : Request τ) : Decidable (a.Grants p r) :=
  match r with
  | .take _ _ => inferInstanceAs (Decidable (_ ≤ _))
  | .round _ => .isTrue trivial
  | .rewind => .isTrue trivial

/-- Everything asked for from the pointer `p` on is granted. -/
def Roomy (p : ℕ) (rs : List (Request τ)) : Prop := Runs.EveryStep a.step a.Grants p rs

instance decidableRoomy (p : ℕ) (rs : List (Request τ)) : Decidable (a.Roomy p rs) :=
  Runs.decidableEveryStep p rs

/-- What is taken from the arena ends by `x`: the arena does, or everything asked for would fit if
it did. -/
def EndsBy (x : ℕ) (rs : List (Request τ)) : Prop := a.limit ≤ x ∨ (a.upTo x).Roomy a.start rs

instance decidableEndsBy (x : ℕ) (rs : List (Request τ)) : Decidable (a.EndsBy x rs) :=
  inferInstanceAs (Decidable (_ ∨ _))

/-- Blocks end by `x` if everything would fit below `x`, from wherever above the pointer. -/
theorem blocks_le_of_roomy {x : ℕ} (hpos : Positive rs) {p q : ℕ} (hpq : p ≤ q)
    (h : (a.upTo x).Roomy q rs) : ∀ b ∈ a.blocks p rs, b.addr + b.size ≤ x := by
  induction rs generalizing p q with
  | nil =>
    intro b hb
    cases hb
  | cons r rs ih =>
    obtain ⟨hfits, hrest⟩ := h
    have hposr := hpos r List.mem_cons_self
    -- the pointer stays below that of the other arena
    have hstep : a.step p r ≤ (a.upTo x).step q r := by
      cases r with
      | take size tag =>
        have hmono : alignUp p size ≤ alignUp q size := alignUp_mono hposr hpq
        have hle : q ≤ alignUp q size := le_alignUp hposr q
        have hgranted : alignUp q size + size ≤ x := hfits
        rw [step, step, limit_upTo, if_pos hgranted]
        split <;> omega
      | round grain => exact alignUp_mono hposr hpq
      | rewind => exact le_rfl
    intro b hb
    rw [blocks_cons, List.mem_append, Option.mem_toList] at hb
    rcases hb with hb | hb
    · obtain ⟨rfl, haddr, -, -⟩ := a.granted_eq_some hb
      have hmono := alignUp_mono hposr hpq
      rw [haddr]
      exact (Nat.add_le_add_right hmono _).trans hfits
    · exact ih hpos.of_cons hstep hrest b hb

/-- Where everything is granted, blocks only end by `x` if everything would fit below `x`. -/
theorem roomy_upTo {x p : ℕ} (hroomy : a.Roomy p rs)
    (h : ∀ b ∈ a.blocks p rs, b.addr + b.size ≤ x) : (a.upTo x).Roomy p rs := by
  induction rs generalizing p with
  | nil => trivial
  | cons r rs ih =>
    obtain ⟨hfits, hrest⟩ := hroomy
    rw [blocks_cons, List.forall_mem_append] at h
    obtain ⟨hgranted, hblocks⟩ := h
    cases r with
    | take size tag =>
      have hend : alignUp p size + size ≤ x :=
        hgranted ⟨alignUp p size, size, tag⟩ (by
          rw [granted, if_pos (show alignUp p size + size ≤ a.limit from hfits)]
          exact List.mem_singleton_self _)
      have hstep : (a.upTo x).step p (.take size tag) = a.step p (.take size tag) := by
        rw [step, step, limit_upTo, if_pos hend,
          if_pos (show alignUp p size + size ≤ a.limit from hfits)]
      exact ⟨hend, hstep ▸ ih hrest hblocks⟩
    | round grain => exact ⟨trivial, ih hrest hblocks⟩
    | rewind => exact ⟨trivial, ih hrest hblocks⟩

/-- What is taken ends by `x` where the condition says so. -/
theorem EndsBy.blocks_le {x : ℕ} (hpos : Positive rs) (h : a.EndsBy x rs) :
    ∀ b ∈ a.blocks a.start rs, b.addr + b.size ≤ x := by
  rcases h with h | h
  · exact fun b hb => ((a.blocks_subset hpos le_rfl b hb).2.2).trans h
  · exact a.blocks_le_of_roomy hpos le_rfl h

/-- Where everything taken is of one kind and suits the start of the arena, blocks only stay apart
when no rewind stands between two of them: two stretches that take a block both take it there. -/
theorem oneStretch_of_pairwise_apart (hpos : Positive rs) (hnat : a.Natural rs)
    (h : (a.blocks a.start rs).Pairwise Block.Apart) : OneStretch t rs := by
  intro size size' hsub
  obtain ⟨r₁, r₂, rfl, hmem₁, htail⟩ := List.cons_sublist_iff.1 hsub
  obtain ⟨r₃, r₄, rfl, hmem₃, hlast⟩ := List.cons_sublist_iff.1 htail
  obtain ⟨x, y, rfl⟩ := List.append_of_mem hmem₃
  have hmem₄ := List.singleton_sublist.1 hlast
  have hsplit : r₁ ++ (x ++ .rewind :: y ++ r₄) = (r₁ ++ x) ++ .rewind :: (y ++ r₄) := by simp
  rw [hsplit] at hpos hnat h
  have hsub₁ : ∀ r ∈ r₁ ++ x, r ∈ (r₁ ++ x) ++ .rewind :: (y ++ r₄) :=
    fun r hr => List.mem_append_left _ hr
  have hsub₂ : ∀ r ∈ y ++ r₄, r ∈ (r₁ ++ x) ++ .rewind :: (y ++ r₄) :=
    fun r hr => List.mem_append_right _ (List.mem_cons_of_mem _ hr)
  obtain ⟨b, hb, hbaddr⟩ := a.exists_block_at_start (fun r hr => hpos r (hsub₁ r hr))
    (fun r hr => hnat r (hsub₁ r hr)) ⟨size, t, List.mem_append_left x hmem₁⟩
  obtain ⟨c, hc, hcaddr⟩ := a.exists_block_at_start (fun r hr => hpos r (hsub₂ r hr))
    (fun r hr => hnat r (hsub₂ r hr)) ⟨size', t, List.mem_append_right y hmem₄⟩
  have hbsize := (a.blocks_subset (fun r hr => hpos r (hsub₁ r hr)) le_rfl b hb).1
  have hcsize := (a.blocks_subset (fun r hr => hpos r (hsub₂ r hr)) le_rfl c hc).1
  rw [blocks_append] at h
  have hapart : b.Apart c := (List.pairwise_append.1 h).2.2 b hb c hc
  unfold Block.Apart at hapart
  omega

end Arena

end Bump
