import BcmPcie.Boards.Owner
import BcmPcie.Library.CriticalSections

/-! # Reserving a board

Tasks reserve boards with `LibObtainCard` and `LibReleaseCard`, or with the items for `PRM_BoardOwner` of
`LibSetBoardAttrsA`, which takes the semaphore of the library anew for each of its items. Any number of
tasks may be in these calls at once.

* `libObtainCard`, `libReleaseCard`, `boardOwnerItem` — what the calls do with the semaphore held.
* `Reserved` — who has a board, by what has been seen of the calls.
* `reserved_exclusive` — over any interleaving, a board is had by no two, and none is refused that nobody
  has. -/

namespace BcmPcie

open CriticalSections Simulations TagLists Tasks

variable {τ δ : Type*}

/-! ## The calls -/

/-- The owners of the boards; `NULL` for none. -/
abbrev Owners (δ : Type*) := δ → BitVec 32

/-- The variables of a call: the owner that was read, whether the board was taken or given up, and what
is to be returned so far. -/
structure OwnerRegs where
  seen : BitVec 32 := 0
  did : Bool := false
  allOk : Bool := true
  deriving DecidableEq

/-- The calls, as far as they are about owners. The items are those that the loop of `LibSetBoardAttrsA`
goes over; a board or the tags may be `NULL`. Every other call of the library may hold the semaphore,
and leaves the owners alone. -/
inductive BoardCall (δ : Type*)
  | obtainCard (dev : Option δ)
  | releaseCard (dev : Option δ)
  | setBoardAttrs (dev : Option δ) (items : Option (List TagItem))
  | other

/-- What is done with the semaphore held. -/
inductive OwnerSection (δ : Type*)
  | obtain (dev : δ)
  | release (dev : δ)
  | boardOwner (dev : δ) (data : BitVec 32)
  | other

/-- The sections of a call, one for each time it obtains the semaphore. -/
def BoardCall.sections : BoardCall δ → List (OwnerSection δ)
  | .obtainCard (some dev) => [.obtain dev]
  | .releaseCard (some dev) => [.release dev]
  | .setBoardAttrs (some dev) (some items) => (claims items).map (.boardOwner dev)
  | .other => [.other]
  | _ => []

/-- No argument is `NULL`, and all items are for the owner or to be ignored. -/
def BoardCall.Supported : BoardCall δ → Prop
  | .obtainCard dev => dev.isSome
  | .setBoardAttrs dev items => dev.isSome ∧ ∃ row, items = some row ∧ BcmPcie.Supported row
  | _ => True

instance (items : List TagItem) : Decidable (Supported items) :=
  inferInstanceAs (Decidable (∀ t ∈ items, t.tiTag = prmBoardOwner ∨ t.tiTag = tagIgnore))

/-- What a call returns, if it returns anything. -/
def BoardCall.answer (regs : OwnerRegs) : BoardCall δ → Option Bool
  | .obtainCard none => some false
  | .obtainCard (some _) => some regs.allOk
  | .setBoardAttrs (some _) (some items) => some (regs.allOk && decide (BcmPcie.Supported items))
  | .setBoardAttrs _ _ => some false
  | _ => none

section Bodies

variable [DecidableEq δ]

/-- `dev->owner` is read. -/
def readOwner (dev : δ) (x : Owners δ × OwnerRegs) : Owners δ × OwnerRegs :=
  (x.1, { x.2 with seen := x.1 dev })

/-- `dev->owner` is written. -/
def writeOwner (dev : δ) (owner : BitVec 32) (x : Owners δ × OwnerRegs) : Owners δ × OwnerRegs :=
  (Function.update x.1 dev owner, { x.2 with did := true })

/-- `LibObtainCard`, for the task with this node. -/
def libObtainCard (task : BitVec 32) (dev : δ) : Body (Owners δ) OwnerRegs :=
  [readOwner dev, fun x =>
    if x.2.seen ≠ 0 then (x.1, { x.2 with did := false, allOk := false }) else writeOwner dev task x]

/-- `LibReleaseCard`. -/
def libReleaseCard (task : BitVec 32) (dev : δ) : Body (Owners δ) OwnerRegs :=
  [readOwner dev, fun x =>
    if x.2.seen = task then writeOwner dev 0 x else (x.1, { x.2 with did := false })]

/-- An item for the owner. -/
def boardOwnerItem (dev : δ) (data : BitVec 32) : Body (Owners δ) OwnerRegs :=
  [readOwner dev, fun x =>
    if data ≠ 0 then
      if x.2.seen = 0 then writeOwner dev data x else (x.1, { x.2 with did := false, allOk := false })
    else writeOwner dev 0 x]

/-- What a task does in a section. -/
def OwnerSection.body (task : BitVec 32) : OwnerSection δ → Body (Owners δ) OwnerRegs
  | .obtain dev => libObtainCard task dev
  | .release dev => libReleaseCard task dev
  | .boardOwner dev data => boardOwnerItem dev data
  | .other => [fun x => (x.1, { x.2 with did := false })]

/-- The calls of the tasks; `FindTask(NULL)` gives each its node. -/
def boardCalls (findTask : τ → BitVec 32) : Programs τ (Owners δ) OwnerRegs (BoardCall δ) (OwnerSection δ) where
  sections := BoardCall.sections
  regs := {}
  body t := OwnerSection.body (findTask t)

/-- What the items for the owner make of a board, and of what is returned. -/
theorem run_boardOwnerItems (dev : δ) (owners : List (BitVec 32)) (x : Owners δ × OwnerRegs) :
    (Body.run ((owners.map (boardOwnerItem dev)).flatten) x).1 dev = owners.foldl claim (x.1 dev) ∧
      ((Body.run ((owners.map (boardOwnerItem dev)).flatten) x).2.allOk = true ↔
        x.2.allOk = true ∧ Claimable (x.1 dev) owners) := by
  induction owners generalizing x with
  | nil => exact ⟨rfl, (and_iff_left (List.IsChain.singleton _)).symm⟩
  | cons data owners ih =>
    have hstep : (Body.run (boardOwnerItem dev data) x).1 dev = claim (x.1 dev) data ∧
        ((Body.run (boardOwnerItem dev data) x).2.allOk = true ↔
          x.2.allOk = true ∧ (data ≠ 0 → x.1 dev = 0)) := by
      unfold Body.run boardOwnerItem claim
      simp only [List.foldl_cons, List.foldl_nil, readOwner, writeOwner]
      by_cases hdata : data = 0
      · rw [if_neg (not_not_intro hdata), if_pos hdata]
        exact ⟨Function.update_self .., (and_iff_left fun h => absurd hdata h).symm⟩
      · rw [if_pos hdata, if_neg hdata]
        by_cases hfree : x.1 dev = 0
        · rw [if_pos hfree, if_pos hfree]
          exact ⟨Function.update_self .., (and_iff_left fun _ => hfree).symm⟩
        · rw [if_neg hfree, if_neg hfree]
          exact ⟨rfl, iff_of_false Bool.false_ne_true fun h => hfree (h.2 hdata)⟩
    have hrest := ih (Body.run (boardOwnerItem dev data) x)
    have hrun : Body.run (((data :: owners).map (boardOwnerItem dev)).flatten) x
        = Body.run ((owners.map (boardOwnerItem dev)).flatten) (Body.run (boardOwnerItem dev data) x) := by
      unfold Body.run
      rw [List.map_cons, List.flatten_cons, List.foldl_append]
    rw [hrun, List.foldl_cons, ← hstep.1]
    refine ⟨hrest.1, hrest.2.trans ?_⟩
    rw [hstep.2, claimable_cons, and_assoc]
    refine and_congr_right fun _ => and_congr_right fun hfree => ?_
    rw [hstep.1, claim_of_free hfree]

/-- **Alone**, a call of `LibSetBoardAttrsA` is the loop over its items. -/
theorem run_setBoardAttrs (task : BitVec 32) (dev : δ) (items : List TagItem) (owners : Owners δ) :
    (Body.run (((BoardCall.setBoardAttrs (some dev) (some items)).sections.map
        (OwnerSection.body task)).flatten) (owners, {})).1 dev
        = (items.foldl setStep { owner := owners dev }).owner ∧
      (BoardCall.setBoardAttrs (some dev) (some items)).answer
          (Body.run (((BoardCall.setBoardAttrs (some dev) (some items)).sections.map
            (OwnerSection.body task)).flatten) (owners, {})).2
        = some (items.foldl setStep { owner := owners dev }).allOk := by
  have hsections : (BoardCall.setBoardAttrs (some dev) (some items)).sections.map
      (OwnerSection.body task) = (claims items).map (boardOwnerItem dev) := by
    rw [BoardCall.sections, List.map_map]
    rfl
  obtain ⟨howner, hok⟩ := run_boardOwnerItems dev (claims items) (owners, {})
  rw [hsections]
  refine ⟨howner.trans (setStep_foldl_owner items { owner := owners dev }).symm, congrArg some ?_⟩
  · rw [Bool.eq_iff_iff, Bool.and_eq_true, hok, setStep_foldl_allOk, decide_eq_true_iff]
    simp only [true_and, and_comm]

end Bodies

/-! ## What a section does -/

section Sections

variable [DecidableEq δ]

/-- The board that a section is about, and the owner it is to get. -/
def OwnerSection.target (task : BitVec 32) : OwnerSection δ → Option (δ × BitVec 32)
  | .obtain dev => some (dev, task)
  | .release dev => some (dev, 0)
  | .boardOwner dev data => some (dev, data)
  | .other => none

/-- The board can get that owner. -/
def OwnerSection.Can (task : BitVec 32) (owners : Owners δ) : OwnerSection δ → Prop
  | .obtain dev => owners dev = 0
  | .release dev => owners dev = task
  | .boardOwner dev data => data ≠ 0 → owners dev = 0
  | .other => False

/-- The section decides what its call returns. -/
def OwnerSection.Decides : OwnerSection δ → Prop
  | .obtain _ | .boardOwner _ _ => True
  | _ => False

/-- What a section does: it sets the owner if it can, and says so. -/
theorem run_body (task : BitVec 32) (q : OwnerSection δ) (x : Owners δ × OwnerRegs) :
    ((Body.run (q.body task) x).2.did = true ↔ q.Can task x.1) ∧
      (∀ dev owner, q.target task = some (dev, owner) → q.Can task x.1 →
        (Body.run (q.body task) x).1 = Function.update x.1 dev owner) ∧
      (¬ q.Can task x.1 → (Body.run (q.body task) x).1 = x.1) ∧
      ((Body.run (q.body task) x).2.allOk = true ↔
        x.2.allOk = true ∧ (q.Decides → (Body.run (q.body task) x).2.did = true)) := by
  have htaken (dev : δ) (owner : BitVec 32) :
      ∀ dev' owner', some (dev, owner) = some (dev', owner') →
        Function.update x.1 dev owner = Function.update x.1 dev' owner' := by
    rintro _ _ ⟨⟩
    rfl
  cases q with
  | obtain dev =>
    by_cases h : x.1 dev = 0
    · have hrun : Body.run ((OwnerSection.obtain dev).body task) x
          = writeOwner dev task (readOwner dev x) := if_neg (not_not_intro h)
      rw [hrun]
      exact ⟨iff_of_true rfl h, fun dev' owner' heq _ => htaken dev task dev' owner' heq,
        fun hnot => absurd h hnot, (and_iff_left fun _ => rfl).symm⟩
    · have hrun : Body.run ((OwnerSection.obtain dev).body task) x
          = (x.1, { x.2 with seen := x.1 dev, did := false, allOk := false }) := if_pos h
      rw [hrun]
      exact ⟨iff_of_false Bool.false_ne_true h, fun _ _ _ hcan => absurd hcan h, fun _ => rfl,
        iff_of_false Bool.false_ne_true fun hall => Bool.false_ne_true (hall.2 trivial)⟩
  | release dev =>
    by_cases h : x.1 dev = task
    · have hrun : Body.run ((OwnerSection.release dev).body task) x
          = writeOwner dev 0 (readOwner dev x) := if_pos h
      rw [hrun]
      exact ⟨iff_of_true rfl h, fun dev' owner' heq _ => htaken dev 0 dev' owner' heq,
        fun hnot => absurd h hnot, (and_iff_left fun _ => rfl).symm⟩
    · have hrun : Body.run ((OwnerSection.release dev).body task) x
          = (x.1, { x.2 with seen := x.1 dev, did := false }) := if_neg h
      rw [hrun]
      exact ⟨iff_of_false Bool.false_ne_true h, fun _ _ _ hcan => absurd hcan h, fun _ => rfl,
        (and_iff_left fun hd => absurd hd not_false).symm⟩
  | boardOwner dev data =>
    by_cases h : data ≠ 0 → x.1 dev = 0
    · have hrun : Body.run ((OwnerSection.boardOwner dev data).body task) x
          = writeOwner dev data (readOwner dev x) := by
        by_cases hdata : data = 0
        · have hclear : Body.run ((OwnerSection.boardOwner dev data).body task) x
              = writeOwner dev 0 (readOwner dev x) := if_neg (not_not_intro hdata)
          rw [hclear, hdata]
        · exact (if_pos hdata).trans (if_pos (h hdata))
      rw [hrun]
      exact ⟨iff_of_true rfl h, fun dev' owner' heq _ => htaken dev data dev' owner' heq,
        fun hnot => absurd h hnot, (and_iff_left fun _ => rfl).symm⟩
    · obtain ⟨hdata, howned⟩ := Classical.not_imp.1 h
      have hrun : Body.run ((OwnerSection.boardOwner dev data).body task) x
          = (x.1, { x.2 with seen := x.1 dev, did := false, allOk := false }) :=
        (if_pos hdata).trans (if_neg howned)
      rw [hrun]
      exact ⟨iff_of_false Bool.false_ne_true h, fun _ _ _ hcan => absurd hcan h, fun _ => rfl,
        iff_of_false Bool.false_ne_true fun hall => Bool.false_ne_true (hall.2 trivial)⟩
  | other =>
    exact ⟨iff_of_false Bool.false_ne_true not_false, fun _ _ heq => absurd heq (Option.some_ne_none _).symm,
      fun _ => rfl, (and_iff_left fun hd => absurd hd not_false).symm⟩

end Sections

/-! ## Who has a board -/

section History

variable [DecidableEq τ] (findTask : τ → BitVec 32)

/-- What is seen of the calls. -/
abbrev BoardLabel (τ δ : Type*) := Label τ OwnerRegs (BoardCall δ) (OwnerSection δ)

/-- A section takes the board for the owner `x`. -/
def Takes (dev : δ) (x : BitVec 32) : BoardLabel τ δ → Prop
  | .commit t (.obtain d) regs => d = dev ∧ regs.did = true ∧ x = findTask t
  | .commit _ (.boardOwner d data) regs => d = dev ∧ regs.did = true ∧ data ≠ 0 ∧ x = data
  | _ => False

/-- A section gives the board up that `x` has: a task with this node releases it, or it is cleared,
which any task may do. -/
def GivesUp (dev : δ) (x : BitVec 32) : BoardLabel τ δ → Prop
  | .commit t (.release d) _ => d = dev ∧ x = findTask t
  | .commit _ (.boardOwner d data) _ => d = dev ∧ data = 0
  | _ => False

/-- By what has been seen, `x` has the board: it was taken for `x`, and not given up since. -/
def Reserved (h : List (BoardLabel τ δ)) (dev : δ) (x : BitVec 32) : Prop :=
  Since (Takes findTask dev x) (fun l => ¬ GivesUp findTask dev x l) h

/-- A section has done what it is for: a board is taken if nobody has it, a task releases a board that it
has, and a clear always does. -/
def OwnerSection.Succeeds (h : List (BoardLabel τ δ)) (t : τ) : OwnerSection δ → Prop
  | .obtain dev => ∀ x, ¬ Reserved findTask h dev x
  | .release dev => Reserved findTask h dev (findTask t)
  | .boardOwner dev data => data ≠ 0 → ∀ x, ¬ Reserved findTask h dev x
  | .other => False

/-- The owners are those who have the boards. -/
def OwnersKept (h : List (BoardLabel τ δ)) (owners : Owners δ) : Prop :=
  ∀ dev x, x ≠ 0 → (owners dev = x ↔ Reserved findTask h dev x)

variable {findTask} [DecidableEq δ]

omit [DecidableEq τ] [DecidableEq δ] in
/-- A board is reserved if it was just taken, or if it was before and was not given up. -/
theorem reserved_concat {h : List (BoardLabel τ δ)} {l : BoardLabel τ δ} {dev : δ} {x : BitVec 32} :
    Reserved findTask (h ++ [l]) dev x ↔
      Takes findTask dev x l ∨ Reserved findTask h dev x ∧ ¬ GivesUp findTask dev x l := since_concat

omit [DecidableEq τ] in
/-- **One section**, in terms of the owners. -/
theorem owner_commit {t : τ} {q : OwnerSection δ} {x : Owners δ × OwnerRegs}
    {dev : δ} {owner : BitVec 32} (howner : owner ≠ 0) :
    (Body.run (q.body (findTask t)) x).1 dev = owner ↔
      Takes findTask dev owner (.commit t q (Body.run (q.body (findTask t)) x).2) ∨
        x.1 dev = owner ∧
          ¬ GivesUp findTask dev owner (.commit t q (Body.run (q.body (findTask t)) x).2) := by
  obtain ⟨hdid, hwritten, hkept, -⟩ := run_body (findTask t) q x
  by_cases hcan : q.Can (findTask t) x.1
  · have hdid := hdid.2 hcan
    cases q with
    | obtain d =>
      have hfree : x.1 d = 0 := hcan
      rw [hwritten d _ rfl hcan]
      by_cases hd : dev = d
      · rw [hd, Function.update_self]
        simp only [Takes, GivesUp, hdid, hfree, true_and, not_false_eq_true, and_true]
        exact ⟨fun h => Or.inl h.symm, fun h => h.elim Eq.symm fun h => absurd h.symm howner⟩
      · rw [Function.update_of_ne hd]
        simp only [Takes, GivesUp, Ne.symm hd, false_and, false_or, not_false_eq_true, and_true]
    | release d =>
      have howned : x.1 d = findTask t := hcan
      rw [hwritten d _ rfl hcan]
      by_cases hd : dev = d
      · rw [hd, Function.update_self]
        simp only [Takes, GivesUp, howned, true_and, false_or]
        exact ⟨fun h => absurd h.symm howner, fun h => absurd h.1.symm h.2⟩
      · rw [Function.update_of_ne hd]
        simp only [Takes, GivesUp, Ne.symm hd, false_and, false_or, not_false_eq_true, and_true]
    | boardOwner d data =>
      have hfree : data ≠ 0 → x.1 d = 0 := hcan
      rw [hwritten d _ rfl hcan]
      by_cases hd : dev = d
      · rw [hd, Function.update_self]
        simp only [Takes, GivesUp, hdid, true_and]
        constructor
        · rintro rfl
          exact Or.inl ⟨howner, rfl⟩
        · rintro (⟨-, rfl⟩ | ⟨hx, hdata⟩)
          · rfl
          · exact absurd (hx.symm.trans (hfree hdata)) howner
      · rw [Function.update_of_ne hd]
        simp only [Takes, GivesUp, Ne.symm hd, false_and, false_or, not_false_eq_true, and_true]
    | other => exact absurd hcan not_false
  · have hdid : (Body.run (q.body (findTask t)) x).2.did = false :=
      Bool.eq_false_iff.2 fun hd => hcan (hdid.1 hd)
    rw [hkept hcan]
    cases q with
    | obtain d =>
      simp only [Takes, GivesUp, hdid, Bool.false_eq_true, false_and, and_false, false_or,
        not_false_eq_true, and_true]
    | release d =>
      have hother : x.1 d ≠ findTask t := hcan
      simp only [Takes, GivesUp, false_or]
      refine ⟨fun h => ⟨h, ?_⟩, fun h => h.1⟩
      rintro ⟨rfl, rfl⟩
      exact hother h
    | boardOwner d data =>
      obtain ⟨hdata, -⟩ := Classical.not_imp.1 hcan
      simp only [Takes, GivesUp, hdid, hdata, Bool.false_eq_true, false_and, and_false, false_or,
        not_false_eq_true, and_true]
    | other => simp only [Takes, GivesUp, false_or, not_false_eq_true, and_true]

omit [DecidableEq τ] [DecidableEq δ] in
/-- Nobody without a node has a board. -/
theorem Reserved.ne_zero (hnode : ∀ t, findTask t ≠ 0) {h : List (BoardLabel τ δ)} {dev : δ}
    {x : BitVec 32} (hx : Reserved findTask h dev x) : x ≠ 0 := by
  obtain ⟨before, l, after, -, htakes, -⟩ := hx
  cases l with
  | commit t q regs =>
    cases q with
    | obtain d => exact htakes.2.2 ▸ hnode t
    | boardOwner d data => exact htakes.2.2.2 ▸ htakes.2.2.1
    | _ => exact absurd htakes not_false
  | _ => exact absurd htakes not_false

namespace OwnersKept

variable {h : List (BoardLabel τ δ)} {owners : Owners δ}

omit [DecidableEq τ] [DecidableEq δ] in
/-- A board has no owner just when nobody has it. -/
theorem eq_zero_iff (hnode : ∀ t, findTask t ≠ 0) (hkept : OwnersKept findTask h owners) (dev : δ) :
    owners dev = 0 ↔ ∀ x, ¬ Reserved findTask h dev x := by
  constructor
  · intro hfree x hx
    exact hx.ne_zero hnode (((hkept dev x (hx.ne_zero hnode)).2 hx).symm.trans hfree)
  · intro hnone
    by_contra howned
    exact hnone _ ((hkept dev _ howned).1 rfl)

omit [DecidableEq τ] [DecidableEq δ] in
/-- What a section can do, by what has been seen. -/
theorem can_iff (hnode : ∀ t, findTask t ≠ 0) (hkept : OwnersKept findTask h owners) (t : τ)
    (q : OwnerSection δ) : q.Can (findTask t) owners ↔ q.Succeeds findTask h t := by
  cases q with
  | obtain dev => exact hkept.eq_zero_iff hnode dev
  | release dev => exact hkept dev _ (hnode t)
  | boardOwner dev data => exact imp_congr_right fun _ => hkept.eq_zero_iff hnode dev
  | other => exact Iff.rfl

/-- **One step** of the calls, section by section. -/
theorem step {S S' : Config τ (Owners δ) (Outside OwnerRegs (BoardCall δ) (OwnerSection δ))}
    {l : BoardLabel τ δ} (hkept : OwnersKept findTask h S.shared)
    (hstep : atomic (boardCalls findTask) S l S') : OwnersKept findTask (h ++ [l]) S'.shared := by
  intro dev x hx
  rw [reserved_concat, ← hkept dev x hx]
  cases l with
  | invoke t c =>
    obtain ⟨-, rfl⟩ := hstep
    simp only [Takes, GivesUp, false_or, not_false_eq_true, and_true]
  | respond t c regs =>
    obtain ⟨-, rfl⟩ := hstep
    simp only [Takes, GivesUp, false_or, not_false_eq_true, and_true]
  | commit t q regs' =>
    obtain ⟨c, todo, regs, -, hrun, -⟩ := hstep
    have hrun : (S'.shared, regs') = Body.run (q.body (findTask t)) (S.shared, regs) := hrun
    have howner : (Body.run (q.body (findTask t)) (S.shared, regs)).1 dev = x ↔
        Takes findTask dev x (.commit t q (Body.run (q.body (findTask t)) (S.shared, regs)).2) ∨
          S.shared dev = x ∧ ¬ GivesUp findTask dev x
            (.commit t q (Body.run (q.body (findTask t)) (S.shared, regs)).2) := owner_commit hx
    rw [← hrun] at howner
    exact howner

end OwnersKept

/-! ## What calls return -/

/-- What a call that returns has done since it was made: its sections, each of them once, and it answers
`TRUE` if it was supported and each has succeeded. -/
def CallAnswered (before : List (BoardLabel τ δ)) (t : τ) (c : BoardCall δ) (regs : OwnerRegs) : Prop :=
  ∃ earlier during, before = earlier ++ .invoke t c :: during ∧
    (commitsOf t during).map Prod.fst = c.sections ∧
    ∀ ok, c.answer regs = some ok →
      (ok = true ↔ c.Supported ∧ ∀ x ∈ commitsOf t during, x.2.did = true)

variable (findTask) in
/-- What may be seen of calls that reserve boards. A section takes a board just when nobody has it, and
releases it just when its task has it; calls return what their sections came to. -/
structure Exclusive (h : List (BoardLabel τ δ)) : Prop where
  commit : ∀ before t q regs after, h = before ++ .commit t q regs :: after →
    (regs.did = true ↔ q.Succeeds findTask before t)
  respond : ∀ before t c regs after, h = before ++ .respond t c regs :: after →
    CallAnswered before t c regs

/-- What is to be returned so far, by the sections that are done. -/
def AllOk (commits : List (OwnerSection δ × OwnerRegs)) (regs : OwnerRegs) : Prop :=
  regs.allOk = true ↔ ∀ x ∈ commits, x.1.Decides → x.2.did = true

/-- One more section of a call: it has worked if this one has and those before it have. -/
theorem allOk_concat (task : BitVec 32) {commits : List (OwnerSection δ × OwnerRegs)}
    (q : OwnerSection δ) (owners : Owners δ) {regs : OwnerRegs} (h : AllOk commits regs) :
    AllOk (commits ++ [(q, (Body.run (q.body task) (owners, regs)).2)])
      (Body.run (q.body task) (owners, regs)).2 := by
  unfold AllOk
  rw [(run_body task q (owners, regs)).2.2.2, List.forall_mem_append, List.forall_mem_singleton]
  exact and_congr_left fun _ => h

omit [DecidableEq τ] [DecidableEq δ] in
/-- All sections decide of a call that returns something. -/
theorem decides_of_answer {c : BoardCall δ} {regs : OwnerRegs} {ok : Bool}
    (h : c.answer regs = some ok) : ∀ q ∈ c.sections, q.Decides := by
  intro q hq
  cases c with
  | obtainCard dev =>
    cases dev with
    | none => exact absurd hq List.not_mem_nil
    | some dev => exact List.mem_singleton.1 hq ▸ trivial
  | setBoardAttrs dev items =>
    cases dev <;> cases items <;> first | exact absurd hq List.not_mem_nil | skip
    obtain ⟨data, -, rfl⟩ := List.mem_map.1 hq
    exact trivial
  | _ => exact absurd h (Option.some_ne_none _).symm

omit [DecidableEq τ] [DecidableEq δ] in
/-- What is returned in the end. -/
theorem answer_eq_true {c : BoardCall δ} {regs : OwnerRegs} {ok : Bool}
    (h : c.answer regs = some ok) : ok = true ↔ c.Supported ∧ regs.allOk = true := by
  cases c with
  | obtainCard dev =>
    cases dev <;> obtain rfl := Option.some.inj h
    · exact iff_of_false Bool.false_ne_true fun hall => Bool.false_ne_true hall.1
    · exact (and_iff_right rfl).symm
  | setBoardAttrs dev items =>
    obtain _ | dev := dev
    · obtain rfl := Option.some.inj h
      exact iff_of_false Bool.false_ne_true fun hall => Bool.false_ne_true hall.1.1
    · obtain _ | items := items
      · obtain rfl := Option.some.inj h
        refine iff_of_false Bool.false_ne_true ?_
        rintro ⟨⟨-, _, hnone, -⟩, -⟩
        exact Option.some_ne_none _ hnone.symm
      · obtain rfl := Option.some.inj h
        rw [Bool.and_eq_true, decide_eq_true_iff, and_comm]
        refine and_congr_left fun _ => ⟨fun hs => ⟨rfl, items, rfl, hs⟩, ?_⟩
        rintro ⟨-, _, ⟨⟩, hs⟩
        exact hs
  | _ => exact absurd h (Option.some_ne_none _).symm

/-- **Reservations are exclusive.** Tasks call, from when no board has an owner, and are interleaved in
any way: what is seen of them is what may be seen, and while nobody is in a section, the owner of a board
is whoever has it. -/
theorem reserved_exclusive (hnode : ∀ t, findTask t ≠ 0)
    {s s' : Config τ (Locked (Owners δ)) (Point (Owners δ) OwnerRegs (BoardCall δ) (OwnerSection δ))}
    (hfree : s.shared.held = false) (hidle : ∀ t, s.point t = .outside .idle)
    (hstart : ∀ dev, s.shared.data dev = 0) {ls : List (Option (BoardLabel τ δ))}
    (hpath : Path (Interleaved (boardCalls findTask)) s ls s') :
    Exclusive findTask ls.reduceOption ∧
      (s'.shared.held = false → OwnersKept findTask ls.reduceOption s'.shared.data) := by
  obtain ⟨T, hT, hrelated⟩ := (atomic_of_interleaved (boardCalls findTask)).path hpath
    (related_of_idle hfree hidle)
  have hT := hT.of_stutters
  -- what holds in between, of what has been seen so far
  have hhistory {h T'} (hpath : Path (atomic (boardCalls findTask))
      ⟨s.shared.data, fun _ => .idle⟩ h T') :
      OwnersKept findTask h T'.shared ∧ Called (boardCalls findTask) AllOk h T' := by
    have hinv := Path.history (I := fun h S => OwnersKept findTask h S.shared ∧
      Called (boardCalls findTask) AllOk h S)
      (fun hs hstep => ⟨hs.1.step hstep, Called.step (by simp [AllOk, boardCalls])
        (fun t cs q g regs hall => allOk_concat (findTask t) q g hall) hs.2 hstep⟩) hpath
      (h := []) ⟨fun dev x hx => iff_of_false (fun heq => hx ((hstart dev).symm.trans heq).symm)
        (not_since_nil _ _), fun t c todo regs hp => by cases hp⟩
    exact hinv
  refine ⟨⟨fun before t q regs after heq => ?_, fun before t c regs after heq => ?_⟩, fun hreleased => ?_⟩
  · rw [heq] at hT
    obtain ⟨U, hU, hrest⟩ := hT.of_append
    obtain _ | ⟨hstep, -⟩ := hrest
    obtain ⟨c, todo, regs₀, -, hrun, -⟩ := hstep
    obtain rfl := congrArg Prod.snd hrun
    exact (run_body (findTask t) q (U.shared, regs₀)).1.trans ((hhistory hU).1.can_iff hnode t q)
  · rw [heq] at hT
    obtain ⟨U, hU, hrest⟩ := hT.of_append
    obtain _ | ⟨hstep, -⟩ := hrest
    obtain ⟨earlier, during, rfl, hsections, hall⟩ := (hhistory hU).2 t c [] regs hstep.1
    rw [List.append_nil] at hsections
    refine ⟨earlier, during, rfl, hsections, fun ok hok => ?_⟩
    have hall : regs.allOk = true ↔ _ := hall
    rw [answer_eq_true hok, hall]
    refine and_congr_right fun _ => forall₂_congr fun x hx => ?_
    refine forall_prop_of_true (decides_of_answer hok x.1 ?_)
    have hmem : x.1 ∈ (commitsOf t during).map Prod.fst := List.mem_map_of_mem hx
    rwa [hsections] at hmem
  · rw [← hrelated.free hreleased]
    exact (hhistory hT).1

end History

/-- Two tasks, and no board owned. -/
def sampleTasks : Config Bool (Locked (Owners Unit))
    (Point (Owners Unit) OwnerRegs (BoardCall Unit) (OwnerSection Unit)) :=
  ⟨⟨false, fun _ => 0⟩, fun _ => .outside .idle⟩

/-- The nodes of the two. -/
def taskNode (t : Bool) : BitVec 32 := if t then 0x1000 else 0x2000

/-- Both obtain a board; the second calls while the first is in its section. -/
def sampleCalls : List (Option (BoardLabel Bool Unit)) :=
  [some (.invoke true (.obtainCard (some ()))), none, none,
    some (.invoke false (.obtainCard (some ()))), none,
    some (.commit true (.obtain ()) ⟨0, true, true⟩), none, none,
    some (.respond true (.obtainCard (some ())) ⟨0, true, true⟩), none,
    some (.commit false (.obtain ()) ⟨0x1000, false, false⟩),
    some (.respond false (.obtainCard (some ())) ⟨0x1000, false, false⟩)]

/-- Two tasks that reserve and give up boards in turn. -/
theorem reserved_exclusive_sample : ∃ s',
    Path (Interleaved (boardCalls taskNode)) sampleTasks sampleCalls s' ∧
      Exclusive taskNode sampleCalls.reduceOption ∧
        (s'.shared.held = false → OwnersKept taskNode sampleCalls.reduceOption s'.shared.data) := by
  have hpath : ∃ s', Path (Interleaved (boardCalls taskNode)) sampleTasks sampleCalls s' :=
    ⟨_, .cons (.invoke rfl) (.cons (.obtain (t := true) rfl rfl) (.cons (.access (t := true) rfl)
      (.cons (.invoke rfl) (.cons (.access (t := true) rfl) (.cons (.release rfl)
        (.cons (.obtain (t := false) rfl rfl) (.cons (.access (t := false) rfl)
          (.cons (.respond rfl) (.cons (.access (t := false) rfl) (.cons (.release rfl)
            (.cons (.respond rfl) (.nil _))))))))))))⟩
  obtain ⟨s', hpath⟩ := hpath
  exact ⟨s', hpath, reserved_exclusive (by decide) rfl (fun _ => rfl) (fun _ => rfl) hpath⟩

end BcmPcie
