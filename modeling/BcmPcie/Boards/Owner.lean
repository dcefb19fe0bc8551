import BcmPcie.Boards.Attrs
import Mathlib.Data.List.DropRight
import Mathlib.Data.List.Induction

/-! # Claiming a board

A board belongs to the task that has set its `PRM_BoardOwner`. `LibSetBoardAttrsA` goes over a list of
items, claims and clears among them, and returns whether all of them could be carried out; those that
could be stay carried out, whatever it returns.

* `AllOrNothing` — what a caller might rely on; `ItemByItem` — what it can rely on.
* `setStep_foldl_owner`, `setStep_foldl_allOk` — the owner that is left, and what is returned.
* `itemByItem` — the outcome of the call, for any list. -/

namespace BcmPcie

open TagLists

/-! ## What is claimed -/

/-- The owners that the items set, one after the other; `NULL` for a clear. -/
def claims (items : List TagItem) : List (BitVec 32) :=
  (items.filter (·.tiTag = prmBoardOwner)).map (·.tiData)

/-- All items are for the owner, or to be ignored. -/
def Supported (items : List TagItem) : Prop :=
  ∀ t ∈ items, t.tiTag = prmBoardOwner ∨ t.tiTag = tagIgnore

/-- No claim comes upon a board that is owned: right in front of it there is a clear, or the board was
free to begin with. -/
def Claimable (owner : BitVec 32) (owners : List (BitVec 32)) : Prop :=
  (owner :: owners).IsChain fun before after => after ≠ 0 → before = 0

/-- The board is left to the task that has had it. Behind the last clear the first claim is for that
task; without a clear the board was owned, or is not claimed. -/
def Restored (owner : BitVec 32) (owners : List (BitVec 32)) : Prop :=
  if 0 ∈ owners then (owners.rtakeWhile (· ≠ 0)).headD 0 = owner else owner ≠ 0 ∨ owners = []

/-- The items of a row have all been carried out: behind each of those for the owner the board has the
owner it sets. -/
def Applied (owner : BitVec 32) (items : List TagItem) : Prop :=
  ∀ before t after, items = before ++ t :: after → t.tiTag = prmBoardOwner →
    ((before ++ [t]).foldl setStep { owner := owner }).owner = t.tiData

/-- Where the call returns `FALSE` the board has the owner it has had, and where it returns `TRUE` all
items for the owner have been carried out. -/
def AllOrNothing (mem : Memory) (tags : BitVec 32) (board : Board) : Prop :=
  ∀ fuel ok board', libSetBoardAttrsA mem fuel (some board) tags = some (ok, some board') →
    (ok = false → board'.owner = board.owner) ∧
      (ok = true → ∀ items, Row mem tags items → Applied board.owner items)

/-- The items are carried out one by one. `TRUE` says that all of them have been, and where the call
returns `FALSE` the board is left to the task that has had it if the items that could be carried out
leave it so. A single item for the owner, with no others that cannot be set, is all or nothing. -/
structure ItemByItem (mem : Memory) (tags : BitVec 32) (board : Board) (ok : Bool) (board' : Board) :
    Prop where
  all : ok = true ↔ tags ≠ 0 ∧ ∀ items, Row mem tags items →
    Supported items ∧ Claimable board.owner (claims items)
  done : ok = true → ∀ items, Row mem tags items → Applied board.owner items
  kept : ok = false → (board'.owner = board.owner ↔
    tags = 0 ∨ ∀ items, Row mem tags items → Restored board.owner (claims items))
  single : ok = false → (∀ items, Row mem tags items →
    Supported items ∧ (claims items).length ≤ 1) → board'.owner = board.owner

/-! ## The owner that is left -/

/-- A board with this owner, after a claim or a clear. -/
def claim (owner data : BitVec 32) : BitVec 32 :=
  if data = 0 then 0 else if owner = 0 then data else owner

/-- The claims of a list are those of its owner items. -/
theorem claims_cons (t : TagItem) (items : List TagItem) : claims (t :: items)
    = if t.tiTag = prmBoardOwner then t.tiData :: claims items else claims items := by
  unfold claims
  rw [List.filter_cons]
  by_cases h : t.tiTag = prmBoardOwner
  · rw [if_pos h, if_pos (decide_eq_true h), List.map_cons]
  · rw [if_neg h, if_neg (by rwa [decide_eq_true_eq])]

/-- An item for the owner sets it, if it can be set; any other item leaves it. -/
theorem setStep_owner (s : SetState) (t : TagItem) : (setStep s t).owner
    = if t.tiTag = prmBoardOwner then claim s.owner t.tiData else s.owner := by
  unfold setStep claim
  by_cases hi : t.tiTag = tagIgnore
  · rw [if_pos hi, if_neg (by rw [hi]; decide)]
  · rw [if_neg hi]
    split
    · by_cases h : t.tiData = 0
      · rw [if_neg (not_not_intro h), if_pos h]
      · rw [if_pos h, if_neg h]
        split <;> rfl
    · rfl

/-- A claim of a free board, or a clear, sets the owner. -/
theorem claim_of_free {owner data : BitVec 32} (h : data ≠ 0 → owner = 0) : claim owner data = data := by
  unfold claim
  by_cases hdata : data = 0
  · rw [if_pos hdata, hdata]
  · rw [if_neg hdata, if_pos (h hdata)]

/-- The owner after the loop is the owner after the claims. -/
theorem setStep_foldl_owner (items : List TagItem) (s : SetState) :
    (items.foldl setStep s).owner = (claims items).foldl claim s.owner := by
  induction items generalizing s with
  | nil => rfl
  | cons t items ih =>
    rw [List.foldl_cons, ih, setStep_owner, claims_cons]
    split
    · rw [List.foldl_cons]
    · rfl

/-- Behind owners that are not 0 the first stays the first. -/
theorem headD_concat {l : List (BitVec 32)} (h : ∀ x ∈ l, x ≠ 0) (d : BitVec 32) :
    (l ++ [d]).headD 0 = if l.headD 0 = 0 then d else l.headD 0 := by
  cases l with
  | nil => rfl
  | cons x l => exact (if_neg (h x List.mem_cons_self)).symm

/-- Of the claims behind the last clear the first counts. -/
theorem foldl_claim (owner : BitVec 32) (owners : List (BitVec 32)) :
    owners.foldl claim owner
      = if 0 ∈ owners then (owners.rtakeWhile (· ≠ 0)).headD 0
        else if owner = 0 then owners.headD 0 else owner := by
  -- on the list from its end: the last claim of the row is made last
  induction owners using List.reverseRecOn with
  | nil =>
    rw [List.foldl_nil, if_neg List.not_mem_nil]
    split
    · assumption
    · rfl
  | append_singleton owners d ih =>
    rw [List.foldl_append, List.foldl_cons, List.foldl_nil, ih]
    unfold claim
    by_cases hd : d = 0
    · subst hd
      rw [if_pos rfl, if_pos (List.mem_append_right _ (List.mem_singleton_self _)),
        List.rtakeWhile_concat_neg _ _ _ (by decide)]
      rfl
    · have hmem : 0 ∈ owners ++ [d] ↔ 0 ∈ owners := by
        rw [List.mem_append, List.mem_singleton]
        exact ⟨fun h => h.resolve_right fun h => hd h.symm, Or.inl⟩
      rw [if_neg hd]
      by_cases h0 : 0 ∈ owners
      · rw [if_pos h0, if_pos (hmem.2 h0), List.rtakeWhile_concat, if_pos (decide_eq_true hd)]
        refine (headD_concat (fun x hx => ?_) d).symm
        have hne := List.mem_rtakeWhile_imp hx
        exact of_decide_eq_true hne
      · rw [if_neg h0, if_neg fun h => h0 (hmem.1 h)]
        by_cases howner : owner = 0
        · rw [if_pos howner, if_pos howner]
          exact (headD_concat (fun x hx hx0 => h0 (hx0 ▸ hx)) d).symm
        · rw [if_neg howner, if_neg howner, if_neg howner]

/-- The owner after the claims is the owner before them if and only if they restore it. -/
theorem restored_iff (owner : BitVec 32) (owners : List (BitVec 32)) :
    owners.foldl claim owner = owner ↔ Restored owner owners := by
  rw [foldl_claim]
  unfold Restored
  by_cases h0 : 0 ∈ owners
  · rw [if_pos h0, if_pos h0]
  · rw [if_neg h0, if_neg h0]
    by_cases howner : owner = 0
    · rw [if_pos howner, howner]
      cases owners with
      | nil => exact ⟨fun _ => Or.inr rfl, fun _ => rfl⟩
      | cons d owners =>
        have hd : d ≠ 0 := fun hd => h0 (hd ▸ List.mem_cons_self)
        exact ⟨fun h => absurd h hd, fun h => absurd (h.resolve_left fun h => h rfl) (List.cons_ne_nil _ _)⟩
    · rw [if_neg howner]
      exact ⟨fun _ => Or.inl howner, fun _ => rfl⟩

/-! ## What is returned -/

/-- An item can be carried out if it is to be ignored, a clear, or a claim of a free board. -/
theorem setStep_allOk (s : SetState) (t : TagItem) : (setStep s t).allOk = true ↔
    s.allOk = true ∧ (t.tiTag = tagIgnore ∨
      t.tiTag = prmBoardOwner ∧ (t.tiData ≠ 0 → s.owner = 0)) := by
  unfold setStep
  by_cases hi : t.tiTag = tagIgnore
  · rw [if_pos hi]
    exact ⟨fun h => ⟨h, Or.inl hi⟩, fun h => h.1⟩
  · rw [if_neg hi]
    by_cases howner : t.tiTag = prmBoardOwner
    · rw [if_pos howner]
      by_cases h : t.tiData = 0
      · rw [if_neg (not_not_intro h)]
        exact ⟨fun hok => ⟨hok, Or.inr ⟨howner, fun hne => absurd h hne⟩⟩, fun h => h.1⟩
      · rw [if_pos h]
        by_cases hfree : s.owner = 0
        · rw [if_pos hfree]
          exact ⟨fun hok => ⟨hok, Or.inr ⟨howner, fun _ => hfree⟩⟩, fun h => h.1⟩
        · rw [if_neg hfree]
          refine ⟨fun hok => (by cases hok), fun hok => ?_⟩
          exact absurd ((hok.2.resolve_left hi).2 h) hfree
    · rw [if_neg howner]
      refine ⟨fun hok => (by cases hok), fun hok => ?_⟩
      exact absurd (hok.2.resolve_left hi).1 howner

/-- A list is supported if its first item and the rest are. -/
theorem supported_cons (t : TagItem) (items : List TagItem) : Supported (t :: items) ↔
    (t.tiTag = prmBoardOwner ∨ t.tiTag = tagIgnore) ∧ Supported items := List.forall_mem_cons

/-- A claim can be made if nobody owns the board, or if it is a release, and those behind it can. -/
theorem claimable_cons (owner data : BitVec 32) (owners : List (BitVec 32)) :
    Claimable owner (data :: owners) ↔ (data ≠ 0 → owner = 0) ∧ Claimable data owners :=
  List.isChain_cons_cons

/-- **The call returns `TRUE`** for claims that come upon a free board and clears, and for nothing
else. -/
theorem setStep_foldl_allOk (items : List TagItem) (s : SetState) :
    (items.foldl setStep s).allOk = true ↔
      s.allOk = true ∧ Supported items ∧ Claimable s.owner (claims items) := by
  induction items generalizing s with
  | nil =>
    exact ⟨fun h => ⟨h, fun t ht => absurd ht List.not_mem_nil, List.IsChain.singleton _⟩, fun h => h.1⟩
  | cons t items ih =>
    rw [List.foldl_cons, ih, setStep_allOk, setStep_owner, supported_cons, claims_cons]
    by_cases howner : t.tiTag = prmBoardOwner
    · have hi : t.tiTag ≠ tagIgnore := by
        rw [howner]
        decide
      rw [if_pos howner, if_pos howner, claimable_cons]
      constructor
      · rintro ⟨⟨hok, hcan⟩, hsupported, hchain⟩
        have hfree := (hcan.resolve_left hi).2
        rw [claim_of_free hfree] at hchain
        exact ⟨hok, ⟨Or.inl howner, hsupported⟩, hfree, hchain⟩
      · rintro ⟨hok, ⟨-, hsupported⟩, hfree, hchain⟩
        rw [claim_of_free hfree]
        exact ⟨⟨hok, Or.inr ⟨howner, hfree⟩⟩, hsupported, hchain⟩
    · rw [if_neg howner, if_neg howner]
      constructor
      · rintro ⟨⟨hok, hcan⟩, hsupported, hchain⟩
        exact ⟨hok, ⟨Or.inr (hcan.resolve_right fun h => howner h.1), hsupported⟩, hchain⟩
      · rintro ⟨hok, ⟨hcan, hsupported⟩, hchain⟩
        exact ⟨⟨hok, Or.inl (hcan.resolve_left howner)⟩, hsupported, hchain⟩

/-- Where the call returns `TRUE`, the items have been carried out. -/
theorem applied_of_allOk {items : List TagItem} {owner : BitVec 32}
    (h : (items.foldl setStep { owner := owner }).allOk = true) : Applied owner items := by
  rintro before t after rfl howner
  rw [List.foldl_append, List.foldl_cons] at h
  have hstep := ((setStep_allOk _ t).1 ((setStep_foldl_allOk _ _).1 h).1).2
  have hi : t.tiTag ≠ tagIgnore := by
    rw [howner]
    decide
  rw [List.foldl_append, List.foldl_cons, List.foldl_nil, setStep_owner, if_pos howner,
    claim_of_free (hstep.resolve_left hi).2]

/-! ## The call -/

/-- The call over a row: the steps of its items, from the owner of the board. -/
theorem libSetBoardAttrsA_row {mem : Memory} {tags : BitVec 32} (hnull : tags ≠ 0)
    {items : List TagItem} (hrow : Row mem tags items) (board : Board) {fuel : ℕ}
    (hfuel : items.length < fuel) : libSetBoardAttrsA mem fuel (some board) tags
      = some ((items.foldl setStep { owner := board.owner }).allOk,
          some { board with owner := (items.foldl setStep { owner := board.owner }).owner }) := by
  have hall := @upTo_of_never _ setStep never (fun _ => rfl) { owner := board.owner } items
  unfold libSetBoardAttrsA
  dsimp only
  rw [if_neg hnull, forTags_eq_map, hrow.visited_eq _ hfuel, hall]
  rfl

/-- The call goes over a row, if it comes back. -/
theorem row_of_libSetBoardAttrsA {mem : Memory} {tags : BitVec 32} (hnull : tags ≠ 0) {board : Board}
    {fuel : ℕ} {r : Bool × Option Board} (h : libSetBoardAttrsA mem fuel (some board) tags = some r) :
    ∃ items, Row mem tags items ∧ items.length < fuel := by
  unfold libSetBoardAttrsA at h
  dsimp only at h
  rw [if_neg hnull] at h
  obtain ⟨s, hs, -⟩ := Option.map_eq_some_iff.1 h
  exact row_of_forTags (fun _ => rfl) hs

/-- A claim that is refused leaves the board to the task that has it. -/
theorem restored_of_refused {owner : BitVec 32} {owners : List (BitVec 32)} (h : owners.length ≤ 1)
    (hrefused : ¬ Claimable owner owners) : Restored owner owners := by
  rcases owners with - | ⟨data, - | ⟨data', owners⟩⟩
  · exact absurd (List.IsChain.singleton _) hrefused
  · by_contra hlost
    refine hrefused ((claimable_cons _ _ _).2 ⟨fun hdata => ?_, List.IsChain.singleton _⟩)
    by_contra howner
    refine hlost ?_
    unfold Restored
    rw [if_neg fun h0 => hdata (List.mem_singleton.1 h0).symm]
    exact Or.inl howner
  · exact absurd h (by rw [List.length_cons, List.length_cons]; omega)

/-- **The items are carried out one by one**, whatever the list and whoever owns the board; and the call
comes back from every list that ends. -/
theorem itemByItem (mem : Memory) (tags : BitVec 32) (board : Board) (fuel : ℕ) :
    ((tags = 0 ∨ ∃ items, Row mem tags items ∧ items.length < fuel) →
        ∃ ok board', libSetBoardAttrsA mem fuel (some board) tags = some (ok, some board')) ∧
      ∀ ok board', libSetBoardAttrsA mem fuel (some board) tags = some (ok, some board') →
        ItemByItem mem tags board ok board' := by
  refine ⟨fun hends => ?_, fun ok board' hrun => ?_⟩
  · by_cases hnull : tags = 0
    · subst hnull
      exact ⟨false, board, rfl⟩
    · obtain ⟨items, hrow, hfuel⟩ := hends.resolve_left hnull
      exact ⟨_, _, libSetBoardAttrsA_row hnull hrow board hfuel⟩
  by_cases hnull : tags = 0
  · subst hnull
    obtain ⟨rfl, hboard⟩ := Prod.mk.inj (Option.some.inj hrun)
    obtain rfl := Option.some.inj hboard
    exact {
      all := ⟨fun h => absurd h Bool.false_ne_true, fun h => absurd rfl h.1⟩
      done := fun h => absurd h Bool.false_ne_true
      kept := fun _ => ⟨fun _ => Or.inl rfl, fun _ => rfl⟩
      single := fun _ _ => rfl }
  · obtain ⟨items, hrow, hfuel⟩ := row_of_libSetBoardAttrsA hnull hrun
    rw [libSetBoardAttrsA_row hnull hrow board hfuel] at hrun
    obtain ⟨hok, hboard⟩ := Prod.mk.inj (Option.some.inj hrun)
    obtain rfl := Option.some.inj hboard
    -- there is but one row, the one the call has gone over
    have hrows (P : List TagItem → Prop) : (∀ items', Row mem tags items' → P items') ↔ P items :=
      ⟨fun h => h items hrow, fun h items' hrow' => hrow'.unique hrow ▸ h⟩
    have hall : ok = true ↔ Supported items ∧ Claimable board.owner (claims items) := by
      rw [← hok, setStep_foldl_allOk]
      exact and_iff_right rfl
    have hkept : (items.foldl setStep { owner := board.owner }).owner = board.owner ↔
        Restored board.owner (claims items) := by
      rw [setStep_foldl_owner, restored_iff]
    refine { all := ?_, done := fun hdone => ?_, kept := fun _ => ?_, single := fun hfail => ?_ }
    · rw [hrows, and_iff_right hnull, hall]
    · exact (hrows _).2 (applied_of_allOk (hok.trans hdone))
    · rw [hrows, or_iff_right hnull]
      exact hkept
    · rw [hrows fun items => Supported items ∧ (claims items).length ≤ 1]
      rintro ⟨hsupported, hlength⟩
      refine hkept.2 (restored_of_refused hlength fun hclaimable => ?_)
      rw [hall.2 ⟨hsupported, hclaimable⟩] at hfail
      cases hfail

/-- A claim, and an item that cannot be set. -/
def mixedTags : Memory := fun a =>
  if a = 0x1000 then some ⟨prmBoardOwner, 7⟩ else if a = 0x1008 then some ⟨prmVendor, 0⟩
  else if a = 0x1010 then some ⟨tagDone, 0⟩ else none

/-- The board stays claimed, and the call says that not all could be done. -/
theorem mixedTags_itemByItem :
    ItemByItem mixedTags 0x1000 sampleBoard false { sampleBoard with owner := 7 } :=
  (itemByItem mixedTags 0x1000 sampleBoard 3).2 false { sampleBoard with owner := 7 } rfl

/-- So nobody may take `FALSE` for a board that is as it was. -/
theorem not_allOrNothing_mixedTags :
    ¬ ∀ (mem : Memory) (tags : BitVec 32) (board : Board), AllOrNothing mem tags board := by
  intro h
  have hrun : libSetBoardAttrsA mixedTags 3 (some sampleBoard) 0x1000
      = some (false, some { sampleBoard with owner := 7 }) := rfl
  have howner := (h mixedTags 0x1000 sampleBoard 3 false _ hrun).1 rfl
  exact absurd howner (by decide)

end BcmPcie
