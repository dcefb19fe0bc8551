import Mathlib.Data.Nat.Notation
import Mathlib.Tactic.Common

/-! # Tag lists

A tag list is a row of items, each a tag and 32 bits of data, up to a `TAG_DONE`. Some tags are not for
the reader of the list but say where it goes on: `TAG_IGNORE` with the next item, `TAG_SKIP` behind so
many further items, `TAG_MORE` at another address.

* `TagLists.Enumerates` — the items of a list by these conventions.
* `TagLists.forTags` — a loop that goes from each item to the one behind it in memory.
* `TagLists.Row` — items in a row; `Row.visited_eq` — the loop is run for them.
* `TagLists.Plain` — such a loop meets no `TAG_SKIP` and no `TAG_MORE`; `acts_iff` — then, and only
  then, it acts on the items of the list. -/

namespace TagLists

/-- `struct TagItem`. -/
structure TagItem where
  tiTag : BitVec 32
  tiData : BitVec 32
  deriving DecidableEq, Repr

def tagDone : BitVec 32 := 0
def tagIgnore : BitVec 32 := 1
def tagMore : BitVec 32 := 2
def tagSkip : BitVec 32 := 3

/-- The size of an item in memory. -/
def itemSize : BitVec 32 := 8

/-- The items at the addresses that belong to a list; a read elsewhere gives nothing. -/
abbrev Memory := BitVec 32 → Option TagItem

/-- The item only says where the list goes on. -/
def TagItem.IsControl (t : TagItem) : Prop :=
  t.tiTag = tagIgnore ∨ t.tiTag = tagMore ∨ t.tiTag = tagSkip

instance (t : TagItem) : Decidable t.IsControl := inferInstanceAs (Decidable (_ ∨ _ ∨ _))

/-- Where a list goes on behind a control item at `a`. -/
def TagItem.continues (t : TagItem) (a : BitVec 32) : BitVec 32 :=
  if t.tiTag = tagMore then t.tiData
  else if t.tiTag = tagSkip then a + itemSize * (t.tiData + 1)
  else a + itemSize

/-- The items of the list at an address. -/
inductive Enumerates (mem : Memory) : BitVec 32 → List TagItem → Prop
  | done {a : BitVec 32} {t : TagItem} (h : mem a = some t) (ht : t.tiTag = tagDone) :
      Enumerates mem a []
  | control {a : BitVec 32} {t : TagItem} {items : List TagItem} (h : mem a = some t)
      (ht : t.IsControl) (hrest : Enumerates mem (t.continues a) items) : Enumerates mem a items
  | item {a : BitVec 32} {t : TagItem} {items : List TagItem} (h : mem a = some t)
      (hdone : t.tiTag ≠ tagDone) (ht : ¬ t.IsControl) (hrest : Enumerates mem (a + itemSize) items) :
      Enumerates mem a (t :: items)

/-- The end of a list is no control item. -/
theorem TagItem.not_isControl_of_done {t : TagItem} (h : t.tiTag = tagDone) : ¬ t.IsControl := by
  unfold TagItem.IsControl
  rw [h]
  decide

/-- An item to ignore is passed by one item. -/
theorem TagItem.continues_of_ignore {t : TagItem} (h : t.tiTag = tagIgnore) (a : BitVec 32) :
    t.continues a = a + itemSize := by
  unfold TagItem.continues
  rw [h, if_neg (by decide), if_neg (by decide)]

section Enumerates

variable {mem : Memory} {a : BitVec 32} {t : TagItem} {items : List TagItem}

/-- No item stands where the list ends. -/
theorem Enumerates.of_done (h : mem a = some t) (ht : t.tiTag = tagDone)
    (henum : Enumerates mem a items) : items = [] := by
  cases henum with
  | done => rfl
  | control h' ht' _ =>
    obtain rfl := Option.some.inj (h.symm.trans h')
    exact absurd ht' (TagItem.not_isControl_of_done ht)
  | item h' hdone _ _ =>
    obtain rfl := Option.some.inj (h.symm.trans h')
    exact absurd ht hdone

/-- A control item is passed to where it leads. -/
theorem Enumerates.of_control (h : mem a = some t) (ht : t.IsControl)
    (henum : Enumerates mem a items) : Enumerates mem (t.continues a) items := by
  cases henum with
  | done h' hdone =>
    obtain rfl := Option.some.inj (h.symm.trans h')
    exact absurd ht (TagItem.not_isControl_of_done hdone)
  | control h' _ hrest =>
    obtain rfl := Option.some.inj (h.symm.trans h')
    exact hrest
  | item h' _ hitem _ =>
    obtain rfl := Option.some.inj (h.symm.trans h')
    exact absurd ht hitem

/-- Any other item is the first of the list, and the rest stands behind it. -/
theorem Enumerates.of_item (h : mem a = some t) (hdone : t.tiTag ≠ tagDone) (ht : ¬ t.IsControl)
    (henum : Enumerates mem a items) :
    ∃ rest, items = t :: rest ∧ Enumerates mem (a + itemSize) rest := by
  cases henum with
  | done h' hdone' =>
    obtain rfl := Option.some.inj (h.symm.trans h')
    exact absurd hdone' hdone
  | control h' ht' _ =>
    obtain rfl := Option.some.inj (h.symm.trans h')
    exact absurd ht' ht
  | item h' _ _ hrest =>
    obtain rfl := Option.some.inj (h.symm.trans h')
    exact ⟨_, rfl, hrest⟩

/-- No control item is among the items of a list. -/
theorem Enumerates.not_isControl (henum : Enumerates mem a items) : ∀ t ∈ items, ¬ t.IsControl := by
  induction henum with
  | done => exact fun t ht => absurd ht List.not_mem_nil
  | control _ _ _ ih => exact ih
  | item _ _ hitem _ ih =>
    intro t ht
    rcases List.mem_cons.1 ht with rfl | ht
    · exact hitem
    · exact ih t ht

end Enumerates

/-! ## Loops -/

section Loops

variable {σ : Type*} (mem : Memory) (step : σ → TagItem → σ) (stop : σ → Bool)

/-- `for (tag = tags; tag->ti_Tag != TAG_DONE; ++tag)`, for `fuel` tests of the condition: the body
does `step` with the item and leaves the loop when it is to `stop`. A read outside the list is no
outcome. -/
def forTags : (fuel : ℕ) → (tag : BitVec 32) → σ → Option σ
  | 0, _, _ => none
  | fuel + 1, tag, s =>
    match mem tag with
    | none => none
    | some t =>
      if t.tiTag = tagDone then some s
      else if stop (step s t) then some (step s t)
      else forTags fuel (tag + itemSize) (step s t)

/-- The items that the loop is run for. -/
def visited : (fuel : ℕ) → (tag : BitVec 32) → σ → Option (List TagItem)
  | 0, _, _ => none
  | fuel + 1, tag, s =>
    match mem tag with
    | none => none
    | some t =>
      if t.tiTag = tagDone then some []
      else if stop (step s t) then some [t]
      else (visited fuel (tag + itemSize) (step s t)).map (t :: ·)

/-- Of some items, those up to the one at which the loop is left. -/
def upTo : σ → List TagItem → List TagItem
  | _, [] => []
  | s, t :: items => if stop (step s t) then [t] else t :: upTo (step s t) items

/-- The loop at `a` ends, reads nothing outside the list, and runs for these items and for none but
`TAG_IGNORE` besides them. -/
def Acts (a : BitVec 32) (s : σ) (items : List TagItem) : Prop :=
  ∃ fuel l, visited mem step stop fuel a s = some l ∧ l.filter (·.tiTag ≠ tagIgnore) = items

/-- The loop at `a` meets no `TAG_SKIP` and no `TAG_MORE`. -/
inductive Plain : BitVec 32 → σ → Prop
  | done {a : BitVec 32} {s : σ} {t : TagItem} (h : mem a = some t) (ht : t.tiTag = tagDone) : Plain a s
  | ignore {a : BitVec 32} {s : σ} {t : TagItem} (h : mem a = some t) (ht : t.tiTag = tagIgnore)
      (hrest : Plain (a + itemSize) s) : Plain a s
  | last {a : BitVec 32} {s : σ} {t : TagItem} (h : mem a = some t) (hdone : t.tiTag ≠ tagDone)
      (ht : ¬ t.IsControl) (hstop : stop (step s t) = true) : Plain a s
  | next {a : BitVec 32} {s : σ} {t : TagItem} (h : mem a = some t) (hdone : t.tiTag ≠ tagDone)
      (ht : ¬ t.IsControl) (hstop : stop (step s t) = false) (hrest : Plain (a + itemSize) (step s t)) :
      Plain a s

variable {mem step stop}

/-- The loop does its steps with the items it is run for. -/
theorem forTags_eq_map (fuel : ℕ) (a : BitVec 32) (s : σ) :
    forTags mem step stop fuel a s = (visited mem step stop fuel a s).map (·.foldl step s) := by
  induction fuel generalizing a s with
  | zero => rfl
  | succ fuel ih =>
    rw [forTags, visited]
    cases mem a with
    | none => rfl
    | some t =>
      dsimp only
      split
      · rfl
      · split
        · rfl
        · rw [ih, Option.map_map]
          rfl

section Rounds

variable {a : BitVec 32} {s : σ} {t : TagItem} (h : mem a = some t)

include h

/-- At the end of the list the loop visits nothing. -/
theorem visited_of_done (ht : t.tiTag = tagDone) (fuel : ℕ) :
    visited mem step stop (fuel + 1) a s = some [] := by
  rw [visited, h]
  exact if_pos ht

/-- The loop ends with the item that stops it. -/
theorem visited_of_stop (ht : t.tiTag ≠ tagDone) (hstop : stop (step s t) = true) (fuel : ℕ) :
    visited mem step stop (fuel + 1) a s = some [t] := by
  rw [visited, h]
  dsimp only
  rw [if_neg ht, if_pos hstop]

/-- Otherwise it goes on with the item behind. -/
theorem visited_of_next (ht : t.tiTag ≠ tagDone) (hstop : stop (step s t) = false) (fuel : ℕ) :
    visited mem step stop (fuel + 1) a s
      = (visited mem step stop fuel (a + itemSize) (step s t)).map (t :: ·) := by
  rw [visited, h]
  dsimp only
  rw [if_neg ht, hstop, if_neg Bool.false_ne_true]

end Rounds

/-- With more fuel than is needed nothing changes. -/
theorem visited_mono {fuel fuel' : ℕ} (hle : fuel ≤ fuel') {a : BitVec 32} {s : σ}
    {l : List TagItem} (h : visited mem step stop fuel a s = some l) :
    visited mem step stop fuel' a s = some l := by
  induction fuel generalizing fuel' a s l with
  | zero => cases h
  | succ fuel ih =>
    obtain ⟨fuel', rfl⟩ : ∃ n, fuel' = n + 1 := ⟨fuel' - 1, by omega⟩
    cases hmem : mem a with
    | none =>
      rw [visited, hmem] at h
      cases h
    | some t =>
      by_cases hdone : t.tiTag = tagDone
      · rw [visited_of_done hmem hdone] at h ⊢
        exact h
      · cases hstop : stop (step s t) with
        | true =>
          rw [visited_of_stop hmem hdone hstop] at h ⊢
          exact h
        | false =>
          rw [visited_of_next hmem hdone hstop] at h ⊢
          obtain ⟨l', hl', rfl⟩ := Option.map_eq_some_iff.1 h
          rw [ih (by omega) hl', Option.map_some]

/-- The items one behind the other up to a `TAG_DONE`, whatever they are. -/
inductive Row (mem : Memory) : BitVec 32 → List TagItem → Prop
  | done {a : BitVec 32} {t : TagItem} (h : mem a = some t) (ht : t.tiTag = tagDone) : Row mem a []
  | next {a : BitVec 32} {t : TagItem} {items : List TagItem} (h : mem a = some t)
      (hdone : t.tiTag ≠ tagDone) (hrest : Row mem (a + itemSize) items) : Row mem a (t :: items)

/-- An array of items, with a `TAG_DONE` behind them. -/
def tagArray (a : BitVec 32) : List TagItem → Memory
  | [] => Function.update (fun _ => none) a (some ⟨tagDone, 0⟩)
  | t :: items => Function.update (tagArray (a + itemSize) items) a (some t)

/-- A row does not change with what stands behind it or in front of it. -/
theorem Row.update {a b : BitVec 32} {items : List TagItem} (h : Row mem b items) {x : Option TagItem}
    (hne : ∀ k ≤ items.length, b + BitVec.ofNat 32 (8 * k) ≠ a) :
    Row (Function.update mem a x) b items := by
  have hfirst (b : BitVec 32) (items : List TagItem)
      (hne : ∀ k ≤ items.length, b + BitVec.ofNat 32 (8 * k) ≠ a) :
      Function.update mem a x b = mem b := by
    have hb := hne 0 (Nat.zero_le _)
    rw [Nat.mul_zero, BitVec.add_zero] at hb
    exact Function.update_of_ne hb ..
  induction h with
  | @done b t hmem hdone => exact .done ((hfirst b [] hne).trans hmem) hdone
  | @next b t items hmem hdone _ ih =>
    refine .next ((hfirst b (t :: items) hne).trans hmem) hdone (ih fun k hk => ?_)
    have hstep : b + itemSize + BitVec.ofNat 32 (8 * k) = b + BitVec.ofNat 32 (8 * (k + 1)) := by
      rw [BitVec.add_assoc, Nat.mul_succ, Nat.add_comm (8 * k) 8, BitVec.ofNat_add]
      rfl
    rw [hstep]
    exact hne (k + 1) (Nat.succ_le_succ hk)

/-- An array of items is a row of them, if it fits into memory. -/
theorem row_tagArray (a : BitVec 32) {items : List TagItem} (hdone : ∀ t ∈ items, t.tiTag ≠ tagDone)
    (hfits : items.length < 0x20000000) : Row (tagArray a items) a items := by
  induction items generalizing a with
  | nil => exact .done (Function.update_self ..) rfl
  | cons t items ih =>
    rw [List.length_cons] at hfits
    have hrest := ih (a + itemSize) (fun t ht => hdone t (List.mem_cons_of_mem _ ht)) (by omega)
    refine .next (Function.update_self ..) (hdone t List.mem_cons_self) (hrest.update fun k hk heq => ?_)
    -- no item behind the first stands where it stands
    have hnat := congrArg BitVec.toNat heq
    rw [BitVec.toNat_add, BitVec.toNat_add, BitVec.toNat_ofNat] at hnat
    have hlt := a.isLt
    have hsize : itemSize.toNat = 8 := rfl
    omega

/-- A loop over a row is run for its items. -/
theorem Row.visited_eq {a : BitVec 32} {items : List TagItem} (h : Row mem a items) (s : σ) {fuel : ℕ}
    (hfuel : items.length < fuel) :
    visited mem step stop fuel a s = some (upTo step stop s items) := by
  obtain ⟨fuel, rfl⟩ : ∃ n, fuel = n + 1 := ⟨fuel - 1, by omega⟩
  induction h generalizing s fuel with
  | done h ht => exact visited_of_done h ht fuel
  | @next a t items h hdone _ ih =>
    rw [List.length_cons] at hfuel
    rw [upTo]
    cases hstop : stop (step s t) with
    | true => exact visited_of_stop h hdone hstop fuel
    | false =>
      obtain ⟨fuel, rfl⟩ : ∃ n, fuel = n + 1 := ⟨fuel - 1, by omega⟩
      rw [visited_of_next h hdone hstop, ih (step s t) fuel (by omega)]
      rfl

/-- The items up to the stop are items of the list. -/
theorem mem_of_mem_upTo {s : σ} {items : List TagItem} {t : TagItem}
    (h : t ∈ upTo step stop s items) : t ∈ items := by
  induction items generalizing s with
  | nil => exact h
  | cons t' items ih =>
    rw [upTo] at h
    split at h
    · rw [List.mem_singleton.1 h]
      exact List.mem_cons_self
    · rcases List.mem_cons.1 h with rfl | h
      · exact List.mem_cons_self
      · exact List.mem_cons_of_mem t' (ih h)

/-- An item is acted on, unless it is a `TAG_IGNORE`. -/
theorem filter_cons_item {t : TagItem} (ht : t.tiTag ≠ tagIgnore) (l : List TagItem) :
    (t :: l).filter (·.tiTag ≠ tagIgnore) = t :: l.filter (·.tiTag ≠ tagIgnore) := by
  rw [List.filter_cons, if_pos (decide_eq_true ht)]

/-- An item to ignore is not among those that are not. -/
theorem filter_cons_ignore {t : TagItem} (ht : t.tiTag = tagIgnore) (l : List TagItem) :
    (t :: l).filter (·.tiTag ≠ tagIgnore) = l.filter (·.tiTag ≠ tagIgnore) := by
  rw [List.filter_cons, if_neg (by rw [decide_eq_true_eq]; exact not_not_intro ht)]

/-- Where the control items are those to ignore only, the loop acts on the items of the list. -/
theorem Plain.acts (hignore : ∀ s t, t.tiTag = tagIgnore → step s t = s) {a : BitVec 32} {s : σ}
    (hrun : stop s = false) {items : List TagItem} (henum : Enumerates mem a items)
    (hplain : Plain mem step stop a s) : Acts mem step stop a s (upTo step stop s items) := by
  induction hplain generalizing items with
  | done h ht =>
    rw [henum.of_done h ht]
    exact ⟨1, [], visited_of_done h ht 0, rfl⟩
  | @ignore a s t h ht _ ih =>
    have hrest := henum.of_control h (Or.inl ht)
    rw [TagItem.continues_of_ignore ht] at hrest
    obtain ⟨fuel, l, hvisited, hl⟩ := ih hrun hrest
    have hdone : t.tiTag ≠ tagDone := by
      rw [ht]
      decide
    refine ⟨fuel + 1, t :: l, ?_, (filter_cons_ignore ht l).trans hl⟩
    rw [visited_of_next h hdone (by rw [hignore s t ht, hrun]), hignore s t ht, hvisited,
      Option.map_some]
  | last h hdone ht hstop =>
    obtain ⟨rest, rfl, -⟩ := henum.of_item h hdone ht
    refine ⟨1, _, visited_of_stop h hdone hstop 0, ?_⟩
    rw [upTo, if_pos hstop, filter_cons_item fun hi => ht (Or.inl hi)]
    rfl
  | @next a s t h hdone ht hstop _ ih =>
    obtain ⟨rest, rfl, hrest⟩ := henum.of_item h hdone ht
    obtain ⟨fuel, l, hvisited, hl⟩ := ih hstop hrest
    refine ⟨fuel + 1, t :: l, ?_, ?_⟩
    · rw [visited_of_next h hdone hstop, hvisited, Option.map_some]
    · rw [upTo, hstop, if_neg Bool.false_ne_true, filter_cons_item fun hi => ht (Or.inl hi), hl]

/-- What is acted on at an item other than `TAG_IGNORE` is that item first. -/
theorem Acts.head {a : BitVec 32} {s : σ} {t : TagItem} {items : List TagItem} (h : mem a = some t)
    (hdone : t.tiTag ≠ tagDone) (ht : t.tiTag ≠ tagIgnore) (hacts : Acts mem step stop a s items) :
    (stop (step s t) = true ∧ items = [t]) ∨ (stop (step s t) = false ∧
      ∃ rest, items = t :: rest ∧ Acts mem step stop (a + itemSize) (step s t) rest) := by
  obtain ⟨fuel, l, hvisited, rfl⟩ := hacts
  cases fuel with
  | zero => cases hvisited
  | succ fuel =>
    cases hstop : stop (step s t) with
    | true =>
      rw [visited_of_stop h hdone hstop] at hvisited
      obtain rfl := Option.some.inj hvisited
      exact Or.inl ⟨rfl, filter_cons_item ht []⟩
    | false =>
      rw [visited_of_next h hdone hstop] at hvisited
      obtain ⟨l, hl, rfl⟩ := Option.map_eq_some_iff.1 hvisited
      exact Or.inr ⟨rfl, _, filter_cons_item ht l, fuel, l, hl, rfl⟩

/-- An item to ignore may be left out in front. -/
theorem Acts.of_ignore (hignore : ∀ s t, t.tiTag = tagIgnore → step s t = s) {a : BitVec 32} {s : σ}
    (hrun : stop s = false) {t : TagItem} (h : mem a = some t) (ht : t.tiTag = tagIgnore)
    {items : List TagItem} (hacts : Acts mem step stop a s items) :
    Acts mem step stop (a + itemSize) s items := by
  obtain ⟨fuel, l, hvisited, hl⟩ := hacts
  have hdone : t.tiTag ≠ tagDone := by
    rw [ht]
    decide
  cases fuel with
  | zero => cases hvisited
  | succ fuel =>
    rw [visited_of_next h hdone (by rw [hignore s t ht, hrun]), hignore s t ht] at hvisited
    obtain ⟨l, hl', rfl⟩ := Option.map_eq_some_iff.1 hvisited
    exact ⟨fuel, l, hl', (filter_cons_ignore ht l).symm.trans hl⟩

/-- What is left out does nothing. -/
theorem foldl_filter_ignore (hignore : ∀ s t, t.tiTag = tagIgnore → step s t = s)
    (l : List TagItem) (s : σ) : (l.filter (·.tiTag ≠ tagIgnore)).foldl step s = l.foldl step s := by
  induction l generalizing s with
  | nil => rfl
  | cons t l ih =>
    by_cases ht : t.tiTag = tagIgnore
    · rw [filter_cons_ignore ht, List.foldl_cons, hignore s t ht, ih]
    · rw [filter_cons_item ht, List.foldl_cons, List.foldl_cons, ih]

/-- A loop that acts on some items does its steps with them, whatever fuel it has, if it is enough. -/
theorem Acts.forTags_eq (hignore : ∀ s t, t.tiTag = tagIgnore → step s t = s) {a : BitVec 32} {s : σ}
    {items : List TagItem} (h : Acts mem step stop a s items) :
    ∃ n, ∀ fuel, n ≤ fuel → forTags mem step stop fuel a s = some (items.foldl step s) := by
  obtain ⟨n, l, hvisited, rfl⟩ := h
  refine ⟨n, fun fuel hle => ?_⟩
  rw [forTags_eq_map, visited_mono hle hvisited, Option.map_some, foldl_filter_ignore hignore]

/-- **A loop acts on the items of a list** if and only if it meets no `TAG_SKIP` and no `TAG_MORE`. -/
theorem acts_iff (hignore : ∀ s t, t.tiTag = tagIgnore → step s t = s) {a : BitVec 32} {s : σ}
    (hrun : stop s = false) {items : List TagItem} (henum : Enumerates mem a items) :
    Acts mem step stop a s (upTo step stop s items) ↔ Plain mem step stop a s := by
  refine ⟨fun hacts => ?_, Plain.acts hignore hrun henum⟩
  induction henum generalizing s with
  | done h ht => exact Plain.done h ht
  | @control a t items h ht hrest ih =>
    have hdone : t.tiTag ≠ tagDone := fun hdone => TagItem.not_isControl_of_done hdone ht
    by_cases hi : t.tiTag = tagIgnore
    · rw [TagItem.continues_of_ignore hi] at ih
      exact Plain.ignore h hi (ih hrun (hacts.of_ignore hignore hrun h hi))
    · -- a `TAG_SKIP` or `TAG_MORE` would be acted on, but the list has no such item
      have hmem : t ∈ upTo step stop s items := by
        rcases hacts.head h hdone hi with ⟨-, heq⟩ | ⟨-, rest, heq, -⟩ <;> rw [heq]
        · exact List.mem_cons_self
        · exact List.mem_cons_self
      exact absurd ht (hrest.not_isControl t (mem_of_mem_upTo hmem))
  | @item a t items h hdone ht hrest ih =>
    rcases hacts.head h hdone fun hi => ht (Or.inl hi) with ⟨hstop, -⟩ | ⟨hstop, rest, heq, hacts⟩
    · exact Plain.last h hdone ht hstop
    · rw [upTo, hstop, if_neg Bool.false_ne_true, List.cons.injEq] at heq
      rw [← heq.2] at hacts
      exact Plain.next h hdone ht hstop (ih hstop hacts)

/-- A loop over all items looks at all of them. -/
theorem upTo_of_never (hnever : ∀ s, stop s = false) (s : σ) (items : List TagItem) :
    upTo step stop s items = items := by
  induction items generalizing s with
  | nil => rfl
  | cons t items ih => rw [upTo, hnever, if_neg Bool.false_ne_true, ih]

/-- What stands in a row from an address on is one list only. -/
theorem Row.unique {a : BitVec 32} {items items' : List TagItem} (h : Row mem a items)
    (h' : Row mem a items') : items = items' := by
  induction h generalizing items' with
  | done h ht =>
    cases h' with
    | done => rfl
    | next h' hdone _ =>
      obtain rfl := Option.some.inj (h.symm.trans h')
      exact absurd ht hdone
  | next h hdone _ ih =>
    cases h' with
    | done h' ht =>
      obtain rfl := Option.some.inj (h.symm.trans h')
      exact absurd ht hdone
    | next h' _ hrest =>
      obtain rfl := Option.some.inj (h.symm.trans h')
      rw [ih hrest]

/-- Where a loop over all items ends, it was a loop over a row. -/
theorem row_of_forTags (hnever : ∀ s, stop s = false) {fuel : ℕ} {a : BitVec 32} {s s' : σ}
    (h : forTags mem step stop fuel a s = some s') : ∃ items, Row mem a items ∧ items.length < fuel := by
  induction fuel generalizing a s with
  | zero => cases h
  | succ fuel ih =>
    rw [forTags] at h
    cases hmem : mem a with
    | none =>
      rw [hmem] at h
      cases h
    | some t =>
      rw [hmem] at h
      dsimp only at h
      by_cases hdone : t.tiTag = tagDone
      · exact ⟨[], Row.done hmem hdone, Nat.succ_pos _⟩
      · rw [if_neg hdone, hnever, if_neg Bool.false_ne_true] at h
        obtain ⟨items, hrow, hlength⟩ := ih h
        exact ⟨t :: items, Row.next hmem hdone hrow, Nat.succ_lt_succ hlength⟩

/-- The list has no `TAG_SKIP` and no `TAG_MORE` in front of its first `TAG_DONE`. -/
inductive PlainList (mem : Memory) : BitVec 32 → Prop
  | done {a : BitVec 32} {t : TagItem} (h : mem a = some t) (ht : t.tiTag = tagDone) : PlainList mem a
  | next {a : BitVec 32} {t : TagItem} (h : mem a = some t) (hskip : t.tiTag ≠ tagSkip)
      (hmore : t.tiTag ≠ tagMore) (hrest : PlainList mem (a + itemSize)) : PlainList mem a

/-- For a loop over all items this is what it needs. -/
theorem plain_iff_of_never (hnever : ∀ s, stop s = false) {a : BitVec 32} (s : σ) :
    Plain mem step stop a s ↔ PlainList mem a := by
  constructor
  · intro h
    induction h with
    | done h ht => exact PlainList.done h ht
    | ignore h ht _ ih =>
      refine PlainList.next h ?_ ?_ ih <;> rw [ht] <;> decide
    | last _ _ _ hstop =>
      rw [hnever] at hstop
      cases hstop
    | next h _ ht _ _ ih =>
      exact PlainList.next h (fun hs => ht (Or.inr (Or.inr hs))) (fun hm => ht (Or.inr (Or.inl hm))) ih
  · intro h
    induction h generalizing s with
    | done h ht => exact Plain.done h ht
    | @next a t h hskip hmore _ ih =>
      by_cases hdone : t.tiTag = tagDone
      · exact Plain.done h hdone
      · by_cases hi : t.tiTag = tagIgnore
        · exact Plain.ignore h hi (ih s)
        · refine Plain.next h hdone ?_ (hnever _) (ih _)
          rintro (hi' | hmore' | hskip')
          · exact hi hi'
          · exact hmore hmore'
          · exact hskip hskip'

/-- A loop over all items acts on those of a list if and only if the list is plain. -/
theorem acts_iff_plainList (hignore : ∀ s t, t.tiTag = tagIgnore → step s t = s)
    (hnever : ∀ s, stop s = false) {a : BitVec 32} (s : σ) {items : List TagItem}
    (henum : Enumerates mem a items) : Acts mem step stop a s items ↔ PlainList mem a := by
  rw [← plain_iff_of_never hnever s, ← acts_iff hignore (hnever s) henum, upTo_of_never hnever]

end Loops

end TagLists
