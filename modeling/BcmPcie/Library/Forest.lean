import Mathlib.Algebra.Order.Group.Nat
import Mathlib.Tactic.Common

/-! # Ordered forests

Trees of any branching, as left child and right sibling: a forest is empty, or a first tree's root
with the forest of its children, followed by the forest of the other trees. Recursion over a forest
is structural, the children and the siblings of a node both being parts of it.

* `Forest.level` — the roots, from left to right.
* `Forest.toList` — every value, a node before its children, these before its siblings.
* `Forest.All` — a property of every node, given its value and its children.
* `Forest.Matches` — two forests of one shape with related values.
* `Forest.OnLevels` — a relation between any two nodes of a level; `Matches.onLevels` carries it over to
  a forest of the same shape.
* `Forest.Numbered` — a depth-first numbering of some of the nodes, with the number that ends each
  subtree: the numbers follow each other (`Numbered.firsts`), subtrees are nested
  (`Numbered.nested`) and those of one level apart (`Numbered.apart`). -/

/-- An ordered forest with values in `α`. -/
inductive Forest (α : Type*)
  | nil
  | node (value : α) (children siblings : Forest α)
  deriving Repr

namespace Forest

variable {α β : Type*}

/-- The roots of a forest, each with its children. -/
def level : Forest α → List (α × Forest α)
  | nil => []
  | node a children siblings => (a, children) :: siblings.level

/-- The values at the roots, from left to right. -/
def roots (t : Forest α) : List α := t.level.map Prod.fst

/-- Every value of a forest, depth first, a node before its children. -/
def toList : Forest α → List α
  | nil => []
  | node a children siblings => a :: (children.toList ++ siblings.toList)

/-- Every node of a forest has the property `P` of its value and children. -/
def All (P : α → Forest α → Prop) : Forest α → Prop
  | nil => True
  | node a children siblings => P a children ∧ children.All P ∧ siblings.All P

@[simp] theorem level_nil : (nil : Forest α).level = [] := rfl

@[simp] theorem level_node (a : α) (children siblings : Forest α) :
    (node a children siblings).level = (a, children) :: siblings.level := rfl

@[simp] theorem roots_nil : (nil : Forest α).roots = [] := rfl

@[simp] theorem roots_node (a : α) (children siblings : Forest α) :
    (node a children siblings).roots = a :: siblings.roots := rfl

@[simp] theorem toList_nil : (nil : Forest α).toList = [] := rfl

@[simp] theorem toList_node (a : α) (children siblings : Forest α) :
    (node a children siblings).toList = a :: (children.toList ++ siblings.toList) := rfl

@[simp] theorem all_nil (P : α → Forest α → Prop) : (nil : Forest α).All P := trivial

@[simp] theorem all_node (P : α → Forest α → Prop) (a : α) (children siblings : Forest α) :
    (node a children siblings).All P ↔ P a children ∧ children.All P ∧ siblings.All P := Iff.rfl

instance decidableAll (P : α → Forest α → Prop) [∀ a children, Decidable (P a children)] :
    (t : Forest α) → Decidable (t.All P)
  | nil => .isTrue trivial
  | node a children siblings =>
    have := decidableAll P children
    have := decidableAll P siblings
    inferInstanceAs (Decidable (P a children ∧ children.All P ∧ siblings.All P))

instance decidableEqNil (t : Forest α) : Decidable (t = nil) :=
  match t with
  | nil => .isTrue rfl
  | node _ _ _ => .isFalse nofun

/-- A property may be weakened everywhere. -/
theorem All.imp {P Q : α → Forest α → Prop} (h : ∀ a children, P a children → Q a children)
    {t : Forest α} (ht : t.All P) : t.All Q := by
  induction t with
  | nil => trivial
  | node a children siblings ihc ihs => exact ⟨h _ _ ht.1, ihc ht.2.1, ihs ht.2.2⟩

/-- Two properties that hold everywhere hold together. -/
theorem All.and {P Q : α → Forest α → Prop} {t : Forest α} (hP : t.All P) (hQ : t.All Q) :
    t.All fun a children => P a children ∧ Q a children := by
  induction t with
  | nil => trivial
  | node a children siblings ihc ihs =>
    exact ⟨⟨hP.1, hQ.1⟩, ihc hP.2.1 hQ.2.1, ihs hP.2.2 hQ.2.2⟩

/-- Of any two roots, and of any two nodes with the same parent, the first is related to the second. -/
def OnLevels (C : α → α → Prop) (t : Forest α) : Prop :=
  t.roots.Pairwise C ∧ t.All fun _ children => children.roots.Pairwise C

/-- Every node along with what is behind it. -/
def withChildren : Forest α → Forest (α × Forest α)
  | nil => nil
  | node a children siblings => node (a, children) children.withChildren siblings.withChildren

@[simp] theorem withChildren_nil : (nil : Forest α).withChildren = nil := rfl

@[simp] theorem withChildren_node (a : α) (children siblings : Forest α) :
    (node a children siblings).withChildren
      = node (a, children) children.withChildren siblings.withChildren := rfl

/-- The nodes themselves are those of the forest. -/
theorem mem_of_mem_withChildren {t : Forest α} {x : α × Forest α} (h : x ∈ t.withChildren.toList) :
    x.1 ∈ t.toList := by
  induction t with
  | nil => cases h
  | node a children siblings ihc ihs =>
    rcases List.mem_cons.1 h with rfl | h
    · exact List.mem_cons_self
    · rcases List.mem_append.1 h with h | h
      · exact List.mem_cons_of_mem _ (List.mem_append_left _ (ihc h))
      · exact List.mem_cons_of_mem _ (List.mem_append_right _ (ihs h))

/-- What is weaker between two nodes is weaker on every level. -/
theorem OnLevels.imp {C D : α → α → Prop} (h : ∀ a b, C a b → D a b) {t : Forest α}
    (ht : t.OnLevels C) : t.OnLevels D :=
  ⟨ht.1.imp fun hab => h _ _ hab, ht.2.imp fun _ _ hlevel => hlevel.imp fun hab => h _ _ hab⟩

/-- A node and everything behind it are among the values of the forest. -/
theorem all_subset (t : Forest α) :
    t.All fun a children => a ∈ t.toList ∧ ∀ b ∈ children.toList, b ∈ t.toList := by
  induction t with
  | nil => trivial
  | node a children siblings ihc ihs =>
    have hbelow : ∀ b ∈ children.toList, b ∈ (node a children siblings).toList := fun b hb =>
      List.mem_cons_of_mem _ (List.mem_append_left _ hb)
    have hrest : ∀ b ∈ siblings.toList, b ∈ (node a children siblings).toList := fun b hb =>
      List.mem_cons_of_mem _ (List.mem_append_right _ hb)
    exact ⟨⟨List.mem_cons_self, hbelow⟩,
      ihc.imp fun _ _ h => ⟨hbelow _ h.1, fun b hb => hbelow b (h.2 b hb)⟩,
      ihs.imp fun _ _ h => ⟨hrest _ h.1, fun b hb => hrest b (h.2 b hb)⟩⟩

/-- A root is in the forest. -/
theorem mem_toList_of_mem_roots {t : Forest α} {a : α} (h : a ∈ t.roots) : a ∈ t.toList := by
  induction t with
  | nil => cases h
  | node b children siblings _ ihs =>
    rcases List.mem_cons.1 h with rfl | h
    · exact List.mem_cons_self
    · exact List.mem_cons_of_mem _ (List.mem_append_right _ (ihs h))

/-! ## Two forests of one shape -/

/-- Every entry of the second list has a partner in the first. -/
theorem exists_rel_of_mem {R : α → β → Prop} {l : List α} {l' : List β} (h : List.Forall₂ R l l') {b : β}
    (hb : b ∈ l') : ∃ a ∈ l, R a b := by
  induction h with
  | nil => cases hb
  | cons hab _ ih =>
    rcases List.mem_cons.1 hb with rfl | hb
    · exact ⟨_, List.mem_cons_self, hab⟩
    · obtain ⟨a, ha, hab⟩ := ih hb
      exact ⟨a, List.mem_cons_of_mem _ ha, hab⟩

/-- Two forests of one shape, with related values at the same places. -/
inductive Matches (R : α → β → Prop) : Forest α → Forest β → Prop
  | nil : Matches R nil nil
  | node {a b children children' siblings siblings'} (hvalue : R a b)
      (hchildren : Matches R children children') (hsiblings : Matches R siblings siblings') :
      Matches R (node a children siblings) (node b children' siblings')

namespace Matches

variable {R : α → β → Prop} {t : Forest α} {t' : Forest β}

/-- The roots of forests that match are related one by one. -/
theorem roots (h : t.Matches R t') : List.Forall₂ R t.roots t'.roots := by
  induction h with
  | nil => exact .nil
  | node hvalue _ _ _ ihs => exact .cons hvalue ihs

/-- Every value of the second forest has one of the first at its place. -/
theorem exists_mem (h : t.Matches R t') {b : β} (hb : b ∈ t'.toList) : ∃ a ∈ t.toList, R a b := by
  induction h with
  | nil => cases hb
  | node hvalue _ _ ihc ihs =>
    rcases List.mem_cons.1 hb with rfl | hb
    · exact ⟨_, List.mem_cons_self, hvalue⟩
    · rcases List.mem_append.1 hb with hb | hb
      · obtain ⟨a, ha, hab⟩ := ihc hb
        exact ⟨a, List.mem_cons_of_mem _ (List.mem_append_left _ ha), hab⟩
      · obtain ⟨a, ha, hab⟩ := ihs hb
        exact ⟨a, List.mem_cons_of_mem _ (List.mem_append_right _ ha), hab⟩

/-- Two relations between the nodes of two forests, as one. -/
theorem and {Q : α → β → Prop} (h : t.Matches R t') (h' : t.Matches Q t') :
    t.Matches (fun a b => R a b ∧ Q a b) t' := by
  induction h with
  | nil => exact .nil
  | node hvalue _ _ ihc ihs =>
    cases h' with
    | node hvalue' hchildren' hsiblings' =>
      exact .node ⟨hvalue, hvalue'⟩ (ihc hchildren') (ihs hsiblings')

/-- What is weaker between two nodes is weaker between all of them. -/
theorem imp {Q : α → β → Prop} (h : t.Matches R t') (himp : ∀ a b, R a b → Q a b) : t.Matches Q t' := by
  induction h with
  | nil => exact .nil
  | node hvalue _ _ ihc ihs => exact .node (himp _ _ hvalue) ihc ihs

/-- The values of the first forest stand at their places. -/
theorem mem (h : t.Matches R t') : t.Matches (fun a _ => a ∈ t.toList) t' := by
  induction h with
  | nil => exact .nil
  | node _ _ _ ihc ihs =>
    exact .node List.mem_cons_self
      (ihc.imp fun _ _ ha => List.mem_cons_of_mem _ (List.mem_append_left _ ha))
      (ihs.imp fun _ _ ha => List.mem_cons_of_mem _ (List.mem_append_right _ ha))

/-- A relation between nodes leaves alone what is behind them. -/
theorem withChildren (h : t.Matches R t') : t.withChildren.Matches (fun x b => R x.1 b) t' := by
  induction h with
  | nil => exact .nil
  | node hvalue _ _ ihc ihs => exact .node hvalue ihc ihs

/-- The second forest has the shape of the first. -/
theorem symm (h : t.Matches R t') : t'.Matches (fun b a => R a b) t := by
  induction h with
  | nil => exact .nil
  | node hvalue _ _ ihc ihs => exact .node hvalue ihc ihs

/-- Lists whose members are related one by one have related pairs at the same places. -/
theorem pairwise {C : α → α → Prop} {D : β → β → Prop} {l : List α} {l' : List β}
    (h : List.Forall₂ R l l') (hC : l.Pairwise C)
    (himp : ∀ a b a' b', R a b → R a' b' → C a a' → D b b') : l'.Pairwise D := by
  induction h with
  | nil => exact List.Pairwise.nil
  | cons hab hrest ih =>
    obtain ⟨hhead, htail⟩ := List.pairwise_cons.1 hC
    refine List.pairwise_cons.2 ⟨fun b' hb' => ?_, ih htail⟩
    obtain ⟨a', ha', hab'⟩ := exists_rel_of_mem hrest hb'
    exact himp _ _ _ _ hab hab' (hhead a' ha')

/-- **What holds of two nodes of a level** carries over to a forest of the same shape. -/
theorem onLevels {C : α → α → Prop} {D : β → β → Prop} (h : t.Matches R t') (hC : t.OnLevels C)
    (himp : ∀ a b a' b', R a b → R a' b' → C a a' → D b b') : t'.OnLevels D := by
  refine ⟨pairwise h.roots hC.1 himp, ?_⟩
  obtain ⟨-, hall⟩ := hC
  induction h with
  | nil => trivial
  | node _ hchildren _ ihc ihs =>
    exact ⟨pairwise hchildren.roots hall.1 himp, ihc hall.2.1, ihs hall.2.2⟩

end Matches

/-! ## Depth-first numbers -/

section Numbered

variable {num : α → Option (ℕ × ℕ)}

/-- Some nodes of a forest are numbered upwards from `m`, depth first, and the last number given out
is `m'`: `num a` is the number of a node and the last number behind it. There is nothing behind a node
without a number. -/
def Numbered (num : α → Option (ℕ × ℕ)) : Forest α → (m m' : ℕ) → Prop
  | nil, m, m' => m' = m
  | node a children siblings, m, m' =>
    match num a with
    | none => children = nil ∧ siblings.Numbered num m m'
    | some (first, last) =>
      first = m + 1 ∧ children.Numbered num (m + 1) last ∧ siblings.Numbered num last m'

/-- The numbers of a forest, depth first. -/
def firsts (num : α → Option (ℕ × ℕ)) (t : Forest α) : List ℕ :=
  t.toList.filterMap fun a => (num a).map Prod.fst

@[simp] theorem firsts_nil : (nil : Forest α).firsts num = [] := rfl

/-- A node without a number adds none. -/
theorem firsts_node_of_none {a : α} (h : num a = none) (children siblings : Forest α) :
    (node a children siblings).firsts num = children.firsts num ++ siblings.firsts num := by
  unfold firsts
  rw [toList_node, List.filterMap_cons, h, Option.map_none, List.filterMap_append]

/-- A node with a number adds it in front. -/
theorem firsts_node_of_some {a : α} {first last : ℕ} (h : num a = some (first, last))
    (children siblings : Forest α) :
    (node a children siblings).firsts num
      = first :: (children.firsts num ++ siblings.firsts num) := by
  unfold firsts
  rw [toList_node, List.filterMap_cons, h, Option.map_some, List.filterMap_append]

namespace Numbered

/-- Without a number a node has nothing below, and its siblings go on from where it stood. -/
theorem of_none {a : α} {children siblings : Forest α} {m m' : ℕ} (hnum : num a = none)
    (h : (node a children siblings).Numbered num m m') :
    children = nil ∧ siblings.Numbered num m m' := by
  rw [Numbered, hnum] at h
  exact h

/-- With one its children go on from it, and its siblings from the last number below it. -/
theorem of_some {a : α} {children siblings : Forest α} {m m' first last : ℕ}
    (hnum : num a = some (first, last)) (h : (node a children siblings).Numbered num m m') :
    first = m + 1 ∧ children.Numbered num (m + 1) last ∧ siblings.Numbered num last m' := by
  rw [Numbered, hnum] at h
  exact h

/-- Numbers are given out upwards. -/
theorem le {t : Forest α} {m m' : ℕ} (h : t.Numbered num m m') : m ≤ m' := by
  induction t generalizing m m' with
  | nil =>
    rw [Numbered] at h
    exact h.ge
  | node a children siblings ihc ihs =>
    rcases hnum : num a with _ | ⟨first, last⟩
    · exact ihs (h.of_none hnum).2
    · obtain ⟨-, hc, hs⟩ := h.of_some hnum
      exact (Nat.le_of_succ_le (ihc hc)).trans (ihs hs)

/-- **The numbers follow each other**, without a gap. -/
theorem firsts {t : Forest α} {m m' : ℕ} (h : t.Numbered num m m') :
    t.firsts num = List.range' (m + 1) (m' - m) := by
  induction t generalizing m m' with
  | nil =>
    rw [Numbered] at h
    rw [h, Nat.sub_self]
    rfl
  | node a children siblings ihc ihs =>
    rcases hnum : num a with _ | ⟨first, last⟩
    · obtain ⟨rfl, hs⟩ := h.of_none hnum
      rw [firsts_node_of_none hnum, firsts_nil, List.nil_append, ihs hs]
    · obtain ⟨rfl, hc, hs⟩ := h.of_some hnum
      -- the node's number, then those of its children, then those of its siblings
      have hle : m + 1 ≤ last := hc.le
      have hle' : last ≤ m' := hs.le
      have hsplit : m' - m = (last - (m + 1) + (m' - last)) + 1 := by omega
      have hnext : m + 1 + 1 + (last - (m + 1)) = last + 1 := by omega
      rw [firsts_node_of_some hnum, ihc hc, ihs hs, hsplit, List.range'_succ, ← List.range'_append_1,
        hnext]

/-- The numbers given out are above the one before and not above the last. -/
theorem mem_firsts {t : Forest α} {m m' n : ℕ} (h : t.Numbered num m m') (hn : n ∈ t.firsts num) :
    m < n ∧ n ≤ m' := by
  have hle := h.le
  rw [h.firsts, List.mem_range'_1] at hn
  omega

/-- The last number given out is the greatest, counting the one the forest started from. -/
theorem last_mem {t : Forest α} {m m' : ℕ} (h : t.Numbered num m m') : m' ∈ m :: t.firsts num := by
  have hle := h.le
  rw [List.mem_cons, h.firsts, List.mem_range'_1]
  omega

/-- No number exceeds the last. -/
theorem le_last {t : Forest α} {m m' n : ℕ} (h : t.Numbered num m m') (hn : n ∈ m :: t.firsts num) :
    n ≤ m' := by
  rcases List.mem_cons.1 hn with rfl | hn
  · exact h.le
  · exact (h.mem_firsts hn).2

/-- Every numbered node ends its subtree between the first and the last number of the forest. -/
theorem bounds {t : Forest α} {m m' : ℕ} (h : t.Numbered num m m') :
    ∀ a ∈ t.toList, ∀ first last, num a = some (first, last) →
      m < first ∧ first ≤ last ∧ last ≤ m' := by
  induction t generalizing m m' with
  | nil =>
    intro a ha
    cases ha
  | node a children siblings ihc ihs =>
    intro b hb first' last' hb'
    rcases hnum : num a with _ | ⟨first, last⟩
    · obtain ⟨rfl, hs⟩ := h.of_none hnum
      rcases List.mem_cons.1 hb with rfl | hb
      · rw [hnum] at hb'
        cases hb'
      · exact ihs hs b hb first' last' hb'
    · obtain ⟨rfl, hc, hs⟩ := h.of_some hnum
      have hle : m + 1 ≤ last := hc.le
      have hle' : last ≤ m' := hs.le
      rcases List.mem_cons.1 hb with rfl | hb
      · obtain ⟨rfl, rfl⟩ := Prod.mk.inj (Option.some.inj (hnum.symm.trans hb'))
        omega
      · rcases List.mem_append.1 hb with hb | hb
        · have := ihc hc b hb first' last' hb'
          omega
        · have := ihs hs b hb first' last' hb'
          omega

/-- **Subtrees are nested**: the last number behind a node is the greatest in its subtree, and the
numbers of a node behind another lie in the range of that one. -/
theorem nested {t : Forest α} {m m' : ℕ} (h : t.Numbered num m m') :
    t.All fun a children => (num a = none → children = nil) ∧
      ∀ first last, num a = some (first, last) → children.Numbered num first last := by
  induction t generalizing m m' with
  | nil => trivial
  | node a children siblings ihc ihs =>
    rcases hnum : num a with _ | ⟨first, last⟩
    · obtain ⟨rfl, hs⟩ := h.of_none hnum
      refine ⟨⟨fun _ => rfl, fun first last ha => ?_⟩, trivial, ihs hs⟩
      rw [hnum] at ha
      cases ha
    · obtain ⟨rfl, hc, hs⟩ := h.of_some hnum
      refine ⟨⟨fun ha => ?_, fun first' last' ha => ?_⟩, ihc hc, ihs hs⟩
      · rw [hnum] at ha
        cases ha
      · obtain ⟨rfl, rfl⟩ := Prod.mk.inj (Option.some.inj (hnum.symm.trans ha))
        exact hc

/-- **Subtrees of one level are apart**: the numbers of one end before those of the next begin. -/
theorem apart {t : Forest α} {m m' : ℕ} (h : t.Numbered num m m') :
    t.roots.Pairwise fun a b => ∀ first last first' last', num a = some (first, last) →
      num b = some (first', last') → last < first' := by
  induction t generalizing m m' with
  | nil => exact List.Pairwise.nil
  | node a children siblings _ ihs =>
    rcases hnum : num a with _ | ⟨first, last⟩
    · refine List.pairwise_cons.2 ⟨?_, ihs (h.of_none hnum).2⟩
      intro b _ first last _ _ ha
      rw [hnum] at ha
      cases ha
    · obtain ⟨rfl, hc, hs⟩ := h.of_some hnum
      refine List.pairwise_cons.2 ⟨?_, ihs hs⟩
      intro b hb first' last' first'' last'' ha hb'
      obtain ⟨rfl, rfl⟩ := Prod.mk.inj (Option.some.inj (hnum.symm.trans ha))
      exact (hs.bounds b (mem_toList_of_mem_roots hb) _ _ hb').1

end Numbered

end Numbered

end Forest
