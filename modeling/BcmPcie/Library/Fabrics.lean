import BcmPcie.Library.Forest

/-! # Transactions in a tree of buses

A forest as the nodes on a bus, each with the bus behind it. A transaction is seen by every node of a
bus: a node answers it itself, or takes it over to the bus behind it. It fails where it is claimed
twice, and where the node that has taken it over finds nobody to answer it.

* `Forest.deliver` — what becomes of a transaction that comes down from the root.
* `Forest.Beside` — a property of all pairs of nodes, the second not behind the first.
* `Forest.deliver_eq_ofTargets` — where nodes take over just what is answered behind them, a
  transaction comes to its target if it has only one.
* `Forest.Climbs` — a transaction that goes up to the root. -/

/-- What becomes of a transaction on a bus. -/
inductive Delivery (τ : Type*)
  | unclaimed
  | delivered (target : τ)
  | failed
  deriving DecidableEq, Repr

namespace Delivery

variable {τ : Type*}

/-- A transaction on two parts of a bus: it fails if both claim it. -/
def join : Delivery τ → Delivery τ → Delivery τ
  | .unclaimed, d => d
  | .delivered target, .unclaimed => .delivered target
  | .delivered _, _ => .failed
  | .failed, _ => .failed

/-- A transaction that was taken over to the bus behind a node: nobody else will answer it. -/
def takenOver : Delivery τ → Delivery τ
  | .delivered target => .delivered target
  | _ => .failed

/-- A transaction with these targets in one place. -/
def ofTargets : List τ → Delivery τ
  | [] => .unclaimed
  | [target] => .delivered target
  | _ :: _ :: _ => .failed

@[simp] theorem join_unclaimed (d : Delivery τ) : d.join .unclaimed = d := by cases d <;> rfl

/-- Two lists of targets give what both give. -/
theorem ofTargets_append (xs ys : List τ) :
    ofTargets (xs ++ ys) = (ofTargets xs).join (ofTargets ys) := by
  match xs, ys with
  | [], ys => rfl
  | [x], [] => rfl
  | [x], [y] => rfl
  | [x], y :: y' :: ys => rfl
  | x :: x' :: xs, ys => rfl

/-- A transaction that has a target is not lost when it is taken over. -/
theorem takenOver_ofTargets {xs : List τ} (h : xs ≠ []) : (ofTargets xs).takenOver = ofTargets xs := by
  match xs, h with
  | [x], _ => rfl
  | x :: x' :: xs, _ => rfl

end Delivery

namespace Forest

open Delivery

variable {α τ : Type*}

/-! ## Down from the root -/

section Deliver

variable (answers : α → List τ) (forwards : α → Bool)

/-- What becomes of a transaction on a bus: `answers a` are the targets for it in the node `a`, and
`forwards a` says that the node takes it over to the bus behind it. -/
def deliver : Forest α → Delivery τ
  | nil => .unclaimed
  | node a children siblings =>
    ((ofTargets (answers a)).join
      (if forwards a then children.deliver.takenOver else .unclaimed)).join siblings.deliver

/-- The targets for a transaction, wherever they are. -/
def targets (t : Forest α) : List τ := t.toList.flatMap answers

/-- The targets of a node are its own, those below it and those beside it. -/
theorem targets_node (a : α) (children siblings : Forest α) :
    (node a children siblings).targets answers
      = answers a ++ (children.targets answers ++ siblings.targets answers) := by
  unfold targets
  rw [toList_node, List.flatMap_cons, List.flatMap_append]

variable {answers forwards}

/-- Nobody answers if and only if no node does. -/
theorem targets_eq_nil_iff {t : Forest α} :
    t.targets answers = [] ↔ ∀ a ∈ t.toList, answers a = [] :=
  List.flatMap_eq_nil_iff

/-- **A transaction comes to its target.** If a node takes over a transaction exactly when there is a
target for it behind that node, what becomes of the transaction depends on its targets alone. -/
theorem deliver_eq_ofTargets {t : Forest α}
    (hexact : t.All fun a below => forwards a = true ↔ below.targets answers ≠ []) :
    t.deliver answers forwards = ofTargets (t.targets answers) := by
  induction t with
  | nil => rfl
  | node a children siblings ihc ihs =>
    obtain ⟨hnode, hchildren, hsiblings⟩ := hexact
    rw [deliver, ihc hchildren, ihs hsiblings, targets_node, ← List.append_assoc, ofTargets_append,
      ofTargets_append]
    by_cases hempty : children.targets answers = []
    · have hnot : forwards a = false := Bool.eq_false_iff.2 fun h => hnode.1 h hempty
      rw [hnot, hempty, if_neg Bool.false_ne_true]
      rfl
    · rw [hnode.2 hempty, if_pos rfl, takenOver_ofTargets hempty]

end Deliver

/-- What at most one member of a list has, is had by a member that has it alone. -/
theorem filter_eq_singleton {l : List α} {p : α → Bool}
    (h : l.Pairwise fun a b => ¬ (p a = true ∧ p b = true)) {a : α} (ha : a ∈ l) (hp : p a = true) :
    l.filter p = [a] := by
  induction l with
  | nil => cases ha
  | cons b l ih =>
    obtain ⟨hb, hl⟩ := List.pairwise_cons.1 h
    rcases List.mem_cons.1 ha with rfl | ha
    · rw [List.filter_cons_of_pos hp, List.filter_eq_nil_iff.2 fun c hc hpc => hb c hc ⟨hp, hpc⟩]
    · rw [List.filter_cons_of_neg fun hpb => hb a ha ⟨hpb, hp⟩, ih hl ha]

/-! ## Nodes that are not behind another -/

/-- `P a b` for every node `a` and every node `b` that is not behind it: `a` itself, the nodes it is
behind, and what is on other branches. -/
def Beside (P : α → α → Prop) : Forest α → Prop
  | nil => True
  | node a children siblings =>
    (P a a ∧ ∀ b ∈ children.toList, P b a) ∧
      (∀ b ∈ a :: children.toList, ∀ c ∈ siblings.toList, P b c ∧ P c b) ∧
      children.Beside P ∧ siblings.Beside P

/-- A relation between siblings may be weakened. -/
theorem Beside.imp {P Q : α → α → Prop} (h : ∀ a b, P a b → Q a b) {t : Forest α}
    (ht : t.Beside P) : t.Beside Q := by
  induction t with
  | nil => trivial
  | node a children siblings ihc ihs =>
    obtain ⟨⟨hself, habove⟩, hacross, hc, hs⟩ := ht
    exact ⟨⟨h _ _ hself, fun b hb => h _ _ (habove b hb)⟩,
      fun b hb c hc => ⟨h _ _ (hacross b hb c hc).1, h _ _ (hacross b hb c hc).2⟩, ihc hc, ihs hs⟩

/-- Two relations between siblings hold together. -/
theorem Beside.and {P Q : α → α → Prop} {t : Forest α} (hP : t.Beside P) (hQ : t.Beside Q) :
    t.Beside fun a b => P a b ∧ Q a b := by
  induction t with
  | nil => trivial
  | node a children siblings ihc ihs =>
    exact ⟨⟨⟨hP.1.1, hQ.1.1⟩, fun b hb => ⟨hP.1.2 b hb, hQ.1.2 b hb⟩⟩,
      fun b hb c hc => ⟨⟨(hP.2.1 b hb c hc).1, (hQ.2.1 b hb c hc).1⟩,
        (hP.2.1 b hb c hc).2, (hQ.2.1 b hb c hc).2⟩, ihc hP.2.2.1 hQ.2.2.1, ihs hP.2.2.2 hQ.2.2.2⟩

/-- What holds of all pairs of nodes. -/
theorem beside_of_forall {P : α → α → Prop} {t : Forest α}
    (h : ∀ a ∈ t.toList, ∀ b ∈ t.toList, P a b) : t.Beside P := by
  induction t with
  | nil => trivial
  | node a children siblings ihc ihs =>
    have hc : ∀ b ∈ children.toList, b ∈ (node a children siblings).toList := fun b hb =>
      List.mem_cons_of_mem _ (List.mem_append_left _ hb)
    have hs : ∀ b ∈ siblings.toList, b ∈ (node a children siblings).toList := fun b hb =>
      List.mem_cons_of_mem _ (List.mem_append_right _ hb)
    have hac : ∀ b ∈ a :: children.toList, b ∈ (node a children siblings).toList := fun b hb =>
      (List.mem_cons.1 hb).elim (fun h => h ▸ List.mem_cons_self) (hc b)
    exact ⟨⟨h a List.mem_cons_self a List.mem_cons_self,
        fun b hb => h b (hc b hb) a List.mem_cons_self⟩,
      fun b hb c hc => ⟨h b (hac b hb) c (hs c hc), h c (hs c hc) b (hac b hb)⟩,
      ihc fun b hb c hc' => h b (hc b hb) c (hc c hc'),
      ihs fun b hb c hc' => h b (hs b hb) c (hs c hc')⟩

/-- Of any node, another node is behind it or has the property with it. -/
theorem Beside.all {P : α → α → Prop} {t : Forest α} (h : t.Beside P) :
    t.All fun a below => ∀ b ∈ t.toList, b ∈ below.toList ∨ P a b := by
  induction t with
  | nil => trivial
  | node a children siblings ihc ihs =>
    obtain ⟨⟨hself, habove⟩, hacross, hc, hs⟩ := h
    have hsub := all_subset children
    have hsub' := all_subset siblings
    refine ⟨fun b hb => ?_, ((ihc hc).and hsub).imp fun c below hcb b hb => ?_,
      ((ihs hs).and hsub').imp fun c below hcb b hb => ?_⟩
    · rcases List.mem_cons.1 hb with rfl | hb
      · exact Or.inr hself
      · rcases List.mem_append.1 hb with hb | hb
        · exact Or.inl hb
        · exact Or.inr (hacross a List.mem_cons_self b hb).1
    · have hmem : c ∈ children.toList := hcb.2.1
      rcases List.mem_cons.1 hb with rfl | hb
      · exact Or.inr (habove c hmem)
      · rcases List.mem_append.1 hb with hb | hb
        · exact hcb.1 b hb
        · exact Or.inr (hacross c (List.mem_cons_of_mem _ hmem) b hb).1
    · have hmem : c ∈ siblings.toList := hcb.2.1
      rcases List.mem_cons.1 hb with rfl | hb
      · exact Or.inr (hacross b List.mem_cons_self c hmem).2
      · rcases List.mem_append.1 hb with hb | hb
        · exact Or.inr (hacross b (List.mem_cons_of_mem _ hb) c hmem).2
        · exact hcb.1 b hb

/-- What is answered somewhere, and is not taken over by nodes it is not behind, is taken over only
where there is a target behind. -/
theorem deliver_eq_delivered {answers : α → List τ} {forwards : α → Bool} {t : Forest α} {target : τ}
    (hcovers : t.All fun a below => below.targets answers ≠ [] → forwards a = true)
    (hbeside : t.Beside fun a b => forwards a = true → answers b = [])
    (htargets : t.targets answers = [target]) :
    t.deliver answers forwards = .delivered target := by
  have hsome : ∃ b ∈ t.toList, answers b ≠ [] := by
    by_contra hnone
    push Not at hnone
    rw [targets_eq_nil_iff.2 hnone] at htargets
    cases htargets
  obtain ⟨b, hb, hanswer⟩ := hsome
  rw [deliver_eq_ofTargets, htargets]
  · rfl
  · refine (hcovers.and hbeside.all).imp fun a below h => ⟨fun hforward => ?_, h.1⟩
    intro hempty
    rcases h.2 b hb with hbelow | hnot
    · exact hanswer (targets_eq_nil_iff.1 hempty b hbelow)
    · exact hanswer (hnot hforward)

/-! ## Up to the root -/

/-- A transaction of the node `b` goes up to the root: on no bus on the way does a node claim it, and
the nodes that it passes on the way let it through. -/
inductive Climbs (claims passes : α → Prop) : Forest α → α → Prop
  | here {t : Forest α} {b : α} (hb : b ∈ t.roots) (hbus : ∀ c ∈ t.roots, ¬ claims c) :
    Climbs claims passes t b
  | behind {t below : Forest α} {a b : α} (ha : (a, below) ∈ t.level)
    (hbelow : Climbs claims passes below b) (hpass : passes a) (hbus : ∀ c ∈ t.roots, ¬ claims c) :
    Climbs claims passes t b

/-- What nobody claims goes up to the root from everywhere. -/
theorem climbs_of_unclaimed {claims passes : α → Prop} {t : Forest α}
    (hunclaimed : ∀ a ∈ t.toList, ¬ claims a) (hpass : t.All fun a below => below ≠ nil → passes a) :
    ∀ b ∈ t.toList, Climbs claims passes t b := by
  induction t with
  | nil =>
    intro b hb
    cases hb
  | node a children siblings ihc ihs =>
    have hbus : ∀ c ∈ (node a children siblings).roots, ¬ claims c := fun c hc =>
      hunclaimed c (mem_toList_of_mem_roots hc)
    intro b hb
    rcases List.mem_cons.1 hb with rfl | hb
    · exact .here List.mem_cons_self hbus
    · rcases List.mem_append.1 hb with hb | hb
      · have hbelow := ihc (fun c hc => hunclaimed c
          (List.mem_cons_of_mem _ (List.mem_append_left _ hc))) hpass.2.1 b hb
        refine .behind List.mem_cons_self hbelow (hpass.1 ?_) hbus
        rintro rfl
        cases hb
      · -- it goes up from the rest of the bus, which is part of this one
        cases ihs (fun c hc => hunclaimed c
          (List.mem_cons_of_mem _ (List.mem_append_right _ hc))) hpass.2.2 b hb with
        | here hb _ => exact .here (List.mem_cons_of_mem _ hb) hbus
        | behind ha hbelow hpass _ =>
          exact .behind (List.mem_cons_of_mem _ ha) hbelow hpass hbus

end Forest
