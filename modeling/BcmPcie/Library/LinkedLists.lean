import Mathlib.Data.List.Nodup
import Mathlib.Logic.Function.Basic
import Mathlib.Tactic.Common

/-! # Lists of linked nodes

Nodes in memory, each with a value, the address of the next one and that of the one before it. Memory
is read by address, and a read where there is no node gives nothing.

* `LinkedLists.Linked` — the nodes of a list, and what their links say.
* `LinkedLists.append` — a new node behind the last one; `Linked.append` — it stays a list.
* `LinkedLists.find` — a loop over the links; `Linked.find_eq` — it finds the first that passes a test.
* `LinkedLists.results` — a search repeated from each of its results; `Linked.results_eq` — it finds all
  that pass, each once. -/

namespace LinkedLists

variable {Addr α : Type*}

/-- A node: what it holds, and its links. -/
structure Node (Addr α : Type*) where
  value : α
  next : Option Addr := none
  pred : Option Addr := none

/-- The nodes in memory. -/
abbrev Heap (Addr α : Type*) := Addr → Option (Node Addr α)

/-- The address of node `i` of a list, if there is one. -/
def address (nodes : List (Addr × α)) (i : ℕ) : Option Addr := nodes[i]?.map Prod.fst

/-- The address of the node before node `i`. -/
def before (nodes : List (Addr × α)) : ℕ → Option Addr
  | 0 => none
  | i + 1 => address nodes i

/-- The nodes are in memory, at different addresses, and each is linked to the next one and to the one
before it. -/
structure Linked (heap : Heap Addr α) (nodes : List (Addr × α)) : Prop where
  nodup : (nodes.map Prod.fst).Nodup
  node : ∀ i a v, nodes[i]? = some (a, v) →
    heap a = some ⟨v, address nodes (i + 1), before nodes i⟩

/-! ## Addresses -/

section Address

variable {heap : Heap Addr α} {nodes : List (Addr × α)} {a x : Addr}

/-- The address of a position is that of the node there. -/
theorem address_of_getElem? {i : ℕ} {v : α} (h : nodes[i]? = some (a, v)) :
    address nodes i = some a := by
  unfold address
  rw [h, Option.map_some]

/-- Every position of the list has an address. -/
theorem address_of_lt {i : ℕ} (hi : i < nodes.length) : ∃ a, address nodes i = some a := by
  unfold address
  rw [List.getElem?_eq_getElem hi]
  exact ⟨_, rfl⟩

/-- The address of a position is that of a node. -/
theorem mem_of_address {i : ℕ} (h : address nodes i = some a) : a ∈ nodes.map Prod.fst := by
  obtain ⟨x, hx, rfl⟩ := Option.map_eq_some_iff.1 h
  exact List.mem_map_of_mem (List.mem_of_getElem? hx)

/-- So is the address of the position before. -/
theorem mem_of_before {i : ℕ} (h : before nodes i = some a) : a ∈ nodes.map Prod.fst := by
  cases i with
  | zero => cases h
  | succ i => exact mem_of_address h

/-- A node behind the others leaves their addresses. -/
theorem address_concat_of_lt (v : α) {i : ℕ} (hi : i < nodes.length) :
    address (nodes ++ [(a, v)]) i = address nodes i := by
  unfold address
  rw [List.getElem?_append_left hi]

/-- And has its own behind them. -/
theorem address_concat_length (nodes : List (Addr × α)) (a : Addr) (v : α) :
    address (nodes ++ [(a, v)]) nodes.length = some a := by
  unfold address
  rw [List.getElem?_concat_length, Option.map_some]

/-- Behind the list there is no address. -/
theorem address_of_le {i : ℕ} (hi : nodes.length ≤ i) : address nodes i = none := by
  unfold address
  rw [List.getElem?_eq_none hi, Option.map_none]

/-- A node behind the others leaves what stands before them. -/
theorem before_concat (v : α) {i : ℕ} (hi : i ≤ nodes.length) :
    before (nodes ++ [(a, v)]) i = before nodes i := by
  cases i with
  | zero => rfl
  | succ i => exact address_concat_of_lt v hi

/-- Two nodes at one address are one. -/
theorem Linked.index_unique (h : Linked heap nodes) {i j : ℕ} (hi : address nodes i = some x)
    (hj : address nodes j = some x) : i = j := by
  have hi' : (nodes.map Prod.fst)[i]? = some x := by
    rw [List.getElem?_map]
    exact hi
  have hj' : (nodes.map Prod.fst)[j]? = some x := by
    rw [List.getElem?_map]
    exact hj
  obtain ⟨hlt, -⟩ := List.getElem?_eq_some_iff.1 hi'
  exact (List.getElem?_inj hlt h.nodup).1 (hi'.trans hj'.symm)

end Address

/-! ## Growing at the end -/

section Append

variable [DecidableEq Addr]

/-- The link to the next node is set. -/
def setNext (heap : Heap Addr α) (a : Addr) (next : Option Addr) : Heap Addr α :=
  Function.update heap a ((heap a).map fun node => { node with next := next })

/-- The link to the node before is set. -/
def setPred (heap : Heap Addr α) (a : Addr) (pred : Option Addr) : Heap Addr α :=
  Function.update heap a ((heap a).map fun node => { node with pred := pred })

/-- A node at `a` behind the last one, which is at `last` if there is one. -/
def append (heap : Heap Addr α) (last : Option Addr) (a : Addr) (v : α) : Heap Addr α :=
  Function.update (last.elim heap fun l => setNext heap l (some a)) a (some ⟨v, none, last⟩)

variable {heap : Heap Addr α} {nodes : List (Addr × α)} {a : Addr}

/-- A node in front of the last one stays as it is. -/
theorem Linked.append_inner (h : Linked heap nodes) (v : α) {i : ℕ} {x : Addr} (hxa : x ≠ a)
    (hi : i + 1 < nodes.length) (hx : address nodes i = some x) :
    append heap (before nodes nodes.length) a v x = heap x := by
  obtain ⟨n, hn⟩ : ∃ n, nodes.length = n + 1 := ⟨nodes.length - 1, by omega⟩
  unfold LinkedLists.append
  rw [Function.update_of_ne hxa, hn]
  show (address nodes n).elim heap (fun l => setNext heap l (some a)) x = heap x
  cases hl : address nodes n with
  | none => rfl
  | some l =>
    have hne : x ≠ l := by
      rintro rfl
      have := h.index_unique hx hl
      omega
    exact Function.update_of_ne hne _ _

/-- The last node gets the new one as its next. -/
theorem Linked.append_last (v : α) {i : ℕ} {x : Addr} (hxa : x ≠ a) (hi : i + 1 = nodes.length)
    (hx : address nodes i = some x) : append heap (before nodes nodes.length) a v x
      = (heap x).map fun node => { node with next := some a } := by
  unfold LinkedLists.append
  rw [Function.update_of_ne hxa, ← hi]
  show (address nodes i).elim heap (fun l => setNext heap l (some a)) x = _
  rw [hx]
  exact Function.update_self _ _ _

/-- **A new node behind the last one** makes a list one longer. -/
theorem Linked.append (h : Linked heap nodes) (hnew : a ∉ nodes.map Prod.fst) (v : α) :
    Linked (append heap (before nodes nodes.length) a v) (nodes ++ [(a, v)]) := by
  refine ⟨?_, fun i x w hi => ?_⟩
  · rw [List.map_append, List.map_singleton, List.nodup_append]
    refine ⟨h.nodup, List.nodup_singleton a, fun x hx y hy => ?_⟩
    rw [List.mem_singleton.1 hy]
    rintro rfl
    exact hnew hx
  · obtain ⟨hlen, -⟩ := List.getElem?_eq_some_iff.1 hi
    rw [List.length_append, List.length_singleton] at hlen
    rw [before_concat v (by omega)]
    rcases Nat.lt_or_ge i nodes.length with hlt | hge
    · rw [List.getElem?_append_left hlt] at hi
      have hx := address_of_getElem? hi
      have hxa : x ≠ a := by
        rintro rfl
        exact hnew (List.mem_map.2 ⟨(x, w), List.mem_of_getElem? hi, rfl⟩)
      rcases Nat.lt_or_ge (i + 1) nodes.length with hinner | hlast
      · rw [h.append_inner v hxa hinner hx, address_concat_of_lt v hinner]
        exact h.node i x w hi
      · have heq : i + 1 = nodes.length := by omega
        rw [Linked.append_last v hxa heq hx, h.node i x w hi, heq, address_concat_length]
        rfl
    · obtain rfl : i = nodes.length := by omega
      rw [List.getElem?_concat_length, Option.some.injEq, Prod.mk.injEq] at hi
      obtain ⟨rfl, rfl⟩ := hi
      rw [address_of_le (by rw [List.length_append]; exact Nat.le_refl _)]
      exact Function.update_self _ _ _

/-- A new node, and its links set one after the other. -/
theorem splice_eq_append (heap : Heap Addr α) {l a : Addr} (h : l ≠ a) (v : α) :
    setNext (setPred (setNext (Function.update heap a (some ⟨v, none, none⟩)) l (some a)) a (some l)) a
      none = LinkedLists.append heap (some l) a v := by
  funext x
  unfold setNext setPred LinkedLists.append
  by_cases hxa : x = a
  · subst hxa
    simp [Ne.symm h]
  · by_cases hxl : x = l
    · subst hxl
      simp [setNext, h]
    · simp [setNext, hxa, hxl]

/-- The first node is put in place as any other is behind the list. -/
theorem first_eq_append (heap : Heap Addr α) (a : Addr) (v : α) :
    setNext (setPred (Function.update heap a (some ⟨v, none, none⟩)) a none) a none
      = LinkedLists.append heap none a v := by
  funext x
  unfold setNext setPred LinkedLists.append
  by_cases hxa : x = a
  · subst hxa
    simp
  · simp [hxa]

end Append

/-! ## Searches -/

section Find

variable (heap : Heap Addr α)

/-- The loop of a search: from `cur` on, the first node that passes the test, for `fuel` tests of its
condition. A read outside the nodes, also one of the test's, is no outcome. -/
def find (test : α → Option Bool) : (fuel : ℕ) → (cur : Option Addr) → Option (Option Addr)
  | 0, _ => none
  | _ + 1, none => some none
  | fuel + 1, some a =>
    match heap a with
    | none => none
    | some node =>
      match test node.value with
      | none => none
      | some true => some (some a)
      | some false => find test fuel node.next

/-- Where a search starts: behind `prev`, or at the head. -/
def start (head prev : Option Addr) : Option (Option Addr) :=
  match prev with
  | none => some head
  | some a => (heap a).map (·.next)

/-- A search that is repeated from each of its results, until it has none; for `calls` calls. -/
def results (search : Option Addr → Option (Option Addr)) :
    (calls : ℕ) → (prev : Option Addr) → Option (List Addr)
  | 0, _ => none
  | calls + 1, prev =>
    match search prev with
    | none => none
    | some none => some []
    | some (some a) => (results search calls (some a)).map (a :: ·)

variable {heap} {nodes : List (Addr × α)} {test : α → Option Bool} {passes : α → Bool}

/-- A search through these nodes comes to `x`: none in front of it passes. -/
def Examined (passes : α → Bool) (l : List (Addr × α)) (x : Addr × α) : Prop :=
  ∃ skipped rest, l = skipped ++ x :: rest ∧ ∀ y ∈ skipped, passes y.2 = false

/-- A node that is examined is one of the list. -/
theorem Examined.mem {l : List (Addr × α)} {x : Addr × α} (h : Examined passes l x) : x ∈ l := by
  obtain ⟨skipped, rest, rfl, -⟩ := h
  exact List.mem_append_right _ List.mem_cons_self

/-- The first node is examined. -/
theorem examined_head (l : List (Addr × α)) (x : Addr × α) : Examined passes (x :: l) x :=
  ⟨[], l, rfl, fun _ hy => absurd hy List.not_mem_nil⟩

/-- Behind a node that does not pass the search goes on. -/
theorem Examined.cons {l : List (Addr × α)} {x y : Addr × α} (h : Examined passes l x)
    (hy : passes y.2 = false) : Examined passes (y :: l) x := by
  obtain ⟨skipped, rest, rfl, hskipped⟩ := h
  refine ⟨y :: skipped, rest, rfl, fun z hz => ?_⟩
  rcases List.mem_cons.1 hz with rfl | hz
  · exact hy
  · exact hskipped z hz

/-- **A search** from node `i` on ends and finds the first that passes, if the test has an outcome for
the nodes it comes to. -/
theorem Linked.find_eq_of_examined (h : Linked heap nodes) {i fuel : ℕ} (hi : i ≤ nodes.length)
    (htest : ∀ x, Examined passes (nodes.drop i) x → test x.2 = some (passes x.2))
    (hfuel : nodes.length < i + fuel) :
    find heap test fuel (address nodes i)
      = some (((nodes.drop i).find? fun x => passes x.2).map Prod.fst) := by
  induction fuel generalizing i with
  | zero => omega
  | succ fuel ih =>
    rcases Nat.lt_or_ge i nodes.length with hlt | hge
    · obtain ⟨⟨a, v⟩, hx⟩ : ∃ x, nodes[i] = x := ⟨_, rfl⟩
      have hx' : nodes[i]? = some (a, v) := by rw [List.getElem?_eq_getElem hlt, hx]
      have hdrop : nodes.drop i = (a, v) :: nodes.drop (i + 1) := by
        rw [List.drop_eq_getElem_cons hlt, hx]
      rw [hdrop] at htest ⊢
      rw [address_of_getElem? hx', find, h.node i a v hx', List.find?_cons]
      dsimp only
      rw [htest (a, v) (examined_head _ _)]
      cases hpass : passes v with
      | true => rfl
      | false => exact ih hlt (fun x hexamined => htest x (hexamined.cons hpass)) (by omega)
    · rw [address_of_le hge, List.drop_eq_nil_of_le hge]
      rfl

/-- The search from a position on finds the first node that passes from there on. -/
theorem Linked.find_eq (h : Linked heap nodes) (htest : ∀ x ∈ nodes, test x.2 = some (passes x.2))
    {i fuel : ℕ} (hi : i ≤ nodes.length) (hfuel : nodes.length < i + fuel) :
    find heap test fuel (address nodes i)
      = some (((nodes.drop i).find? fun x => passes x.2).map Prod.fst) :=
  h.find_eq_of_examined hi (fun x hx => htest x (List.mem_of_mem_drop hx.mem)) hfuel

/-- A search that starts at or before a node that passes finds that node, or one before it. -/
theorem Linked.find_of_passing (h : Linked heap nodes)
    (htest : ∀ x ∈ nodes, test x.2 = some (passes x.2)) {i j fuel : ℕ} (hj : j ≤ i) {x : Addr × α}
    (hx : nodes[i]? = some x) (hpass : passes x.2 = true) (hfuel : nodes.length < j + fuel) :
    ∃ k y, j ≤ k ∧ k ≤ i ∧ nodes[k]? = some y ∧ passes y.2 = true ∧
      find heap test fuel (address nodes j) = some (some y.1) := by
  obtain ⟨hlt, hsame⟩ := List.getElem?_eq_some_iff.1 hx
  rw [h.find_eq htest (by omega) hfuel]
  cases hfound : (nodes.drop j).find? fun x => passes x.2 with
  | none =>
    have hmem : x ∈ nodes.drop j := by
      refine List.mem_of_getElem? (i := i - j) ?_
      rw [List.getElem?_drop, show j + (i - j) = i by omega, hx]
    exact absurd hpass (List.find?_eq_none.1 hfound x hmem)
  | some y =>
    obtain ⟨hy, k, hk, hget, hbefore⟩ := List.find?_eq_some_iff_getElem.1 hfound
    have hnode : nodes[j + k]? = some y := by
      rw [← List.getElem?_drop, List.getElem?_eq_getElem hk, hget]
    refine ⟨j + k, y, Nat.le_add_right _ _, ?_, hnode, hy, rfl⟩
    -- nothing in front of the result passes
    by_contra hlater
    have hfails := hbefore (i - j) (by omega)
    rw [List.getElem_drop] at hfails
    simp only [show j + (i - j) = i by omega, hsame, hpass] at hfails
    exact absurd hfails (by decide)

/-- A search from behind node `i` starts at the next one. -/
theorem Linked.start_eq (h : Linked heap nodes) {head : Option Addr} {i : ℕ} {a : Addr} {v : α}
    (hi : nodes[i]? = some (a, v)) : start heap head (some a) = some (address nodes (i + 1)) := by
  unfold start
  dsimp only
  rw [h.node i a v hi, Option.map_some]

/-- A search from behind what stands in front of node `i` starts at node `i`. -/
theorem Linked.start_before (h : Linked heap nodes) {i : ℕ} (hi : i ≤ nodes.length) :
    start heap (address nodes 0) (before nodes i) = some (address nodes i) := by
  cases i with
  | zero => rfl
  | succ i =>
    obtain ⟨⟨a, v⟩, hx⟩ : ∃ x, nodes[i]? = some x := ⟨_, List.getElem?_eq_getElem (by omega)⟩
    show start _ _ (address nodes i) = _
    rw [address_of_getElem? hx]
    exact h.start_eq hx

/-- Two tests find the same node if and only if the first node that passes one of them, if there is one,
passes both. -/
theorem find?_fst_eq_iff {l : List (Addr × α)} (hnodup : (l.map Prod.fst).Nodup) {p q : α → Bool} :
    (l.find? fun x => p x.2).map Prod.fst = (l.find? fun x => q x.2).map Prod.fst ↔
      ∀ x, (l.find? fun x => p x.2 || q x.2) = some x → p x.2 = true ∧ q x.2 = true := by
  induction l with
  | nil => simp
  | cons y l ih =>
    obtain ⟨hnew, hnodup⟩ := List.nodup_cons.1 hnodup
    -- the first node is not found behind it
    have hbehind (r : α → Bool) : (l.find? fun x => r x.2).map Prod.fst ≠ some y.1 := fun h => by
      obtain ⟨x, hx, hfst⟩ := Option.map_eq_some_iff.1 h
      exact hnew (hfst ▸ List.mem_map_of_mem (List.mem_of_find?_eq_some hx))
    cases hp : p y.2 <;> cases hq : q y.2 <;> simp only [List.find?_cons, hp, hq]
    · exact ih hnodup
    · simpa [hp] using hbehind p
    · simpa [hq] using (hbehind q).symm
    · simp [hp, hq]

/-- **A repeated search** ends, and finds each node that passes once, in their order. -/
theorem Linked.results_eq (h : Linked heap nodes)
    (htest : ∀ x ∈ nodes, test x.2 = some (passes x.2)) {fuel calls : ℕ}
    (hfuel : nodes.length < fuel) (hcalls : nodes.length < calls) :
    results (fun prev => (start heap (address nodes 0) prev).bind (find heap test fuel)) calls none
      = some ((nodes.filter fun x => passes x.2).map Prod.fst) := by
  -- a call that starts at node `i` leads to the results from there on
  have hfrom : ∀ calls i prev, i ≤ nodes.length → nodes.length < i + calls →
      start heap (address nodes 0) prev = some (address nodes i) →
      results (fun prev => (start heap (address nodes 0) prev).bind (find heap test fuel)) calls prev
        = some (((nodes.drop i).filter fun x => passes x.2).map Prod.fst) := by
    intro calls
    induction calls with
    | zero =>
      intro i prev hi hcalls
      omega
    | succ calls ih =>
      intro i prev hi hcalls hstart
      rw [results, hstart, Option.bind_some, h.find_eq htest hi (by omega)]
      cases hfound : (nodes.drop i).find? fun x => passes x.2 with
      | none => rw [List.filter_eq_nil_iff.2 (List.find?_eq_none.1 hfound)]; rfl
      | some x =>
        obtain ⟨a, v⟩ := x
        obtain ⟨hpass, skipped, rest, hdrop, hskipped⟩ := List.find?_eq_some_iff_append.1 hfound
        -- the node that is found is number `j`, and the next call starts behind it
        obtain ⟨j, hj⟩ : ∃ j, j = i + skipped.length := ⟨_, rfl⟩
        have hx : nodes[j]? = some (a, v) := by
          rw [hj, ← List.getElem?_drop, hdrop, List.getElem?_append_right (Nat.le_refl _), Nat.sub_self,
            List.getElem?_cons_zero]
        have hrest : nodes.drop (j + 1) = rest := by
          rw [hj, Nat.add_assoc, ← List.drop_drop, hdrop, ← List.drop_drop, List.drop_left,
            List.drop_one, List.tail_cons]
        obtain ⟨hlt, -⟩ := List.getElem?_eq_some_iff.1 hx
        have hnext := ih (j + 1) (some a) hlt (by omega) (h.start_eq hx)
        have hnone : skipped.filter (fun x => passes x.2) = [] := by
          refine List.filter_eq_nil_iff.2 fun x hx hpass => ?_
          have hfails := hskipped x hx
          rw [hpass] at hfails
          cases hfails
        dsimp only [Option.map_some]
        rw [hnext, hrest, hdrop, List.filter_append, hnone, List.nil_append, List.filter_cons,
          if_pos hpass]
        rfl
  exact hfrom calls 0 none (Nat.zero_le _) (by omega) rfl

/-- A loop over the results of a search, which is repeated from each of them once it was visited. -/
def forResults {β : Type*} (search : Option Addr → Option (Option Addr)) (visit : Addr → Option β) :
    (rounds : ℕ) → (cur : Option Addr) → Option (List β)
  | 0, _ => none
  | _ + 1, none => some []
  | rounds + 1, some a =>
    (visit a).bind fun b => ((search (some a)).bind (forResults search visit rounds)).map (b :: ·)

/-- It visits what the repeated search finds. -/
theorem forResults_eq {β : Type*} {search : Option Addr → Option (Option Addr)} {visit : Addr → Option β}
    {rounds : ℕ} {prev : Option Addr} {found : List Addr} {seen : List β}
    (h : results search rounds prev = some found) (hvisit : found.map visit = seen.map some) :
    (search prev).bind (forResults search visit rounds) = some seen := by
  induction rounds generalizing prev found seen with
  | zero => cases h
  | succ rounds ih =>
    rw [results] at h
    cases hsearch : search prev with
    | none =>
      rw [hsearch] at h
      cases h
    | some next =>
      rw [hsearch] at h
      cases next with
      | none =>
        obtain rfl := Option.some.inj h
        obtain rfl := List.map_eq_nil_iff.1 hvisit.symm
        rfl
      | some a =>
        obtain ⟨found, hfound, rfl⟩ := Option.map_eq_some_iff.1 h
        obtain ⟨b, seen, rfl, hb, hseen⟩ := List.map_eq_cons_iff.1 hvisit.symm
        have hrest := ih hfound hseen.symm
        rw [Option.bind_some, forResults, ← hb, Option.bind_some, hrest]
        rfl

end Find

end LinkedLists
