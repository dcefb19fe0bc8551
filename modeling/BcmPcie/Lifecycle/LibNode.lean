import BcmPcie.Library.Tasks

/-! # The library node

The part of a library base that Exec and the two libraries of the repository keep in common: the open
count, the delayed-expunge flag and whether the base is still there. `LibExpunge` is the same function
in both.

Calls are made in task context, and another task runs only where a call can wait; what a call does
from one such point to the next is one step. A base that has been removed is freed memory, on which no
step is described. -/

namespace BcmPcie

/-- `struct Library`, as far as opening and closing go. -/
structure LibNode where
  /-- `lib_OpenCnt`, a 16-bit word. -/
  openCnt : BitVec 16 := 0
  /-- `LIBF_DELEXP` in `lib_Flags`. -/
  delexp : Bool := false
  /-- The base has been taken off Exec's list and freed. -/
  removed : Bool := false
  deriving DecidableEq, Repr

/-- `LibExpunge`. -/
def LibNode.expunge (n : LibNode) : LibNode :=
  if n.openCnt ≠ 0 then { n with delexp := true } else { n with removed := true }

/-- A `LibOpen` succeeds: `lib_OpenCnt++`, and no delayed expunge any more. -/
def LibNode.opened (n : LibNode) : LibNode := { n with openCnt := n.openCnt + 1, delexp := false }

/-- A `LibClose` has begun: `lib_OpenCnt--`. -/
def LibNode.closed (n : LibNode) : LibNode := { n with openCnt := n.openCnt - 1 }

section

variable (n : LibNode)

@[simp] theorem expunge_openCnt : n.expunge.openCnt = n.openCnt := by
  unfold LibNode.expunge
  split <;> rfl

@[simp] theorem opened_openCnt : n.opened.openCnt = n.openCnt + 1 := rfl

@[simp] theorem opened_removed : n.opened.removed = n.removed := rfl

@[simp] theorem closed_openCnt : n.closed.openCnt = n.openCnt - 1 := rfl

@[simp] theorem closed_removed : n.closed.removed = n.removed := rfl

/-- The base goes just when nobody has it open. -/
theorem expunge_removed_iff (h : n.removed = false) :
    n.expunge.removed = true ↔ n.openCnt = 0 := by
  unfold LibNode.expunge
  split
  · rename_i hne
    exact iff_of_false (by simp [h]) hne
  · rename_i heq
    exact iff_of_true rfl (not_not.1 heq)

variable {n}

/-- The count goes up by one, short of the largest word. -/
theorem openCnt_opened (h : n.openCnt ≠ BitVec.allOnes 16) :
    n.opened.openCnt.toNat = n.openCnt.toNat + 1 := by
  have hlt := n.openCnt.isLt
  have hne : n.openCnt.toNat ≠ 65535 := by
    intro heq
    exact h (BitVec.eq_of_toNat_eq (by rw [heq]; rfl))
  have hone : (1 : BitVec 16).toNat = 1 := rfl
  rw [opened_openCnt, BitVec.toNat_add, hone]
  exact Nat.mod_eq_of_lt (by omega)

/-- The count goes down by one, if it is not zero. -/
theorem openCnt_closed (h : n.openCnt ≠ 0) : n.closed.openCnt.toNat = n.openCnt.toNat - 1 := by
  have hpos : n.openCnt.toNat ≠ 0 := fun heq => h (BitVec.eq_of_toNat_eq heq)
  have hone : (1 : BitVec 16).toNat = 1 := rfl
  have hle : (1 : BitVec 16) ≤ n.openCnt := by
    rw [BitVec.le_def, hone]
    omega
  rw [closed_openCnt, BitVec.toNat_sub_of_le hle, hone]

/-- From the largest word the count goes back to zero. -/
theorem openCnt_opened_of_allOnes (h : n.openCnt = BitVec.allOnes 16) : n.opened.openCnt = 0 := by
  rw [opened_openCnt, h]
  decide

end

end BcmPcie
