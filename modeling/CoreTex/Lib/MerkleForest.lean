import Mathlib.Data.List.Basic
import Mathlib.Tactic.Common
import Mathlib.Tactic.Ring

/-!
# CoreTex.Lib.MerkleForest

Perfect binary trees of hashes, and the forest of a binary counter: the perfect trees that
a row of leaves falls into, the smallest on top of a stack.

`Represents` ties a stack of trees to its leaves by divisibility alone: what lies below a
tree is a multiple of twice its size. Appending a tree that is aligned keeps it
(`Represents.append`), and a stack over a power of two is one tree (`Represents.eq_root`).
-/

namespace CoreTex.Lib

/-! ### Trees -/

/-- A node with its number of leaves. -/
inductive TreeNode (H : Type)
  | tip (size : Nat) (root : H)
  | fork (size : Nat) (root : H) (left right : TreeNode H)

namespace TreeNode

variable {H : Type}

def size : TreeNode H → Nat
  | tip size _ => size
  | fork size _ _ _ => size

def root : TreeNode H → H
  | tip _ root => root
  | fork _ root _ _ => root

variable (combine : H → H → H) (zero : H)

/-- Two nodes under a new one. -/
def branch (left right : TreeNode H) : TreeNode H :=
  fork (left.size + right.size) (combine left.root right.root) left right

/-- The perfect tree of depth `d` over a row of `2 ^ d` leaves; a leaf that is missing is `zero`. -/
def perfect : Nat → List H → TreeNode H
  | 0, leaves => tip 1 (leaves.headD zero)
  | d + 1, leaves =>
    branch combine (perfect d (leaves.take (2 ^ d))) (perfect d (leaves.drop (2 ^ d)))

@[simp] theorem size_perfect (d : Nat) (leaves : List H) :
    (perfect combine zero d leaves).size = 2 ^ d := by
  induction d generalizing leaves with
  | zero => rfl
  | succ d ih =>
      rw [perfect, branch, size, ih, ih, Nat.pow_succ]
      omega

theorem branch_perfect {d : Nat} {left : List H} (hleft : left.length = 2 ^ d) (right : List H) :
    branch combine (perfect combine zero d left) (perfect combine zero d right) =
      perfect combine zero (d + 1) (left ++ right) := by
  rw [perfect, List.take_left' hleft, List.drop_left' hleft]

end TreeNode

/-! ### Stacks of perfect trees -/

open TreeNode

variable {H : Type} (combine : H → H → H) (zero : H)

/-- A stack of trees, the top first, over a row of leaves. -/
inductive Represents : List (TreeNode H) → List H → Prop
  | nil : Represents [] []
  | cons {stack : List (TreeNode H)} {leaves block : List H} {d : Nat}
      (hrest : Represents stack leaves) (hblock : block.length = 2 ^ d)
      (hbelow : 2 ^ (d + 1) ∣ leaves.length) :
      Represents (perfect combine zero d block :: stack) (leaves ++ block)

/-- The binary counter's carry: trees of one size are joined. -/
def carry : List (TreeNode H) → TreeNode H → List (TreeNode H)
  | [], node => [node]
  | top :: stack, node =>
    if top.size = node.size then carry stack (branch combine top node) else node :: top :: stack

variable {combine zero}

theorem two_pow_dvd_of_le {d e : Nat} (h : d ≤ e) : 2 ^ d ∣ 2 ^ e :=
  Nat.pow_dvd_pow 2 h

/-- A block at a multiple of its size joins the stack. -/
theorem Represents.append {stack : List (TreeNode H)} {leaves block : List H} {e : Nat}
    (h : Represents combine zero stack leaves) (hblock : block.length = 2 ^ e)
    (haligned : 2 ^ e ∣ leaves.length) :
    Represents combine zero (carry combine stack (perfect combine zero e block))
      (leaves ++ block) := by
  induction h generalizing block e with
  | nil => exact .cons .nil hblock (Nat.dvd_zero _)
  | @cons stack leaves top d hrest htop hbelow ih =>
      rw [List.length_append, htop] at haligned
      -- a smaller top would leave the position unaligned
      have hle : e ≤ d := by
        by_contra hlt
        have hdvd : 2 ^ (d + 1) ∣ leaves.length + 2 ^ d :=
          (two_pow_dvd_of_le (by omega)).trans haligned
        have := (Nat.dvd_add_right hbelow).mp hdvd
        have := Nat.le_of_dvd (Nat.two_pow_pos d) this
        have := Nat.pow_lt_pow_right (a := 2) (by decide) (Nat.lt_succ_self d)
        omega
      rw [carry, size_perfect, size_perfect]
      by_cases heq : d = e
      · subst heq
        rw [if_pos rfl, branch_perfect combine zero htop, List.append_assoc]
        refine ih ?_ hbelow
        rw [List.length_append, htop, hblock, Nat.pow_succ]
        omega
      · rw [if_neg fun hpow => heq (Nat.pow_right_injective (le_refl 2) hpow)]
        refine .cons (.cons hrest htop hbelow) hblock ?_
        rw [List.length_append, htop]
        exact Nat.dvd_add ((two_pow_dvd_of_le (by omega)).trans hbelow)
          (two_pow_dvd_of_le (by omega))

theorem Represents.eq_nil {stack : List (TreeNode H)} (h : Represents combine zero stack []) :
    stack = [] := by
  cases stack with
  | nil => rfl
  | cons top stack =>
      generalize hleaves : ([] : List H) = leaves at h
      cases h with
      | @cons _ _ block d _ hblock _ =>
          have hempty := (List.append_eq_nil_iff.mp hleaves.symm).2
          rw [hempty] at hblock
          have := Nat.two_pow_pos d
          rw [List.length_nil] at hblock
          omega

/-- Over a power of two the stack is one tree. -/
theorem Represents.eq_root {stack : List (TreeNode H)} {leaves : List H} {D : Nat}
    (h : Represents combine zero stack leaves) (hlength : leaves.length = 2 ^ D) :
    stack = [perfect combine zero D leaves] := by
  cases h with
  | nil =>
      have := Nat.two_pow_pos D
      rw [List.length_nil] at hlength
      omega
  | @cons stack leaves block d hrest hblock hbelow =>
      rw [List.length_append, hblock] at hlength
      cases leaves with
      | nil =>
          rw [List.length_nil, Nat.zero_add] at hlength
          obtain rfl := Nat.pow_right_injective (le_refl 2) hlength
          rw [hrest.eq_nil, List.nil_append]
      | cons leaf leaves =>
          -- a longer row would make the block's size a multiple of twice itself
          have hlt : d < D := by
            refine (Nat.pow_lt_pow_iff_right (a := 2) (by decide)).mp ?_
            rw [← hlength, List.length_cons]
            omega
          have hdvd := (Nat.dvd_add_right hbelow).mp (hlength ▸ two_pow_dvd_of_le hlt)
          have := Nat.le_of_dvd (Nat.two_pow_pos d) hdvd
          have := Nat.pow_lt_pow_right (a := 2) (by decide) (Nat.lt_succ_self d)
          omega

end CoreTex.Lib
