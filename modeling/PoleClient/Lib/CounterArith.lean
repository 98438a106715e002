import Mathlib.Algebra.Group.Nat.Defs
import Mathlib.Logic.Function.Iterate

/-! # Counter arithmetic

A program that counts with machine words is stated over an arithmetic, so that
the same definitions run on 32-bit words and on exact naturals. Saturating
subtraction is the truncated subtraction of `Nat` in both.
-/

namespace Lib

structure CounterArith where
  add : Nat → Nat → Nat
  saturatingAdd : Nat → Nat → Nat

namespace CounterArith

def u32Max : Nat := 2 ^ 32 - 1

/-- Unbounded counters. -/
def exact : CounterArith where
  add := (· + ·)
  saturatingAdd := (· + ·)

/-- 32-bit words: `+` wraps, as it does without overflow checks. -/
def u32 : CounterArith where
  add a b := (a + b) % 2 ^ 32
  saturatingAdd a b := min (a + b) u32Max

@[simp] theorem exact_add (a b : Nat) : exact.add a b = a + b := rfl

@[simp] theorem exact_saturatingAdd (a b : Nat) : exact.saturatingAdd a b = a + b := rfl

theorem u32_add_of_lt {a b : Nat} (h : a + b < 2 ^ 32) : u32.add a b = a + b :=
  Nat.mod_eq_of_lt h

/-- A saturated sum exceeds a limit exactly if the sum does, unless the limit is the
largest word, which no saturated sum exceeds. -/
theorem u32_saturatingAdd_gt_iff {a b limit : Nat} (h : limit ≤ u32Max) :
    u32.saturatingAdd a b > limit ↔ a + b > limit ∧ limit ≠ u32Max := by
  simp only [u32]
  omega

theorem u32_add_iterate (a n word : Nat) :
    (fun word => u32.add word a)^[n + 1] word = u32.add word ((n + 1) * a) := by
  induction n generalizing word with
  | zero => simp
  | succ n ih =>
      rw [Function.iterate_succ_apply, ih]
      simp only [u32]
      rw [Nat.mod_add_mod, Nat.add_assoc, Nat.add_comm a, ← Nat.succ_mul]

theorem u32_add_iterate_of_lt {a n word : Nat} (h : word + n * a < 2 ^ 32) :
    (fun word => u32.add word a)^[n] word = word + n * a := by
  cases n with
  | zero => simp
  | succ n => rw [u32_add_iterate, u32_add_of_lt h]

theorem exact_add_iterate (a n word : Nat) :
    (fun word => exact.add word a)^[n] word = word + n * a := by
  induction n generalizing word with
  | zero => simp
  | succ n ih =>
      rw [Function.iterate_succ_apply, ih, exact_add, Nat.succ_mul]
      omega

end CounterArith

end Lib
