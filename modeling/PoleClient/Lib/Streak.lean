import Mathlib.Data.List.TakeWhile

/-! # Streaks at the head of a list

The number of leading elements with a property, as counters of consecutive
events keep it over a newest-first history.
-/

namespace Lib

variable {α : Type}

def streak (p : α → Bool) (l : List α) : Nat :=
  (l.takeWhile p).length

@[simp] theorem streak_nil (p : α → Bool) : streak p [] = 0 := rfl

end Lib
