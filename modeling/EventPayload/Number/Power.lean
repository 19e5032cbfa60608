/-!
# Powers of two and ten

* `twoPow` — how many values a number of bits can take.
* `tenPow` — the weight of a decimal place.

Both are given by the recursion of the core library's `Nat.pow`, so that closed instances are
evaluated in one step; the lemmas restate that recursion.
-/

namespace EventPayload

/-- A power of two: the number of values that `n` bits can take. -/
def twoPow (n : Nat) : Nat :=
  Nat.pow 2 n

def tenPow (n : Nat) : Nat :=
  Nat.pow 10 n

theorem twoPow_zero : twoPow 0 = 1 := rfl

theorem twoPow_succ (n : Nat) : twoPow (n + 1) = twoPow n * 2 := rfl

theorem tenPow_succ (n : Nat) : tenPow (n + 1) = tenPow n * 10 := rfl

theorem twoPow_pos (n : Nat) : 0 < twoPow n := by
  induction n with
  | zero => decide
  | succ n ih => rw [twoPow_succ]; omega

theorem tenPow_pos (n : Nat) : 0 < tenPow n := by
  induction n with
  | zero => decide
  | succ n ih => rw [tenPow_succ]; omega

end EventPayload
