import Mathlib.Algebra.Group.Basic

/-! # Running sums

    A checksum with two sums reads its input value by value: the first sum
    adds up the values, the second the first sum after each of them.  Over a
    commutative group each value MOVES the pair of sums, one to one, so that
    what is read later never makes two different pairs equal again.

    Two inputs that differ in one value, or in the order of two neighbours,
    differ right behind the place, and so do their sums. -/

namespace RunningSums

variable {G : Type} [AddCommGroup G]

/-- Read one value. -/
def next (s : G × G) (x : G) : G × G := (s.1 + x, s.2 + (s.1 + x))

/-- Read a list of values. -/
def sums (s : G × G) (xs : List G) : G × G := xs.foldl next s

theorem sums_append (s : G × G) (xs ys : List G) : sums s (xs ++ ys) = sums (sums s xs) ys :=
  List.foldl_append

theorem next_injective (x : G) : Function.Injective fun s => next s x := by
  intro s t h
  obtain ⟨hfst, hsnd⟩ := Prod.mk.inj h
  have hfst' : s.1 = t.1 := add_right_cancel hfst
  rw [hfst] at hsnd
  exact Prod.ext hfst' (add_right_cancel hsnd)

/-- **NOTHING IS FORGOTTEN**: different sums stay different. -/
theorem sums_injective (xs : List G) : Function.Injective fun s => sums s xs := by
  induction xs with
  | nil => exact fun _ _ h => h
  | cons x xs ih => exact fun s t h => next_injective x (ih h)

theorem next_ne (s : G × G) {x y : G} (h : x ≠ y) : next s x ≠ next s y := by
  intro heq
  exact h (add_left_cancel (Prod.mk.inj heq).1)

/-- Two neighbours in the other order have the same first sum, and second
    sums that differ as they do. -/
theorem next_next_ne (s : G × G) {x y : G} (h : x ≠ y) :
    next (next s x) y ≠ next (next s y) x := by
  intro heq
  have hsnd : s.2 + (s.1 + x) + (s.1 + x + y) = s.2 + (s.1 + y) + (s.1 + y + x) :=
    (Prod.mk.inj heq).2
  rw [add_right_comm s.1 x y] at hsnd
  exact h (add_left_cancel (add_left_cancel (add_right_cancel hsnd)))

/-- **ONE VALUE** in place of another is seen. -/
theorem sums_replaced (s : G × G) (before after : List G) {x y : G} (h : x ≠ y) :
    sums s (before ++ x :: after) ≠ sums s (before ++ y :: after) := by
  rw [sums_append, sums_append]
  exact fun heq => next_ne _ h (sums_injective after heq)

/-- **TWO NEIGHBOURS** that change places are seen. -/
theorem sums_swapped (s : G × G) (before after : List G) {x y : G} (h : x ≠ y) :
    sums s (before ++ x :: y :: after) ≠ sums s (before ++ y :: x :: after) := by
  rw [sums_append, sums_append]
  exact fun heq => next_next_ne _ h (sums_injective after heq)

end RunningSums
