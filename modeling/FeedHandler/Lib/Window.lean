import Mathlib.Algebra.BigOperators.Group.List.Basic
import Mathlib.Algebra.GroupWithZero.Nat
import Mathlib.Data.List.DropRight
import Mathlib.Data.List.Infix
/-!
# Bounded windows

A list that takes in entries at its end and gives up its oldest one when it is full.
Fed from nothing, it holds the last entries of what it was fed. Whatever else leaves
it from the front in between, it stays a suffix of what it was fed.
-/

namespace FeedHandler.Lib

variable {α : Type}

def slide (capacity : Nat) (window : List α) (x : α) : List α :=
  if window.length ≥ capacity then window.tail ++ [x] else window ++ [x]

theorem slide_of_lt {capacity : Nat} {window : List α} (h : window.length < capacity) (x : α) :
    slide capacity window x = window ++ [x] := if_neg (Nat.not_le.mpr h)

theorem slide_of_le {capacity : Nat} {window : List α} (h : capacity ≤ window.length) (x : α) :
    slide capacity window x = window.tail ++ [x] := if_pos h

theorem length_rtake (xs : List α) (n : Nat) : (xs.rtake n).length = min n xs.length := by
  unfold List.rtake
  rw [List.length_drop]
  omega

theorem slide_rtake {capacity : Nat} (hcapacity : 0 < capacity) (xs : List α) (x : α) :
    slide capacity (xs.rtake capacity) x = (xs ++ [x]).rtake capacity := by
  obtain ⟨n, rfl⟩ := Nat.exists_eq_add_of_lt hcapacity
  rw [Nat.zero_add, List.rtake_concat_succ]
  unfold slide
  rw [length_rtake]
  split_ifs with hfull
  · have htail : (xs.rtake (n + 1)).tail = xs.rtake n := by
      unfold List.rtake
      rw [List.tail_drop]
      congr 1
      omega
    rw [htail]
  · have hall : xs.rtake (n + 1) = xs.rtake n := by
      unfold List.rtake
      congr 1
      omega
    rw [hall]

theorem slide_suffix {window xs : List α} (h : window <:+ xs) (capacity : Nat) (x : α) :
    slide capacity window x <:+ xs ++ [x] := by
  unfold slide
  split_ifs
  · exact List.suffix_append_self_iff.mpr ((List.tail_suffix window).trans h)
  · exact List.suffix_append_self_iff.mpr h

theorem slide_sublist {before window xs : List α} (h : (before ++ window).Sublist xs)
    (capacity : Nat) (x : α) : (before ++ slide capacity window x).Sublist (xs ++ [x]) := by
  have htail : (before ++ window.tail).Sublist xs :=
    ((List.tail_sublist window).append_left before).trans h
  unfold slide
  split_ifs
  · rw [← List.append_assoc]
    exact htail.append_right [x]
  · rw [← List.append_assoc]
    exact h.append_right [x]

theorem length_slide {capacity : Nat} (hcapacity : 0 < capacity) {window : List α}
    (hbounded : window.length ≤ capacity) (x : α) :
    (slide capacity window x).length =
      if window.length < capacity then window.length + 1 else window.length := by
  unfold slide
  split_ifs with hfull hroom hroom
  · omega
  · rw [List.length_append, List.length_tail, List.length_singleton]
    omega
  · rw [List.length_append, List.length_singleton]
  · omega

def excess (capacity : Nat) (xss : List (List α)) : Nat :=
  (xss.map fun xs => xs.length - capacity).sum

theorem excess_concat (capacity : Nat) (xss : List (List α)) (xs : List α) :
    excess capacity (xss ++ [xs]) = excess capacity xss + (xs.length - capacity) := by
  simp [excess]

theorem excess_push (capacity : Nat) (xss : List (List α)) (xs : List α) (x : α) :
    excess capacity (xss ++ [xs ++ [x]]) =
      if capacity ≤ xs.length then excess capacity (xss ++ [xs]) + 1
      else excess capacity (xss ++ [xs]) := by
  rw [excess_concat, excess_concat, List.length_append, List.length_singleton]
  split_ifs <;> omega

end FeedHandler.Lib
