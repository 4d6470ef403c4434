import FeedHandler.Lib.Window
import Mathlib.Algebra.BigOperators.Group.Finset.Piecewise
import Mathlib.Algebra.Order.BigOperators.Group.Finset
/-!
# Fanning out to bounded queues

A family of queues, each of which slides when it is fed beyond its capacity, and one
count of what slid out of any of them. What was taken from a queue and what it holds
was fed to it in that order, it holds the latest of that, and over all queues what is
neither taken nor held is what was counted.
-/

namespace FeedHandler.Lib

variable {α : Type}

/-- The lengths of the first `n` lists, all together. -/
def totalLength (n : Nat) (f : Nat → List α) : Nat := ∑ q ∈ Finset.range n, (f q).length

theorem totalLength_succ (n : Nat) (f : Nat → List α) :
    totalLength (n + 1) f = totalLength n f + (f n).length := Finset.sum_range_succ _ n

theorem totalLength_update {n q : Nat} (hq : q < n) (f : Nat → List α) (x : List α) :
    totalLength n (Function.update f q x) + (f q).length = totalLength n f + x.length := by
  have hlengths : (fun i => (Function.update f q x i).length) =
      Function.update (fun i => (f i).length) q x.length := by
    ext i
    by_cases hi : i = q
    · subst hi
      simp
    · simp [hi]
  have hmem : q ∈ Finset.range n := Finset.mem_range.mpr hq
  have hsplit := Finset.sum_eq_add_sum_sdiff_singleton_of_mem hmem fun i => (f i).length
  unfold totalLength
  rw [hlengths, Finset.sum_update_of_mem hmem, hsplit]
  omega

/-! ## One queue -/

/-- What was fed to a queue, what was taken from it and what it holds. -/
structure Slid (capacity : Nat) (fed taken queued : List α) : Prop where
  bounded : queued.length ≤ capacity
  latest : queued <:+ fed
  order : (taken ++ queued).Sublist fed

namespace Slid

variable {capacity : Nat} {fed taken queued rest : List α} {x : α}

theorem put (h : Slid capacity fed taken queued) (hcapacity : 0 < capacity) (x : α) :
    Slid capacity (fed ++ [x]) taken (slide capacity queued x) := by
  have hbounded := h.bounded
  constructor
  · rw [length_slide hcapacity hbounded]
    split_ifs <;> omega
  · exact slide_suffix h.latest capacity x
  · exact slide_sublist h.order capacity x

theorem take (h : Slid capacity fed taken (x :: rest)) : Slid capacity fed (taken ++ [x]) rest := by
  have hbounded := h.bounded
  rw [List.length_cons] at hbounded
  constructor
  · omega
  · exact (List.suffix_cons x rest).trans h.latest
  · rw [List.append_assoc]
    exact h.order

end Slid

/-! ## All of them -/

structure Fanout (capacity n : Nat) (fed taken queued : Nat → List α) (dropped : Nat) :
    Prop where
  slid : ∀ q, Slid capacity (fed q) (taken q) (queued q)
  unused : ∀ q, n ≤ q → fed q = []
  counted : totalLength n fed = dropped + totalLength n taken + totalLength n queued

namespace Fanout

variable {capacity n dropped : Nat} {fed taken queued : Nat → List α}

theorem empty (capacity : Nat) :
    Fanout capacity 0 (fun _ => []) (fun _ => []) (fun _ => ([] : List α)) 0 where
  slid _ := ⟨Nat.zero_le _, List.suffix_refl _, List.Sublist.refl _⟩
  unused _ _ := rfl
  counted := rfl

theorem nil_of_unused (h : Fanout capacity n fed taken queued dropped) {q : Nat} (hq : n ≤ q) :
    taken q = [] ∧ queued q = [] := by
  have hsublist := (h.slid q).order
  rw [h.unused q hq] at hsublist
  exact List.append_eq_nil_iff.mp (List.sublist_nil.mp hsublist)

theorem grow (h : Fanout capacity n fed taken queued dropped) :
    Fanout capacity (n + 1) fed taken queued dropped := by
  have hunused := h.unused n (Nat.le_refl n)
  obtain ⟨htaken, hqueued⟩ := h.nil_of_unused (Nat.le_refl n)
  have hcounted := h.counted
  constructor
  · exact h.slid
  · intro q hq
    exact h.unused q (by omega)
  · rw [totalLength_succ, totalLength_succ, totalLength_succ, hunused, htaken, hqueued,
      List.length_nil]
    omega

theorem put (h : Fanout capacity n fed taken queued dropped) (hcapacity : 0 < capacity) {q : Nat}
    (hq : q < n) (x : α) :
    Fanout capacity n (Function.update fed q (fed q ++ [x])) taken
      (Function.update queued q (slide capacity (queued q) x))
      (if (queued q).length < capacity then dropped else dropped + 1) := by
  have hlength := length_slide hcapacity (h.slid q).bounded x
  constructor
  · intro i
    by_cases hi : i = q
    · subst hi
      rw [Function.update_self, Function.update_self]
      exact (h.slid i).put hcapacity x
    · rw [Function.update_of_ne hi, Function.update_of_ne hi]
      exact h.slid i
  · intro i hi
    rw [Function.update_of_ne (by omega)]
    exact h.unused i hi
  · have hfed := totalLength_update hq fed (fed q ++ [x])
    have hqueued := totalLength_update hq queued (slide capacity (queued q) x)
    have hcounted := h.counted
    rw [List.length_append, List.length_singleton] at hfed
    rw [hlength] at hqueued
    split_ifs at hqueued ⊢ <;> omega

theorem take (h : Fanout capacity n fed taken queued dropped) {q : Nat} (hq : q < n) {x : α}
    {rest : List α} (hqueue : queued q = x :: rest) :
    Fanout capacity n fed (Function.update taken q (taken q ++ [x]))
      (Function.update queued q rest) dropped := by
  constructor
  · intro i
    by_cases hi : i = q
    · subst hi
      rw [Function.update_self, Function.update_self]
      exact (hqueue ▸ h.slid i).take
    · rw [Function.update_of_ne hi, Function.update_of_ne hi]
      exact h.slid i
  · exact h.unused
  · have htaken := totalLength_update hq taken (taken q ++ [x])
    have hqueued := totalLength_update hq queued rest
    have hcounted := h.counted
    rw [List.length_append, List.length_singleton] at htaken
    rw [hqueue, List.length_cons] at hqueued
    omega

theorem length_le (h : Fanout capacity n fed taken queued dropped) (q : Nat) :
    (fed q).length ≤ dropped + (taken q).length + (queued q).length := by
  by_cases hq : q < n
  · have hfed := totalLength_update hq fed []
    have htaken := totalLength_update hq taken []
    have hqueued := totalLength_update hq queued []
    have hcounted := h.counted
    have hothers : totalLength n (Function.update taken q []) +
        totalLength n (Function.update queued q []) ≤ totalLength n (Function.update fed q []) := by
      unfold totalLength
      rw [← Finset.sum_add_distrib]
      apply Finset.sum_le_sum
      intro i _
      by_cases hi : i = q
      · subst hi
        simp
      · simp only [Function.update_of_ne hi]
        rw [← List.length_append]
        exact (h.slid i).order.length_le
    rw [List.length_nil] at hfed htaken hqueued
    omega
  · rw [h.unused q (Nat.not_lt.mp hq)]
    exact Nat.zero_le _

theorem complete (h : Fanout capacity n fed taken queued 0) (q : Nat) :
    taken q ++ queued q = fed q := by
  apply (h.slid q).order.eq_of_length
  by_cases hq : q < n
  · have hcounted := h.counted
    have hsum : totalLength n (fun q => taken q ++ queued q) = totalLength n fed := by
      rw [hcounted, Nat.zero_add]
      unfold totalLength
      rw [← Finset.sum_add_distrib]
      exact Finset.sum_congr rfl fun q _ => List.length_append
    exact (Finset.sum_eq_sum_iff_of_le fun q _ => (h.slid q).order.length_le).mp hsum q
      (Finset.mem_range.mpr hq)
  · obtain ⟨htaken, hqueued⟩ := h.nil_of_unused (Nat.not_lt.mp hq)
    rw [htaken, hqueued, h.unused q (Nat.not_lt.mp hq)]
    rfl

end Fanout

end FeedHandler.Lib
