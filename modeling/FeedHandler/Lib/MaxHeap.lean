import Mathlib.Data.List.MinMax
import Mathlib.Data.List.Perm.Basic
/-!
# Heaps

A heap seen through what it answers: its contents, in no particular order, and a
`pop` that takes out a greatest element. How the elements are arranged inside does
not show in either.
-/

namespace FeedHandler.Lib

variable {α : Type} [LinearOrder α]

/-- A greatest element and the rest, or `none` on the empty heap. -/
def popMax? (heap : List α) : Option (α × List α) :=
  (heap.argmax id).map fun top => (top, heap.erase top)

theorem popMax?_eq_none {heap : List α} : popMax? heap = none ↔ heap = [] := by
  simp [popMax?, List.argmax_eq_none]

variable {heap rest : List α} {top : α}

theorem perm_of_popMax? (h : popMax? heap = some (top, rest)) : heap.Perm (top :: rest) := by
  obtain ⟨max, hmax, heq⟩ := Option.map_eq_some_iff.mp h
  obtain ⟨rfl, rfl⟩ := Prod.mk.inj heq
  exact List.perm_cons_erase (List.argmax_mem hmax)

theorem le_of_popMax? (h : popMax? heap = some (top, rest)) {x : α} (hx : x ∈ heap) :
    x ≤ top := by
  obtain ⟨max, hmax, heq⟩ := Option.map_eq_some_iff.mp h
  obtain ⟨rfl, rfl⟩ := Prod.mk.inj heq
  exact List.le_of_mem_argmax hx hmax

/-! ## Taking out the least -/

/-- A least element and the rest, or `none` on the empty heap. -/
def popMin? (heap : List α) : Option (α × List α) :=
  (heap.argmin id).map fun least => (least, heap.erase least)

theorem popMin?_eq_none : popMin? heap = none ↔ heap = [] := by
  simp [popMin?, List.argmin_eq_none]

theorem perm_of_popMin? (h : popMin? heap = some (top, rest)) : heap.Perm (top :: rest) := by
  obtain ⟨least, hleast, heq⟩ := Option.map_eq_some_iff.mp h
  obtain ⟨rfl, rfl⟩ := Prod.mk.inj heq
  exact List.perm_cons_erase (List.argmin_mem hleast)

theorem popMin?_le (h : popMin? heap = some (top, rest)) {x : α} (hx : x ∈ heap) : top ≤ x := by
  obtain ⟨least, hleast, heq⟩ := Option.map_eq_some_iff.mp h
  obtain ⟨rfl, rfl⟩ := Prod.mk.inj heq
  exact List.le_of_mem_argmin hx hleast

end FeedHandler.Lib
