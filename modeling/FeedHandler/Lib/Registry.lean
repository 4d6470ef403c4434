import Mathlib.Logic.Function.Basic
import Mathlib.Tactic.SplitIfs
/-!
# Registries of tasks

A table of tasks by id, and a registry that lists some of the ids under keys.
`Covered` says that every task still alive is listed, which is what lets its owner
end all of them. It survives the replacement of the task of a key when the old one
is ended first, and a registry whose tasks have all been ended may be emptied.
-/

namespace FeedHandler.Lib

variable {κ τ : Type}

/-- The table has a task with this id, and it satisfies `p`. -/
def Holds (p : τ → Prop) (tasks : Nat → Option τ) (t : Nat) : Prop :=
  ∃ k, tasks t = some k ∧ p k

section Holds

variable {p : τ → Prop} {tasks : Nat → Option τ} {t t' : Nat} {k : τ}

theorem Holds.of_update (h : Holds p (Function.update tasks t' (some k)) t) :
    t = t' ∧ p k ∨ Holds p tasks t := by
  obtain ⟨k', hk', hp⟩ := h
  rw [Function.update_apply] at hk'
  split_ifs at hk' with heq
  · obtain rfl := Option.some.inj hk'
    exact Or.inl ⟨heq, hp⟩
  · exact Or.inr ⟨k', hk', hp⟩

theorem Holds.of_rewrite (h : Holds p (Function.update tasks t' (some k)) t)
    (hbefore : Holds p tasks t' ∨ ¬ p k) : Holds p tasks t := by
  rcases h.of_update with ⟨rfl, hp⟩ | h
  · exact hbefore.resolve_right (not_not_intro hp)
  · exact h

theorem Holds.of_map {f : τ → τ} {ids : List Nat} (hended : ∀ k, ¬ p (f k))
    (h : Holds p (fun t => if t ∈ ids then (tasks t).map f else tasks t) t) :
    Holds p tasks t ∧ t ∉ ids := by
  obtain ⟨k, hk, hp⟩ := h
  simp only at hk
  split_ifs at hk with hmem
  · obtain ⟨k', -, rfl⟩ := Option.map_eq_some_iff.mp hk
    exact absurd hp (hended k')
  · exact ⟨⟨k, hk, hp⟩, hmem⟩

end Holds

/-- Every task that is alive is registered, under some key. -/
def Covered (alive : Nat → Prop) (handles : List (κ × Nat)) : Prop :=
  ∀ t, alive t → ∃ e ∈ handles, e.2 = t

section Covered

variable {alive alive' : Nat → Prop} {handles : List (κ × Nat)}

theorem Covered.mono (h : Covered alive handles) (hsub : ∀ t, alive' t → alive t) :
    Covered alive' handles := fun t ht => h t (hsub t ht)

theorem Covered.replace [DecidableEq κ] (h : Covered alive handles) (key : κ) (new : Nat)
    (hended : ∀ t, alive' t → t = new ∨ alive t ∧
      t ∉ (handles.filter fun e => decide (e.1 = key)).map Prod.snd) :
    Covered alive' ((key, new) :: handles.filter fun e => decide (e.1 ≠ key)) := by
  intro t ht
  rcases hended t ht with rfl | ⟨halive, hkept⟩
  · exact ⟨(key, t), List.mem_cons_self, rfl⟩
  · obtain ⟨e, he, rfl⟩ := h t halive
    have hne : e.1 ≠ key := fun heq =>
      hkept (List.mem_map_of_mem (List.mem_filter.mpr ⟨he, decide_eq_true heq⟩))
    exact ⟨e, List.mem_cons_of_mem _ (List.mem_filter.mpr ⟨he, decide_eq_true hne⟩), rfl⟩

theorem Covered.clear (h : Covered alive handles)
    (hended : ∀ t, alive' t → alive t ∧ t ∉ handles.map Prod.snd) (t : Nat) : ¬ alive' t := by
  intro ht
  obtain ⟨halive, hkept⟩ := hended t ht
  obtain ⟨e, he, rfl⟩ := h t halive
  exact hkept (List.mem_map_of_mem he)

end Covered

end FeedHandler.Lib
