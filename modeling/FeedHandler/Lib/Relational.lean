import Mathlib.Logic.Basic
import Mathlib.Data.List.Basic
/-!
# Two stateful programs side by side

`Agree S x y T` runs two state-passing programs from states related by `S` and relates
what they return and the states they end in by `T`. The rules follow the programs: one
for each way of putting a program together.
-/

namespace FeedHandler.Lib

variable {σ τ α β γ δ : Type}

def Agree (S : σ → τ → Prop) (x : StateM σ α) (y : StateM τ β)
    (T : α → β → σ → τ → Prop) : Prop :=
  ∀ s t, S s t → T (x.run s).1 (y.run t).1 (x.run s).2 (y.run t).2

namespace Agree

variable {S : σ → τ → Prop} {x : StateM σ α} {y : StateM τ β} {T : α → β → σ → τ → Prop}

theorem pure {a : α} {b : β} (h : ∀ s t, S s t → T a b s t) :
    Agree S (Pure.pure a) (Pure.pure b) T := h

theorem imp {T' : α → β → σ → τ → Prop} (h : Agree S x y T)
    (himp : ∀ a b s t, T a b s t → T' a b s t) : Agree S x y T' :=
  fun s t hst => himp _ _ _ _ (h s t hst)

theorem bind {f : α → StateM σ γ} {g : β → StateM τ δ} {U : γ → δ → σ → τ → Prop}
    (h : Agree S x y T) (hnext : ∀ a b, Agree (T a b) (f a) (g b) U) :
    Agree S (x >>= f) (y >>= g) U :=
  fun s t hst => hnext _ _ _ _ (h s t hst)

theorem of_fact {P : Prop} (h : P → Agree S x y T) : Agree (fun s t => P ∧ S s t) x y T :=
  fun s t hst => h hst.1 s t hst.2

theorem ite {p q : Prop} [Decidable p] [Decidable q] {x' : StateM σ α} {y' : StateM τ β}
    (hpq : p ↔ q) (hthen : p → Agree S x y T) (helse : ¬ p → Agree S x' y' T) :
    Agree S (if p then x else x') (if q then y else y') T := by
  by_cases hp : p
  · rw [if_pos hp, if_pos (hpq.mp hp)]
    exact hthen hp
  · rw [if_neg hp, if_neg fun hq => hp (hpq.mpr hq)]
    exact helse hp

theorem modifies {f : σ → α × σ} {g : τ → β × τ}
    (h : ∀ s t, S s t → T (f s).1 (g t).1 (f s).2 (g t).2) :
    Agree S (modifyGet f : StateM σ α) (modifyGet g : StateM τ β) T := h

/-- A loop over one list. `I n` holds of the two states with `n` passes to go. -/
theorem mapM {I : Nat → σ → τ → Prop} {P : β → Prop} {f : α → StateM σ β}
    {g : α → StateM τ β}
    (h : ∀ n a, Agree (I (n + 1)) (f a) (g a) fun b c s t => (b = c ∧ P b) ∧ I n s t)
    (as : List α) :
    Agree (I as.length) (as.mapM f) (as.mapM g) fun bs cs s t =>
      (bs = cs ∧ ∀ b ∈ bs, P b) ∧ I 0 s t := by
  induction as with
  | nil => exact pure fun s t hst => ⟨⟨rfl, by simp⟩, hst⟩
  | cons a as ih =>
      rw [List.mapM_cons, List.mapM_cons]
      refine bind (h as.length a) fun b c => of_fact fun hbc => ?_
      refine bind ih fun bs cs => of_fact fun hrest => ?_
      apply pure
      intro s t hst
      refine ⟨⟨by rw [hbc.1, hrest.1], ?_⟩, hst⟩
      exact List.forall_mem_cons.mpr ⟨hbc.2, hrest.2⟩

end Agree

end FeedHandler.Lib
