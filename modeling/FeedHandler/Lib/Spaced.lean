import Mathlib.Algebra.Order.Field.Basic
import Mathlib.Tactic.Linarith
import Mathlib.Tactic.Ring
import Mathlib.Tactic.FieldSimp
/-!
# Spaced times

Times that keep a distance `d` from each other. A window of length `w` holds at
most `w / d + 1` of them, wherever it starts and whatever lies before it.
-/

namespace FeedHandler.Lib

variable {K : Type} [Field K] [LinearOrder K] [IsStrictOrderedRing K]

/-- Each time is at least `d` after every earlier one. -/
def Spaced (d : K) (times : List K) : Prop := times.Pairwise fun t t' => t + d ≤ t'

variable {d : K} {times : List K}

omit [IsStrictOrderedRing K] in
theorem Spaced.filter (h : Spaced d times) (p : K → Bool) : Spaced d (times.filter p) :=
  List.Pairwise.filter p h

theorem Spaced.concat (hd : 0 < d) (h : Spaced d times) {t : K}
    (hlast : ∀ t' ∈ times.getLast?, t' + d ≤ t) : Spaced d (times ++ [t]) := by
  have hall : ∀ t' ∈ times, t' + d ≤ t := by
    intro t' ht'
    rcases List.eq_nil_or_concat' times with rfl | ⟨front, last, rfl⟩
    · simp at ht'
    · have hlast' : last + d ≤ t := hlast last (by simp)
      rcases List.mem_append.mp ht' with hfront | heq
      · have hgap : t' + d ≤ last :=
          (List.pairwise_append.mp h).2.2 t' hfront last (by simp)
        linarith
      · rw [List.mem_singleton.mp heq]
        exact hlast'
  apply List.pairwise_append.mpr
  refine ⟨h, List.pairwise_singleton _ _, ?_⟩
  intro t' ht' t'' ht''
  rw [List.mem_singleton.mp ht'']
  exact hall t' ht'

theorem Spaced.strictly_ascending (hd : 0 < d) (h : Spaced d times) :
    times.Pairwise fun t t' => t < t' :=
  List.Pairwise.imp (fun hgap => by linarith) h

theorem Spaced.span {t upper : K} (h : Spaced d (t :: times))
    (hupper : ∀ t' ∈ t :: times, t' ≤ upper) : times.length * d ≤ upper - t := by
  induction times generalizing t with
  | nil =>
      have ht := hupper t (by simp)
      simp only [List.length_nil, Nat.cast_zero, zero_mul]
      linarith
  | cons t' times ih =>
      obtain ⟨hfirst, hrest⟩ := List.pairwise_cons.mp h
      have hgap : t + d ≤ t' := hfirst t' (by simp)
      have hspan := ih hrest fun x hx => hupper x (List.mem_cons_of_mem _ hx)
      calc ((t' :: times).length : K) * d = times.length * d + d := by
            rw [List.length_cons, Nat.cast_add, Nat.cast_one]
            ring
        _ ≤ (upper - t') + d := by linarith
        _ ≤ upper - t := by linarith

theorem Spaced.window (h : Spaced d times) (hd : 0 < d) (lower : K) {w : K} (hw : 0 ≤ w) :
    ((times.filter fun t => decide (lower ≤ t ∧ t ≤ lower + w)).length : K) ≤ w / d + 1 := by
  have hspaced := h.filter fun t => decide (lower ≤ t ∧ t ≤ lower + w)
  have hinside : ∀ t ∈ times.filter fun t => decide (lower ≤ t ∧ t ≤ lower + w),
      lower ≤ t ∧ t ≤ lower + w := by
    intro t ht
    simpa using (List.mem_filter.mp ht).2
  generalize times.filter (fun t => decide (lower ≤ t ∧ t ≤ lower + w)) = inside at *
  cases inside with
  | nil =>
      have hquotient : 0 ≤ w / d := div_nonneg hw hd.le
      simp only [List.length_nil, Nat.cast_zero]
      linarith
  | cons t inside =>
      have hspan := hspaced.span fun x hx => (hinside x hx).2
      have hlower := (hinside t (by simp)).1
      have hcount : (inside.length : K) ≤ w / d := by
        rw [le_div_iff₀ hd]
        linarith
      rw [List.length_cons, Nat.cast_add, Nat.cast_one]
      linarith

end FeedHandler.Lib
