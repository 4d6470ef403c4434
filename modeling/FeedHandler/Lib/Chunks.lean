import Mathlib.Data.List.Range
import Mathlib.Tactic.Common
/-!
# Lists in chunks

`chunks n l` cuts a list into consecutive pieces of `n` entries; the last one may be
shorter. Joined they are the list again.
-/

namespace FeedHandler.Lib

variable {α : Type}

/-- Consecutive pieces of `n` entries, the last one of what is left. -/
def chunks (n : Nat) (l : List α) : List (List α) :=
  (List.range ((l.length + n - 1) / n)).map fun i => (l.drop (n * i)).take n

@[simp] theorem length_chunks (n : Nat) (l : List α) :
    (chunks n l).length = (l.length + n - 1) / n := by
  simp [chunks]

theorem mem_chunks {n : Nat} {l chunk : List α} :
    chunk ∈ chunks n l ↔
      ∃ i, i < (l.length + n - 1) / n ∧ chunk = (l.drop (n * i)).take n := by
  simp [chunks, eq_comm]

theorem lt_length_chunks {n : Nat} (hn : 0 < n) (l : List α) {i : Nat} :
    i < (l.length + n - 1) / n ↔ n * i < l.length := by
  rw [Nat.lt_iff_add_one_le, Nat.le_div_iff_mul_le hn, Nat.add_mul, Nat.mul_comm i n]
  omega

theorem length_le_of_mem_chunks {n : Nat} {l chunk : List α} (h : chunk ∈ chunks n l) :
    chunk.length ≤ n := by
  obtain ⟨i, -, rfl⟩ := mem_chunks.mp h
  exact List.length_take_le _ _

theorem ne_nil_of_mem_chunks {n : Nat} (hn : 0 < n) {l chunk : List α}
    (h : chunk ∈ chunks n l) : chunk ≠ [] := by
  obtain ⟨i, hi, rfl⟩ := mem_chunks.mp h
  rw [lt_length_chunks hn] at hi
  apply List.ne_nil_of_length_pos
  rw [List.length_take, List.length_drop]
  omega

theorem flatten_map_take (n : Nat) (l : List α) (k : Nat) :
    ((List.range k).map fun i => (l.drop (n * i)).take n).flatten = l.take (n * k) := by
  induction k with
  | zero => simp
  | succ k ih =>
      rw [List.range_succ, List.map_append, List.flatten_append, ih, Nat.mul_succ, List.take_add]
      simp

theorem flatten_chunks {n : Nat} (hn : 0 < n) (l : List α) : (chunks n l).flatten = l := by
  unfold chunks
  rw [flatten_map_take, List.take_of_length_le]
  by_contra hlt
  have hmore := (lt_length_chunks hn l (i := (l.length + n - 1) / n)).mpr (by omega)
  omega

end FeedHandler.Lib
