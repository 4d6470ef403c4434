import Mathlib.Data.List.Induction
import Mathlib.Data.List.Sort
import Mathlib.Data.List.Nodup
import Mathlib.Logic.Function.Basic
/-!
# Ranks in a total order

The rank of an entry of a list is the number of entries before it in a total order; it
is the position the entry has when the list is sorted. Ranks do not depend on how the
list is ordered, and the entries below a rank keep theirs when the others are left out.
-/

namespace FeedHandler.Lib

variable {α : Type} [DecidableEq α]

/-! ## Positions -/

/-- A map from the entries of a list to their positions, built entry by entry; of several
positions of one entry the last one stands. -/
def positions (xs : List α) : α → Option Nat :=
  xs.zipIdx.foldl (fun m e => Function.update m e.1 (some e.2)) fun _ => none

theorem positions_concat (xs : List α) (x : α) :
    positions (xs ++ [x]) = Function.update (positions xs) x (some xs.length) := by
  simp [positions, List.zipIdx_append]

theorem positions_of_not_mem {xs : List α} {x : α} (h : x ∉ xs) : positions xs x = none := by
  induction xs using List.reverseRecOn with
  | nil => rfl
  | append_singleton xs y ih =>
      rw [List.mem_append, List.mem_singleton, not_or] at h
      rw [positions_concat, Function.update_of_ne h.2]
      exact ih h.1

theorem positions_getElem {xs : List α} (hnodup : xs.Nodup) {i : Nat} (hi : i < xs.length) :
    positions xs xs[i] = some i := by
  induction xs using List.reverseRecOn with
  | nil => simp at hi
  | append_singleton xs y ih =>
      obtain ⟨hxs, -, hdisjoint⟩ := List.nodup_append.mp hnodup
      rw [positions_concat]
      rw [List.length_append, List.length_singleton] at hi
      by_cases hlast : i = xs.length
      · subst hlast
        simp
      · have hlt : i < xs.length := by omega
        rw [List.getElem_append_left hlt]
        have hne : xs[i] ≠ y := hdisjoint _ (List.getElem_mem hlt) y (by simp)
        rw [Function.update_of_ne hne]
        exact ih hxs hlt

/-! ## Ranks -/

section

variable (r : α → α → Prop) [DecidableRel r]

def rank (xs : List α) (x : α) : Nat := xs.countP fun y => decide (r y x ∧ y ≠ x)

variable {r}

theorem rank_perm {xs ys : List α} (h : xs.Perm ys) (x : α) : rank r xs x = rank r ys x :=
  h.countP_eq _

theorem rank_eq_rank_erase {xs : List α} {x : α} (hx : x ∈ xs) :
    rank r xs x = rank r (xs.erase x) x := by
  rw [rank_perm (List.perm_cons_erase hx)]
  simp [rank]

theorem rank_lt_length {xs : List α} {x : α} (hx : x ∈ xs) : rank r xs x < xs.length := by
  rw [rank_eq_rank_erase hx]
  have hle : rank r (xs.erase x) x ≤ (xs.erase x).length := List.countP_le_length
  have hlength := List.length_erase_of_mem hx
  have hpos := List.length_pos_of_mem hx
  omega

theorem rank_split [Std.Antisymm r] {before after : List α} {x : α}
    (hsorted : (before ++ x :: after).Pairwise r) (hnodup : (before ++ x :: after).Nodup) :
    rank r (before ++ x :: after) x = before.length := by
  obtain ⟨-, hrest, hbefore⟩ := List.pairwise_append.mp hsorted
  obtain ⟨-, hnotin, hne⟩ := List.nodup_append.mp hnodup
  have hfront : before.countP (fun y => decide (r y x ∧ y ≠ x)) = before.length := by
    apply List.countP_eq_length.mpr
    intro y hy
    exact decide_eq_true ⟨hbefore y hy x (by simp), hne y hy x (by simp)⟩
  have hback : after.countP (fun y => decide (r y x ∧ y ≠ x)) = 0 := by
    apply List.countP_eq_zero.mpr
    intro y hy
    rw [decide_eq_true_iff]
    rintro ⟨hyx, hyne⟩
    exact hyne (antisymm hyx ((List.pairwise_cons.mp hrest).1 y hy))
  unfold rank
  rw [List.countP_append, List.countP_cons, hfront, hback]
  simp

theorem rank_getElem [Std.Antisymm r] {xs : List α} (hsorted : xs.Pairwise r)
    (hnodup : xs.Nodup) {i : Nat} (hi : i < xs.length) : rank r xs xs[i] = i := by
  have hsplit : xs.take i ++ xs[i] :: xs.drop (i + 1) = xs := by
    rw [← List.drop_eq_getElem_cons hi, List.take_append_drop]
  have hrank : rank r (xs.take i ++ xs[i] :: xs.drop (i + 1)) xs[i] = (xs.take i).length :=
    rank_split (by rwa [hsplit]) (by rwa [hsplit])
  rw [hsplit, List.length_take, min_eq_left hi.le] at hrank
  exact hrank

theorem filter_rank_lt [Std.Antisymm r] {xs : List α} (hsorted : xs.Pairwise r)
    (hnodup : xs.Nodup) (n : Nat) :
    (xs.filter fun x => decide (rank r xs x < n)) = xs.take n := by
  have hfront : (xs.take n).filter (fun x => decide (rank r xs x < n)) = xs.take n := by
    apply List.filter_eq_self.mpr
    intro x hx
    obtain ⟨i, hi, rfl⟩ := List.getElem_of_mem hx
    rw [List.length_take] at hi
    rw [List.getElem_take, rank_getElem hsorted hnodup]
    exact decide_eq_true (by omega)
  have hback : (xs.drop n).filter (fun x => decide (rank r xs x < n)) = [] := by
    apply List.filter_eq_nil_iff.mpr
    intro x hx
    obtain ⟨i, hi, rfl⟩ := List.getElem_of_mem hx
    rw [List.getElem_drop, rank_getElem hsorted hnodup, decide_eq_true_iff]
    omega
  calc (xs.filter fun x => decide (rank r xs x < n))
      = ((xs.take n ++ xs.drop n).filter fun x => decide (rank r xs x < n)) := by
        rw [List.take_append_drop]
    _ = xs.take n := by rw [List.filter_append, hfront, hback, List.append_nil]

/-! ## Ranks in order -/

section

variable [Std.Antisymm r] [IsTrans α r] {xs : List α}

theorem rank_mono {x y : α} (hxy : r x y) : rank r xs x ≤ rank r xs y := by
  apply List.countP_mono_left
  intro z _ hz
  rw [decide_eq_true_iff] at hz ⊢
  refine ⟨trans_of r hz.1 hxy, fun heq => ?_⟩
  subst heq
  exact hz.2 (antisymm hz.1 hxy)

theorem rank_strictMono {x y : α} (hx : x ∈ xs) (hxy : r x y) (hne : x ≠ y) :
    rank r xs x < rank r xs y := by
  have hsplit : rank r xs y = rank r (xs.erase x) y + 1 := by
    rw [rank_perm (List.perm_cons_erase hx)]
    simp [rank, hxy, hne]
  have hmono : rank r (xs.erase x) x ≤ rank r (xs.erase x) y := rank_mono hxy
  rw [rank_eq_rank_erase hx, hsplit]
  omega

theorem rank_filter_rank_lt {n : Nat} {x : α} (hn : rank r xs x < n) :
    rank r (xs.filter fun y => decide (rank r xs y < n)) x = rank r xs x := by
  unfold rank at hn ⊢
  rw [List.countP_filter]
  apply List.countP_congr
  intro y hy
  rw [Bool.and_eq_true, decide_eq_true_iff, decide_eq_true_iff, and_iff_left_iff_imp]
  rintro ⟨hyx, hne⟩
  exact (rank_strictMono hy hyx hne).trans hn

variable [Std.Total r]

theorem positions_insertionSort (hnodup : xs.Nodup) {x : α} (hx : x ∈ xs) :
    positions (xs.insertionSort r) x = some (rank r xs x) := by
  have hperm := List.perm_insertionSort r xs
  have hsorted := List.pairwise_insertionSort r xs
  have hnodup' : (xs.insertionSort r).Nodup := hperm.nodup_iff.mpr hnodup
  obtain ⟨i, hi, rfl⟩ := List.getElem_of_mem (hperm.mem_iff.mpr hx)
  rw [positions_getElem hnodup' hi, ← rank_perm hperm, rank_getElem hsorted hnodup' hi]

theorem length_filter_rank_lt (hnodup : xs.Nodup) (n : Nat) :
    (xs.filter fun x => decide (rank r xs x < n)).length = min n xs.length := by
  have hperm := List.perm_insertionSort r xs
  have hnodup' : (xs.insertionSort r).Nodup := hperm.nodup_iff.mpr hnodup
  have htake := filter_rank_lt (List.pairwise_insertionSort r xs) hnodup' n
  simp only [rank_perm hperm] at htake
  rw [← (hperm.filter _).length_eq, htake, List.length_take, List.length_insertionSort]

theorem exists_rank_eq (hnodup : xs.Nodup) {i : Nat} (hi : i < xs.length) :
    ∃ x ∈ xs, rank r xs x = i := by
  have hperm := List.perm_insertionSort r xs
  have hi' : i < (xs.insertionSort r).length := by rwa [List.length_insertionSort]
  refine ⟨(xs.insertionSort r)[i], hperm.mem_iff.mp (List.getElem_mem hi'), ?_⟩
  rw [← rank_perm hperm]
  exact rank_getElem (List.pairwise_insertionSort r xs) (hperm.nodup_iff.mpr hnodup) hi'

theorem rank_lt_iff {x y : α} (hx : x ∈ xs) : rank r xs x < rank r xs y ↔ r x y ∧ x ≠ y := by
  constructor
  · intro hlt
    have hnot : ¬ r y x := fun hyx => Nat.not_lt.mpr (rank_mono hyx) hlt
    refine ⟨(total_of r x y).resolve_right hnot, ?_⟩
    rintro rfl
    exact Nat.lt_irrefl _ hlt
  · rintro ⟨hxy, hne⟩
    exact rank_strictMono hx hxy hne

theorem rank_inj {x y : α} (hx : x ∈ xs) (hy : y ∈ xs) (h : rank r xs x = rank r xs y) :
    x = y := by
  by_contra hne
  rcases total_of r x y with hxy | hyx
  · exact (rank_strictMono hx hxy hne).ne h
  · exact (rank_strictMono hy hyx (Ne.symm hne)).ne h.symm

end

end

end FeedHandler.Lib
