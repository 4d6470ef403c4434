import FeedHandler.Universe.Selection
import Mathlib.Data.Prod.Lex
/-!
# The symbols to track, in both ports

The selection of `python/feed_handler.py` next to the one of the Rust port. Python sorts
by a tuple instead of a comparator, takes a set where Rust sorts and drops repetitions,
and asks whether its options are truthy instead of whether they are there. The last is
the only one that can be told from outside.
-/

namespace FeedHandler.Selection

open Lib

namespace Python

/-- The sort key `(-volume, name)`. -/
def key (volumes : Volumes) (s : String) : Rat ×ₗ String := toLex (-volume volumes s, s)

def rankByVolume (symbols : List String) (volumes : Volumes) : String → Option Nat :=
  positions (symbols.insertionSort fun a b => key volumes a ≤ key volumes b)

def pickTopByVolume (symbols : List String) (volumes : Volumes) (n : Nat) : List String :=
  (symbols.filter fun s => (rankByVolume symbols volumes s).any fun rank => decide (rank < n)
    ).insertionSort (· ≤ ·)

/-- `None` and the empty list are both false, and so are `None` and zero. -/
def resolveUniverse (rows : List SymbolInfo) (volumes : Volumes) (maxSymbols : Option Nat)
    (explicit : Option (List String)) : Except String Universe :=
  let symbols := tracked rows
  if explicit.getD [] ≠ [] then
    if unknown symbols (explicit.getD []) ≠ [] then
      .error (unknownMessage (unknown symbols (explicit.getD [])))
    else
      let symbols := (explicit.getD []).dedup.insertionSort (· ≤ ·)
      .ok ⟨symbols, rankByVolume symbols volumes⟩
  else
    let symbols :=
      if maxSymbols.getD 0 ≠ 0 ∧ maxSymbols.getD 0 < symbols.length then
        pickTopByVolume symbols volumes (maxSymbols.getD 0)
      else symbols
    .ok ⟨symbols, rankByVolume symbols volumes⟩

end Python

/-! ## Where the ports agree -/

theorem key_le_iff (volumes : Volumes) (a b : String) :
    Python.key volumes a ≤ Python.key volumes b ↔ (byVolume volumes a b).isLE = true := by
  rw [byVolume_isLE_iff, Python.key, Python.key, Prod.Lex.toLex_le_toLex, neg_lt_neg_iff, neg_inj]

theorem rankByVolume_port (symbols : List String) (volumes : Volumes) :
    Python.rankByVolume symbols volumes = rankByVolume symbols volumes := by
  unfold Python.rankByVolume rankByVolume
  simp only [key_le_iff]

theorem pickTopByVolume_port (symbols : List String) (volumes : Volumes) (n : Nat) :
    Python.pickTopByVolume symbols volumes n = pickTopByVolume symbols volumes n := by
  unfold Python.pickTopByVolume pickTopByVolume
  rw [rankByVolume_port]

theorem destutter_insertionSort (xs : List String) :
    (xs.insertionSort (· ≤ ·)).destutter (· ≠ ·) = xs.dedup.insertionSort (· ≤ ·) := by
  have hsorted := List.pairwise_insertionSort (· ≤ ·) xs
  rw [hsorted.destutter_eq_dedup]
  refine List.Perm.eq_of_pairwise' (hsorted.sublist (List.dedup_sublist _))
    (List.pairwise_insertionSort (· ≤ ·) xs.dedup) ?_
  exact (List.perm_insertionSort (· ≤ ·) xs).dedup.trans
    (List.perm_insertionSort (· ≤ ·) xs.dedup).symm

theorem resolveUniverse_of_explicit (rows : List SymbolInfo) (volumes : Volumes)
    (maxSymbols : Option Nat) {explicit : Option (List String)} (h : explicit.getD [] ≠ []) :
    resolveUniverse rows volumes maxSymbols (explicit.getD []) =
      Python.resolveUniverse rows volumes maxSymbols explicit := by
  unfold resolveUniverse Python.resolveUniverse
  dsimp only
  rw [if_pos h, if_pos h]
  split_ifs with hunknown
  · rfl
  · rw [destutter_insertionSort, rankByVolume_port]

theorem resolveUniverse_of_cap (rows : List SymbolInfo) (volumes : Volumes)
    {maxSymbols : Option Nat} {explicit : Option (List String)} (h : explicit.getD [] = [])
    (hcap : maxSymbols ≠ some 0) :
    resolveUniverse rows volumes maxSymbols (explicit.getD []) =
      Python.resolveUniverse rows volumes maxSymbols explicit := by
  have hnot : ¬ explicit.getD [] ≠ [] := not_not_intro h
  unfold resolveUniverse Python.resolveUniverse
  dsimp only
  rw [if_neg hnot, if_neg hnot, rankByVolume_port]
  rcases maxSymbols with _ | _ | max
  · simp
  · exact absurd rfl hcap
  · simp [pickTopByVolume_port]

theorem resolveUniverse_of_zero (rows : List SymbolInfo) (volumes : Volumes)
    {explicit : Option (List String)} (h : explicit.getD [] = []) :
    resolveUniverse rows volumes (some 0) (explicit.getD []) =
        .ok ⟨[], rankByVolume [] volumes⟩ ∧
      Python.resolveUniverse rows volumes (some 0) explicit =
        .ok ⟨tracked rows, rankByVolume (tracked rows) volumes⟩ := by
  have hnot : ¬ explicit.getD [] ≠ [] := not_not_intro h
  have hnone : pickTopByVolume (tracked rows) volumes 0 = [] := by simp [pickTopByVolume]
  constructor
  · unfold resolveUniverse
    dsimp only
    rw [if_neg hnot, hnone]
    split_ifs with hlength
    · rfl
    · rw [List.eq_nil_of_length_eq_zero (Nat.eq_zero_of_not_pos hlength)]
  · unfold Python.resolveUniverse
    dsimp only
    rw [if_neg hnot, if_neg (by simp), rankByVolume_port]

/-- The ports select the same symbols with the same ranks, or reject the explicit list with
the same words, unless a cap of zero is all that is asked for and there are symbols. -/
theorem universes_agree_iff (rows : List SymbolInfo) (volumes : Volumes)
    (maxSymbols : Option Nat) (explicit : Option (List String)) :
    resolveUniverse rows volumes maxSymbols (explicit.getD []) =
        Python.resolveUniverse rows volumes maxSymbols explicit ↔
      explicit.getD [] ≠ [] ∨ maxSymbols ≠ some 0 ∨ tracked rows = [] := by
  by_cases hexplicit : explicit.getD [] = []
  · by_cases hcap : maxSymbols = some 0
    · subst hcap
      obtain ⟨hrust, hpython⟩ := resolveUniverse_of_zero rows volumes hexplicit
      rw [hrust, hpython]
      constructor
      · intro heq
        have hsymbols := congrArg (Except.map Universe.symbols) heq
        exact Or.inr (Or.inr (Except.ok.inj hsymbols).symm)
      · rintro (hne | hne | hnone)
        · exact absurd hexplicit hne
        · exact absurd rfl hne
        · rw [hnone]
    · exact iff_of_true (resolveUniverse_of_cap rows volumes hexplicit hcap)
        (Or.inr (Or.inl hcap))
  · exact iff_of_true (resolveUniverse_of_explicit rows volumes maxSymbols hexplicit)
      (Or.inl hexplicit)

/-- `--max-symbols 0` on a venue with one perpetual. -/
theorem zero_cap_differs :
    (resolveUniverse [⟨"BTCUSDT", "PERPETUAL", "TRADING"⟩] (fun _ => none) (some 0) []).map
        Universe.symbols = .ok [] ∧
      (Python.resolveUniverse [⟨"BTCUSDT", "PERPETUAL", "TRADING"⟩] (fun _ => none) (some 0)
        none).map Universe.symbols = .ok ["BTCUSDT"] := by
  exact ⟨by rfl, by rfl⟩

end FeedHandler.Selection
