import FeedHandler.Lib.Ranking
import Mathlib.Algebra.Order.Field.Rat
import Mathlib.Data.List.Destutter
import Mathlib.Data.String.Basic
/-!
# The symbols to track

`rank_by_volume`, `pick_top_by_volume` and `resolve_universe` of
`rust/src/feed_handler.rs`. The responses of the venue are arguments; a volume is the
exact value of a finite number, so `partial_cmp` always decides. Strings are compared
by code points, which is the order of their bytes. A rank is an index into a list; the
cut to 32 bits is left out, as it changes no rank of up to `2 ^ 32` symbols.
-/

namespace FeedHandler.Selection

open Lib

structure SymbolInfo where
  symbol : String
  contractType : String
  status : String

abbrev Volumes := String → Option Rat

structure Universe where
  symbols : List String
  snapshotRank : String → Option Nat

/-! ## Ranks -/

def volume (volumes : Volumes) (symbol : String) : Rat := (volumes symbol).getD 0

/-- The comparator of the sort: volume descending, then name ascending. -/
def byVolume (volumes : Volumes) (a b : String) : Ordering :=
  (compare (volume volumes b) (volume volumes a)).then (compare a b)

/-- Rank symbols by 24h quote volume, 0 = most liquid. Symbols missing from the ticker
response rank last; ties break on name. -/
def rankByVolume (symbols : List String) (volumes : Volumes) : String → Option Nat :=
  positions (symbols.insertionSort fun a b => (byVolume volumes a b).isLE = true)

/-- Keep the `n` highest-volume symbols, returned alphabetically. -/
def pickTopByVolume (symbols : List String) (volumes : Volumes) (n : Nat) : List String :=
  (symbols.filter fun s => (rankByVolume symbols volumes s).any fun rank => decide (rank < n)
    ).insertionSort (· ≤ ·)

/-! ## The universe -/

def tracked (rows : List SymbolInfo) : List String :=
  ((rows.filter fun row => decide (row.contractType = "PERPETUAL" ∧ row.status = "TRADING")).map
    SymbolInfo.symbol).insertionSort (· ≤ ·)

def unknown (symbols explicit : List String) : List String :=
  explicit.filter fun s => decide (s ∉ symbols)

def unknownMessage (unknown : List String) : String :=
  "--symbols: not a trading USD-M perpetual: " ++ ", ".intercalate unknown

def resolveUniverse (rows : List SymbolInfo) (volumes : Volumes) (maxSymbols : Option Nat)
    (explicit : List String) : Except String Universe :=
  let symbols := tracked rows
  if explicit ≠ [] then
    if unknown symbols explicit ≠ [] then .error (unknownMessage (unknown symbols explicit))
    else
      let picked := (explicit.insertionSort (· ≤ ·)).destutter (· ≠ ·)
      .ok ⟨picked, rankByVolume picked volumes⟩
  else
    let symbols :=
      match maxSymbols with
      | some max =>
          if max < symbols.length then pickTopByVolume symbols volumes max else symbols
      | none => symbols
    .ok ⟨symbols, rankByVolume symbols volumes⟩

/-! ## The order of liquidity -/

/-- One symbol is more liquid than another, or as liquid and first by name. -/
def Precedes (volumes : Volumes) (a b : String) : Prop :=
  volume volumes b < volume volumes a ∨ volume volumes a = volume volumes b ∧ a < b

theorem byVolume_isLE_iff (volumes : Volumes) (a b : String) :
    (byVolume volumes a b).isLE = true ↔
      volume volumes b < volume volumes a ∨ volume volumes a = volume volumes b ∧ a ≤ b := by
  unfold byVolume
  rw [Ordering.isLE_then_iff_or, compare_lt_iff_lt, compare_eq_iff_eq, Ordering.isLE_iff_ne_gt,
    compare_gt_iff_gt, not_lt, eq_comm (a := volume volumes b)]

/-- The order the sort puts the symbols in, as a relation. -/
def NoLater (volumes : Volumes) (a b : String) : Prop := (byVolume volumes a b).isLE = true

instance (volumes : Volumes) : DecidableRel (NoLater volumes) :=
  fun _ _ => inferInstanceAs (Decidable (_ = true))

instance (volumes : Volumes) : Std.Total (NoLater volumes) where
  total a b := by
    unfold NoLater
    rw [byVolume_isLE_iff, byVolume_isLE_iff]
    rcases lt_trichotomy (volume volumes a) (volume volumes b) with hlt | heq | hgt
    · exact Or.inr (Or.inl hlt)
    · exact (le_total a b).imp (fun hab => Or.inr ⟨heq, hab⟩) fun hba => Or.inr ⟨heq.symm, hba⟩
    · exact Or.inl (Or.inl hgt)

instance (volumes : Volumes) : Std.Antisymm (NoLater volumes) where
  antisymm a b hab hba := by
    unfold NoLater at hab hba
    rw [byVolume_isLE_iff] at hab hba
    rcases hab with hlt | ⟨heq, hab⟩ <;> rcases hba with hlt' | ⟨heq', hba⟩
    · exact absurd hlt (lt_asymm hlt')
    · exact absurd heq' hlt.ne
    · exact absurd heq hlt'.ne
    · exact le_antisymm hab hba

instance (volumes : Volumes) : IsTrans String (NoLater volumes) where
  trans a b c hab hbc := by
    unfold NoLater at hab hbc ⊢
    rw [byVolume_isLE_iff] at hab hbc ⊢
    rcases hab with hlt | ⟨heq, hab⟩ <;> rcases hbc with hlt' | ⟨heq', hbc⟩
    · exact Or.inl (hlt'.trans hlt)
    · exact Or.inl (heq' ▸ hlt)
    · exact Or.inl (heq ▸ hlt')
    · exact Or.inr ⟨heq.trans heq', hab.trans hbc⟩

theorem precedes_iff (volumes : Volumes) (a b : String) :
    Precedes volumes a b ↔ NoLater volumes a b ∧ a ≠ b := by
  unfold Precedes NoLater
  rw [byVolume_isLE_iff]
  constructor
  · rintro (hlt | ⟨heq, hab⟩)
    · refine ⟨Or.inl hlt, ?_⟩
      rintro rfl
      exact lt_irrefl _ hlt
    · exact ⟨Or.inr ⟨heq, hab.le⟩, hab.ne⟩
  · rintro ⟨hlt | ⟨heq, hab⟩, hne⟩
    · exact Or.inl hlt
    · exact Or.inr ⟨heq, lt_of_le_of_ne hab hne⟩

/-! ## What the ranks say -/

variable {symbols : List String}

theorem rankByVolume_of_mem (hnodup : symbols.Nodup) (volumes : Volumes) {s : String}
    (hs : s ∈ symbols) :
    rankByVolume symbols volumes s = some (rank (NoLater volumes) symbols s) :=
  positions_insertionSort (r := NoLater volumes) hnodup hs

theorem rankByVolume_of_not_mem (volumes : Volumes) {s : String} (hs : s ∉ symbols) :
    rankByVolume symbols volumes s = none := by
  refine positions_of_not_mem fun hmem => hs ?_
  exact (List.mem_insertionSort _).mp hmem

theorem rankByVolume_perm {symbols' : List String} (hnodup : symbols.Nodup)
    (h : symbols'.Perm symbols) (volumes : Volumes) :
    rankByVolume symbols' volumes = rankByVolume symbols volumes := by
  funext s
  by_cases hs : s ∈ symbols
  · rw [rankByVolume_of_mem (h.nodup_iff.mpr hnodup) volumes (h.mem_iff.mpr hs),
      rankByVolume_of_mem hnodup volumes hs, rank_perm h]
  · rw [rankByVolume_of_not_mem volumes hs, rankByVolume_of_not_mem volumes (mt h.mem_iff.mp hs)]

theorem pickTopByVolume_eq (hnodup : symbols.Nodup) (volumes : Volumes) (n : Nat) :
    pickTopByVolume symbols volumes n =
      (symbols.filter fun s => decide (rank (NoLater volumes) symbols s < n)).insertionSort
        (· ≤ ·) := by
  unfold pickTopByVolume
  congr 1
  apply List.filter_congr
  intro s hs
  rw [rankByVolume_of_mem hnodup volumes hs]
  rfl

theorem mem_pickTopByVolume (hnodup : symbols.Nodup) (volumes : Volumes) {n : Nat} {s : String} :
    s ∈ pickTopByVolume symbols volumes n ↔
      s ∈ symbols ∧ rank (NoLater volumes) symbols s < n := by
  rw [pickTopByVolume_eq hnodup, List.mem_insertionSort, List.mem_filter, decide_eq_true_iff]

theorem perm_pickTopByVolume (hnodup : symbols.Nodup) (volumes : Volumes) (n : Nat) :
    (pickTopByVolume symbols volumes n).Perm
      (symbols.filter fun s => decide (rank (NoLater volumes) symbols s < n)) := by
  rw [pickTopByVolume_eq hnodup]
  exact List.perm_insertionSort _ _

theorem nodup_pickTopByVolume (hnodup : symbols.Nodup) (volumes : Volumes) (n : Nat) :
    (pickTopByVolume symbols volumes n).Nodup :=
  (perm_pickTopByVolume hnodup volumes n).nodup_iff.mpr (hnodup.filter _)

/-! ## The selection as a whole -/

/-- The ranks number the symbols, from the most liquid on. -/
structure Ranks (symbols : List String) (volumes : Volumes) (ranks : String → Option Nat) :
    Prop where
  domain : ∀ s, (ranks s).isSome ↔ s ∈ symbols
  bounded : ∀ s i, ranks s = some i → i < symbols.length
  bijective : ∀ i < symbols.length, ∃! s, ranks s = some i
  ordered : ∀ s t i j, ranks s = some i → ranks t = some j → (i < j ↔ Precedes volumes s t)

/-- The `n` most liquid symbols, in alphabetical order. -/
structure Picks (symbols : List String) (volumes : Volumes) (n : Nat) (picked : List String) :
    Prop where
  size : picked.length = min n symbols.length
  alphabetical : picked.Pairwise (· < ·)
  subset : picked ⊆ symbols
  optimal : ∀ s ∈ picked, ∀ t ∈ symbols, t ∉ picked → Precedes volumes s t

theorem ranks_rankByVolume (hnodup : symbols.Nodup) (volumes : Volumes) :
    Ranks symbols volumes (rankByVolume symbols volumes) := by
  have hdomain : ∀ s, (rankByVolume symbols volumes s).isSome ↔ s ∈ symbols := by
    intro s
    by_cases hs : s ∈ symbols
    · simp [rankByVolume_of_mem hnodup volumes hs, hs]
    · simp [rankByVolume_of_not_mem volumes hs, hs]
  have hrank : ∀ s i, rankByVolume symbols volumes s = some i ↔
      s ∈ symbols ∧ rank (NoLater volumes) symbols s = i := by
    intro s i
    by_cases hs : s ∈ symbols
    · simp [rankByVolume_of_mem hnodup volumes hs, hs]
    · simp [rankByVolume_of_not_mem volumes hs, hs]
  constructor
  · exact hdomain
  · intro s i hi
    obtain ⟨hs, rfl⟩ := (hrank s i).mp hi
    exact rank_lt_length hs
  · intro i hi
    obtain ⟨s, hs, hi'⟩ := exists_rank_eq (r := NoLater volumes) hnodup hi
    refine ⟨s, (hrank s i).mpr ⟨hs, hi'⟩, fun t ht => ?_⟩
    obtain ⟨htmem, hti⟩ := (hrank t i).mp ht
    exact rank_inj htmem hs (hti.trans hi'.symm)
  · intro s t i j hi hj
    obtain ⟨hs, rfl⟩ := (hrank s i).mp hi
    obtain ⟨ht, rfl⟩ := (hrank t j).mp hj
    rw [rank_lt_iff hs, precedes_iff]

/-- `i as u32` keeps every rank. -/
theorem cut_rankByVolume (hnodup : symbols.Nodup) (hlength : symbols.length ≤ 2 ^ 32)
    (volumes : Volumes) (s : String) :
    (rankByVolume symbols volumes s).map (· % 2 ^ 32) = rankByVolume symbols volumes s := by
  cases hrank : rankByVolume symbols volumes s with
  | none => rfl
  | some i =>
      have hbound := (ranks_rankByVolume hnodup volumes).bounded s i hrank
      rw [Option.map_some, Nat.mod_eq_of_lt (by omega)]

theorem picks_pickTopByVolume (hnodup : symbols.Nodup) (volumes : Volumes) (n : Nat) :
    Picks symbols volumes n (pickTopByVolume symbols volumes n) := by
  constructor
  · rw [(perm_pickTopByVolume hnodup volumes n).length_eq, length_filter_rank_lt hnodup]
  · have hsorted := List.pairwise_insertionSort (· ≤ ·)
      (symbols.filter fun s => decide (rank (NoLater volumes) symbols s < n))
    rw [← pickTopByVolume_eq hnodup] at hsorted
    exact hsorted.imp₂ (fun _ _ hle hne => lt_of_le_of_ne hle hne)
      (nodup_pickTopByVolume hnodup volumes n)
  · intro s hs
    exact ((mem_pickTopByVolume hnodup volumes).mp hs).1
  · intro s hs t ht hnot
    obtain ⟨hs, hbelow⟩ := (mem_pickTopByVolume hnodup volumes).mp hs
    have habove : ¬ rank (NoLater volumes) symbols t < n := fun hlt =>
      hnot ((mem_pickTopByVolume hnodup volumes).mpr ⟨ht, hlt⟩)
    rw [precedes_iff, ← rank_lt_iff hs]
    omega

theorem rankByVolume_picked (hnodup : symbols.Nodup) (volumes : Volumes) {n : Nat} {s : String}
    (hs : s ∈ pickTopByVolume symbols volumes n) :
    rankByVolume (pickTopByVolume symbols volumes n) volumes s =
      rankByVolume symbols volumes s := by
  obtain ⟨hmem, hbelow⟩ := (mem_pickTopByVolume hnodup volumes).mp hs
  rw [rankByVolume_of_mem (nodup_pickTopByVolume hnodup volumes n) volumes hs,
    rankByVolume_of_mem hnodup volumes hmem, rank_perm (perm_pickTopByVolume hnodup volumes n),
    rank_filter_rank_lt hbelow]

/-- The ranks are a numbering by liquidity that does not depend on the order of the list;
the pick is the top of it, grows with `n`, and keeps its ranks. -/
theorem liquidity_selection (hnodup : symbols.Nodup) (volumes : Volumes) :
    Ranks symbols volumes (rankByVolume symbols volumes) ∧
    (∀ symbols' : List String, symbols'.Perm symbols →
      rankByVolume symbols' volumes = rankByVolume symbols volumes) ∧
    ∀ n, Picks symbols volumes n (pickTopByVolume symbols volumes n) ∧
      pickTopByVolume symbols volumes n ⊆ pickTopByVolume symbols volumes (n + 1) ∧
      ∀ s ∈ pickTopByVolume symbols volumes n,
        rankByVolume (pickTopByVolume symbols volumes n) volumes s =
          rankByVolume symbols volumes s := by
  refine ⟨ranks_rankByVolume hnodup volumes, fun symbols' h => rankByVolume_perm hnodup h volumes,
    fun n => ⟨picks_pickTopByVolume hnodup volumes n, fun s hs => ?_,
      fun s hs => rankByVolume_picked hnodup volumes hs⟩⟩
  obtain ⟨hmem, hbelow⟩ := (mem_pickTopByVolume hnodup volumes).mp hs
  exact (mem_pickTopByVolume hnodup volumes).mpr ⟨hmem, Nat.lt_succ_of_lt hbelow⟩

def tiedVolumes : Volumes := fun s => if s = "ZZZ" then none else some 5

theorem liquidity_selection_tied :
    Picks ["BBB", "ZZZ", "AAA"] tiedVolumes 2
      (pickTopByVolume ["BBB", "ZZZ", "AAA"] tiedVolumes 2) := by
  have hnodup : ["BBB", "ZZZ", "AAA"].Nodup := by decide
  exact ((liquidity_selection hnodup tiedVolumes).2.2 2).1

example : pickTopByVolume ["BBB", "ZZZ", "AAA"] tiedVolumes 2 = ["AAA", "BBB"] := by
  decide +kernel

end FeedHandler.Selection
