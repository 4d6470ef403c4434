import FeedHandler.Book.WellFormed
import FeedHandler.Lib.TiledLog
import Mathlib.Logic.Function.Basic
/-!
# The venue's history of one symbol

What a book is for: to hold the venue's own book. Here the venue's book is a
pair of functions from price value to quantity value, its history a log of depth
events whose ids tile, and a genuine snapshot a checkpoint of that log. `Book.view`
reads a book of the code as such a pair.
-/

namespace FeedHandler

open Lib

/-- A book as the venue means it: price to quantity, both in units. -/
@[ext] structure BookView where
  bids : Int → Option Int
  asks : Int → Option Int

namespace BookView

/-- An absolute assignment: quantity zero deletes the price. -/
def assign (side : Int → Option Int) (level : Decimal × Decimal) : Int → Option Int :=
  Function.update side level.1.units (if level.2.units = 0 then none else some level.2.units)

def apply (v : BookView) (e : DepthEvent) : BookView :=
  ⟨e.bids.foldl assign v.bids, e.asks.foldl assign v.asks⟩

def ofLevels (bids asks : Levels) : BookView :=
  ⟨bids.foldl assign fun _ => none, asks.foldl assign fun _ => none⟩

def Crossed (v : BookView) : Prop :=
  ∃ bid ask, (v.bids bid).isSome ∧ (v.asks ask).isSome ∧ ask ≤ bid

theorem foldl_assign_congr {side side' : Int → Option Int} {levels : Levels}
    (h : ∀ p, side p = side' p ∨ ∃ level ∈ levels, level.1.units = p) :
    levels.foldl assign side = levels.foldl assign side' := by
  induction levels generalizing side side' with
  | nil =>
      funext p
      simpa using h p
  | cons level levels ih =>
      refine ih fun p => ?_
      simp only [assign, Function.update_apply]
      rcases h p with heq | ⟨d, hd, hp⟩
      · rw [heq]
        exact Or.inl rfl
      · rcases List.mem_cons.mp hd with rfl | hd
        · rw [if_pos hp.symm, if_pos hp.symm]
          exact Or.inl rfl
        · exact Or.inr ⟨d, hd, hp⟩

theorem foldl_assign_of_not_mem {side : Int → Option Int} {levels : Levels} {p : Int}
    (h : ∀ level ∈ levels, level.1.units ≠ p) : levels.foldl assign side p = side p := by
  induction levels generalizing side with
  | nil => rfl
  | cons level levels ih =>
      rw [List.foldl_cons, ih fun d hd => h d (List.mem_cons_of_mem level hd), assign,
        Function.update_of_ne (h level List.mem_cons_self).symm]

theorem foldl_assign_idem (side : Int → Option Int) (levels : Levels) :
    levels.foldl assign (levels.foldl assign side) = levels.foldl assign side := by
  refine foldl_assign_congr fun p => ?_
  by_cases hp : ∃ level ∈ levels, level.1.units = p
  · exact Or.inr hp
  · refine Or.inl (foldl_assign_of_not_mem fun level hl heq => hp ⟨level, hl, heq⟩)

theorem apply_idem (v : BookView) (e : DepthEvent) : (v.apply e).apply e = v.apply e := by
  simp only [apply, foldl_assign_idem]

end BookView

/-- The depth events of one symbol, with the true books between them. -/
structure VenueHistory extends TiledLog BookView.apply where
  U_eq : ∀ i, (event (i + 1)).U = last i + 1
  u_eq : ∀ i, (event (i + 1)).u = last (i + 1)
  pu_eq : ∀ i, (event (i + 1)).pu = last i
  nonneg : ∀ i, ∀ level ∈ (event (i + 1)).bids ++ (event (i + 1)).asks, 0 ≤ level.2.units

namespace VenueHistory

/-- A snapshot at `lastUpdateId` that the venue could have served. -/
def Genuine (h : VenueHistory) (lastUpdateId : Nat) (bids asks : Levels) : Prop :=
  (∀ level ∈ bids ++ asks, Decimal.zero < level.2) ∧
    h.Checkpoint lastUpdateId (BookView.ofLevels bids asks)

def Event (h : VenueHistory) (e : DepthEvent) : Prop := ∃ i, e = h.event (i + 1)

theorem genuine_of_version (h : VenueHistory) {k : Nat} {bids asks : Levels}
    (hpos : ∀ level ∈ bids ++ asks, Decimal.zero < level.2)
    (hbook : BookView.ofLevels bids asks = h.version (k + 1)) :
    h.Genuine (h.last (k + 1)) bids asks := by
  refine ⟨hpos, k, h.last_lt k, le_rfl, ?_, fun _ => hbook⟩
  rw [hbook, h.version_succ, BookView.apply_idem]

theorem event_of_mem_segment (h : VenueHistory) {first upto : Nat} {e : DepthEvent}
    (he : e ∈ h.segment first upto) : h.Event e := by
  obtain ⟨i, -, -, heq⟩ := h.mem_segment.mp he
  exact ⟨i, heq⟩

end VenueHistory

theorem mod_lt_coefficient (i : Nat) : i % 1000 < 2 ^ 96 := by omega

/-- Ten ids wide, and adds the bid at price `i` (modulo a thousand). -/
def stepEvent (i : Nat) : DepthEvent where
  U := 10 * i - 9
  u := 10 * i
  pu := 10 * i - 10
  bids := [(.whole (i % 1000) (mod_lt_coefficient i), .whole 1 Decimal.one_lt_coefficient)]
  asks := []

def steps : VenueHistory where
  last i := 10 * i
  event := stepEvent
  version i := (List.range i).foldl (fun v j => v.apply (stepEvent (j + 1)))
    ⟨fun _ => none, fun _ => none⟩
  last_lt i := by omega
  version_succ i := by simp [List.range_succ]
  U_eq i := by simp only [stepEvent]; omega
  u_eq i := rfl
  pu_eq i := by simp only [stepEvent]; omega
  nonneg i := by simp [stepEvent, Decimal.whole, Decimal.units]

def stepBids (n : Nat) : Levels :=
  (List.range' 1 n).map fun i =>
    (.whole (i % 1000) (mod_lt_coefficient i), .whole 1 Decimal.one_lt_coefficient)

theorem ofLevels_stepBids (n : Nat) : BookView.ofLevels (stepBids n) [] = steps.version n := by
  induction n with
  | zero => rfl
  | succ n ih =>
      rw [steps.version_succ, ← ih]
      simp only [stepBids, List.range'_1_concat, Nat.add_comm 1 n, List.map_append, List.map_cons,
        List.map_nil, BookView.ofLevels, List.foldl_append]
      rfl

theorem genuine_stepBids (n : Nat) : steps.Genuine (10 * (n + 1)) (stepBids (n + 1)) [] := by
  refine steps.genuine_of_version (k := n) (fun level hlevel => ?_) (ofLevels_stepBids (n + 1))
  rw [List.append_nil] at hlevel
  obtain ⟨i, -, rfl⟩ := List.mem_map.mp hlevel
  exact (by decide : Decimal.zero < .whole 1)

theorem steps_uncrossed (i : Nat) : ¬ (steps.version i).Crossed := by
  have hasks : (steps.version i).asks = fun _ => none := by
    induction i with
    | zero => rfl
    | succ i ih =>
        rw [steps.version_succ]
        exact ih
  rintro ⟨bid, ask, -, hask, -⟩
  simp [hasks] at hask

/-! ## The view of a book -/

namespace Side

def view (side : Side) : Int → Option Int := fun p => (side.at? p).map fun e => e.2.units

theorem view_insert (side : Side) (price qty : Decimal) :
    view (side.insert price qty) = Function.update side.view price.units (some qty.units) := by
  funext p
  simp only [view, OrderedMap.at?_insert, Function.update_apply]
  split_ifs <;> rfl

theorem view_erase (side : Side) (price : Decimal) :
    view (side.erase price) = Function.update side.view price.units none := by
  funext p
  simp only [view, OrderedMap.at?_erase, Function.update_apply]
  split_ifs <;> rfl

theorem view_applyLevel (side : Side) (level : Decimal × Decimal) :
    (side.applyLevel level).view = BookView.assign side.view level := by
  unfold applyLevel BookView.assign
  by_cases hzero : level.2.units = 0
  · rw [if_pos ((Decimal.isZero_iff _).mpr hzero), if_pos hzero, view_erase]
  · rw [if_neg (mt (Decimal.isZero_iff _).mp hzero), if_neg hzero, view_insert]

theorem view_applyLevels (side : Side) (levels : Levels) :
    (side.applyLevels levels).view = levels.foldl BookView.assign side.view := by
  induction levels generalizing side with
  | nil => rfl
  | cons level levels ih =>
      rw [List.foldl_cons, ← view_applyLevel]
      exact ih (side.applyLevel level)

theorem loadLevel_eq_applyLevel (side : Side) {level : Decimal × Decimal}
    (h : Decimal.zero < level.2) : side.loadLevel level = side.applyLevel level := by
  have hpos : 0 < level.2.units := by simpa [Decimal.lt_iff_units] using h
  have hzero : ¬ level.2.isZero = true := mt (Decimal.isZero_iff _).mp hpos.ne'
  rw [loadLevel, applyLevel, if_pos h, if_neg hzero]

theorem load_eq_applyLevels {levels : Levels} (h : ∀ level ∈ levels, Decimal.zero < level.2) :
    load levels = applyLevels OrderedMap.empty levels :=
  List.foldl_ext _ _ _ fun side _ hlevel => loadLevel_eq_applyLevel side (h _ hlevel)

theorem view_load {levels : Levels} (h : ∀ level ∈ levels, Decimal.zero < level.2) :
    (load levels).view = levels.foldl BookView.assign fun _ => none := by
  rw [load_eq_applyLevels h, view_applyLevels]
  rfl

theorem isSome_view_of_mem {side : Side} {level : Decimal × Decimal}
    (h : level ∈ side.entries) : (side.view level.1.units).isSome := by
  rw [OrderedMap.mem_entries_iff] at h
  simp [view, h]

theorem exists_of_isSome_view {side : Side} {p : Int} (h : (side.view p).isSome) :
    ∃ level ∈ side.entries, level.1.units = p := by
  obtain ⟨level, hlevel⟩ := Option.isSome_iff_exists.mp (by simpa [view] using h)
  exact ⟨level, mem_of_entryAt hlevel, rank_of_entryAt hlevel⟩

end Side

namespace Book

def view (b : Book) : BookView := ⟨b.bids.view, b.asks.view⟩

theorem view_applyEvent (b : Book) (e : DepthEvent) :
    (b.applyEvent e).view = b.view.apply e := by
  simp only [view, applyEvent_eq, BookView.apply, Side.view_applyLevels]

theorem view_loadSnapshot (b : Book) (lastUpdateId : Nat) {bids asks : Levels}
    (h : ∀ level ∈ bids ++ asks, Decimal.zero < level.2) :
    (b.loadSnapshot lastUpdateId bids asks).view = BookView.ofLevels bids asks := by
  have hbids := Side.view_load fun level hl => h level (List.mem_append_left asks hl)
  have hasks := Side.view_load fun level hl => h level (List.mem_append_right bids hl)
  simp only [view, loadSnapshot, BookView.ofLevels, hbids, hasks]

theorem crossed_iff_view (b : Book) : b.Crossed ↔ b.view.Crossed := by
  constructor
  · rintro ⟨bid, ask, hbid, hask, hle⟩
    obtain ⟨bidLevel, hbidMem, rfl⟩ := OrderedMap.maxKey?_mem hbid
    obtain ⟨askLevel, haskMem, rfl⟩ := OrderedMap.minKey?_mem hask
    exact ⟨_, _, Side.isSome_view_of_mem hbidMem, Side.isSome_view_of_mem haskMem, hle⟩
  · rintro ⟨p, q, hp, hq, hle⟩
    obtain ⟨bidLevel, hbidMem, rfl⟩ := Side.exists_of_isSome_view hp
    obtain ⟨askLevel, haskMem, rfl⟩ := Side.exists_of_isSome_view hq
    obtain ⟨bid, hbid⟩ := Option.ne_none_iff_exists'.mp
      (mt OrderedMap.maxKey?_eq_none.mp (List.ne_nil_of_mem hbidMem))
    obtain ⟨ask, hask⟩ := Option.ne_none_iff_exists'.mp
      (mt OrderedMap.minKey?_eq_none.mp (List.ne_nil_of_mem haskMem))
    refine ⟨bid, ask, hbid, hask, ?_⟩
    have hbest := OrderedMap.le_maxKey? hbid hbidMem
    have hworst := OrderedMap.minKey?_le hask haskMem
    rw [Decimal.le_iff_units]
    omega

end Book

end FeedHandler
