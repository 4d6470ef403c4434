import Mathlib.Order.Monotone.Basic
import Mathlib.Data.List.Range
/-!
# Logs that tile their ids

A log of updates whose event `i + 1` covers the ids above `last i` up to and
including `last (i + 1)`, so that the events tile the ids without a hole, and the
versions of the state they produce. A checkpoint at an id inside a tile is a
state that the event of that tile brings to the version after it; it may or may
not hold part of the event already. Whoever has the version at one event, or
such a checkpoint, and applies the following events in order, has every later
version.
-/

namespace FeedHandler.Lib

variable {E V : Type} {apply : V → E → V}

/-- A log of updates under `apply`. Event `0` plays no part. -/
structure TiledLog (apply : V → E → V) where
  last : Nat → Nat
  event : Nat → E
  version : Nat → V
  last_lt : ∀ i, last i < last (i + 1)
  version_succ : ∀ i, version (i + 1) = apply (version i) (event (i + 1))

namespace TiledLog

theorem last_strictMono (g : TiledLog apply) : StrictMono g.last :=
  strictMono_nat_of_lt_succ g.last_lt

theorem last_injective (g : TiledLog apply) : Function.Injective g.last :=
  g.last_strictMono.injective

theorem tile_unique (g : TiledLog apply) {i j n : Nat} (hi : g.last i < n)
    (hi' : n ≤ g.last (i + 1)) (hj : g.last j < n) (hj' : n ≤ g.last (j + 1)) : i = j := by
  have hij : i < j + 1 := g.last_strictMono.lt_iff_lt.mp (hi.trans_le hj')
  have hji : j < i + 1 := g.last_strictMono.lt_iff_lt.mp (hj.trans_le hi')
  omega

/-! ## Segments -/

def segment (g : TiledLog apply) (first upto : Nat) : List E :=
  (List.range' (first + 1) (upto - first)).map g.event

@[simp] theorem segment_self (g : TiledLog apply) (n : Nat) : g.segment n n = [] := by
  simp [segment]

theorem segment_succ (g : TiledLog apply) {first upto : Nat} (h : first ≤ upto) :
    g.segment first (upto + 1) = g.segment first upto ++ [g.event (upto + 1)] := by
  have hlen : upto + 1 - first = upto - first + 1 := by omega
  have hlast : first + 1 + (upto - first) = upto + 1 := by omega
  rw [segment, segment, hlen, List.range'_1_concat, List.map_append, hlast]
  rfl

theorem segment_cons (g : TiledLog apply) {first upto : Nat} (h : first < upto) :
    g.segment first upto = g.event (first + 1) :: g.segment (first + 1) upto := by
  have hlen : upto - first = upto - (first + 1) + 1 := by omega
  rw [segment, segment, hlen, List.range'_succ]
  rfl

theorem length_segment (g : TiledLog apply) (first upto : Nat) :
    (g.segment first upto).length = upto - first := by simp [segment]

theorem mem_segment (g : TiledLog apply) {first upto : Nat} {e : E} :
    e ∈ g.segment first upto ↔ ∃ i, first ≤ i ∧ i < upto ∧ e = g.event (i + 1) := by
  simp only [segment, List.mem_map, List.mem_range'_1]
  constructor
  · rintro ⟨n, hn, rfl⟩
    exact ⟨n - 1, by omega, by omega, by rw [show n - 1 + 1 = n by omega]⟩
  · rintro ⟨i, hfirst, hupto, rfl⟩
    exact ⟨i + 1, by omega, rfl⟩

theorem segment_suffix (g : TiledLog apply) {first second upto : Nat} (h : first ≤ second) :
    g.segment second upto <:+ g.segment first upto := by
  induction second, h using Nat.le_induction with
  | base => exact List.suffix_refl _
  | succ second hle ih =>
      by_cases hlt : second < upto
      · refine List.IsSuffix.trans ?_ ih
        rw [g.segment_cons hlt]
        exact List.suffix_cons _ _
      · have hempty : g.segment (second + 1) upto = [] :=
          List.eq_nil_of_length_eq_zero (by rw [length_segment]; omega)
        rw [hempty]
        exact List.nil_suffix

theorem eq_segment_of_suffix (g : TiledLog apply) {first upto : Nat} (h : first ≤ upto)
    {es : List E} (hes : es <:+ g.segment first upto) :
    ∃ second, first ≤ second ∧ second ≤ upto ∧ es = g.segment second upto := by
  have hlen := hes.length_le
  rw [length_segment] at hlen
  refine ⟨upto - es.length, by omega, by omega, ?_⟩
  have hsuffix : g.segment (upto - es.length) upto <:+ g.segment first upto :=
    g.segment_suffix (by omega)
  refine (List.suffix_of_suffix_length_le hes hsuffix ?_).eq_of_length ?_ <;>
    rw [length_segment] <;> omega

/-! ## Checkpoints -/

/-- A state taken at id `n`, inside the tile of some event. -/
def Checkpoint (g : TiledLog apply) (n : Nat) (v : V) : Prop :=
  ∃ i, g.last i < n ∧ n ≤ g.last (i + 1) ∧ apply v (g.event (i + 1)) = g.version (i + 1) ∧
    (n = g.last (i + 1) → v = g.version (i + 1))

namespace Checkpoint

variable {g : TiledLog apply} {n : Nat} {v : V}

/-- The event whose tile holds the checkpoint completes it. -/
theorem straddled (h : g.Checkpoint n v) {i : Nat} (hlast : g.last i < n)
    (hnext : n ≤ g.last (i + 1)) : apply v (g.event (i + 1)) = g.version (i + 1) := by
  obtain ⟨j, hj, hj', happly, -⟩ := h
  obtain rfl := g.tile_unique hlast hnext hj hj'
  exact happly

theorem at_end (h : g.Checkpoint n v) {i : Nat} (hn : n = g.last i) : v = g.version i := by
  obtain ⟨j, hj, hj', -, hend⟩ := h
  have hji : j < i := g.last_strictMono.lt_iff_lt.mp (hn ▸ hj)
  have hij : i < j + 2 := g.last_strictMono.lt_iff_lt.mp
    ((hn ▸ hj').trans_lt (g.last_lt (j + 1)))
  obtain rfl : i = j + 1 := by omega
  exact hend hn

theorem advanced (h : g.Checkpoint n v) {i : Nat} (hlast : g.last i ≤ n)
    (hnext : n < g.last (i + 1)) : apply v (g.event (i + 1)) = g.version (i + 1) := by
  rcases hlast.eq_or_lt with heq | hlt
  · rw [h.at_end heq.symm, g.version_succ]
  · exact h.straddled hlt hnext.le

end Checkpoint

end TiledLog

end FeedHandler.Lib
