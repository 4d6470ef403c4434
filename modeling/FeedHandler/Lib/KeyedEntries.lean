import Mathlib.Data.List.Sort
import Mathlib.Data.List.MinMax
import Mathlib.Data.List.Nodup
/-!
# Maps keyed up to rank

A key type is often finer than the order it is compared by: `1.0` and `1.00`
are different keys of one rank. Two map representations are developed here,
both comparing keys only through a function `rank` into a linear order and both
keeping the key that is already present when an equal one is written: a list
kept ascending in rank (a search tree read in order) and a list kept in order of
first insertion (a hash table that remembers insertion order). They are compared
through `entryAt`, the entry found under a rank.
-/

namespace FeedHandler.Lib

variable {α β κ : Type} [LinearOrder κ]

def entryAt (rank : α → κ) (r : κ) (l : List (α × β)) : Option (α × β) :=
  l.find? fun e => decide (rank e.1 = r)

/-- No two entries have keys of the same rank. -/
def DistinctRanks (rank : α → κ) (l : List (α × β)) : Prop :=
  l.Pairwise fun a b => rank a.1 ≠ rank b.1

def eraseRank (rank : α → κ) (r : κ) (l : List (α × β)) : List (α × β) :=
  l.filter fun e => decide (rank e.1 ≠ r)

/-- What writing `v` under `k` leaves under the rank of `k`: the key that was
there, or `k` itself when there was none. -/
def rewritten (k : α) (v : β) (old : Option (α × β)) : α × β :=
  ((old.map Prod.fst).getD k, v)

section EntryAt

variable {rank : α → κ}

@[simp] theorem entryAt_nil (r : κ) : entryAt rank r ([] : List (α × β)) = none := rfl

theorem entryAt_cons (r : κ) (e : α × β) (l : List (α × β)) :
    entryAt rank r (e :: l) = if rank e.1 = r then some e else entryAt rank r l := by
  by_cases h : rank e.1 = r <;> simp [entryAt, h]

theorem mem_of_entryAt {r : κ} {l : List (α × β)} {e : α × β}
    (h : entryAt rank r l = some e) : e ∈ l := List.mem_of_find?_eq_some h

theorem rank_of_entryAt {r : κ} {l : List (α × β)} {e : α × β}
    (h : entryAt rank r l = some e) : rank e.1 = r := by
  simpa using List.find?_some h

theorem entryAt_eq_none {r : κ} {l : List (α × β)} :
    entryAt rank r l = none ↔ ∀ e ∈ l, rank e.1 ≠ r := by
  simp [entryAt]

theorem entryAt_of_mem {l : List (α × β)} (hl : DistinctRanks rank l) {e : α × β}
    (he : e ∈ l) : entryAt rank (rank e.1) l = some e := by
  induction l with
  | nil => simp at he
  | cons d l ih =>
      obtain ⟨hd, hl⟩ := List.pairwise_cons.mp hl
      rw [entryAt_cons]
      rcases List.mem_cons.mp he with rfl | he
      · rw [if_pos rfl]
      · rw [if_neg (hd e he), ih hl he]

theorem mem_iff_entryAt {l : List (α × β)} (hl : DistinctRanks rank l) {e : α × β} :
    e ∈ l ↔ entryAt rank (rank e.1) l = some e :=
  ⟨entryAt_of_mem hl, mem_of_entryAt⟩

omit [LinearOrder κ] in
theorem DistinctRanks.nodup {l : List (α × β)} (hl : DistinctRanks rank l) : l.Nodup :=
  List.Pairwise.imp (fun hab heq => hab (by rw [heq])) hl

theorem perm_of_entryAt_eq {l l' : List (α × β)} (hl : DistinctRanks rank l)
    (hl' : DistinctRanks rank l') (h : ∀ r, entryAt rank r l = entryAt rank r l') :
    l.Perm l' := by
  rw [List.perm_ext_iff_of_nodup hl.nodup hl'.nodup]
  intro e
  rw [mem_iff_entryAt hl, mem_iff_entryAt hl', h]

theorem entryAt_eraseRank (r s : κ) (l : List (α × β)) :
    entryAt rank s (eraseRank rank r l) = if s = r then none else entryAt rank s l := by
  induction l with
  | nil => simp [eraseRank]
  | cons e l ih =>
      simp only [eraseRank, List.filter_cons] at ih ⊢
      by_cases her : rank e.1 = r
      · simp only [her, ne_eq, not_true_eq_false, decide_false, Bool.false_eq_true, if_false, ih,
          entryAt_cons]
        by_cases hs : s = r
        · simp [hs]
        · rw [if_neg hs, if_neg hs, if_neg (Ne.symm hs)]
      · simp only [ne_eq, her, not_false_eq_true, decide_true, if_true, entryAt_cons, ih]
        by_cases hs : s = r
        · simp [hs, her]
        · simp [hs]

end EntryAt

/-! ## Entries ascending in rank -/

def insertSorted (rank : α → κ) (k : α) (v : β) : List (α × β) → List (α × β)
  | [] => [(k, v)]
  | e :: l =>
      if rank k < rank e.1 then (k, v) :: e :: l
      else if rank e.1 < rank k then e :: insertSorted rank k v l
      else (e.1, v) :: l

section InsertSorted

variable {rank : α → κ}

theorem rank_mem_insertSorted {k : α} {v : β} {l : List (α × β)} {e : α × β}
    (he : e ∈ insertSorted rank k v l) : rank e.1 = rank k ∨ ∃ d ∈ l, rank d.1 = rank e.1 := by
  induction l with
  | nil => simp_all [insertSorted]
  | cons d l ih =>
      simp only [insertSorted] at he
      split_ifs at he with hlt hgt
      · rcases List.mem_cons.mp he with rfl | he
        · exact Or.inl rfl
        · exact Or.inr ⟨e, he, rfl⟩
      · rcases List.mem_cons.mp he with rfl | he
        · exact Or.inr ⟨e, List.mem_cons_self, rfl⟩
        · rcases ih he with h | ⟨x, hx, hxe⟩
          · exact Or.inl h
          · exact Or.inr ⟨x, List.mem_cons_of_mem _ hx, hxe⟩
      · rcases List.mem_cons.mp he with rfl | he
        · exact Or.inr ⟨d, List.mem_cons_self, rfl⟩
        · exact Or.inr ⟨e, List.mem_cons_of_mem _ he, rfl⟩

theorem ascending_insertSorted {k : α} {v : β} {l : List (α × β)}
    (hl : l.Pairwise fun a b => rank a.1 < rank b.1) :
    (insertSorted rank k v l).Pairwise fun a b => rank a.1 < rank b.1 := by
  induction l with
  | nil => simp [insertSorted]
  | cons e l ih =>
      obtain ⟨he, hl'⟩ := List.pairwise_cons.mp hl
      simp only [insertSorted]
      split_ifs with hlt hgt
      · refine List.pairwise_cons.mpr ⟨?_, hl⟩
        intro d hd
        rcases List.mem_cons.mp hd with rfl | hd
        · exact hlt
        · exact hlt.trans (he d hd)
      · refine List.pairwise_cons.mpr ⟨?_, ih hl'⟩
        intro d hd
        rcases rank_mem_insertSorted hd with h | ⟨x, hx, hxd⟩
        · rwa [h]
        · rw [← hxd]
          exact he x hx
      · exact List.pairwise_cons.mpr ⟨he, hl'⟩

theorem entryAt_insertSorted {k : α} {v : β} {l : List (α × β)}
    (hl : l.Pairwise fun a b => rank a.1 < rank b.1) (r : κ) :
    entryAt rank r (insertSorted rank k v l) =
      if r = rank k then some (rewritten k v (entryAt rank (rank k) l))
      else entryAt rank r l := by
  induction l with
  | nil => simp [insertSorted, entryAt_cons, rewritten, eq_comm]
  | cons e l ih =>
      obtain ⟨he, hl'⟩ := List.pairwise_cons.mp hl
      simp only [insertSorted]
      rcases lt_trichotomy (rank k) (rank e.1) with hlt | hk | hgt
      · -- below the head: nothing in the list can have the rank of `k`
        have hnone : entryAt rank (rank k) (e :: l) = none := by
          rw [entryAt_eq_none]
          intro d hd
          rcases List.mem_cons.mp hd with rfl | hd
          · exact hlt.ne'
          · exact (hlt.trans (he d hd)).ne'
        rw [if_pos hlt, hnone, entryAt_cons]
        simp only [rewritten, Option.map_none, Option.getD_none, eq_comm]
      · rw [if_neg hk.not_lt, if_neg hk.not_gt, entryAt_cons, entryAt_cons, entryAt_cons,
          if_pos hk.symm, ← hk]
        split_ifs with h1 h2 h2
        · rfl
        · exact absurd h1.symm h2
        · exact absurd h2.symm h1
        · rfl
      · rw [if_neg hgt.not_gt, if_pos hgt, entryAt_cons, entryAt_cons, entryAt_cons, ih hl',
          if_neg hgt.ne]
        split_ifs with h1 h2 h2
        · exact absurd (h1.trans h2) hgt.ne
        · rfl
        · rfl
        · rfl

end InsertSorted

/-- A map whose entries are ascending in the rank of their keys. -/
structure OrderedMap (α β : Type) {κ : Type} [LinearOrder κ] (rank : α → κ) where
  entries : List (α × β)
  ascending : entries.Pairwise fun a b => rank a.1 < rank b.1

namespace OrderedMap

variable {rank : α → κ}

@[ext] theorem ext {m m' : OrderedMap α β rank} (h : m.entries = m'.entries) : m = m' := by
  cases m
  cases m'
  congr

def empty : OrderedMap α β rank := ⟨[], List.Pairwise.nil⟩

def insert (m : OrderedMap α β rank) (k : α) (v : β) : OrderedMap α β rank :=
  ⟨insertSorted rank k v m.entries, ascending_insertSorted m.ascending⟩

def erase (m : OrderedMap α β rank) (k : α) : OrderedMap α β rank :=
  ⟨eraseRank rank (rank k) m.entries, m.ascending.filter _⟩

def minKey? (m : OrderedMap α β rank) : Option α := m.entries.head?.map Prod.fst

def maxKey? (m : OrderedMap α β rank) : Option α := m.entries.getLast?.map Prod.fst

def at? (m : OrderedMap α β rank) (r : κ) : Option (α × β) := entryAt rank r m.entries

theorem distinct (m : OrderedMap α β rank) : DistinctRanks rank m.entries :=
  m.ascending.imp fun h => h.ne

@[simp] theorem entries_empty : (empty : OrderedMap α β rank).entries = [] := rfl

theorem at?_insert (m : OrderedMap α β rank) (k : α) (v : β) (r : κ) :
    (m.insert k v).at? r =
      if r = rank k then some (rewritten k v (m.at? (rank k))) else m.at? r :=
  entryAt_insertSorted m.ascending r

theorem at?_erase (m : OrderedMap α β rank) (k : α) (r : κ) :
    (m.erase k).at? r = if r = rank k then none else m.at? r :=
  entryAt_eraseRank _ _ _

theorem mem_entries_iff (m : OrderedMap α β rank) (e : α × β) :
    e ∈ m.entries ↔ m.at? (rank e.1) = some e :=
  mem_iff_entryAt m.distinct

/-- An entry after a write is an old one, or it has the value written and its key is the
one written or was there under the same rank. -/
theorem mem_insert {m : OrderedMap α β rank} {k : α} {v : β} {e : α × β}
    (he : e ∈ (m.insert k v).entries) :
    e ∈ m.entries ∨ rank e.1 = rank k ∧ e.2 = v ∧ (e.1 = k ∨ ∃ w, (e.1, w) ∈ m.entries) := by
  have hat := (mem_entries_iff _ e).mp he
  rw [at?_insert] at hat
  split_ifs at hat with hrank
  · right
    cases hold : m.at? (rank k) with
    | none =>
        rw [hold] at hat
        obtain rfl : (k, v) = e := Option.some.inj hat
        exact ⟨rfl, rfl, Or.inl rfl⟩
    | some d =>
        rw [hold] at hat
        obtain rfl : (d.1, v) = e := Option.some.inj hat
        exact ⟨hrank, rfl, Or.inr ⟨d.2, mem_of_entryAt hold⟩⟩
  · exact Or.inl ((mem_entries_iff m e).mpr hat)

theorem forall_insert (P : β → Prop) (m : OrderedMap α β rank) {v : β} (k : α)
    (hm : ∀ e ∈ m.entries, P e.2) (hv : P v) : ∀ e ∈ (m.insert k v).entries, P e.2 := by
  intro e he
  rw [mem_entries_iff, at?_insert] at he
  split_ifs at he
  · rw [← Option.some.inj he]
    exact hv
  · exact hm e ((mem_entries_iff m e).mpr he)

theorem forall_erase (P : β → Prop) (m : OrderedMap α β rank) (k : α)
    (hm : ∀ e ∈ m.entries, P e.2) : ∀ e ∈ (m.erase k).entries, P e.2 :=
  fun e he => hm e (List.mem_of_mem_filter he)

theorem minKey?_le {m : OrderedMap α β rank} {k : α} (hk : m.minKey? = some k)
    {e : α × β} (he : e ∈ m.entries) : rank k ≤ rank e.1 := by
  obtain ⟨entries, hasc⟩ := m
  cases entries with
  | nil => simp [minKey?] at hk
  | cons d l =>
      obtain rfl : d.1 = k := by simpa [minKey?] using hk
      rcases List.mem_cons.mp he with rfl | he
      · exact le_rfl
      · exact ((List.pairwise_cons.mp hasc).1 e he).le

theorem le_maxKey? {m : OrderedMap α β rank} {k : α} (hk : m.maxKey? = some k)
    {e : α × β} (he : e ∈ m.entries) : rank e.1 ≤ rank k := by
  obtain ⟨entries, hasc⟩ := m
  simp only [maxKey?, Option.map_eq_some_iff] at hk
  obtain ⟨d, hd, rfl⟩ := hk
  obtain ⟨l, rfl⟩ := List.getLast?_eq_some_iff.mp hd
  rcases List.mem_append.mp he with he | he
  · exact ((List.pairwise_append.mp hasc).2.2 e he d (List.mem_singleton_self d)).le
  · rw [List.mem_singleton.mp he]

theorem minKey?_mem {m : OrderedMap α β rank} {k : α} (hk : m.minKey? = some k) :
    ∃ e ∈ m.entries, e.1 = k := by
  simp only [minKey?, Option.map_eq_some_iff] at hk
  obtain ⟨e, he, rfl⟩ := hk
  exact ⟨e, List.mem_of_mem_head? he, rfl⟩

theorem maxKey?_mem {m : OrderedMap α β rank} {k : α} (hk : m.maxKey? = some k) :
    ∃ e ∈ m.entries, e.1 = k := by
  simp only [maxKey?, Option.map_eq_some_iff] at hk
  obtain ⟨e, he, rfl⟩ := hk
  exact ⟨e, List.mem_of_mem_getLast? he, rfl⟩

theorem minKey?_eq_none {m : OrderedMap α β rank} : m.minKey? = none ↔ m.entries = [] := by
  simp [minKey?]

theorem maxKey?_eq_none {m : OrderedMap α β rank} : m.maxKey? = none ↔ m.entries = [] := by
  simp [maxKey?]

end OrderedMap

/-! ## Entries in order of first insertion -/

def upsert (rank : α → κ) (k : α) (v : β) : List (α × β) → List (α × β)
  | [] => [(k, v)]
  | e :: l => if rank e.1 = rank k then (e.1, v) :: l else e :: upsert rank k v l

section Upsert

variable {rank : α → κ}

theorem rank_mem_upsert {k : α} {v : β} {l : List (α × β)} {e : α × β}
    (he : e ∈ upsert rank k v l) : rank e.1 = rank k ∨ ∃ d ∈ l, rank d.1 = rank e.1 := by
  induction l with
  | nil => simp_all [upsert]
  | cons d l ih =>
      simp only [upsert] at he
      split_ifs at he with hd
      · rcases List.mem_cons.mp he with rfl | he
        · exact Or.inl hd
        · exact Or.inr ⟨e, List.mem_cons_of_mem _ he, rfl⟩
      · rcases List.mem_cons.mp he with rfl | he
        · exact Or.inr ⟨e, List.mem_cons_self, rfl⟩
        · rcases ih he with h | ⟨x, hx, hxe⟩
          · exact Or.inl h
          · exact Or.inr ⟨x, List.mem_cons_of_mem _ hx, hxe⟩

theorem distinct_upsert {k : α} {v : β} {l : List (α × β)} (hl : DistinctRanks rank l) :
    DistinctRanks rank (upsert rank k v l) := by
  induction l with
  | nil => simp [upsert, DistinctRanks]
  | cons e l ih =>
      obtain ⟨he, hl'⟩ := List.pairwise_cons.mp hl
      simp only [upsert]
      split_ifs with hek
      · exact List.pairwise_cons.mpr ⟨he, hl'⟩
      · refine List.pairwise_cons.mpr ⟨?_, ih hl'⟩
        intro d hd
        rcases rank_mem_upsert hd with h | ⟨x, hx, hxd⟩
        · rwa [h]
        · rw [← hxd]
          exact he x hx

theorem entryAt_upsert (k : α) (v : β) (l : List (α × β)) (r : κ) :
    entryAt rank r (upsert rank k v l) =
      if r = rank k then some (rewritten k v (entryAt rank (rank k) l))
      else entryAt rank r l := by
  induction l with
  | nil => simp [upsert, entryAt_cons, rewritten, eq_comm]
  | cons e l ih =>
      simp only [upsert]
      split_ifs with hek hr hr
      · rw [entryAt_cons, entryAt_cons, if_pos (hek.trans hr.symm), if_pos hek]
        rfl
      · rw [entryAt_cons, entryAt_cons, if_neg (by rw [hek]; exact Ne.symm hr),
          if_neg (by rw [hek]; exact Ne.symm hr)]
      · rw [entryAt_cons, if_neg (by rw [hr]; exact hek), ih, if_pos hr, entryAt_cons,
          if_neg hek]
      · rw [entryAt_cons, entryAt_cons, ih, if_neg hr]

end Upsert

/-- A map whose entries stand in the order their ranks were first written. -/
structure InsertionMap (α β : Type) {κ : Type} [LinearOrder κ] (rank : α → κ) where
  entries : List (α × β)
  distinct : DistinctRanks rank entries

namespace InsertionMap

variable {rank : α → κ}

def empty : InsertionMap α β rank := ⟨[], List.Pairwise.nil⟩

def insert (m : InsertionMap α β rank) (k : α) (v : β) : InsertionMap α β rank :=
  ⟨upsert rank k v m.entries, distinct_upsert m.distinct⟩

def erase (m : InsertionMap α β rank) (k : α) : InsertionMap α β rank :=
  ⟨eraseRank rank (rank k) m.entries, m.distinct.filter _⟩

def maxKey? (m : InsertionMap α β rank) : Option α := (m.entries.map Prod.fst).argmax rank

def minKey? (m : InsertionMap α β rank) : Option α := (m.entries.map Prod.fst).argmin rank

def sorted (m : InsertionMap α β rank) : List (α × β) :=
  m.entries.insertionSort fun a b => rank a.1 ≤ rank b.1

def sortedDown (m : InsertionMap α β rank) : List (α × β) :=
  m.entries.insertionSort fun a b => rank b.1 ≤ rank a.1

def at? (m : InsertionMap α β rank) (r : κ) : Option (α × β) := entryAt rank r m.entries

theorem at?_insert (m : InsertionMap α β rank) (k : α) (v : β) (r : κ) :
    (m.insert k v).at? r =
      if r = rank k then some (rewritten k v (m.at? (rank k))) else m.at? r :=
  entryAt_upsert k v m.entries r

theorem at?_erase (m : InsertionMap α β rank) (k : α) (r : κ) :
    (m.erase k).at? r = if r = rank k then none else m.at? r :=
  entryAt_eraseRank _ _ _

end InsertionMap

/-! ## The best entries -/

/-- `top` holds the `n` best of `all`, best first. -/
structure TopOf (better : α → α → Prop) (n : Nat) (all top : List α) : Prop where
  length_eq : top.length = min n all.length
  subset : top ⊆ all
  sorted : top.Pairwise better
  rest : ∀ x ∈ all, x ∉ top → ∀ t ∈ top, better t x

theorem topOf_take {better : α → α → Prop} {l : List α} (hl : l.Pairwise better) (n : Nat) :
    TopOf better n l (l.take n) where
  length_eq := List.length_take
  subset := List.take_subset n l
  sorted := hl.sublist (List.take_sublist n l)
  rest x hx hnot t ht := by
    rw [← List.take_append_drop n l] at hl hx
    have hdrop : x ∈ l.drop n := (List.mem_append.mp hx).resolve_left hnot
    exact (List.pairwise_append.mp hl).2.2 t ht x hdrop

theorem TopOf.of_perm {better : α → α → Prop} {n : Nat} {all all' top : List α}
    (h : TopOf better n all top) (hperm : all.Perm all') : TopOf better n all' top where
  length_eq := by rw [h.length_eq, hperm.length_eq]
  subset x hx := hperm.subset (h.subset hx)
  sorted := h.sorted
  rest x hx := h.rest x (hperm.symm.subset hx)

theorem TopOf.length_of_missing {better : α → α → Prop} [Std.Irrefl better] {n : Nat}
    {all top : List α} (h : TopOf better n all top) {x : α} (hx : x ∈ all) (hnot : x ∉ top) :
    top.length = n := by
  by_contra hne
  have hlen : all.length ≤ top.length := by
    have := h.length_eq
    omega
  have hsub : top.Subperm all := List.subperm_of_subset h.sorted.nodup h.subset
  have hperm : top.Perm all := hsub.perm_of_length_le hlen
  exact hnot (hperm.mem_iff.mpr hx)

/-! ## The two maps side by side -/

/-- The two maps answer every lookup with the same key and value. -/
def SameEntries {rank : α → κ} (m : OrderedMap α β rank) (d : InsertionMap α β rank) : Prop :=
  ∀ r, m.at? r = d.at? r

namespace SameEntries

variable {rank : α → κ} {m : OrderedMap α β rank} {d : InsertionMap α β rank}

theorem empty : SameEntries (OrderedMap.empty : OrderedMap α β rank) InsertionMap.empty :=
  fun _ => rfl

theorem insert (h : SameEntries m d) (k : α) (v : β) :
    SameEntries (m.insert k v) (d.insert k v) := by
  intro r
  rw [OrderedMap.at?_insert, InsertionMap.at?_insert, h, h]

theorem erase (h : SameEntries m d) (k : α) : SameEntries (m.erase k) (d.erase k) := by
  intro r
  rw [OrderedMap.at?_erase, InsertionMap.at?_erase, h]

theorem perm (h : SameEntries m d) : d.entries.Perm m.entries :=
  perm_of_entryAt_eq d.distinct m.distinct fun r => (h r).symm

theorem sorted_eq (h : SameEntries m d) : d.sorted = m.entries := by
  have hperm : d.sorted.Perm m.entries := (List.perm_insertionSort _ _).trans h.perm
  have hdistinct : DistinctRanks rank d.sorted :=
    (List.perm_insertionSort _ _).symm.pairwise d.distinct Ne.symm
  have hle : d.sorted.Pairwise fun a b => rank a.1 ≤ rank b.1 := List.pairwise_insertionSort _ _
  have hlt : d.sorted.Pairwise fun a b => rank a.1 < rank b.1 :=
    (hle.and hdistinct).imp fun hab => lt_of_le_of_ne hab.1 hab.2
  exact hperm.eq_of_pairwise (fun a b _ _ hab hba => absurd hab hba.asymm) hlt m.ascending

theorem sortedDown_eq (h : SameEntries m d) : d.sortedDown = m.entries.reverse := by
  have hperm : d.sortedDown.Perm m.entries.reverse :=
    ((List.perm_insertionSort _ _).trans h.perm).trans (List.reverse_perm _).symm
  have hdistinct : DistinctRanks rank d.sortedDown :=
    (List.perm_insertionSort _ _).symm.pairwise d.distinct Ne.symm
  have hle : d.sortedDown.Pairwise fun a b => rank b.1 ≤ rank a.1 :=
    List.pairwise_insertionSort _ _
  have hlt : d.sortedDown.Pairwise fun a b => rank b.1 < rank a.1 :=
    (hle.and hdistinct).imp fun hab => lt_of_le_of_ne hab.1 (Ne.symm hab.2)
  exact hperm.eq_of_pairwise (fun a b _ _ hab hba => absurd hab hba.asymm) hlt
    (List.pairwise_reverse.mpr m.ascending)

theorem mem_iff (h : SameEntries m d) (e : α × β) : e ∈ d.entries ↔ e ∈ m.entries := h.perm.mem_iff

theorem entries_eq_nil (h : SameEntries m d) (hm : m.entries = []) : d.entries = [] := by
  have hperm := h.perm
  rw [hm] at hperm
  exact hperm.eq_nil

theorem key_unique {k k' : α} (hk : ∃ e ∈ m.entries, e.1 = k) (hk' : ∃ e ∈ m.entries, e.1 = k')
    (heq : rank k = rank k') : k = k' := by
  obtain ⟨e, he, rfl⟩ := hk
  obtain ⟨e', he', rfl⟩ := hk'
  have hat := (m.mem_entries_iff e).mp he
  rw [heq, (m.mem_entries_iff e').mp he'] at hat
  rw [Option.some.inj hat]

theorem maxKey?_eq (h : SameEntries m d) : d.maxKey? = m.maxKey? := by
  cases hmax : m.maxKey? with
  | none =>
      rw [InsertionMap.maxKey?, h.entries_eq_nil (OrderedMap.maxKey?_eq_none.mp hmax)]
      rfl
  | some k =>
      obtain ⟨e, he, rfl⟩ := OrderedMap.maxKey?_mem hmax
      cases hd : d.maxKey? with
      | none =>
          have hnil : d.entries = [] := by
            simpa [InsertionMap.maxKey?, List.argmax_eq_none] using hd
          rw [← h.mem_iff, hnil] at he
          simp at he
      | some k' =>
          obtain ⟨e', he', rfl⟩ := List.mem_map.mp (List.argmax_mem hd)
          have hle := OrderedMap.le_maxKey? hmax ((h.mem_iff e').mp he')
          have hge := List.le_of_mem_argmax (List.mem_map_of_mem ((h.mem_iff e).mpr he)) hd
          exact congrArg some (key_unique ⟨e', (h.mem_iff e').mp he', rfl⟩ ⟨e, he, rfl⟩
            (le_antisymm hle hge))

theorem minKey?_eq (h : SameEntries m d) : d.minKey? = m.minKey? := by
  cases hmin : m.minKey? with
  | none =>
      rw [InsertionMap.minKey?, h.entries_eq_nil (OrderedMap.minKey?_eq_none.mp hmin)]
      rfl
  | some k =>
      obtain ⟨e, he, rfl⟩ := OrderedMap.minKey?_mem hmin
      cases hd : d.minKey? with
      | none =>
          have hnil : d.entries = [] := by
            simpa [InsertionMap.minKey?, List.argmin_eq_none] using hd
          rw [← h.mem_iff, hnil] at he
          simp at he
      | some k' =>
          obtain ⟨e', he', rfl⟩ := List.mem_map.mp (List.argmin_mem hd)
          have hge := OrderedMap.minKey?_le hmin ((h.mem_iff e').mp he')
          have hle := List.le_of_mem_argmin (List.mem_map_of_mem ((h.mem_iff e).mpr he)) hd
          exact congrArg some (key_unique ⟨e', (h.mem_iff e').mp he', rfl⟩ ⟨e, he, rfl⟩
            (le_antisymm hle hge))

end SameEntries

end FeedHandler.Lib
