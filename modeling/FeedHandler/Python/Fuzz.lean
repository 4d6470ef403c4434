import FeedHandler.Fuzz
import FeedHandler.Python.Port
import FeedHandler.Lib.Relational
/-!
# The differential fuzz never finds a difference

`run_fuzz` of `tests/cross_language_comparison.py` claims to mirror the driver of the
other port. It does: for every seed the two generators hand the two books the same calls,
the two books stay the same, and so do the digests, texts included.
-/

namespace FeedHandler.Python.Fuzz

open Lib
open Decimal (Texts)
open FeedHandler.Fuzz (Digest Report actionStr stateStr levelTexts)

def bidPrices : List String := ["100", "99", "98"]

def askPrices : List String := ["101", "102", "103"]

def u64 : Nat := (1 <<< 64) - 1

structure Lcg where
  state : Nat

def Lcg.next (rng : Lcg) : Nat × Lcg :=
  let state := (rng.state * 6364136223846793005 + 1442695040888963407) &&& u64
  (state >>> 33, ⟨state⟩)

structure Driver where
  rng : Lcg
  seq : Nat
  book : Book

def below (n : Nat) : StateM Driver Nat :=
  modifyGet fun d => (d.rng.next.1 % n, { d with rng := d.rng.next.2 })

def level (t : Texts) (prices : List String) : StateM Driver (Decimal × Decimal) := do
  let i ← below 3
  let price := prices.getD i ""
  let delete ← below 4
  if delete = 0 then pure (t.read price, t.read "0")
  else do
    let qty ← below 9
    pure (t.read price, t.read (toString (qty + 1)))

def levels (t : Texts) (prices : List String) : StateM Driver Levels := do
  let n ← below 3
  (List.range n).mapM fun _ => level t prices

def digest (t : Texts) (step : Nat) (op : String) (action : Option String) (b : Book) : Digest where
  step := step
  op := op
  action := action
  state := stateStr b.state
  lastUpdateId := b.lastUpdateId
  bids := b.bids.entries.length
  asks := b.asks.entries.length
  topBids := levelTexts t (b.topLevels 3).1
  topAsks := levelTexts t (b.topLevels 3).2
  gaps := b.gapCount
  crossed := b.crossedCount
  snapshots := b.snapshotCount
  unverifiedBridges := b.unverifiedBridgeCount
  bufferDropped := b.bufferDropped

def digested {α : Type} (t : Texts) (step : Nat) (op : String) (action : α → Option String)
    (f : Book → α × Book) : StateM Driver Digest :=
  modifyGet fun d =>
    (digest t step op (action (f d.book).1) (f d.book).2, { d with book := (f d.book).2 })

def skip (roll : Nat) : StateM Driver Nat :=
  if roll < 55 then pure 0
  else do
    let k ← below 5
    pure (10 * (1 + k))

def depth (t : Texts) (step roll : Nat) : StateM Driver Digest := do
  let skip ← skip roll
  let bids ← levels t bidPrices
  let asks ← levels t askPrices
  let seq ← modifyGet fun d => (d.seq, { d with seq := d.seq + skip + 10 })
  digested t step (if skip = 0 then "depth" else "depth_gap") actionStr fun b =>
    b.onDepth
      { U := seq + skip + 1
        u := seq + skip + 10
        pu := seq + skip
        bids := bids
        asks := asks }

/-- The last branch is `max(0, …)`, as the subtraction of natural numbers is. -/
def snapshotId : StateM Driver Nat := do
  let r ← below 3
  if r = 0 then modifyGet fun d => (d.seq, d)
  else if r = 1 then do
    let k ← below 3
    modifyGet fun d => (d.seq + 10 * (1 + k), d)
  else do
    let k ← below 3
    modifyGet fun d => (d.seq - 10 * (1 + k), d)

def snapshot (t : Texts) (step : Nat) : StateM Driver Digest := do
  let lui ← snapshotId
  let bids ← levels t bidPrices
  let asks ← levels t askPrices
  digested t step "snapshot" (fun ok => some (if ok then "live" else "retry")) fun b =>
    b.onSnapshot lui bids asks

def ticker (t : Texts) (step : Nat) : StateM Driver Digest := do
  let i ← below 3
  let j ← below 3
  let bid := t.read (bidPrices.getD i "")
  let ask := t.read (askPrices.getD j "")
  digested t step "ticker" (fun _ : Unit => none) fun b => ((), b.setTickerBbo bid ask)

def turn (t : Texts) (step : Nat) : StateM Driver Digest := do
  let roll ← below 100
  if roll < 55 ∨ 65 ≤ roll ∧ roll < 78 then depth t step roll
  else if roll < 88 then snapshot t step
  else if roll < 93 then digested t step "stale" actionStr fun b => b.onDepth ⟨1, 2, 0, [], []⟩
  else if roll < 96 then digested t step "reset" (fun _ : Unit => none) fun b => ((), b.reset)
  else if roll < 98 then
    digested t step "mark_for_resync" (fun _ : Unit => none) fun b => ((), b.markForResync)
  else ticker t step

def runFuzz (t : Texts) (seed steps : Nat) : Report where
  seed := seed
  steps := steps
  digest := (((List.range steps).mapM (turn t)).run ⟨⟨seed⟩, 1000, Book.new "FUZZUSDT"⟩).1

/-! ## The generators -/

theorem state_next (word : FeedHandler.Fuzz.Lcg) :
    word.next.2.state.toNat = (Lcg.next ⟨word.state.toNat⟩).2.state := by
  show (word.state * 6364136223846793005 + 1442695040888963407).toNat =
    (word.state.toNat * 6364136223846793005 + 1442695040888963407) &&& u64
  rw [u64, Nat.one_shiftLeft, Nat.and_two_pow_sub_one_eq_mod, UInt64.toNat_add, UInt64.toNat_mul,
    show (6364136223846793005 : UInt64).toNat = 6364136223846793005 from rfl,
    show (1442695040888963407 : UInt64).toNat = 1442695040888963407 from rfl]
  exact Nat.mod_add_mod _ _ _

theorem number_next (word : FeedHandler.Fuzz.Lcg) :
    word.next.1.toNat = (Lcg.next ⟨word.state.toNat⟩).1 := by
  show (word.next.2.state >>> 33).toNat = (Lcg.next ⟨word.state.toNat⟩).2.state >>> 33
  rw [UInt64.toNat_shiftRight, state_next]
  rfl

/-! ## Whole numbers -/

def WholeLevels (levels : Levels) : Prop :=
  ∀ level ∈ levels, level.1.IsWhole ∧ level.2.IsWhole

theorem wholeLevels_nil : WholeLevels [] := List.forall_mem_nil _

theorem isWhole_of_given {fed : Levels} (h : WholeLevels fed) {level : Decimal × Decimal}
    (hlevel : Given fed level) : level.1.IsWhole ∧ level.2.IsWhole := by
  obtain ⟨⟨qty, hprice⟩, ⟨price, -, hqty⟩⟩ := hlevel
  exact ⟨(h _ hprice).1, (h _ hqty).2⟩

def WholeBook (b : FeedHandler.Book) : Prop :=
  ∃ fedBids fedAsks, b.Sourced fedBids fedAsks ∧ WholeLevels fedBids ∧ WholeLevels fedAsks

theorem WholeBook.call {b : FeedHandler.Book} (h : WholeBook b) {o : BookOp}
    (hbids : WholeLevels o.bids) (hasks : WholeLevels o.asks) : WholeBook (b.call o).2 := by
  obtain ⟨fedBids, fedAsks, hsourced, hfedBids, hfedAsks⟩ := h
  have hfed : ∀ {fed more : Levels}, WholeLevels fed → WholeLevels more →
      WholeLevels (if o.clears then [] else fed ++ more) := by
    intro fed more hfed hmore
    split_ifs
    · exact wholeLevels_nil
    · exact List.forall_mem_append.mpr ⟨hfed, hmore⟩
  exact ⟨_, _, hsourced.call o, hfed hfedBids hbids, hfed hfedAsks hasks⟩

theorem levelTexts_eq (t t' : Texts) {levels : Levels} (h : WholeLevels levels) :
    levelTexts t levels = levelTexts t' levels := by
  apply List.map_congr_left
  intro level hlevel
  obtain ⟨hprice, hqty⟩ := h level hlevel
  rw [t.display_eq hprice, t'.display_eq hprice, t.display_eq hqty, t'.display_eq hqty]

/-! ## In step -/

/-- The two drivers, with `n` turns to go: the ids stay below `2⁶⁴`. -/
structure InStep (n : Nat) (d : FeedHandler.Fuzz.Driver) (d' : Driver) : Prop where
  rng : d.rng.state.toNat = d'.rng.state
  seq : d.seq.toNat = d'.seq
  room : d'.seq + 60 * n + 40 < 2 ^ 64
  ported : Ported d.book d'.book
  whole : WholeBook d.book

variable {n : Nat}

theorem run_below_word (k : UInt64) (d : FeedHandler.Fuzz.Driver) :
    (FeedHandler.Fuzz.below k).run d = (d.rng.next.1 % k, { d with rng := d.rng.next.2 }) := rfl

theorem run_below (k : Nat) (d : Driver) :
    (below k).run d = (d.rng.next.1 % k, { d with rng := d.rng.next.2 }) := rfl

theorem agree_below {k : UInt64} {k' : Nat} (hk : k.toNat = k') (hpos : 0 < k') :
    Agree (InStep n) (FeedHandler.Fuzz.below k) (below k') fun a b d d' =>
      (a.toNat = b ∧ b < k') ∧ InStep n d d' := by
  intro d d' h
  have hrng : (⟨d.rng.state.toNat⟩ : Lcg) = d'.rng := congrArg Lcg.mk h.rng
  have hstate := state_next d.rng
  have hnumber := number_next d.rng
  rw [hrng] at hstate hnumber
  rw [run_below_word, run_below]
  generalize d.rng.next = word at hstate hnumber ⊢
  generalize d'.rng.next = number at hstate hnumber ⊢
  have hanswer : (word.1 % k).toNat = number.1 % k' := by rw [UInt64.toNat_mod, hnumber, hk]
  have hnext : InStep n ⟨word.2, d.seq, d.book⟩ ⟨number.2, d'.seq, d'.book⟩ :=
    ⟨hstate, h.seq, h.room, h.ported, h.whole⟩
  exact ⟨⟨hanswer, Nat.mod_lt _ hpos⟩, hnext⟩

def Numerals (prices : List String) : Prop :=
  ∀ i < 3, ∃ m < 2 ^ 96, prices.getD i "" = toString m

theorem numerals_bidPrices : Numerals bidPrices := by
  intro i hi
  obtain rfl | rfl | rfl : i = 0 ∨ i = 1 ∨ i = 2 := by omega
  · exact ⟨100, by decide, rfl⟩
  · exact ⟨99, by decide, rfl⟩
  · exact ⟨98, by decide, rfl⟩

theorem numerals_askPrices : Numerals askPrices := by
  intro i hi
  obtain rfl | rfl | rfl : i = 0 ∨ i = 1 ∨ i = 2 := by omega
  · exact ⟨101, by decide, rfl⟩
  · exact ⟨102, by decide, rfl⟩
  · exact ⟨103, by decide, rfl⟩

theorem read_eq (t t' : Texts) {m : Nat} (hm : m < 2 ^ 96) :
    t.read (toString m) = t'.read (toString m) ∧ (t.read (toString m)).IsWhole := by
  rw [t.read_whole m hm, t'.read_whole m hm]
  exact ⟨rfl, Decimal.isWhole_whole m hm⟩

theorem agree_level (t t' : Texts) {prices : List String} (hprices : Numerals prices) :
    Agree (InStep n) (FeedHandler.Fuzz.level t prices) (level t' prices) fun a b d d' =>
      (a = b ∧ a.1.IsWhole ∧ a.2.IsWhole) ∧ InStep n d d' := by
  unfold FeedHandler.Fuzz.level level
  refine Agree.bind (agree_below rfl (by decide)) fun i i' => Agree.of_fact fun hi => ?_
  refine Agree.bind (agree_below rfl (by decide)) fun a a' => Agree.of_fact fun ha => ?_
  obtain ⟨m, hm, hprice⟩ := hprices i' hi.2
  obtain ⟨hread, hwhole⟩ := read_eq t t' hm
  rw [hi.1, hprice]
  have hdelete : a = 0 ↔ a' = 0 := by
    rw [← ha.1, ← UInt64.toNat_inj]
    rfl
  refine Agree.ite hdelete ?_ ?_
  · intro _
    obtain ⟨hzero, hwhole'⟩ := read_eq t t' (m := 0) (by decide)
    apply Agree.pure
    intro d d' h
    exact ⟨⟨Prod.ext hread hzero, hwhole, hwhole'⟩, h⟩
  · intro _
    refine Agree.bind (agree_below rfl (by decide)) fun qty qty' => Agree.of_fact fun hqty => ?_
    have htext : toString (qty + 1) = toString (qty' + 1) := by
      rw [← hqty.1]
      show toString (qty + 1).toNat = _
      rw [UInt64.toNat_add]
      congr 1
      show (qty.toNat + 1) % 2 ^ 64 = _
      omega
    obtain ⟨hread', hwhole'⟩ := read_eq t t' (m := qty' + 1) (by omega)
    apply Agree.pure
    intro d d' h
    rw [htext]
    exact ⟨⟨Prod.ext hread hread', hwhole, hwhole'⟩, h⟩

theorem agree_levels (t t' : Texts) {prices : List String} (hprices : Numerals prices) :
    Agree (InStep n) (FeedHandler.Fuzz.levels t prices) (levels t' prices) fun a b d d' =>
      (a = b ∧ WholeLevels a) ∧ InStep n d d' := by
  unfold FeedHandler.Fuzz.levels levels
  refine Agree.bind (agree_below rfl (by decide)) fun k k' => Agree.of_fact fun hk => ?_
  rw [hk.1]
  exact Agree.mapM (I := fun _ => InStep n) (fun _ _ => agree_level t t' hprices) _

/-! ## A call and its digest -/

theorem digest_eq (t t' : Texts) {r : FeedHandler.Book} {p : Book} (h : Ported r p)
    (hwhole : WholeBook r) (step : Nat) (op : String) (action : Option String) :
    FeedHandler.Fuzz.digest t step op action r = digest t' step op action p := by
  obtain ⟨fedBids, fedAsks, hsourced, hfedBids, hfedAsks⟩ := hwhole
  have hbids : WholeLevels (r.topLevels 3).1 := fun level hlevel =>
    isWhole_of_given hfedBids
      (hsourced.bids level (List.mem_reverse.mp (List.mem_of_mem_take hlevel)))
  have hasks : WholeLevels (r.topLevels 3).2 := fun level hlevel =>
    isWhole_of_given hfedAsks (hsourced.asks level (List.mem_of_mem_take hlevel))
  unfold FeedHandler.Fuzz.digest digest
  rw [levelTexts_eq t t' hbids, levelTexts_eq t t' hasks, h.topLevels]
  obtain ⟨bids, asks, hsameBids, hsameAsks, rfl⟩ := h
  dsimp only
  rw [hsameBids.perm.length_eq, hsameAsks.perm.length_eq]

theorem agree_digested {α : Type} (t t' : Texts) (step : Nat) (op : String)
    (action : α → Option String) {f : FeedHandler.Book → α × FeedHandler.Book}
    {g : Book → α × Book}
    (h : ∀ r p, Ported r p → WholeBook r →
      (f r).1 = (g p).1 ∧ Ported (f r).2 (g p).2 ∧ WholeBook (f r).2) :
    Agree (InStep n) (FeedHandler.Fuzz.digested t step op action f)
      (digested t' step op action g) fun a b d d' => (a = b ∧ True) ∧ InStep n d d' := by
  unfold FeedHandler.Fuzz.digested digested
  apply Agree.modifies
  intro d d' hd
  obtain ⟨hanswer, hported, hwhole⟩ := h d.book d'.book hd.ported hd.whole
  rw [← hanswer]
  exact ⟨⟨digest_eq t t' hported hwhole step op _, trivial⟩,
    hd.rng, hd.seq, hd.room, hported, hwhole⟩

theorem agree_onDepth (t t' : Texts) (step : Nat) (op : String) {e : DepthEvent}
    (hbids : WholeLevels e.bids) (hasks : WholeLevels e.asks) :
    Agree (InStep n) (FeedHandler.Fuzz.digested t step op actionStr fun b => b.onDepth e)
      (digested t' step op actionStr fun b => b.onDepth e)
      fun a b d d' => (a = b ∧ True) ∧ InStep n d d' := by
  apply agree_digested
  intro r p hported hwhole
  obtain ⟨hanswer, hnext⟩ := hported.onDepth e
  exact ⟨hanswer, hnext, hwhole.call (o := .onDepth e) hbids hasks⟩

/-! ## The branches of the loop -/

theorem InStep.weaken {d : FeedHandler.Fuzz.Driver} {d' : Driver} (h : InStep (n + 1) d d') :
    InStep n d d' := by
  have hroom := h.room
  exact ⟨h.rng, h.seq, by omega, h.ported, h.whole⟩

theorem toNat_tens {k : UInt64} {k' : Nat} (hk : k.toNat = k') (hlt : k' < 5) :
    (10 * (1 + k)).toNat = 10 * (1 + k') := by
  rw [UInt64.toNat_mul, UInt64.toNat_add, hk]
  show 10 * ((1 + k') % 2 ^ 64) % 2 ^ 64 = _
  omega

theorem agree_skip {roll : UInt64} {roll' : Nat} (hroll : roll.toNat = roll') :
    Agree (InStep n) (FeedHandler.Fuzz.skip roll) (skip roll') fun a b d d' =>
      (a.toNat = b ∧ b ≤ 50) ∧ InStep n d d' := by
  unfold FeedHandler.Fuzz.skip skip
  have hiff : roll < 55 ↔ roll' < 55 := by
    rw [UInt64.lt_iff_toNat_lt, hroll]
    rfl
  refine Agree.ite hiff (fun _ => ?_) fun _ => ?_
  · exact Agree.pure fun d d' h => ⟨⟨rfl, by omega⟩, h⟩
  · refine Agree.bind (agree_below rfl (by decide)) fun k k' => Agree.of_fact fun hk => ?_
    exact Agree.pure fun d d' h => ⟨⟨toNat_tens hk.1 hk.2, by omega⟩, h⟩

theorem agree_depth (t t' : Texts) (step : Nat) {roll : UInt64} {roll' : Nat}
    (hroll : roll.toNat = roll') :
    Agree (InStep (n + 1)) (FeedHandler.Fuzz.depth t step roll) (depth t' step roll')
      fun a b d d' => (a = b ∧ True) ∧ InStep n d d' := by
  unfold FeedHandler.Fuzz.depth depth
  refine Agree.bind (agree_skip hroll) fun skip skip' => Agree.of_fact fun hskip => ?_
  refine Agree.bind (agree_levels t t' numerals_bidPrices) fun bids bids' =>
    Agree.of_fact fun hbids => ?_
  refine Agree.bind (agree_levels t t' numerals_askPrices) fun asks asks' =>
    Agree.of_fact fun hasks => ?_
  have hseq : Agree (InStep (n + 1))
      (modifyGet fun d => (d.seq, { d with seq := d.seq + skip + 10 }) :
        StateM FeedHandler.Fuzz.Driver UInt64)
      (modifyGet fun d => (d.seq, { d with seq := d.seq + skip' + 10 }))
      fun a b d d' => (a.toNat = b ∧ b + 60 < 2 ^ 64) ∧ InStep n d d' := by
    apply Agree.modifies
    intro d d' h
    have hroom := h.room
    have hnext : (d.seq + skip + 10).toNat = d'.seq + skip' + 10 := by
      rw [UInt64.toNat_add, UInt64.toNat_add, h.seq, hskip.1]
      show ((d'.seq + skip') % 2 ^ 64 + 10) % 2 ^ 64 = _
      omega
    exact ⟨⟨h.seq, by omega⟩, h.rng, hnext, by show d'.seq + skip' + 10 + _ + _ < _; omega,
      h.ported, h.whole⟩
  refine Agree.bind hseq fun seq seq' => Agree.of_fact fun hid => ?_
  have hpu : (seq + skip).toNat = seq' + skip' := by
    rw [UInt64.toNat_add, hid.1, hskip.1]
    omega
  have hU : (seq + skip + 1).toNat = seq' + skip' + 1 := by
    rw [UInt64.toNat_add, hpu]
    show (seq' + skip' + 1) % 2 ^ 64 = _
    omega
  have hu : (seq + skip + 10).toNat = seq' + skip' + 10 := by
    rw [UInt64.toNat_add, hpu]
    show (seq' + skip' + 10) % 2 ^ 64 = _
    omega
  have hzero : skip = 0 ↔ skip' = 0 := by
    rw [← hskip.1, ← UInt64.toNat_inj]
    rfl
  have hname : (if skip = 0 then "depth" else "depth_gap") =
      if skip' = 0 then "depth" else "depth_gap" := if_congr hzero rfl rfl
  rw [hname, hpu, hU, hu, ← hbids.1, ← hasks.1]
  exact agree_onDepth t t' step _ hbids.2 hasks.2

theorem agree_snapshotId :
    Agree (InStep n) FeedHandler.Fuzz.snapshotId snapshotId fun a b d d' =>
      (a.toNat = b ∧ True) ∧ InStep n d d' := by
  unfold FeedHandler.Fuzz.snapshotId snapshotId
  refine Agree.bind (agree_below rfl (by decide)) fun r r' => Agree.of_fact fun hr => ?_
  have hzero : r = 0 ↔ r' = 0 := by
    rw [← hr.1, ← UInt64.toNat_inj]
    rfl
  have hone : r = 1 ↔ r' = 1 := by
    rw [← hr.1, ← UInt64.toNat_inj]
    rfl
  refine Agree.ite hzero (fun _ => ?_) fun _ => Agree.ite hone (fun _ => ?_) fun _ => ?_
  · exact Agree.modifies fun d d' h => ⟨⟨h.seq, trivial⟩, h⟩
  · refine Agree.bind (agree_below rfl (by decide)) fun k k' => Agree.of_fact fun hk => ?_
    apply Agree.modifies
    intro d d' h
    have hroom := h.room
    have htens : (10 * (1 + k)).toNat = 10 * (1 + k') := toNat_tens hk.1 (by omega)
    refine ⟨⟨?_, trivial⟩, h⟩
    rw [UInt64.toNat_add, h.seq, htens]
    omega
  · refine Agree.bind (agree_below rfl (by decide)) fun k k' => Agree.of_fact fun hk => ?_
    apply Agree.modifies
    intro d d' h
    have htens : (10 * (1 + k)).toNat = 10 * (1 + k') := toNat_tens hk.1 (by omega)
    refine ⟨⟨?_, trivial⟩, h⟩
    unfold FeedHandler.Fuzz.saturatingSub
    split_ifs with hle
    · rw [UInt64.toNat_sub_of_le _ _ hle, h.seq, htens]
    · rw [UInt64.le_iff_toNat_le, h.seq, htens] at hle
      show 0 = _
      omega

theorem agree_snapshot (t t' : Texts) (step : Nat) :
    Agree (InStep n) (FeedHandler.Fuzz.snapshot t step) (snapshot t' step)
      fun a b d d' => (a = b ∧ True) ∧ InStep n d d' := by
  unfold FeedHandler.Fuzz.snapshot snapshot
  refine Agree.bind agree_snapshotId fun lui lui' => Agree.of_fact fun hlui => ?_
  refine Agree.bind (agree_levels t t' numerals_bidPrices) fun bids bids' =>
    Agree.of_fact fun hbids => ?_
  refine Agree.bind (agree_levels t t' numerals_askPrices) fun asks asks' =>
    Agree.of_fact fun hasks => ?_
  rw [hlui.1, ← hbids.1, ← hasks.1]
  apply agree_digested
  intro r p hported hwhole
  obtain ⟨hanswer, hnext⟩ := hported.onSnapshot lui' bids asks
  exact ⟨hanswer, hnext, hwhole.call (o := .onSnapshot lui' bids asks) hbids.2 hasks.2⟩

theorem agree_ticker (t t' : Texts) (step : Nat) :
    Agree (InStep n) (FeedHandler.Fuzz.ticker t step) (ticker t' step)
      fun a b d d' => (a = b ∧ True) ∧ InStep n d d' := by
  unfold FeedHandler.Fuzz.ticker ticker
  refine Agree.bind (agree_below rfl (by decide)) fun i i' => Agree.of_fact fun hi => ?_
  refine Agree.bind (agree_below rfl (by decide)) fun j j' => Agree.of_fact fun hj => ?_
  obtain ⟨m, hm, hbid⟩ := numerals_bidPrices i' hi.2
  obtain ⟨k, hk, hask⟩ := numerals_askPrices j' hj.2
  have hbidRead : t.read (FeedHandler.Fuzz.bidPrices.getD i.toNat "") =
      t'.read (bidPrices.getD i' "") := by
    rw [hi.1, show FeedHandler.Fuzz.bidPrices = bidPrices from rfl, hbid]
    exact (read_eq t t' hm).1
  have haskRead : t.read (FeedHandler.Fuzz.askPrices.getD j.toNat "") =
      t'.read (askPrices.getD j' "") := by
    rw [hj.1, show FeedHandler.Fuzz.askPrices = askPrices from rfl, hask]
    exact (read_eq t t' hk).1
  dsimp only
  rw [hbidRead, haskRead]
  apply agree_digested
  intro r p hported hwhole
  have hnext := (hported.call (.setTickerBbo (t'.read (bidPrices.getD i' ""))
    (t'.read (askPrices.getD j' "")))).2
  exact ⟨rfl, hnext, hwhole.call (o := .setTickerBbo _ _) wholeLevels_nil
    wholeLevels_nil⟩

theorem agree_turn (t t' : Texts) (step : Nat) :
    Agree (InStep (n + 1)) (FeedHandler.Fuzz.turn t step) (turn t' step)
      fun a b d d' => (a = b ∧ True) ∧ InStep n d d' := by
  unfold FeedHandler.Fuzz.turn turn
  refine Agree.bind (agree_below rfl (by decide)) fun roll roll' => Agree.of_fact fun hroll => ?_
  have hlt : ∀ c : UInt64, roll < c ↔ roll' < c.toNat := fun c => by
    rw [UInt64.lt_iff_toNat_lt, hroll.1]
  have hle : 65 ≤ roll ↔ 65 ≤ roll' := by
    rw [UInt64.le_iff_toNat_le, hroll.1]
    rfl
  have hweaken : ∀ a b d d', (a = b ∧ True) ∧ InStep (n + 1) d d' →
      ((a : Digest) = b ∧ True) ∧ InStep n d d' := fun a b d d' h => ⟨h.1, h.2.weaken⟩
  refine Agree.ite (or_congr (hlt 55) (and_congr hle (hlt 78))) (fun _ => ?_) fun _ => ?_
  · exact agree_depth t t' step hroll.1
  refine Agree.ite (hlt 88) (fun _ => ?_) fun _ => ?_
  · exact (agree_snapshot t t' step).imp hweaken
  refine Agree.ite (hlt 93) (fun _ => ?_) fun _ => ?_
  · exact (agree_onDepth t t' step "stale" wholeLevels_nil wholeLevels_nil).imp hweaken
  refine Agree.ite (hlt 96) (fun _ => ?_) fun _ => ?_
  · refine (agree_digested t t' step "reset" _ fun r p hported hwhole => ?_).imp hweaken
    exact ⟨rfl, hported.reset, hwhole.call (o := .reset) wholeLevels_nil wholeLevels_nil⟩
  refine Agree.ite (hlt 98) (fun _ => ?_) fun _ => ?_
  · refine (agree_digested t t' step "mark_for_resync" _ fun r p hported hwhole => ?_).imp hweaken
    exact ⟨rfl, (hported.call .markForResync).2,
      hwhole.call (o := .markForResync) wholeLevels_nil wholeLevels_nil⟩
  · exact (agree_ticker t t' step).imp hweaken

theorem inStep_start (seed : UInt64) {steps : Nat} (hsteps : steps ≤ 2 ^ 58) :
    InStep steps ⟨⟨seed⟩, 1000, FeedHandler.Book.new "FUZZUSDT"⟩
      ⟨⟨seed.toNat⟩, 1000, Book.new "FUZZUSDT"⟩ where
  rng := rfl
  seq := rfl
  room := by
    show 1000 + 60 * steps + 40 < 2 ^ 64
    omega
  ported := Ported.new "FUZZUSDT"
  whole := ⟨[], [], FeedHandler.Book.sourced_new "FUZZUSDT", wholeLevels_nil,
    wholeLevels_nil⟩

/-- For every seed, and every number of steps for which the other port can hold its
digests, the two drivers report the same. -/
theorem fuzz_never_diverges (rust python : Texts) (seed : UInt64) {steps : Nat}
    (hsteps : steps ≤ 2 ^ 58) :
    FeedHandler.Fuzz.run rust seed steps = runFuzz python seed.toNat steps := by
  have hagree := Agree.mapM (I := InStep) (P := fun _ => True)
    (fun n step => agree_turn rust python step) (List.range steps)
  rw [List.length_range] at hagree
  have hdigests := (hagree _ _ (inStep_start seed hsteps)).1.1
  unfold FeedHandler.Fuzz.run runFuzz
  rw [hdigests]

/-- Digits read one after the other, and the coefficient written in digits. -/
def plainTexts : Texts where
  parse text :=
    if h : Nat.ofDigitChars 10 text.toList 0 < 2 ^ 96 then
      some (Decimal.whole (Nat.ofDigitChars 10 text.toList 0) h)
    else none
  display d := toString d.coefficient
  parse_whole n h := by
    have hdigits : Nat.ofDigitChars 10 (toString n).toList 0 = n := by
      rw [Nat.toString_eq_repr, Nat.toList_repr, Nat.ofDigitChars_ten_toDigits]
    simp only [hdigits, dif_pos h]
  display_whole n h := rfl

theorem fuzz_never_diverges_plain :
    FeedHandler.Fuzz.run plainTexts 7 2000 = runFuzz plainTexts 7 2000 :=
  fuzz_never_diverges plainTexts plainTexts 7 (by decide)

end FeedHandler.Python.Fuzz
