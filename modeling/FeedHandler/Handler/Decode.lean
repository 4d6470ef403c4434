import FeedHandler.Json
import FeedHandler.Handler.Tidy
/-!
# Payloads

What `run_shard` makes of a text frame and `sync_book` of a response, up to the call
into the book. Most of the decoding shrugs off what it does not understand; the
levels do not: `arr[0]`, `arr[1]` and the two `expect` of `parse_levels` panic, and
with them the task.
-/

namespace FeedHandler.Handler

inductive Panic
  | outOfBounds (len index : Nat)
  /-- `expect(message)` on a decimal that does not parse. -/
  | expected (message : String)
deriving DecidableEq

def indexed (arr : List Json) (i : Nat) : Except Panic Json :=
  match arr[i]? with
  | some v => pure v
  | none => throw (.outOfBounds arr.length i)

/-- The closure of `filter_map` over the entries of `b` and `a`. -/
def rawLevel (v : Json) : Except Panic (Option (String × String)) :=
  match v.asArray with
  | none => pure none
  | some arr => do
      match (← indexed arr 0).asStr with
      | none => pure none
      | some p =>
          match (← indexed arr 1).asStr with
          | none => pure none
          | some q => pure (some (p, q))

def rawLevels (v : Json) : Except Panic (List (String × String)) := do
  let kept ← v.entries.mapM rawLevel
  pure kept.reduceOption

/-- A message with its levels as they are in the text. -/
structure DepthSnapshot where
  lastUpdateId : Nat
  bids : List (String × String)
  asks : List (String × String)

section Decode

variable (parse : String → Option Decimal)

def expectDecimal (message text : String) : Except Panic Decimal :=
  match parse text with
  | some d => pure d
  | none => throw (.expected message)

def parseLevel (level : String × String) : Except Panic (Decimal × Decimal) := do
  let p ← expectDecimal parse "invalid price" level.1
  let q ← expectDecimal parse "invalid qty" level.2
  pure (p, q)

def parseLevels (raw : List (String × String)) : Except Panic Levels :=
  raw.mapM (parseLevel parse)

def decodeDepth (msg : Json) : Except Panic DepthEvent := do
  let rawBids ← rawLevels (msg.index "b")
  let rawAsks ← rawLevels (msg.index "a")
  let bids ← parseLevels parse rawBids
  let asks ← parseLevels parse rawAsks
  pure
    { U := (msg.index "U").asU64.getD 0
      u := (msg.index "u").asU64.getD 0
      pu := (msg.index "pu").asU64.getD 0
      bids := bids
      asks := asks }

def addressed (msg : Json) : Option (String × String) :=
  if (msg.get "result").isSome then none
  else if (msg.get "id").isSome && (msg.get "e").isNone then none
  else do
    let symbol ← msg.getStr "s"
    let evt ← msg.getStr "e"
    pure (symbol, evt)

inductive Frame
  | skipped
  | depthUpdate (symbol : String) (e : DepthEvent)
  | bookTicker (symbol bidPrice bidQty askPrice askQty : String)
deriving DecidableEq

def decodeFrame (msg : Json) : Except Panic Frame :=
  match addressed msg with
  | none => pure .skipped
  | some (symbol, evt) =>
      if evt = "depthUpdate" then do
        let e ← decodeDepth parse msg
        pure (.depthUpdate symbol e)
      else if evt = "bookTicker" then
        pure (.bookTicker symbol ((msg.index "b").asStr.getD "0")
          ((msg.index "B").asStr.getD "0") ((msg.index "a").asStr.getD "0")
          ((msg.index "A").asStr.getD "0"))
      else pure .skipped

def decodeSnapshot (data : DepthSnapshot) : Except Panic (Levels × Levels) := do
  let bids ← parseLevels parse data.bids
  let asks ← parseLevels parse data.asks
  pure (bids, asks)

/-! ## The steps they lead to -/

/-- What shard `i` does with a frame at clock reading `now`. -/
def frameAct (i : Nat) (now : Rat) (msg : Json) : Option Act :=
  match decodeFrame parse msg with
  | .error _ => some (.panicShard i)
  | .ok .skipped => none
  | .ok (.depthUpdate symbol e) => some (.depth i symbol now e)
  | .ok (.bookTicker symbol bidPrice _ askPrice _) =>
      some (.ticker i symbol ((parse bidPrice).getD Decimal.zero)
        ((parse askPrice).getD Decimal.zero))

end Decode

/-! ## Which payloads are survived -/

section Results

variable {ε α β : Type}

theorem bind_eq_ok {x : Except ε α} {f : α → Except ε β} {b : β} :
    (x >>= f) = .ok b ↔ ∃ a, x = .ok a ∧ f a = .ok b := by
  cases x <;> simp [bind, Except.bind]

theorem exists_ok_mapM {f : α → Except ε β} {l : List α} :
    (∃ bs, l.mapM f = .ok bs) ↔ ∀ a ∈ l, ∃ b, f a = .ok b := by
  induction l with
  | nil => simp [pure, Except.pure]
  | cons a l ih =>
      simp only [List.mapM_cons, bind_eq_ok, List.forall_mem_cons, ← ih]
      constructor
      · rintro ⟨bs, b, hb, bs', hbs', -⟩
        exact ⟨⟨b, hb⟩, bs', hbs'⟩
      · rintro ⟨⟨b, hb⟩, bs, hbs⟩
        exact ⟨b :: bs, b, hb, bs, hbs, rfl⟩

theorem mapM_eq_ok {f : α → Except ε β} {g : α → Option β}
    (hfg : ∀ a b, f a = .ok b → g a = some b) {l : List α} {bs : List β} :
    l.mapM f = .ok bs ↔ (∀ a ∈ l, ∃ b, f a = .ok b) ∧ bs = l.filterMap g := by
  have hvalue : ∀ bs, l.mapM f = .ok bs → bs = l.filterMap g := by
    induction l with
    | nil =>
        rintro bs ⟨⟩
        rfl
    | cons a l ih =>
        intro bs h
        rw [List.mapM_cons, bind_eq_ok] at h
        obtain ⟨b, hb, h⟩ := h
        obtain ⟨rest, hrest, h⟩ := bind_eq_ok.mp h
        cases h
        rw [List.filterMap_cons_some (hfg a b hb), ih rest hrest]
  constructor
  · exact fun h => ⟨exists_ok_mapM.mp ⟨bs, h⟩, hvalue bs h⟩
  · rintro ⟨h, rfl⟩
    obtain ⟨bs, hbs⟩ := exists_ok_mapM.mpr h
    rwa [← hvalue bs hbs]

end Results

/-- The elements the code asks for are there: the first of an array, and the second
when the first is a string. -/
def Indexable : Json → Prop
  | .array [] => False
  | .array [first] => first.asStr = none
  | _ => True

def pair? : Json → Option (String × String)
  | .array (first :: second :: _) => do
      let p ← first.asStr
      let q ← second.asStr
      pure (p, q)
  | _ => none

theorem rawLevel_eq_ok {v : Json} {level : Option (String × String)} :
    rawLevel v = .ok level ↔ Indexable v ∧ level = pair? v := by
  unfold rawLevel Indexable pair?
  split
  · next h =>
      cases v <;> simp_all [Json.asArray, pure, Except.pure, eq_comm]
  · next arr h =>
      obtain rfl := Json.asArray_eq_some.mp h
      rcases arr with - | ⟨first, - | ⟨second, rest⟩⟩
      · simp [indexed, bind, Except.bind, throw, throwThe, MonadExceptOf.throw]
      · cases hfirst : first.asStr <;>
          simp [indexed, bind, Except.bind, throw, throwThe, MonadExceptOf.throw, pure,
            Except.pure, hfirst, eq_comm]
      · cases hfirst : first.asStr <;> cases hsecond : second.asStr <;>
          simp [indexed, bind, Except.bind, pure, Except.pure, hfirst, hsecond, eq_comm]

theorem rawLevels_eq_ok {v : Json} {raw : List (String × String)} :
    rawLevels v = .ok raw ↔
      (∀ entry ∈ v.entries, Indexable entry) ∧ raw = v.entries.filterMap pair? := by
  have hkept : ∀ kept, v.entries.mapM rawLevel = .ok kept ↔
      (∀ entry ∈ v.entries, Indexable entry) ∧ kept = v.entries.map pair? := by
    intro kept
    rw [mapM_eq_ok (g := fun entry => some (pair? entry))
      fun entry level h => congrArg some (rawLevel_eq_ok.mp h).2.symm]
    simp only [rawLevel_eq_ok, exists_and_left, exists_eq, and_true]
    rw [← List.filterMap_eq_map]
    rfl
  have hreduce : (v.entries.map pair?).reduceOption = v.entries.filterMap pair? := by
    show (v.entries.map pair?).filterMap id = _
    rw [List.filterMap_map]
    rfl
  unfold rawLevels
  rw [bind_eq_ok]
  constructor
  · rintro ⟨kept, heq, hraw⟩
    obtain ⟨hindexable, rfl⟩ := (hkept kept).mp heq
    cases hraw
    exact ⟨hindexable, hreduce⟩
  · rintro ⟨hindexable, rfl⟩
    exact ⟨_, (hkept _).mpr ⟨hindexable, rfl⟩, by rw [hreduce]; rfl⟩

section Survived

variable {parse : String → Option Decimal}

def level? (parse : String → Option Decimal) (level : String × String) :
    Option (Decimal × Decimal) := do
  let p ← parse level.1
  let q ← parse level.2
  pure (p, q)

theorem parseLevel_eq_ok {level : String × String} {parsed : Decimal × Decimal} :
    parseLevel parse level = .ok parsed ↔ level? parse level = some parsed := by
  unfold parseLevel expectDecimal level?
  cases parse level.1 <;> cases parse level.2 <;>
    simp [bind, Except.bind, pure, Except.pure, throw, throwThe, MonadExceptOf.throw]

theorem parseLevels_eq_ok {raw : List (String × String)} {levels : Levels} :
    parseLevels parse raw = .ok levels ↔
      (∀ level ∈ raw, (level? parse level).isSome) ∧ levels = raw.filterMap (level? parse) := by
  unfold parseLevels
  rw [mapM_eq_ok fun level parsed => parseLevel_eq_ok.mp]
  simp only [parseLevel_eq_ok, Option.isSome_iff_exists]

/-- An entry of `b` or `a` that does not stop the decoding. -/
def Survivable (parse : String → Option Decimal) (entry : Json) : Prop :=
  Indexable entry ∧ ∀ level, pair? entry = some level → (level? parse level).isSome

def levelOf? (parse : String → Option Decimal) (entry : Json) : Option (Decimal × Decimal) :=
  (pair? entry).bind (level? parse)

theorem side_eq_ok {v : Json} {levels : Levels} :
    (rawLevels v >>= parseLevels parse) = .ok levels ↔
      (∀ entry ∈ v.entries, Survivable parse entry) ∧
        levels = v.entries.filterMap (levelOf? parse) := by
  simp only [bind_eq_ok, rawLevels_eq_ok, parseLevels_eq_ok, Survivable]
  constructor
  · rintro ⟨raw, ⟨hindexable, rfl⟩, hparses, rfl⟩
    refine ⟨fun entry hentry => ⟨hindexable entry hentry, fun level hlevel => ?_⟩, ?_⟩
    · exact hparses level (List.mem_filterMap.mpr ⟨entry, hentry, hlevel⟩)
    · rw [List.filterMap_filterMap]
      rfl
  · rintro ⟨hall, rfl⟩
    refine ⟨_, ⟨fun entry hentry => (hall entry hentry).1, rfl⟩, ?_, ?_⟩
    · intro level hlevel
      obtain ⟨entry, hentry, hpair⟩ := List.mem_filterMap.mp hlevel
      exact (hall entry hentry).2 level hpair
    · rw [List.filterMap_filterMap]
      rfl

theorem decodeDepth_eq_ok {msg : Json} {e : DepthEvent} :
    decodeDepth parse msg = .ok e ↔
      ∃ bids asks, (rawLevels (msg.index "b") >>= parseLevels parse) = .ok bids ∧
        (rawLevels (msg.index "a") >>= parseLevels parse) = .ok asks ∧
        e = ⟨(msg.index "U").asU64.getD 0, (msg.index "u").asU64.getD 0,
          (msg.index "pu").asU64.getD 0, bids, asks⟩ := by
  simp only [decodeDepth, bind_eq_ok]
  constructor
  · rintro ⟨rawBids, hrawBids, rawAsks, hrawAsks, bids, hbids, asks, hasks, h⟩
    cases h
    exact ⟨bids, asks, ⟨rawBids, hrawBids, hbids⟩, ⟨rawAsks, hrawAsks, hasks⟩, rfl⟩
  · rintro ⟨bids, asks, ⟨rawBids, hrawBids, hbids⟩, ⟨rawAsks, hrawAsks, hasks⟩, rfl⟩
    exact ⟨rawBids, hrawBids, rawAsks, hrawAsks, bids, hbids, asks, hasks, rfl⟩

theorem decodeFrame_eq_ok {msg : Json} {symbol : String}
    (h : addressed msg = some (symbol, "depthUpdate")) {frame : Frame} :
    decodeFrame parse msg = .ok frame ↔
      ∃ e, decodeDepth parse msg = .ok e ∧ frame = .depthUpdate symbol e := by
  simp only [decodeFrame, h, if_true, bind_eq_ok]
  simp only [pure, Except.pure, Except.ok.injEq, eq_comm]

theorem exists_ok_of_other {msg : Json}
    (h : ∀ symbol, addressed msg ≠ some (symbol, "depthUpdate")) :
    ∃ frame, decodeFrame parse msg = .ok frame := by
  unfold decodeFrame
  cases haddressed : addressed msg with
  | none => exact ⟨_, rfl⟩
  | some address =>
      obtain ⟨symbol, evt⟩ := address
      have hevt : evt ≠ "depthUpdate" := by
        rintro rfl
        exact h symbol haddressed
      simp only [if_neg hevt]
      split_ifs <;> exact ⟨_, rfl⟩

/-- A frame gets through exactly when no entry of its sides stops the decoding, and
then the entries that are no levels are skipped; a response gets through exactly when
all its strings are decimals. -/
theorem payload_survived_iff (parse : String → Option Decimal) :
    (∀ msg : Json, (∃ frame, decodeFrame parse msg = .ok frame) ↔
      ∀ symbol, addressed msg = some (symbol, "depthUpdate") →
        ∀ side ∈ ["b", "a"], ∀ entry ∈ (msg.index side).entries, Survivable parse entry) ∧
    (∀ (msg : Json) (symbol : String) (e : DepthEvent),
      decodeFrame parse msg = .ok (.depthUpdate symbol e) →
        e.bids = (msg.index "b").entries.filterMap (levelOf? parse) ∧
          e.asks = (msg.index "a").entries.filterMap (levelOf? parse)) ∧
    (∀ data : DepthSnapshot, (∃ sides, decodeSnapshot parse data = .ok sides) ↔
      ∀ level ∈ data.bids ++ data.asks, (level? parse level).isSome) := by
  refine ⟨fun msg => ?_, fun msg symbol e h => ?_, fun data => ?_⟩
  · by_cases hdepth : ∃ symbol, addressed msg = some (symbol, "depthUpdate")
    · obtain ⟨symbol, haddressed⟩ := hdepth
      simp only [decodeFrame_eq_ok haddressed, decodeDepth_eq_ok, side_eq_ok, List.forall_mem_cons,
        List.not_mem_nil, false_implies, implies_true, and_true]
      constructor
      · rintro ⟨_, _, ⟨bids, asks, ⟨hbids, -⟩, ⟨hasks, -⟩, -⟩, -⟩ _ _
        exact ⟨hbids, hasks⟩
      · intro h
        obtain ⟨hbids, hasks⟩ := h symbol haddressed
        exact ⟨_, _, ⟨_, _, ⟨hbids, rfl⟩, ⟨hasks, rfl⟩, rfl⟩, rfl⟩
    · have hother := not_exists.mp hdepth
      exact iff_of_true (exists_ok_of_other hother)
        fun symbol haddressed => absurd haddressed (hother symbol)
  · have haddressed : addressed msg = some (symbol, "depthUpdate") := by
      unfold decodeFrame at h
      split at h
      · simp [pure, Except.pure] at h
      · next sym evt heq =>
          split_ifs at h with hevt hticker
          · obtain ⟨e', -, h⟩ := bind_eq_ok.mp h
            simp only [pure, Except.pure, Except.ok.injEq, Frame.depthUpdate.injEq] at h
            rw [heq, hevt, h.1]
          · simp [pure, Except.pure] at h
          · simp [pure, Except.pure] at h
    obtain ⟨e', he, heq⟩ := (decodeFrame_eq_ok haddressed).mp h
    obtain ⟨bids, asks, hbids, hasks, rfl⟩ := decodeDepth_eq_ok.mp he
    cases heq
    exact ⟨(side_eq_ok.mp hbids).2, (side_eq_ok.mp hasks).2⟩
  · simp only [decodeSnapshot, bind_eq_ok, parseLevels_eq_ok, List.forall_mem_append]
    constructor
    · rintro ⟨_, bids, ⟨hbids, -⟩, asks, ⟨hasks, -⟩, -⟩
      exact ⟨hbids, hasks⟩
    · rintro ⟨hbids, hasks⟩
      exact ⟨_, _, ⟨hbids, rfl⟩, _, ⟨hasks, rfl⟩, rfl⟩

end Survived

def shortLevel : Json :=
  .object [("e", .string "depthUpdate"), ("s", .string "BTCUSDT"), ("U", .posInt 1),
    ("u", .posInt 2), ("pu", .posInt 0), ("b", .array [.array [.string "1"]]), ("a", .array [])]

/-- The index `arr[1]` is past the end of the entry, whatever parses as a decimal. -/
theorem short_level_panics :
    ¬ ∃ parse : String → Option Decimal,
      ∀ msg : Json, ∃ frame, decodeFrame parse msg = .ok frame := by
  rintro ⟨parse, hall⟩
  obtain ⟨frame, hframe⟩ := hall shortLevel
  have hpanic : decodeFrame parse shortLevel = .error (.outOfBounds 1 1) := rfl
  rw [hpanic] at hframe
  cases hframe

/-! ## A panic is for good -/

theorem panicked_next {u : Universe} {s : System} {a : Act} {i : Nat}
    (ha : System.enabled u s a) (h : (s.shards i).pc = .panicked) :
    (System.next u s a).shards i = s.shards i := by
  have hstep := shards_next ha i
  generalize (System.next u s a).shards i = k at hstep
  cases hstep with
  | kept => rfl
  | _ => simp_all

/-- After a frame that panics the shard reads nothing ever again, and is still
flagged as it was. -/
theorem panic_for_good {parse : String → Option Decimal} {u : Universe} {s : System} {i : Nat}
    {now : Rat} {msg : Json} {panic : Panic} (hpanic : decodeFrame parse msg = .error panic)
    {a : Act} (hact : frameAct parse i now msg = some a) {as : List Act}
    (has : u.machine.Admits (System.next u s a) as) :
    (u.machine.exec (System.next u s a) as).shards i =
      { s.shards i with pc := .panicked } := by
  obtain rfl : a = .panicShard i := by
    simpa [frameAct, hpanic, eq_comm] using hact
  have hstays : ∀ (as : List Act) (s' : System), (s'.shards i).pc = .panicked →
      u.machine.Admits s' as → (u.machine.exec s' as).shards i = s'.shards i := by
    intro as
    induction as with
    | nil => exact fun _ _ _ => rfl
    | cons a as ih =>
        intro s' h has
        have hnext := panicked_next has.1 h
        exact (ih _ (by rw [show u.machine.next s' a = System.next u s' a from rfl, hnext, h])
          has.2).trans hnext
  have hdead : (System.next u s (.panicShard i)).shards i =
      { s.shards i with pc := .panicked } := Function.update_self _ _ _
  rw [hstays as _ (by rw [hdead]) has, hdead]

end FeedHandler.Handler
