import FeedHandler.Handler.System
import FeedHandler.Book.Steps
/-!
# The system seen from one symbol

A symbol has one book, one shard, the sync tasks spawned for it and a place in
the sweeper's list. `SymbolState` is that much of the system, with its own steps;
`symbol_next` shows that every step of the system is one of them or nothing at
all for the symbol. What holds for one symbol whatever its tasks do is proved on
`SymbolState` and carried over by this theorem.
-/

namespace FeedHandler.Handler

open Lib

/-! ## One symbol -/

/-- Where the symbol's shard is, as far as the symbol is concerned. -/
inductive Phase
  /-- From the reset of the books to the outcome of the next attempt. -/
  | cleared
  | running
  /-- `on_depth` asked for a snapshot of this symbol. -/
  | asking
deriving DecidableEq

@[ext] structure SymbolState where
  book : Book
  phase : Phase
  tasks : Nat → Option TaskPc
  /-- The task registered for the symbol, if any. -/
  registered : List Nat
  /-- The sweeper has yet to spawn a sync for the symbol. -/
  marked : Bool

inductive SymbolOp
  | connect
  | deliver (now : Rat) (e : DepthEvent)
  | ticker (bid ask : Decimal)
  | requestSync (t : Nat)
  | reset
  | abortHandles
  | sweep (now : Rat)
  | spawnResync (t : Nat)
  | check (t : Nat)
  | send (t : Nat)
  | fail (t : Nat)
  | respond (t : Nat) (lastUpdateId : Nat) (bids asks : Levels)
  | panicTask (t : Nat)
  | wake (t : Nat)

namespace SymbolState

def abort (tasks : Nat → Option TaskPc) (ids : List Nat) : Nat → Option TaskPc :=
  fun t => if t ∈ ids then (tasks t).map TaskPc.abort else tasks t

def setTask (c : SymbolState) (t : Nat) (pc : TaskPc) : SymbolState :=
  { c with tasks := Function.update c.tasks t (some pc) }

def enabled (c : SymbolState) : SymbolOp → Prop
  | .connect => c.phase = .cleared
  | .deliver _ _ | .ticker _ _ | .reset => c.phase = .running
  | .requestSync t => c.phase = .asking ∧ c.tasks t = none
  | .abortHandles => c.phase = .cleared
  | .sweep _ => c.book.state = .live ∧ c.marked = false
  | .spawnResync t => c.marked = true ∧ c.tasks t = none
  | .check t => c.tasks t = some .checking
  | .send t => c.tasks t = some .requesting
  | .fail t | .respond t _ _ _ | .panicTask t => c.tasks t = some .inFlight
  | .wake t => c.tasks t = some .retrying ∨ c.tasks t = some .asleepLocked

def next (c : SymbolState) : SymbolOp → SymbolState
  | .connect => { c with phase := .running }
  | .deliver now e =>
      { c with
        book := ((c.book.stamped now).onDepth e).2
        phase := if ((c.book.stamped now).onDepth e).1 = .needSnapshot then .asking else .running }
  | .ticker bid ask => { c with book := c.book.setTickerBbo bid ask }
  | .requestSync t =>
      { c with
        phase := .running
        tasks := Function.update (abort c.tasks c.registered) t (some .checking)
        registered := [t] }
  | .reset => { c with book := c.book.reset, phase := .cleared }
  | .abortHandles => { c with tasks := abort c.tasks c.registered, registered := [] }
  | .sweep now =>
      { c with book := c.book.markForResync.stamped now, marked := true }
  | .spawnResync t => { c.setTask t .checking with marked := false }
  | .check t => c.setTask t (if c.book.state = .buffering then .requesting else .finished)
  | .send t => c.setTask t .inFlight
  | .fail t => c.setTask t .retrying
  | .respond t lastUpdateId bids asks =>
      { c.setTask t (if (c.book.onSnapshot lastUpdateId bids asks).1 then .finished
          else .asleepLocked) with
        book := (c.book.onSnapshot lastUpdateId bids asks).2 }
  | .panicTask t => c.setTask t .panicked
  | .wake t => c.setTask t .checking

@[simp] theorem setTask_tasks (c : SymbolState) (t t' : Nat) (pc : TaskPc) :
    (c.setTask t pc).tasks t' = if t' = t then some pc else c.tasks t' := by
  simp [setTask, Function.update_apply]

@[simp] theorem setTask_marked (c : SymbolState) (t : Nat) (pc : TaskPc) :
    (c.setTask t pc).marked = c.marked := rfl

theorem abort_eq_some {tasks : Nat → Option TaskPc} {ids : List Nat} {t : Nat} {pc : TaskPc}
    (h : abort tasks ids t = some pc) (hpc : pc.unfinished = true) :
    t ∉ ids ∧ tasks t = some pc := by
  unfold abort at h
  split_ifs at h with ht
  · obtain ⟨pc', -, rfl⟩ := Option.map_eq_some_iff.mp h
    cases pc' <;> simp [TaskPc.abort, TaskPc.unfinished] at hpc
  · exact ⟨ht, h⟩

end SymbolState

/-! ## The shard of a symbol -/

namespace Universe

def owner (u : Universe) (symbol : String) : Nat :=
  u.symbols.idxOf symbol / maxSymbolsPerShard

theorem mem_shard {u : Universe} {i : Nat} {symbol : String} :
    symbol ∈ u.shard i ↔ symbol ∈ u.symbols ∧ u.owner symbol = i := by
  unfold shard owner maxSymbolsPerShard
  rw [List.mem_take_iff_getElem]
  simp only [List.getElem_drop, List.length_drop]
  constructor
  · rintro ⟨j, hj, rfl⟩
    have hidx := u.nodup.idxOf_getElem (100 * i + j) (by omega)
    exact ⟨List.getElem_mem _, by rw [hidx]; omega⟩
  · rintro ⟨hmem, rfl⟩
    have hlt := List.idxOf_lt_length_iff.mpr hmem
    refine ⟨u.symbols.idxOf symbol % 100, by omega, ?_⟩
    have hdiv : 100 * (u.symbols.idxOf symbol / 100) + u.symbols.idxOf symbol % 100 =
        u.symbols.idxOf symbol := Nat.div_add_mod _ _
    simp only [hdiv]
    exact List.getElem_idxOf hlt

end Universe

def ShardPc.phase (symbol : String) : ShardPc → Phase
  | .booksReset | .backoff | .connecting => .cleared
  | .needSnapshot other => if other = symbol then .asking else .running
  | _ => .running

/-- The part of the system that concerns one symbol. -/
def System.symbol (u : Universe) (s : System) (symbol : String) : SymbolState where
  book := s.books symbol
  phase := (s.shards (u.owner symbol)).pc.phase symbol
  tasks t := (s.tasks t).bind fun k => if k.symbol = symbol then some k.pc else none
  registered := s.handlesFor (u.owner symbol) symbol
  marked := s.stale.contains symbol

end FeedHandler.Handler
