import FeedHandler.Book.Basic
import Mathlib.Logic.Function.Basic
import Mathlib.Data.List.Perm.Basic
/-!
# The feed handler as a system of tasks

`run_shard`, `sync_book` and `check_stale` of `rust/src/feed_handler.rs` as
tasks that share the books. A step is what a task does between two points where
others may run: one lock of the books is one step, and so is what it does before
the next `await` without the lock. The guard a `sync_book` takes for
`on_snapshot` lives until the end of its match arm, so a task whose snapshot was
refused sleeps with the books locked.
-/

namespace FeedHandler

open Lib

/-- `book.last_update_time = now`. -/
def Book.stamped (b : Book) (now : Rat) : Book := { b with lastUpdateTime := now }

namespace Handler

def maxSymbolsPerShard : Nat := 100

/-- Seconds of silence after which a live book is stale. -/
def staleThreshold : Rat := 30

structure Universe where
  symbols : List String
  nodup : symbols.Nodup

/-- `symbols.chunks(MAX_SYMBOLS_PER_SHARD)`. A shard after the last has none. -/
def Universe.shard (u : Universe) (i : Nat) : List String :=
  (u.symbols.drop (maxSymbolsPerShard * i)).take maxSymbolsPerShard

/-- Where a `sync_book` is. -/
inductive TaskPc
  /-- At the top of its loop, before the look at the book's state. -/
  | checking
  /-- Waiting for the pacer. -/
  | requesting
  /-- The request is out. -/
  | inFlight
  /-- Its snapshot was refused: asleep, with the books locked. -/
  | asleepLocked
  /-- Its fetch failed: asleep. -/
  | retrying
  | finished
  | aborted
  | panicked
deriving DecidableEq

def TaskPc.unfinished : TaskPc → Bool
  | .finished | .aborted | .panicked => false
  | _ => true

/-- `JoinHandle::abort`: a task that has ended is left alone. -/
def TaskPc.abort (pc : TaskPc) : TaskPc := if pc.unfinished then .aborted else pc

/-- A spawned `sync_book`. The stale sweeper's have no spawner: nobody holds
their handles. -/
structure SyncTask where
  symbol : String
  spawner : Option Nat
  pc : TaskPc
deriving DecidableEq

def SyncTask.abort (k : SyncTask) : SyncTask := { k with pc := k.pc.abort }

/-- Where a `run_shard` is. -/
inductive ShardPc
  | connecting
  | reading
  /-- `on_depth` asked for a snapshot; the sync is not requested yet. -/
  | needSnapshot (symbol : String)
  /-- `on_depth` said publish; the levels are not read yet. -/
  | publishing (symbol : String)
  /-- The connection ended, or never came up. -/
  | closed
  /-- The shard is flagged as not connected. -/
  | flagged
  /-- Its books are reset. -/
  | booksReset
  /-- Its syncs are aborted; asleep until the next attempt. -/
  | backoff
  | panicked
deriving DecidableEq

structure Shard where
  pc : ShardPc
  connected : Bool
  /-- `sync_handles`: the sync task last requested for each symbol. -/
  syncHandles : List (String × Nat)

structure BookEvent where
  symbol : String
  bids : Levels
  asks : Levels
  lastUpdateId : Nat
deriving DecidableEq

structure System where
  books : String → Book
  tasks : Nat → Option SyncTask
  nextTask : Nat
  shards : Nat → Shard
  /-- What `check_stale` has marked and not yet spawned a sync for. -/
  stale : List String
  /-- The task asleep with the books locked. -/
  lock : Option Nat
  /-- The book events handed to `put`, oldest first. -/
  bookEvents : List BookEvent

namespace System

def setBook (s : System) (symbol : String) (b : Book) : System :=
  { s with books := Function.update s.books symbol b }

def setShard (s : System) (i : Nat) (k : Shard) : System :=
  { s with shards := Function.update s.shards i k }

def setShardPc (s : System) (i : Nat) (pc : ShardPc) : System :=
  s.setShard i { s.shards i with pc := pc }

def setTaskPc (s : System) (t : Nat) (k : SyncTask) (pc : TaskPc) : System :=
  { s with tasks := Function.update s.tasks t (some { k with pc := pc }) }

def TaskAt (s : System) (t : Nat) (pc : TaskPc) : Prop := (s.tasks t).map SyncTask.pc = some pc

instance (s : System) (t : Nat) (pc : TaskPc) : Decidable (s.TaskAt t pc) :=
  inferInstanceAs (Decidable (_ = _))

/-- Abort these tasks; one that held the lock lets go of it. -/
def abort (s : System) (ids : List Nat) : System :=
  { s with
    tasks := fun t => if t ∈ ids then (s.tasks t).map SyncTask.abort else s.tasks t
    lock := s.lock.filter fun t => decide (t ∉ ids) }

/-- `tokio::spawn(sync_book(..))`. -/
def spawn (s : System) (symbol : String) (spawner : Option Nat) : System :=
  { s with
    tasks := Function.update s.tasks s.nextTask (some ⟨symbol, spawner, .checking⟩)
    nextTask := s.nextTask + 1 }

/-! ## `run_shard` -/

def handlesFor (s : System) (i : Nat) (symbol : String) : List Nat :=
  ((s.shards i).syncHandles.filter fun h => decide (h.1 = symbol)).map Prod.snd

/-- Abort the sync last requested for the symbol and spawn a new one. -/
def requestSync (s : System) (i : Nat) (symbol : String) : System :=
  ((s.abort (s.handlesFor i symbol)).spawn symbol (some i)).setShard i
    { s.shards i with
      pc := .reading
      syncHandles := (symbol, s.nextTask) ::
        (s.shards i).syncHandles.filter fun h => decide (h.1 ≠ symbol) }

def resetBooks (s : System) (symbols : List String) : System :=
  { s with books := fun symbol =>
      if symbol ∈ symbols then (s.books symbol).reset else s.books symbol }

def abortHandles (s : System) (i : Nat) : System :=
  (s.abort ((s.shards i).syncHandles.map Prod.snd)).setShard i
    { s.shards i with pc := .backoff, syncHandles := [] }

def emit (s : System) (symbol : String) : System :=
  { s with bookEvents := s.bookEvents ++ [
      { symbol := symbol
        bids := ((s.books symbol).topLevels 20).1
        asks := ((s.books symbol).topLevels 20).2
        lastUpdateId := (s.books symbol).lastUpdateId }] }

end System

/-! ## `check_stale` -/

/-- A live book that has been silent for too long. -/
def Stale (b : Book) (now threshold : Rat) : Prop :=
  b.state = .live ∧ threshold < now - b.lastUpdateTime

instance (b : Book) (now threshold : Rat) : Decidable (Stale b now threshold) :=
  inferInstanceAs (Decidable (_ ∧ _))

def takeStale (now threshold : Rat) (acc : List String × (String → Book)) (symbol : String) :
    List String × (String → Book) :=
  if Stale (acc.2 symbol) now threshold then
    (acc.1 ++ [(acc.2 symbol).symbol],
      Function.update acc.2 symbol ((acc.2 symbol).markForResync.stamped now))
  else acc

/-- Mark every live-but-silent book for resync and return the symbols to
re-snapshot. `order` is the order in which the map yields its books. -/
def takeStaleBooks (books : String → Book) (order : List String) (now threshold : Rat) :
    List String × (String → Book) :=
  order.foldl (takeStale now threshold) ([], books)

/-! ## Steps -/

inductive Act
  /-- `connect_async` succeeded and the streams are subscribed to. -/
  | connect (i : Nat)
  | connectFail (i : Nat)
  /-- A depth update is handled at clock reading `now`. -/
  | depth (i : Nat) (symbol : String) (now : Rat) (e : DepthEvent)
  | ticker (i : Nat) (symbol : String) (bid ask : Decimal)
  | requestSync (i : Nat)
  | emit (i : Nat)
  /-- The read loop ends: a close frame, an error, or the end of the stream. -/
  | close (i : Nat)
  /-- A payload that cannot be parsed kills the shard task. -/
  | panicShard (i : Nat)
  | markDisconnected (i : Nat)
  | resetBooks (i : Nat)
  | abortHandles (i : Nat)
  /-- The backoff is over. -/
  | reconnect (i : Nat)
  | sweep (now : Rat) (order : List String)
  | spawnResync
  | check (t : Nat)
  | send (t : Nat)
  | fail (t : Nat)
  | respond (t : Nat) (lastUpdateId : Nat) (bids asks : Levels)
  /-- A response that cannot be parsed kills the sync task. -/
  | panicTask (t : Nat)
  | wake (t : Nat)

def ShardPc.after (symbol : String) : Action → ShardPc
  | .publish => .publishing symbol
  | .needSnapshot => .needSnapshot symbol
  | .none_ => .reading

def ShardPc.asking : ShardPc → Option String
  | .needSnapshot symbol => some symbol
  | _ => none

def ShardPc.emitting : ShardPc → Option String
  | .publishing symbol => some symbol
  | _ => none

namespace System

def respond (s : System) (t : Nat) (k : SyncTask) (lastUpdateId : Nat) (bids asks : Levels) :
    System :=
  let result := (s.books k.symbol).onSnapshot lastUpdateId bids asks
  if result.1 then (s.setBook k.symbol result.2).setTaskPc t k .finished
  else { (s.setBook k.symbol result.2).setTaskPc t k .asleepLocked with lock := some t }

def enabled (u : Universe) (s : System) : Act → Prop
  | .connect i | .connectFail i => (s.shards i).pc = .connecting
  -- a connection carries the streams its shard subscribed to
  | .depth i symbol _ _ | .ticker i symbol _ _ =>
      (s.shards i).pc = .reading ∧ symbol ∈ u.shard i ∧ s.lock = none
  | .requestSync i => (s.shards i).pc.asking.isSome
  | .emit i => (s.shards i).pc.emitting.isSome ∧ s.lock = none
  | .close i | .panicShard i => (s.shards i).pc = .reading
  | .markDisconnected i => (s.shards i).pc = .closed
  | .resetBooks i => (s.shards i).pc = .flagged ∧ s.lock = none
  | .abortHandles i => (s.shards i).pc = .booksReset
  | .reconnect i => (s.shards i).pc = .backoff
  | .sweep _ order => s.stale = [] ∧ s.lock = none ∧ order.Perm u.symbols
  | .spawnResync => s.stale ≠ []
  | .check t => s.TaskAt t .checking ∧ s.lock = none
  | .send t => s.TaskAt t .requesting
  | .fail t | .panicTask t => s.TaskAt t .inFlight
  | .respond t _ _ _ => s.TaskAt t .inFlight ∧ s.lock = none
  | .wake t => s.TaskAt t .retrying ∨ s.TaskAt t .asleepLocked

instance (u : Universe) (s : System) (a : Act) : Decidable (enabled u s a) := by
  cases a <;> unfold enabled <;> infer_instance

def next (u : Universe) (s : System) : Act → System
  | .connect i => s.setShard i { s.shards i with pc := .reading, connected := true }
  | .connectFail i => s.setShardPc i .closed
  | .depth i symbol now e =>
      (s.setBook symbol (((s.books symbol).stamped now).onDepth e).2).setShardPc i
        (ShardPc.after symbol (((s.books symbol).stamped now).onDepth e).1)
  | .ticker _ symbol bid ask => s.setBook symbol ((s.books symbol).setTickerBbo bid ask)
  | .requestSync i =>
      match (s.shards i).pc.asking with
      | some symbol => s.requestSync i symbol
      | none => s
  | .emit i =>
      match (s.shards i).pc.emitting with
      | some symbol => (s.emit symbol).setShardPc i .reading
      | none => s
  | .close i => s.setShardPc i .closed
  | .panicShard i => s.setShardPc i .panicked
  | .markDisconnected i => s.setShard i { s.shards i with pc := .flagged, connected := false }
  | .resetBooks i => (s.resetBooks (u.shard i)).setShardPc i .booksReset
  | .abortHandles i => s.abortHandles i
  | .reconnect i => s.setShardPc i .connecting
  | .sweep now order =>
      { s with
        stale := (takeStaleBooks s.books order now staleThreshold).1
        books := (takeStaleBooks s.books order now staleThreshold).2 }
  | .spawnResync =>
      match s.stale with
      | symbol :: rest => { s.spawn symbol none with stale := rest }
      | [] => s
  | .check t =>
      match s.tasks t with
      | some k =>
          s.setTaskPc t k (if (s.books k.symbol).state = .buffering then .requesting
            else .finished)
      | none => s
  | .send t =>
      match s.tasks t with
      | some k => s.setTaskPc t k .inFlight
      | none => s
  | .fail t =>
      match s.tasks t with
      | some k => s.setTaskPc t k .retrying
      | none => s
  | .respond t lastUpdateId bids asks =>
      match s.tasks t with
      | some k => s.respond t k lastUpdateId bids asks
      | none => s
  | .panicTask t =>
      match s.tasks t with
      | some k => s.setTaskPc t k .panicked
      | none => s
  | .wake t =>
      match s.tasks t with
      | some k =>
          { s.setTaskPc t k .checking with lock := s.lock.filter fun holder => decide (holder ≠ t) }
      | none => s

def start : System where
  books := Book.new
  tasks _ := none
  nextTask := 0
  shards _ := { pc := .connecting, connected := false, syncHandles := [] }
  stale := []
  lock := none
  bookEvents := []

end System

def Universe.machine (u : Universe) : Machine System Act where
  initial s := s = System.start
  enabled := System.enabled u
  next := System.next u

instance (u : Universe) (s : System) (a : Act) : Decidable (u.machine.enabled s a) :=
  inferInstanceAs (Decidable (System.enabled u s a))

/-- One symbol on one shard, to evaluate runs on. -/
def btc : Universe := ⟨["BTCUSDT"], by simp⟩

end Handler

end FeedHandler
