import FeedHandler.Handler.System
import FeedHandler.Python.Book
/-!
# The shard loop of the Python port

`run_shard`, `sync_book` and `check_stale` of `python/feed_handler.py` as tasks of
one event loop: a step is what a task does between two awaits. The cleanup after a
connection stands in the handler of `Exception`. `async for` raises when the
connection is lost, and just ends when the peer closes it with code 1000 or 1001;
then the loop goes round without the cleanup.
-/

namespace FeedHandler.Python

open Lib

open Handler (Universe)

def Book.stamped (b : Book) (now : Rat) : Book := { b with lastUpdateTime := now }

inductive TaskPc
  /-- About to look at the book's state. -/
  | checking
  /-- In `fetch_snapshot`. -/
  | fetching
  | asleep
  | finished
  | cancelled
deriving DecidableEq

def TaskPc.unfinished : TaskPc → Bool
  | .finished | .cancelled => false
  | _ => true

/-- A task that runs `sync_book`, and the shard that created it, if one did. -/
structure SyncTask where
  symbol : String
  creator : Option Nat
  pc : TaskPc
deriving DecidableEq

/-- `Task.cancel`: nothing happens to a task that is done. -/
def SyncTask.cancel (k : SyncTask) : SyncTask :=
  if k.pc.unfinished then { k with pc := .cancelled } else k

inductive ShardPc
  | connecting
  /-- Sending the subscriptions. -/
  | subscribing
  | reading
  /-- The handler has cleaned up; asleep until the next attempt. -/
  | backoff
  | stopped
deriving DecidableEq

structure Shard where
  pc : ShardPc
  connected : Bool
  /-- `sync_tasks`. -/
  syncTasks : List (String × Nat)

structure System where
  books : String → Book
  tasks : Nat → Option SyncTask
  nextTask : Nat
  shards : Nat → Shard
  /-- The book events put into the queue, oldest first. -/
  bookEvents : List Handler.BookEvent

namespace System

def setBook (s : System) (symbol : String) (b : Book) : System :=
  { s with books := Function.update s.books symbol b }

def setShard (s : System) (i : Nat) (k : Shard) : System :=
  { s with shards := Function.update s.shards i k }

def setShardPc (s : System) (i : Nat) (pc : ShardPc) : System :=
  s.setShard i { s.shards i with pc := pc }

def setTaskPc (s : System) (t : Nat) (k : SyncTask) (pc : TaskPc) : System :=
  { s with tasks := Function.update s.tasks t (some { k with pc := pc }) }

def TaskAt (s : System) (t : Nat) (pc : TaskPc) : Prop := (s.tasks t).map SyncTask.pc = some pc

instance (s : System) (t : Nat) (pc : TaskPc) : Decidable (s.TaskAt t pc) :=
  inferInstanceAs (Decidable (_ = _))

def cancel (s : System) (ids : List Nat) : System :=
  { s with tasks := fun t => if t ∈ ids then (s.tasks t).map SyncTask.cancel else s.tasks t }

def createTask (s : System) (symbol : String) (creator : Option Nat) : System :=
  { s with
    tasks := Function.update s.tasks s.nextTask (some ⟨symbol, creator, .checking⟩)
    nextTask := s.nextTask + 1 }

def requestSync (s : System) (i : Nat) (symbol : String) : System :=
  ((s.cancel (((s.shards i).syncTasks.filter fun e => decide (e.1 = symbol)).map
    Prod.snd)).createTask symbol (some i)).setShard i
      { s.shards i with
        syncTasks := (symbol, s.nextTask) ::
          (s.shards i).syncTasks.filter fun e => decide (e.1 ≠ symbol) }

def resetBooks (s : System) (symbols : List String) : System :=
  { s with books := fun symbol =>
      if symbol ∈ symbols then (s.books symbol).reset else s.books symbol }

def emit (s : System) (symbol : String) : System :=
  { s with bookEvents := s.bookEvents ++ [
      { symbol := symbol
        bids := ((s.books symbol).topLevels 20).1
        asks := ((s.books symbol).topLevels 20).2
        lastUpdateId := (s.books symbol).lastUpdateId }] }

def disconnected (u : Universe) (s : System) (i : Nat) : System :=
  ((s.resetBooks (u.shard i)).cancel ((s.shards i).syncTasks.map Prod.snd)).setShard i
    ⟨.backoff, false, []⟩

end System

def takeStale (now threshold : Rat) (acc : List String × (String → Book)) (symbol : String) :
    List String × (String → Book) :=
  if (acc.2 symbol).state = .live ∧ threshold < now - (acc.2 symbol).lastUpdateTime then
    (acc.1 ++ [(acc.2 symbol).symbol],
      Function.update acc.2 symbol ((acc.2 symbol).markForResync.stamped now))
  else acc

/-- A dict yields its values in the order of insertion. -/
def takeStaleBooks (books : String → Book) (order : List String) (now threshold : Rat) :
    List String × (String → Book) :=
  order.foldl (takeStale now threshold) ([], books)

/-! ## Steps -/

inductive Act
  | connect (i : Nat)
  | subscribed (i : Nat)
  | depth (i : Nat) (symbol : String) (now : Rat) (e : DepthEvent)
  | ticker (i : Nat) (symbol : String) (bid ask : Decimal)
  /-- The attempt fails, or the connection is lost: an exception at an await. -/
  | lost (i : Nat)
  /-- The handling of a message raises, having left the book as `b`. -/
  | processingError (i : Nat) (symbol : String) (b : Book)
  /-- The peer closes the connection with code 1000 or 1001. -/
  | normalClose (i : Nat)
  /-- The task is cancelled. -/
  | shutdown (i : Nat)
  /-- The backoff is over. -/
  | reconnect (i : Nat)
  | sweep (now : Rat)
  | check (t : Nat)
  | respond (t : Nat) (lastUpdateId : Nat) (bids asks : Levels)
  /-- The fetch raises. -/
  | fetchError (t : Nat)
  | wake (t : Nat)

namespace System

def respond (s : System) (t : Nat) (k : SyncTask) (lastUpdateId : Nat) (bids asks : Levels) :
    System :=
  let result := (s.books k.symbol).onSnapshot lastUpdateId bids asks
  (s.setBook k.symbol result.2).setTaskPc t k (if result.1 then .finished else .asleep)

def enabled (u : Universe) (s : System) : Act → Prop
  | .connect i => (s.shards i).pc = .connecting
  | .subscribed i => (s.shards i).pc = .subscribing
  | .depth i symbol _ _ | .ticker i symbol _ _ | .processingError i symbol _ =>
      (s.shards i).pc = .reading ∧ symbol ∈ u.shard i
  | .lost i => (s.shards i).pc = .connecting ∨ (s.shards i).pc = .subscribing ∨
      (s.shards i).pc = .reading
  | .normalClose i => (s.shards i).pc = .reading
  | .shutdown i => (s.shards i).pc ≠ .stopped
  | .reconnect i => (s.shards i).pc = .backoff
  | .sweep _ => True
  | .check t => s.TaskAt t .checking
  | .respond t _ _ _ | .fetchError t => s.TaskAt t .fetching
  | .wake t => s.TaskAt t .asleep

instance (u : Universe) (s : System) (a : Act) : Decidable (enabled u s a) := by
  cases a <;> unfold enabled <;> infer_instance

def next (u : Universe) (s : System) : Act → System
  | .connect i => s.setShard i { s.shards i with pc := .subscribing, connected := true }
  | .subscribed i => s.setShardPc i .reading
  | .depth i symbol now e =>
      let result := ((s.books symbol).stamped now).onDepth e
      match result.1 with
      | .needSnapshot => (s.setBook symbol result.2).requestSync i symbol
      | .publish => (s.setBook symbol result.2).emit symbol
      | .none_ => s.setBook symbol result.2
  | .ticker _ symbol bid ask => s.setBook symbol ((s.books symbol).setTickerBbo bid ask)
  | .lost i => s.disconnected u i
  | .processingError i symbol b => (s.setBook symbol b).disconnected u i
  -- no exception, so no handler
  | .normalClose i => s.setShardPc i .connecting
  | .shutdown i => (s.cancel ((s.shards i).syncTasks.map Prod.snd)).setShardPc i .stopped
  | .reconnect i => s.setShardPc i .connecting
  | .sweep now =>
      let stale := takeStaleBooks s.books u.symbols now Handler.staleThreshold
      stale.1.foldl (fun s symbol => s.createTask symbol none) { s with books := stale.2 }
  | .check t =>
      match s.tasks t with
      | some k =>
          s.setTaskPc t k (if (s.books k.symbol).state = .buffering then .fetching else .finished)
      | none => s
  | .respond t lastUpdateId bids asks =>
      match s.tasks t with
      | some k => s.respond t k lastUpdateId bids asks
      | none => s
  | .fetchError t =>
      match s.tasks t with
      | some k => s.setTaskPc t k .asleep
      | none => s
  | .wake t =>
      match s.tasks t with
      | some k => s.setTaskPc t k .checking
      | none => s

def start : System where
  books := Book.new
  tasks _ := none
  nextTask := 0
  shards _ := ⟨.connecting, false, []⟩
  bookEvents := []

end System

def machine (u : Universe) : Machine System Act where
  initial s := s = System.start
  enabled := System.enabled u
  next := System.next u

instance (u : Universe) (s : System) (a : Act) : Decidable ((machine u).enabled s a) :=
  inferInstanceAs (Decidable (System.enabled u s a))

end FeedHandler.Python
