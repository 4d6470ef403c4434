import FeedHandler.Lib.Locks
import Mathlib.Data.Fintype.Order
/-!
# The locks of the Rust process

Three `tokio::sync::Mutex`es are shared by all its tasks: the books, the shard table
and the subscriber list. The control-flow graph below has the lock calls of every
function that takes one, in source order, and between them what the task may wait for;
what it computes is left out, so both branches of a test on data are edges. Most
critical sections are one statement. Two are not: `sync_book` keeps the books locked
over the 500 ms sleep that follows a refused snapshot, and `Telemetry::gather` holds
them while it locks first the shard table and then the subscriber list.
-/

namespace FeedHandler.Locks

open Lib

inductive Lock
  | books
  | shardInfos
  | subscribers

namespace Lock

def level : Lock → Fin 3
  | books => 0
  | shardInfos => 1
  | subscribers => 2

theorem level_injective : Function.Injective level := by
  intro k l h
  cases k <;> cases l <;> first | rfl | simp [level] at h

instance : LinearOrder Lock := LinearOrder.lift' level level_injective

instance : Finite Lock := Finite.of_injective level level_injective

end Lock

/-- Who calls `Telemetry::gather`: an HTTP handler once, `log_stats` for ever. -/
inductive Caller
  | handler
  | logStats
deriving DecidableEq

/-- What a client session does after `unsubscribe`. -/
inductive After
  | resubscribe
  | acknowledge
  | close
deriving DecidableEq

/-- The critical sections, by the function and statement that open them. -/
inductive Section
  /-- `run_shard`: `infos[shard_id].connected = true`. -/
  | setConnected
  /-- `run_shard`: `infos[shard_id].msg_count += 1`. -/
  | countMessage
  /-- `run_shard`: `infos[shard_id].latency_ms = Some(latency)`. -/
  | setLatency
  /-- `run_shard`: `book.on_depth(..)`. -/
  | onDepth
  /-- `run_shard`: `book.top_levels(20)` and `put`. -/
  | publishBook
  /-- `run_shard`: `book.set_ticker_bbo(bid, ask)`. -/
  | setTicker
  /-- `run_shard`: `infos[shard_id].connected = false`. -/
  | setDisconnected
  /-- `run_shard`: `book.reset()` for every symbol. -/
  | resetBooks
  /-- `sync_book`: is the book still buffering. -/
  | checkBuffering
  /-- `sync_book`: `book.on_snapshot(..)`. -/
  | onSnapshot
  /-- `check_stale`: `take_stale_books(..)`. -/
  | takeStale
  /-- `Telemetry::gather`, all of it. -/
  | gather (caller : Caller)
  /-- `gather`: `shard_infos.lock().await.clone()`. -/
  | cloneInfos (caller : Caller)
  /-- `gather`: `publisher::subscriber_count()`. -/
  | subscriberCount (caller : Caller)
  /-- `publish`: reap and fan out. -/
  | publish
  | subscribe
  | unsubscribe (after : After)
deriving DecidableEq

namespace Section

def lock : Section → Lock
  | onDepth | publishBook | setTicker | resetBooks | checkBuffering | onSnapshot | takeStale
  | gather _ => .books
  | setConnected | countMessage | setLatency | setDisconnected | cloneInfos _ => .shardInfos
  | subscriberCount _ | publish | subscribe | unsubscribe _ => .subscribers

/-- The locks already held where the section opens. -/
def outer : Section → List Lock
  | cloneInfos _ | subscriberCount _ => [.books]
  | _ => []

end Section

inductive Point
  /-- At the `lock().await` of a section. -/
  | asking (s : Section)
  | inside (s : Section)
  /-- Where the guard is dropped. -/
  | leaving (s : Section)
  /-- `run_shard`: `connect_async`. -/
  | connecting
  /-- `run_shard`: `write.send(..).await` for each batch. -/
  | subscribing
  /-- `run_shard`: `read.next().await`. -/
  | reading
  | parsing
  /-- `run_shard`: the event type decides. -/
  | dispatching
  /-- `run_shard`: the `Action` decides; `request_sync` starts a task and does not wait. -/
  | acting
  | publishingBbo
  /-- `run_shard`: aborts its sync tasks, then sleeps before the next attempt. -/
  | backoff
  /-- `sync_book`: `fetch_snapshot`, its wait for the pacer included. -/
  | fetching
  /-- `sync_book`: the sleep after a failed request. -/
  | retrying
  /-- `sync_book`: the 500 ms sleep after a refused snapshot, books locked. -/
  | refused
  /-- `sync_book`: the guard is dropped at the end of the match arm. -/
  | leavingRefused
  /-- `check_stale`: sleeps between sweeps. -/
  | sweeping
  /-- `check_stale`: starts a sync task for each stale book. -/
  | spawning
  /-- `gather`: the loop over the books. -/
  | countingBooks (caller : Caller)
  /-- `log_stats`: sleeps, and later logs. -/
  | logging
  /-- `run_dispatcher`: waits for an event. -/
  | receiving
  /-- `handle_ws_client`: waits for a request. -/
  | requested
  /-- `handle_ws_client`: sends the confirmation, then streams. -/
  | streaming
  /-- `handle_ws_client`: sends the acknowledgement of an unsubscribe. -/
  | acknowledging
  | finished
deriving DecidableEq

namespace Section

/-- What follows once the lock is granted. -/
def opened : Section → List Point
  | onSnapshot => [.leaving onSnapshot, .refused]
  | gather caller => [.asking (cloneInfos caller)]
  | s => [.leaving s]

/-- What follows once the guard is dropped. -/
def closed : Section → List Point
  | setConnected => [.subscribing]
  | countMessage => [.parsing]
  | setLatency => [.dispatching]
  | onDepth => [.acting]
  | publishBook => [.reading]
  | setTicker => [.publishingBbo]
  | setDisconnected => [.asking resetBooks]
  | resetBooks => [.backoff]
  | checkBuffering => [.fetching, .finished]
  | onSnapshot => [.finished]
  | takeStale => [.spawning]
  | gather .handler => [.finished]
  | gather .logStats => [.logging]
  | cloneInfos caller => [.countingBooks caller]
  | subscriberCount caller => [.leaving (gather caller)]
  | publish => [.receiving]
  | subscribe => [.streaming]
  | unsubscribe .resubscribe => [.asking subscribe]
  | unsubscribe .acknowledge => [.acknowledging]
  | unsubscribe .close => [.finished]

end Section

namespace Point

/-- Where the tasks of the process start: shards, syncs, the stale sweep, requests to the
health server, `log_stats`, the two dispatchers and client sessions. -/
def entries : List Point :=
  [connecting, asking .checkBuffering, sweeping, asking (.gather .handler), logging, receiving,
    requested]

def op : Point → Op Lock
  | asking s => .lock s.lock
  | leaving s => .unlock s.lock
  | leavingRefused => .unlock .books
  | connecting | subscribing | reading | fetching | receiving | requested | streaming
  | acknowledging => .wait
  | finished => .exit
  | _ => .step

def succ : Point → List Point
  | asking s => [inside s]
  | inside s => s.opened
  | leaving s => s.closed
  | connecting => [asking .setConnected, asking .setDisconnected]
  | subscribing => [subscribing, reading]
  | reading => [reading, asking .countMessage, asking .setDisconnected]
  | parsing => [reading, asking .setLatency, dispatching]
  | dispatching => [reading, asking .onDepth, asking .setTicker]
  | acting => [reading, asking .publishBook]
  | publishingBbo => [reading]
  | backoff => [connecting]
  | fetching => [retrying, asking .onSnapshot]
  | retrying => [asking .checkBuffering]
  | refused => [leavingRefused]
  | leavingRefused => [asking .checkBuffering]
  | sweeping => [asking .takeStale]
  | spawning => [sweeping]
  | countingBooks caller => [asking (.subscriberCount caller)]
  | logging => [asking (.gather .logStats)]
  | receiving => [asking .publish, finished]
  | requested => [requested, asking (.unsubscribe .resubscribe), asking .subscribe,
      asking (.unsubscribe .close), finished]
  | streaming => [streaming, asking (.unsubscribe .acknowledge), requested]
  | acknowledging => [requested]
  | finished => []

/-- The locks whose guards are alive, innermost first. -/
def held : Point → List Lock
  | asking s => s.outer
  | inside s | leaving s => s.lock :: s.outer
  | refused | leavingRefused | countingBooks _ => [.books]
  | _ => []

def rank : Point → Nat
  | inside (.gather _) => 9
  | asking (.cloneInfos _) => 8
  | inside (.cloneInfos _) => 7
  | leaving (.cloneInfos _) => 6
  | countingBooks _ => 5
  | asking (.subscriberCount _) => 4
  | inside (.subscriberCount _) => 3
  | leaving (.subscriberCount _) => 2
  | inside _ => 3
  | refused => 2
  | _ => 1

end Point

def program : Program Point Lock where
  entry p := p ∈ Point.entries
  op := Point.op
  succ := Point.succ

instance : DecidablePred program.entry :=
  inferInstanceAs (DecidablePred fun p => p ∈ Point.entries)

/-! ## The discipline -/

theorem Section.held_of_opened {s : Section} {q : Point} (hq : q ∈ s.opened) :
    q.held = s.lock :: s.outer := by
  cases s with
  | onSnapshot =>
      simp only [Section.opened, List.mem_cons, List.not_mem_nil, or_false] at hq
      rcases hq with rfl | rfl <;> rfl
  | gather caller =>
      obtain rfl := List.mem_singleton.mp hq
      rfl
  | _ =>
      obtain rfl := List.mem_singleton.mp hq
      rfl

theorem Section.held_of_closed {s : Section} {q : Point} (hq : q ∈ s.closed) :
    q.held = s.outer := by
  cases s with
  | checkBuffering =>
      simp only [Section.closed, List.mem_cons, List.not_mem_nil, or_false] at hq
      rcases hq with rfl | rfl <;> rfl
  | gather caller =>
      cases caller <;>
      · obtain rfl := List.mem_singleton.mp hq
        rfl
  | unsubscribe after =>
      cases after <;>
      · obtain rfl := List.mem_singleton.mp hq
        rfl
  | _ =>
      obtain rfl := List.mem_singleton.mp hq
      rfl

theorem Section.outer_lt (s : Section) : ∀ k ∈ s.outer, k < s.lock := by
  cases s <;> simp [Section.outer, Section.lock] <;> decide

theorem Section.closed_ne_nil (s : Section) : s.closed ≠ [] := by
  cases s with
  | gather caller => cases caller <;> exact List.cons_ne_nil _ _
  | unsubscribe after => cases after <;> exact List.cons_ne_nil _ _
  | _ => exact List.cons_ne_nil _ _

theorem Section.opened_ne_nil (s : Section) : s.opened ≠ [] := by
  cases s <;> exact List.cons_ne_nil _ _

theorem Section.rank_inside_lt {s : Section} (h : s.outer ≠ []) :
    (Point.inside s).rank < (Point.asking s).rank := by
  cases s <;> simp [Point.rank, Section.outer] at h ⊢

theorem Section.rank_opened_lt {s : Section} {q : Point} (hq : q ∈ s.opened) :
    q.rank < (Point.inside s).rank := by
  cases s with
  | onSnapshot =>
      simp only [Section.opened, List.mem_cons, List.not_mem_nil, or_false] at hq
      rcases hq with rfl | rfl <;> simp [Point.rank]
  | _ =>
      obtain rfl := List.mem_singleton.mp hq
      simp [Point.rank]

theorem Section.rank_closed_lt {s : Section} (h : s.outer ≠ []) {q : Point}
    (hq : q ∈ s.closed) : q.rank < (Point.leaving s).rank := by
  cases s <;> simp [Section.closed, Section.outer] at h hq <;> simp [hq, Point.rank]

def discipline : Disciplined program where
  held := Point.held
  rank := Point.rank
  entry_held p hp := by
    have hall : ∀ q ∈ Point.entries, q.held = [] := by decide
    exact hall p hp
  wait_held p hp := by
    cases p <;> simp_all [program, Point.op, Point.succ, Point.held, Section.outer]
  exit_held p hp := by
    cases p <;> simp_all [program, Point.op, Point.succ, Point.held]
  step_held p hp q hq := by
    cases p with
    | inside s => exact Section.held_of_opened hq
    | parsing | dispatching | acting =>
        simp only [program, Point.succ, List.mem_cons, List.not_mem_nil, or_false] at hq
        casesm* _ ∨ _ <;> subst q <;> rfl
    | publishingBbo | backoff | retrying | refused | sweeping | spawning | logging =>
        obtain rfl := List.mem_singleton.mp hq
        rfl
    | countingBooks caller =>
        obtain rfl := List.mem_singleton.mp hq
        rfl
    | _ => simp [program, Point.op] at hp
  lock_held p l hp := by
    cases p with
    | asking s =>
        obtain rfl : s.lock = l := Op.lock.inj hp
        refine ⟨s.outer_lt, fun q hq => ?_⟩
        obtain rfl := List.mem_singleton.mp hq
        rfl
    | _ => simp [program, Point.op] at hp
  unlock_held p l hp q hq := by
    cases p with
    | leaving s =>
        obtain rfl : s.lock = l := Op.unlock.inj hp
        rw [Section.held_of_closed hq]
        rfl
    | leavingRefused =>
        obtain rfl : Lock.books = l := Op.unlock.inj hp
        obtain rfl := List.mem_singleton.mp hq
        rfl
    | _ => simp [program, Point.op] at hp
  goes_on p hp := by
    cases p with
    | inside s => exact s.opened_ne_nil
    | leaving s => exact s.closed_ne_nil
    | finished => exact absurd rfl hp
    | _ => exact List.cons_ne_nil _ _
  falls p hp q hq hheld := by
    cases p with
    | asking s =>
        obtain rfl := List.mem_singleton.mp hq
        exact Section.rank_inside_lt hp
    | inside s => exact Section.rank_opened_lt hq
    | leaving s =>
        rw [Section.held_of_closed hq] at hheld
        exact Section.rank_closed_lt hheld hq
    | refused =>
        obtain rfl := List.mem_singleton.mp hq
        decide
    | leavingRefused =>
        obtain rfl := List.mem_singleton.mp hq
        exact absurd rfl hheld
    | countingBooks caller =>
        obtain rfl := List.mem_singleton.mp hq
        exact Nat.lt_succ_self 4
    | _ => exact absurd rfl hp
  ascending p := by
    cases p with
    | asking s => cases s <;> simp [Point.held, Section.outer]
    | inside s | leaving s => cases s <;> simp [Point.held, Section.outer, Section.lock] <;> decide
    | _ => simp [Point.held]

/-! ## Every run of the process -/

variable {T : Type} [DecidableEq T]

def Holds (c : Config T Point Lock) (i : T) (l : Lock) : Prop :=
  ∃ p, c.point i = some p ∧ l ∈ p.held

omit [DecidableEq T] in
theorem head?_of_holds {c : Config T Point Lock} (h : discipline.Kept c) {i : T} {l : Lock}
    (hi : Holds c i l) : (c.queue l).head? = some i := by
  obtain ⟨p, hp, hl⟩ := hi
  exact h.holds i p l hp hl

/-- A sync task looks at its book while a `/health` request waits behind it. -/
def contended : List (TaskAct Nat Point) :=
  [.spawn 0 (.asking .checkBuffering), .ask 0,
    .spawn 1 (.asking (.gather .handler)), .ask 1]

def resolved : List (TaskAct Nat Point) :=
  [.move 0 (.inside .checkBuffering), .move 0 (.leaving .checkBuffering), .move 0 .finished,
    .drop 0, .move 1 (.inside (.gather .handler)), .move 1 (.asking (.cloneInfos .handler)),
    .ask 1, .move 1 (.inside (.cloneInfos .handler)), .move 1 (.leaving (.cloneInfos .handler)),
    .move 1 (.countingBooks .handler), .move 1 (.asking (.subscriberCount .handler)), .ask 1,
    .move 1 (.inside (.subscriberCount .handler)),
    .move 1 (.leaving (.subscriberCount .handler)), .move 1 (.leaving (.gather .handler)),
    .move 1 .finished, .drop 1]

/-- No two tasks hold one lock, and whenever a lock is held or waited for, the task at
the head of its queue or of a higher one can act by itself, with nothing outside to wait
for: no cycle of waiting tasks can form, the shutdown of a task at any point included. -/
theorem never_deadlocked {c : Config T Point Lock} (hc : program.machine.Reachable c) :
    (∀ l i j, Holds c i l → Holds c j l → i = j) ∧
      ∀ l, c.queue l ≠ [] →
        ∃ k, l ≤ k ∧ ∃ i, (c.queue k).head? = some i ∧ program.CanAct c i := by
  have hkept := discipline.kept_reachable hc
  constructor
  · intro l i j hi hj
    have hi' := head?_of_holds hkept hi
    rw [head?_of_holds hkept hj] at hi'
    exact (Option.some.inj hi').symm
  · exact discipline.unstuck hkept

theorem never_deadlocked_contended :
    (∀ l i j, Holds (program.machine.exec Program.start contended) i l →
        Holds (program.machine.exec Program.start contended) j l → i = j) ∧
      ∀ l, (program.machine.exec Program.start contended).queue l ≠ [] →
        ∃ k, l ≤ k ∧ ∃ i, ((program.machine.exec Program.start contended).queue k).head? = some i ∧
          program.CanAct (program.machine.exec Program.start contended) i :=
  never_deadlocked ((Machine.Reachable.start rfl).exec contended (by decide))

/-- In a fair run every `lock().await` returns, and every guard is dropped again. -/
theorem every_lock_granted {r : Machine.Run (program.machine (T := T))}
    (hfair : Disciplined.FairRun r) (i : T) :
    (∀ s, r.LeadsTo (fun c => c.point i = some (.asking s))
      fun c => c.point i = none ∨ c.point i = some (.inside s)) ∧
    ∀ l, r.LeadsTo (fun c => Holds c i l) fun c => ¬ Holds c i l := by
  constructor
  · intro s
    apply (discipline.leadsTo_past hfair i (.asking s) (l := s.lock) rfl).trans
    apply Machine.Run.LeadsTo.of_imp r
    rintro c - (hnone | ⟨q, hq, hpq, -⟩)
    · exact Or.inl hnone
    · obtain rfl := List.mem_singleton.mp hq
      exact Or.inr hpq
  · intro l n hholds
    have hhead := head?_of_holds (discipline.kept_reachable (r.reachable n)) hholds
    obtain ⟨k, hnk, hgone⟩ := discipline.leadsTo_released hfair l i n hhead
    refine ⟨k, hnk, fun hstill => hgone ?_⟩
    exact List.mem_of_head? (head?_of_holds (discipline.kept_reachable (r.reachable k)) hstill)

theorem admits_resolved : program.machine.Admits Program.start (contended ++ resolved) := by
  decide

theorem point_resolved (i : Nat) :
    (program.machine.exec Program.start (contended ++ resolved)).point i = none := by
  have htasks : ∀ a ∈ contended ++ resolved, a.task < 2 := by decide
  by_cases hi : i < 2
  · obtain rfl | rfl : i = 0 ∨ i = 1 := by omega
    · rfl
    · rfl
  · apply Program.point_exec_of_ne
    intro a ha
    have := htasks a ha
    omega

theorem fair_resolved :
    Disciplined.FairRun (Machine.Run.ofList (m := program.machine) _ rfl admits_resolved) := by
  intro i
  apply Machine.Run.fair_ofList
  rintro ⟨p, hp, -⟩
  rw [point_resolved i] at hp
  simp at hp

theorem every_lock_granted_resolved :
    (∀ s, (Machine.Run.ofList (m := program.machine) _ rfl admits_resolved).LeadsTo
      (fun c => c.point 1 = some (.asking s))
      fun c => c.point 1 = none ∨ c.point 1 = some (.inside s)) ∧
    ∀ l, (Machine.Run.ofList (m := program.machine) _ rfl admits_resolved).LeadsTo
      (fun c => Holds c 1 l) fun c => ¬ Holds c 1 l :=
  every_lock_granted fair_resolved 1

end FeedHandler.Locks
