import FeedHandler.Lib.Fairness
import Mathlib.Data.List.Nodup
import Mathlib.Logic.Function.Basic
import Mathlib.Order.WellFounded
/-!
# Tasks that share fair locks

Tasks run programs given as control-flow graphs. Each lock has a queue of tasks: the
head holds it or has just been granted it, the others wait in the order in which they
asked. A task may be started at any time and may vanish at any point, which gives
back what it holds. A program is `Disciplined` when nested locks are taken in
ascending order and a task that holds one neither waits for anything outside nor goes
round a loop. Then no reachable configuration is stuck, and in a fair run every task
gets past every lock it asks for.
-/

namespace FeedHandler.Lib

inductive Op (L : Type)
  /-- Goes on by itself: a computation, or a timer. -/
  | step
  /-- Waits for something outside. -/
  | wait
  | lock (l : L)
  | unlock (l : L)
  | exit
deriving DecidableEq

def Op.lock? {L : Type} : Op L → Option L
  | .lock l => some l
  | _ => none

theorem Op.mem_lock? {L : Type} {op : Op L} {l : L} : op.lock? = some l ↔ op = .lock l := by
  cases op <;> simp [Op.lock?]

structure Program (P L : Type) where
  entry : P → Prop
  op : P → Op L
  succ : P → List P

/-- Where each task stands, and who has asked for each lock. -/
structure Config (T P L : Type) where
  point : T → Option P
  queue : L → List T

inductive TaskAct (T P : Type)
  | spawn (i : T) (p : P)
  | ask (i : T)
  | move (i : T) (q : P)
  /-- The task ends, is aborted or panics. -/
  | drop (i : T)

def TaskAct.task {T P : Type} : TaskAct T P → T
  | .spawn i _ => i
  | .ask i => i
  | .move i _ => i
  | .drop i => i

namespace Program

variable {T P L : Type} [DecidableEq T] [DecidableEq L] (prog : Program P L)

/-- The lock is free for the task at its head. -/
def Granted (c : Config T P L) (i : T) (p : P) : Prop :=
  ∀ l, prog.op p = .lock l → (c.queue l).head? = some i

def Enabled (c : Config T P L) : TaskAct T P → Prop
  | .spawn i p => c.point i = none ∧ prog.entry p
  | .ask i => ∃ p l, c.point i = some p ∧ prog.op p = .lock l ∧ i ∉ c.queue l
  | .move i q => ∃ p, c.point i = some p ∧ q ∈ prog.succ p ∧ prog.Granted c i p
  | .drop i => ∃ p, c.point i = some p

instance decidableGranted (c : Config T P L) (i : T) (p : P) : Decidable (prog.Granted c i p) :=
  decidable_of_iff (∀ l ∈ (prog.op p).lock?, (c.queue l).head? = some i) <| by
    cases hop : prog.op p <;> simp [Granted, Op.lock?, hop]

instance decidableEnabled [DecidableEq P] [DecidablePred prog.entry] (c : Config T P L) :
    ∀ a, Decidable (prog.Enabled c a)
  | .spawn i p => inferInstanceAs (Decidable (c.point i = none ∧ prog.entry p))
  | .ask i =>
      decidable_of_iff (∃ p ∈ c.point i, ∃ l ∈ (prog.op p).lock?, i ∉ c.queue l) <| by
        simp [Enabled, Op.mem_lock?]
  | .move i q =>
      decidable_of_iff (∃ p ∈ c.point i, q ∈ prog.succ p ∧ prog.Granted c i p) <| by
        simp [Enabled]
  | .drop i => decidable_of_iff (∃ p ∈ c.point i, True) <| by simp [Enabled]

def asked (queue : L → List T) (i : T) : Op L → L → List T
  | .lock l => Function.update queue l (queue l ++ [i])
  | _ => queue

def moved (queue : L → List T) (i : T) : Op L → L → List T
  | .unlock l => Function.update queue l ((queue l).erase i)
  | _ => queue

def step (c : Config T P L) : TaskAct T P → Config T P L
  | .spawn i p => { c with point := Function.update c.point i (some p) }
  | .ask i => { c with queue := (c.point i).elim c.queue fun p => asked c.queue i (prog.op p) }
  | .move i q =>
      { point := Function.update c.point i (some q)
        queue := (c.point i).elim c.queue fun p => moved c.queue i (prog.op p) }
  | .drop i =>
      { point := Function.update c.point i none
        queue := fun l => (c.queue l).erase i }

def start : Config T P L := ⟨fun _ => none, fun _ => []⟩

def machine : Machine (Config T P L) (TaskAct T P) where
  initial c := c = start
  enabled := prog.Enabled
  next := prog.step

instance decidableMachineEnabled [DecidableEq P] [DecidablePred prog.entry]
    (c : Config T P L) (a : TaskAct T P) : Decidable (prog.machine.enabled c a) :=
  prog.decidableEnabled c a

/-- The task waits for nothing outside, and can ask for a lock or move on. -/
def CanAct (c : Config T P L) (i : T) : Prop :=
  ∃ p, c.point i = some p ∧ prog.op p ≠ .wait ∧
    (prog.Enabled c (.ask i) ∨ ∃ q, prog.Enabled c (.move i q))

/-- The task can go on without help: at a lock it has yet to ask, or it heads the
queue. -/
def Ready (i : T) (c : Config T P L) : Prop :=
  ∃ p, c.point i = some p ∧ prog.op p ≠ .wait ∧
    ∀ l, prog.op p = .lock l → i ∈ c.queue l → (c.queue l).head? = some i

end Program

/-- Nested locks are taken in ascending order, and a task that holds one comes to
release it by itself, along points of falling rank. -/
structure Disciplined {P L : Type} [LinearOrder L] (prog : Program P L) where
  held : P → List L
  rank : P → Nat
  entry_held : ∀ p, prog.entry p → held p = []
  wait_held : ∀ p, prog.op p = .wait → held p = [] ∧ ∀ q ∈ prog.succ p, held q = []
  exit_held : ∀ p, prog.op p = .exit → held p = [] ∧ prog.succ p = []
  step_held : ∀ p, prog.op p = .step → ∀ q ∈ prog.succ p, held q = held p
  lock_held : ∀ p l, prog.op p = .lock l →
    (∀ k ∈ held p, k < l) ∧ ∀ q ∈ prog.succ p, held q = l :: held p
  unlock_held : ∀ p l, prog.op p = .unlock l → ∀ q ∈ prog.succ p, held p = l :: held q
  goes_on : ∀ p, prog.op p ≠ .exit → prog.succ p ≠ []
  falls : ∀ p, held p ≠ [] → ∀ q ∈ prog.succ p, held q ≠ [] → rank q < rank p
  ascending : ∀ p, (held p).Pairwise fun k l => l < k

namespace Program

variable {T P L : Type} [DecidableEq T] [DecidableEq L] {prog : Program P L}

/-! ## What one action does -/

@[simp] theorem point_spawn (c : Config T P L) (i : T) (p : P) :
    (prog.step c (.spawn i p)).point = Function.update c.point i (some p) := rfl

theorem queue_ask {c : Config T P L} {i : T} {p : P} {l : L} (hp : c.point i = some p)
    (hop : prog.op p = .lock l) :
    (prog.step c (.ask i)).queue = Function.update c.queue l (c.queue l ++ [i]) := by
  simp [step, hp, hop, asked]

@[simp] theorem point_move (c : Config T P L) (i : T) (q : P) :
    (prog.step c (.move i q)).point = Function.update c.point i (some q) := rfl

theorem queue_move {c : Config T P L} {i : T} {p q : P} (hp : c.point i = some p) :
    (prog.step c (.move i q)).queue = moved c.queue i (prog.op p) := by
  simp [step, hp]

theorem moved_unlock (queue : L → List T) (i : T) (l k : L) :
    moved queue i (.unlock l) k = if k = l then (queue l).erase i else queue k := by
  simp only [moved, Function.update_apply]

@[simp] theorem point_drop (c : Config T P L) (i : T) :
    (prog.step c (.drop i)).point = Function.update c.point i none := rfl

@[simp] theorem queue_drop (c : Config T P L) (i : T) (l : L) :
    (prog.step c (.drop i)).queue l = (c.queue l).erase i := rfl

theorem moved_eq_or (queue : L → List T) (i : T) (op : Op L) (l : L) :
    moved queue i op l = queue l ∨ moved queue i op l = (queue l).erase i := by
  cases op with
  | unlock k =>
      rw [moved_unlock]
      split_ifs with hk
      · exact Or.inr (by rw [hk])
      · exact Or.inl rfl
  | _ => exact Or.inl rfl

theorem queue_step {c : Config T P L} {a : TaskAct T P} (ha : prog.Enabled c a) (l : L) :
    (prog.step c a).queue l = c.queue l ∨
      (prog.step c a).queue l = (c.queue l).erase a.task ∨
      a.task ∉ c.queue l ∧ (prog.step c a).queue l = c.queue l ++ [a.task] := by
  cases a with
  | spawn i p => exact Or.inl rfl
  | ask i =>
      obtain ⟨p, k, hp, hop, hnot⟩ := ha
      rw [queue_ask hp hop, Function.update_apply]
      split_ifs with hl
      · rw [hl]
        exact Or.inr (Or.inr ⟨hnot, rfl⟩)
      · exact Or.inl rfl
  | move i q =>
      obtain ⟨p, hp, -, -⟩ := ha
      rw [queue_move hp]
      exact (moved_eq_or c.queue i (prog.op p) l).imp_right Or.inl
  | drop i => exact Or.inr (Or.inl rfl)

theorem point_step_of_ne {c : Config T P L} {a : TaskAct T P} {i : T} (h : a.task ≠ i) :
    (prog.step c a).point i = c.point i := by
  cases a with
  | ask j => rfl
  | spawn j p => exact Function.update_of_ne h.symm _ _
  | move j q => exact Function.update_of_ne h.symm _ _
  | drop j => exact Function.update_of_ne h.symm _ _

theorem point_exec_of_ne {c : Config T P L} {i : T} {as : List (TaskAct T P)}
    (h : ∀ a ∈ as, a.task ≠ i) : (prog.machine.exec c as).point i = c.point i := by
  induction as generalizing c with
  | nil => rfl
  | cons a as ih =>
      calc (prog.machine.exec (prog.step c a) as).point i
          _ = (prog.step c a).point i := ih fun b hb => h b (List.mem_cons_of_mem a hb)
          _ = c.point i := point_step_of_ne (h a List.mem_cons_self)

end Program

theorem head?_append_of_some {T : Type} {xs : List T} {i : T} (h : xs.head? = some i)
    (ys : List T) : (xs ++ ys).head? = some i := by
  rw [List.head?_append, h]
  rfl

theorem head?_erase_of_ne {T : Type} [DecidableEq T] {xs : List T} {i j : T}
    (h : xs.head? = some i) (hne : i ≠ j) : (xs.erase j).head? = some i := by
  cases xs with
  | nil => simp at h
  | cons x xs =>
      obtain rfl : x = i := by simpa using h
      rw [List.erase_cons_tail (by simpa using hne)]
      rfl

namespace Disciplined

variable {T P L : Type} [DecidableEq T] [LinearOrder L] {prog : Program P L}

/-! ## Who holds what -/

/-- A queue names tasks that hold the lock or ask for it, and who holds a lock heads
its queue. -/
structure Kept (d : Disciplined prog) (c : Config T P L) : Prop where
  nodup : ∀ l, (c.queue l).Nodup
  queued : ∀ l, ∀ i ∈ c.queue l, ∃ p, c.point i = some p ∧ (l ∈ d.held p ∨ prog.op p = .lock l)
  holds : ∀ i p l, c.point i = some p → l ∈ d.held p → (c.queue l).head? = some i

theorem held_or_lock_of_mem (d : Disciplined prog) {p q : P} (hq : q ∈ prog.succ p) {l : L}
    (hl : l ∈ d.held p ∨ prog.op p = .lock l) : l ∈ d.held q ∨ prog.op p = .unlock l := by
  cases hop : prog.op p with
  | step =>
      rw [d.step_held p hop q hq]
      exact Or.inl (hl.resolve_right (by simp [hop]))
  | wait => simp [(d.wait_held p hop).1, hop] at hl
  | lock k =>
      rw [(d.lock_held p k hop).2 q hq, List.mem_cons]
      rcases hl with hl | hl
      · exact Or.inl (Or.inr hl)
      · rw [hop, Op.lock.injEq] at hl
        exact Or.inl (Or.inl hl.symm)
  | unlock k =>
      have hl := hl.resolve_right (by simp [hop])
      rw [d.unlock_held p k hop q hq, List.mem_cons] at hl
      rcases hl with rfl | hl
      · exact Or.inr rfl
      · exact Or.inl hl
  | exit => simp [(d.exit_held p hop).2] at hq

theorem held_of_succ (d : Disciplined prog) {p q : P} (hq : q ∈ prog.succ p) {l : L}
    (hl : l ∈ d.held q) : prog.op p = .lock l ∨ l ∈ d.held p ∧ prog.op p ≠ .unlock l := by
  cases hop : prog.op p with
  | step =>
      rw [d.step_held p hop q hq] at hl
      exact Or.inr ⟨hl, by simp⟩
  | wait => simp [(d.wait_held p hop).2 q hq] at hl
  | lock k =>
      rw [(d.lock_held p k hop).2 q hq, List.mem_cons] at hl
      rcases hl with rfl | hl
      · exact Or.inl rfl
      · exact Or.inr ⟨hl, by simp⟩
  | unlock k =>
      have hasc := d.ascending p
      rw [d.unlock_held p k hop q hq, List.pairwise_cons] at hasc
      have hlt : l < k := hasc.1 l hl
      refine Or.inr ⟨?_, by simpa using hlt.ne'⟩
      rw [d.unlock_held p k hop q hq]
      exact List.mem_cons_of_mem k hl
  | exit => simp [(d.exit_held p hop).2] at hq

omit [DecidableEq T] in
theorem kept_start (d : Disciplined prog) : d.Kept (Program.start : Config T P L) where
  nodup _ := List.nodup_nil
  queued _ _ h := by simp [Program.start] at h
  holds _ _ _ h := by simp [Program.start] at h

theorem Kept.nodup_step {d : Disciplined prog} {c : Config T P L} (h : d.Kept c)
    {a : TaskAct T P} (ha : prog.Enabled c a) (l : L) : ((prog.step c a).queue l).Nodup := by
  rcases Program.queue_step ha l with hq | hq | ⟨hnot, hq⟩
  · rw [hq]
    exact h.nodup l
  · rw [hq]
    exact (h.nodup l).erase _
  · rw [hq, List.nodup_append]
    refine ⟨h.nodup l, List.nodup_singleton _, ?_⟩
    intro j hj k hk
    rw [List.mem_singleton.mp hk]
    rintro rfl
    exact hnot hj

theorem Kept.spawn {d : Disciplined prog} {c : Config T P L} (h : d.Kept c) {i : T} {p : P}
    (hnew : c.point i = none) (hentry : prog.entry p) : d.Kept (prog.step c (.spawn i p)) where
  nodup := h.nodup_step ⟨hnew, hentry⟩
  queued l j hj := by
    obtain ⟨q, hq, hl⟩ := h.queued l j hj
    have hne : j ≠ i := by
      rintro rfl
      simp [hnew] at hq
    exact ⟨q, by simp [hne, hq], hl⟩
  holds j q l hq hl := by
    rw [Program.point_spawn, Function.update_apply] at hq
    split_ifs at hq with hji
    · rw [← Option.some.inj hq, d.entry_held p hentry] at hl
      simp at hl
    · exact h.holds j q l hq hl

theorem Kept.ask {d : Disciplined prog} {c : Config T P L} (h : d.Kept c) {i : T}
    (ha : prog.Enabled c (.ask i)) : d.Kept (prog.step c (.ask i)) := by
  have hstep := Program.queue_step ha
  obtain ⟨p, k, hp, hop, hnot⟩ := id ha
  refine ⟨h.nodup_step ha, fun l j hj => ?_, fun j q l hq hl => ?_⟩
  · rw [Program.queue_ask hp hop, Function.update_apply] at hj
    split_ifs at hj with hl
    · rcases List.mem_append.mp hj with hj | hj
      · rw [hl]
        exact h.queued k j hj
      · rw [List.mem_singleton.mp hj, hl]
        exact ⟨p, hp, Or.inr hop⟩
    · exact h.queued l j hj
  · have hhead := h.holds j q l hq hl
    rw [Program.queue_ask hp hop, Function.update_apply]
    split_ifs with hl'
    · rw [← hl']
      exact head?_append_of_some hhead [i]
    · exact hhead

theorem Kept.move {d : Disciplined prog} {c : Config T P L} (h : d.Kept c) {i : T} {p q : P}
    (hp : c.point i = some p) (hq : q ∈ prog.succ p) (hgranted : prog.Granted c i p) :
    d.Kept (prog.step c (.move i q)) := by
  have ha : prog.Enabled c (.move i q) := ⟨p, hp, hq, hgranted⟩
  have hqueue : (prog.step c (.move i q)).queue = Program.moved c.queue i (prog.op p) :=
    Program.queue_move hp
  refine ⟨h.nodup_step ha, fun l j hj => ?_, fun j r l hr hl => ?_⟩
  · have hmem : j ∈ c.queue l := by
      rw [hqueue] at hj
      rcases Program.moved_eq_or c.queue i (prog.op p) l with heq | heq
      · rwa [heq] at hj
      · rw [heq] at hj
        exact List.mem_of_mem_erase hj
    obtain ⟨r, hr, hl⟩ := h.queued l j hmem
    by_cases hji : j = i
    · subst hji
      obtain rfl : p = r := Option.some.inj (hp.symm.trans hr)
      refine ⟨q, by simp, Or.inl ?_⟩
      apply (d.held_or_lock_of_mem hq hl).resolve_right
      intro hop
      rw [hqueue, hop, Program.moved_unlock, if_pos rfl] at hj
      exact (h.nodup l).not_mem_erase hj
    · exact ⟨r, by simp [hji, hr], hl⟩
  · rw [hqueue]
    rw [Program.point_move, Function.update_apply] at hr
    split_ifs at hr with hji
    · obtain rfl := Option.some.inj hr
      subst hji
      rcases d.held_of_succ hq hl with hop | ⟨hheld, hop⟩
      · rw [hop]
        exact hgranted l hop
      · have hhead := h.holds j p l hp hheld
        cases hop' : prog.op p with
        | unlock k =>
            rw [Program.moved_unlock, if_neg]
            · exact hhead
            · rintro rfl
              exact hop hop'
        | _ => exact hhead
    · have hhead := h.holds j r l hr hl
      rcases Program.moved_eq_or c.queue i (prog.op p) l with heq | heq
      · rwa [heq]
      · rw [heq]
        exact head?_erase_of_ne hhead hji

theorem Kept.drop {d : Disciplined prog} {c : Config T P L} (h : d.Kept c) {i : T}
    (ha : prog.Enabled c (.drop i)) : d.Kept (prog.step c (.drop i)) := by
  refine ⟨h.nodup_step ha, fun l j hj => ?_, fun j q l hq hl => ?_⟩
  · have hne : j ≠ i := by
      rintro rfl
      exact (h.nodup l).not_mem_erase hj
    obtain ⟨q, hq, hl⟩ := h.queued l j (List.mem_of_mem_erase hj)
    exact ⟨q, by simp [hne, hq], hl⟩
  · rw [Program.point_drop, Function.update_apply] at hq
    split_ifs at hq with hji
    exact head?_erase_of_ne (h.holds j q l hq hl) hji

theorem Kept.step {d : Disciplined prog} {c : Config T P L} (h : d.Kept c) {a : TaskAct T P}
    (ha : prog.Enabled c a) : d.Kept (prog.step c a) := by
  cases a with
  | spawn i p => exact h.spawn ha.1 ha.2
  | ask i => exact h.ask ha
  | move i q =>
      obtain ⟨p, hp, hq, hgranted⟩ := ha
      exact h.move hp hq hgranted
  | drop i => exact h.drop ha

theorem kept_reachable (d : Disciplined prog) {c : Config T P L}
    (hc : prog.machine.Reachable c) : d.Kept c := by
  refine hc.invariant (I := d.Kept) ?_ fun c a h ha => h.step ha
  rintro c rfl
  exact d.kept_start

/-! ## No configuration is stuck -/

omit [DecidableEq T] [LinearOrder L] in
theorem head?_ne_none {c : Config T P L} {l : L} (h : c.queue l ≠ []) :
    ∃ i, (c.queue l).head? = some i := by
  cases hq : c.queue l with
  | nil => exact absurd hq h
  | cons i rest => exact ⟨i, rfl⟩

omit [DecidableEq T] [LinearOrder L] in
theorem granted_of_head {c : Config T P L} {i : T} {p : P} {l : L} (hop : prog.op p = .lock l)
    (hhead : (c.queue l).head? = some i) : prog.Granted c i p := by
  intro k hk
  rw [hop, Op.lock.injEq] at hk
  rwa [← hk]

omit [DecidableEq T] in
theorem Kept.not_mem_of_none {d : Disciplined prog} {c : Config T P L} (h : d.Kept c) {i : T}
    (hnone : c.point i = none) (l : L) : i ∉ c.queue l := by
  intro hmem
  obtain ⟨q, hq, -⟩ := h.queued l i hmem
  simp [hnone] at hq

omit [DecidableEq T] in
theorem canAct_of_granted (d : Disciplined prog) {c : Config T P L} {i : T} {p : P}
    (hp : c.point i = some p) (hwait : prog.op p ≠ .wait) (hexit : prog.op p ≠ .exit)
    (hgranted : prog.Granted c i p) : prog.CanAct c i := by
  obtain ⟨q, hq⟩ := List.exists_mem_of_ne_nil _ (d.goes_on p hexit)
  exact ⟨p, hp, hwait, Or.inr ⟨q, p, hp, hq, hgranted⟩⟩

theorem canAct_or_waits (d : Disciplined prog) {c : Config T P L} {i : T} {p : P} {l : L}
    (hp : c.point i = some p) (hl : l ∈ d.held p) :
    prog.CanAct c i ∨ ∃ k, l < k ∧ prog.op p = .lock k ∧ i ∈ c.queue k := by
  cases hop : prog.op p with
  | step =>
      left
      apply d.canAct_of_granted hp <;> simp [Program.Granted, hop]
  | wait => simp [(d.wait_held p hop).1] at hl
  | lock k =>
      by_cases hasked : i ∈ c.queue k
      · exact Or.inr ⟨k, (d.lock_held p k hop).1 l hl, rfl, hasked⟩
      · exact Or.inl ⟨p, hp, by simp [hop], Or.inl ⟨p, k, hp, hop, hasked⟩⟩
  | unlock k =>
      left
      apply d.canAct_of_granted hp <;> simp [Program.Granted, hop]
  | exit => simp [(d.exit_held p hop).1] at hl

/-- While some lock is held or waited for, the head of that queue or of a higher one
can act. -/
theorem unstuck [WellFoundedGT L] (d : Disciplined prog) {c : Config T P L} (h : d.Kept c)
    (l : L) (hl : c.queue l ≠ []) :
    ∃ k, l ≤ k ∧ ∃ i, (c.queue k).head? = some i ∧ prog.CanAct c i := by
  induction l using WellFoundedGT.induction with
  | ind l ih =>
      obtain ⟨i, hhead⟩ := head?_ne_none hl
      obtain ⟨p, hp, hheld | hop⟩ := h.queued l i (List.mem_of_head? hhead)
      · rcases d.canAct_or_waits hp hheld with hact | ⟨k, hlk, -, hmem⟩
        · exact ⟨l, le_rfl, i, hhead, hact⟩
        · obtain ⟨m, hkm, hm⟩ := ih k hlk (List.ne_nil_of_mem hmem)
          exact ⟨m, hlk.le.trans hkm, hm⟩
      · have hgranted : prog.Granted c i p := granted_of_head hop hhead
        refine ⟨l, le_rfl, i, hhead, d.canAct_of_granted hp ?_ ?_ hgranted⟩
        · simp [hop]
        · simp [hop]

/-! ## Every lock is granted in the end -/

/-- The task has left the point along the graph, or it is gone. What it unlocked it
no longer names. -/
def Moved (prog : Program P L) (i : T) (p : P) (c : Config T P L) : Prop :=
  c.point i = none ∨
    ∃ q ∈ prog.succ p, c.point i = some q ∧ ∀ l, prog.op p = .unlock l → i ∉ c.queue l

theorem head?_step {c : Config T P L} {a : TaskAct T P} (ha : prog.Enabled c a) {l : L} {i : T}
    (hhead : (c.queue l).head? = some i) (hne : a.task ≠ i) :
    ((prog.step c a).queue l).head? = some i := by
  rcases Program.queue_step ha l with hq | hq | ⟨-, hq⟩
  · rwa [hq]
  · rw [hq]
    exact head?_erase_of_ne hhead hne.symm
  · rw [hq]
    exact head?_append_of_some hhead _

theorem moved_of_task {c : Config T P L} (d : Disciplined prog) (h : d.Kept c) {i : T} {p : P}
    (hp : c.point i = some p) (hgranted : prog.Granted c i p) {a : TaskAct T P}
    (ha : prog.Enabled c a) (htask : a.task = i) : Moved prog i p (prog.step c a) := by
  cases a with
  | spawn j r =>
      obtain rfl : j = i := htask
      simp [ha.1] at hp
  | ask j =>
      obtain rfl : j = i := htask
      obtain ⟨r, l, hr, hop, hnot⟩ := ha
      obtain rfl : p = r := Option.some.inj (hp.symm.trans hr)
      exact absurd (List.mem_of_head? (hgranted l hop)) hnot
  | move j q =>
      obtain rfl : j = i := htask
      obtain ⟨r, hr, hq, -⟩ := ha
      obtain rfl : p = r := Option.some.inj (hp.symm.trans hr)
      refine Or.inr ⟨q, hq, by simp, fun l hop => ?_⟩
      rw [Program.queue_move hp, hop, Program.moved_unlock, if_pos rfl]
      exact (h.nodup l).not_mem_erase
  | drop j =>
      obtain rfl : j = i := htask
      exact Or.inl (by simp)

/-- Each task that can go on without help does so in the end. -/
def FairRun (r : Machine.Run (prog.machine (T := T))) : Prop :=
  ∀ i, r.Fair (prog.Ready i) fun a => a.task = i

variable {r : Machine.Run (prog.machine (T := T))}

theorem leadsTo_moved (d : Disciplined prog) (hfair : FairRun r) (i : T) (p : P)
    (hwait : prog.op p ≠ .wait) :
    r.LeadsTo (fun c => c.point i = some p ∧ prog.Granted c i p) (Moved prog i p) := by
  apply Machine.Run.leadsTo_of_fair (hfair i)
  · rintro c - ⟨hp, hgranted⟩
    exact ⟨p, hp, hwait, fun l hop _ => hgranted l hop⟩
  · rintro c a hc ha ⟨hp, hgranted⟩
    by_cases htask : a.task = i
    · exact Or.inr (moved_of_task d (d.kept_reachable hc) hp hgranted ha htask)
    · refine Or.inl ⟨(Program.point_step_of_ne htask).trans hp, fun l hop => ?_⟩
      exact head?_step ha (hgranted l hop) htask
  · rintro c a hc ha htask ⟨hp, hgranted⟩
    exact moved_of_task d (d.kept_reachable hc) hp hgranted ha htask

theorem leadsTo_asked (hfair : FairRun r) (i : T) (p : P) {l : L} (hop : prog.op p = .lock l) :
    r.LeadsTo (fun c => c.point i = some p)
      fun c => c.point i = none ∨ c.point i = some p ∧ i ∈ c.queue l := by
  have hgoal : r.LeadsTo (fun c => c.point i = some p ∧ i ∉ c.queue l)
      fun c => c.point i = none ∨ c.point i = some p ∧ i ∈ c.queue l := by
    have hown : ∀ c a, prog.Enabled c a → a.task = i → c.point i = some p → i ∉ c.queue l →
        (prog.step c a).point i = none ∨
          (prog.step c a).point i = some p ∧ i ∈ (prog.step c a).queue l := by
      intro c a ha htask hp hnot
      cases a with
      | spawn j q =>
          obtain rfl : j = i := htask
          simp [ha.1] at hp
      | ask j =>
          obtain rfl : j = i := htask
          exact Or.inr ⟨hp, by simp [Program.queue_ask hp hop]⟩
      | move j q =>
          obtain rfl : j = i := htask
          obtain ⟨p', hp', -, hgranted⟩ := ha
          obtain rfl : p = p' := Option.some.inj (hp.symm.trans hp')
          exact absurd (List.mem_of_head? (hgranted l hop)) hnot
      | drop j =>
          obtain rfl : j = i := htask
          exact Or.inl (by simp)
    apply Machine.Run.leadsTo_of_fair (hfair i)
    · rintro c - ⟨hp, hnot⟩
      refine ⟨p, hp, by simp [hop], fun k hk hmem => ?_⟩
      rw [hop, Op.lock.injEq] at hk
      exact absurd (hk ▸ hmem) hnot
    · rintro c a - ha ⟨hp, hnot⟩
      by_cases htask : a.task = i
      · exact Or.inr (hown c a ha htask hp hnot)
      · have hp' : (prog.step c a).point i = some p := (Program.point_step_of_ne htask).trans hp
        by_cases hmem : i ∈ (prog.step c a).queue l
        · exact Or.inr (Or.inr ⟨hp', hmem⟩)
        · exact Or.inl ⟨hp', hmem⟩
    · rintro c a - ha htask ⟨hp, hnot⟩
      exact hown c a ha htask hp hnot
  intro n hp
  by_cases hmem : i ∈ (r.state n).queue l
  · exact ⟨n, le_rfl, Or.inr ⟨hp, hmem⟩⟩
  · exact hgoal n ⟨hp, hmem⟩

/-! ### The tasks ahead in a queue -/

def ahead (i : T) (queue : List T) : List T := queue.takeWhile (· ≠ i)

omit [LinearOrder L] in
theorem ahead_append {i : T} {queue : List T} (h : i ∈ queue) (ys : List T) :
    ahead i (queue ++ ys) = ahead i queue := by
  induction queue with
  | nil => simp at h
  | cons x xs ih =>
      unfold ahead at ih ⊢
      by_cases hx : x = i
      · simp [hx]
      · have hmem : i ∈ xs := (List.mem_cons.mp h).resolve_left (Ne.symm hx)
        rw [List.cons_append, List.takeWhile_cons_of_pos (by simpa using hx),
          List.takeWhile_cons_of_pos (by simpa using hx), ih hmem]

theorem ahead_erase (i j : T) (queue : List T) (hne : j ≠ i) :
    (ahead i (queue.erase j)).Sublist (ahead i queue) := by
  induction queue with
  | nil => exact List.Sublist.refl _
  | cons x xs ih =>
      unfold ahead at ih ⊢
      by_cases hxj : x = j
      · subst hxj
        rw [List.erase_cons_head, List.takeWhile_cons_of_pos (by simpa using hne)]
        exact List.sublist_cons_self _ _
      · rw [List.erase_cons_tail (by simpa using hxj)]
        by_cases hxi : x = i
        · simp [hxi]
        · rw [List.takeWhile_cons_of_pos (by simpa using hxi),
            List.takeWhile_cons_of_pos (by simpa using hxi)]
          exact ih.cons_cons x

theorem mem_ahead_of_head? {i h : T} {queue : List T} (hhead : queue.head? = some h)
    (hne : h ≠ i) : h ∈ ahead i queue := by
  cases queue with
  | nil => simp at hhead
  | cons x xs =>
      obtain rfl : x = h := by simpa using hhead
      unfold ahead
      rw [List.takeWhile_cons_of_pos (by simpa using hne)]
      exact List.mem_cons_self

theorem mem_of_mem_ahead {i h : T} {queue : List T} (hmem : h ∈ ahead i queue) : h ∈ queue :=
  (List.takeWhile_sublist _).subset hmem

theorem waiting_step {c : Config T P L} {i : T} {p : P} {l : L}
    (hop : prog.op p = .lock l) {first : List T} {a : TaskAct T P} (ha : prog.Enabled c a)
    (hp : c.point i = some p) (hmem : i ∈ c.queue l) (hne : (c.queue l).head? ≠ some i)
    (hahead : (ahead i (c.queue l)).Sublist first) :
    (prog.step c a).point i = none ∨ (prog.step c a).point i = some p ∧
      i ∈ (prog.step c a).queue l ∧ (ahead i ((prog.step c a).queue l)).Sublist first := by
  by_cases htask : a.task = i
  · cases a with
    | spawn j q =>
        obtain rfl : j = i := htask
        simp [ha.1] at hp
    | ask j =>
        obtain rfl : j = i := htask
        obtain ⟨p', k, hp', hop', hnot⟩ := ha
        obtain rfl : p = p' := Option.some.inj (hp.symm.trans hp')
        rw [hop, Op.lock.injEq] at hop'
        exact absurd hmem (hop' ▸ hnot)
    | move j q =>
        obtain rfl : j = i := htask
        obtain ⟨p', hp', -, hgranted⟩ := ha
        obtain rfl : p = p' := Option.some.inj (hp.symm.trans hp')
        exact absurd (hgranted l hop) hne
    | drop j =>
        obtain rfl : j = i := htask
        exact Or.inl (by simp)
  · refine Or.inr ⟨(Program.point_step_of_ne htask).trans hp, ?_⟩
    rcases Program.queue_step ha l with hq | hq | ⟨-, hq⟩
    · rw [hq]
      exact ⟨hmem, hahead⟩
    · rw [hq]
      exact ⟨(List.mem_erase_of_ne (Ne.symm htask)).mpr hmem,
        (ahead_erase i a.task _ htask).trans hahead⟩
    · rw [hq, ahead_append hmem]
      exact ⟨List.mem_append_left _ hmem, hahead⟩

theorem leadsTo_granted {l : L}
    (hrelease : ∀ h, r.LeadsTo (fun c => (c.queue l).head? = some h) fun c => h ∉ c.queue l)
    (i : T) {p : P} (hop : prog.op p = .lock l) :
    r.LeadsTo (fun c => c.point i = some p ∧ i ∈ c.queue l)
      fun c => c.point i = none ∨ c.point i = some p ∧ (c.queue l).head? = some i := by
  have hfall : ∀ v, r.LeadsTo
      (fun c => (c.point i = some p ∧ i ∈ c.queue l) ∧ (ahead i (c.queue l)).length = v)
      fun c => (c.point i = none ∨ c.point i = some p ∧ (c.queue l).head? = some i) ∨
        (c.point i = some p ∧ i ∈ c.queue l) ∧ (ahead i (c.queue l)).length < v := by
    rintro v n ⟨⟨hp, hmem⟩, rfl⟩
    obtain ⟨h, hhead⟩ := head?_ne_none (List.ne_nil_of_mem hmem)
    by_cases hhi : h = i
    · exact ⟨n, le_rfl, Or.inl (Or.inr ⟨hp, hhi ▸ hhead⟩)⟩
    obtain ⟨k, hnk, hgone⟩ := hrelease h n hhead
    -- until `h` has left, the task waits behind a part of those it waited behind
    have hkept := Machine.Run.kept_until (r := r) (n := n) (k := k)
      (P := fun c => (c.queue l).head? ≠ some i ∧ c.point i = some p ∧ i ∈ c.queue l ∧
        (ahead i (c.queue l)).Sublist (ahead i ((r.state n).queue l)))
      (Q := fun c => c.point i = none ∨ c.point i = some p ∧ (c.queue l).head? = some i) ?_
      ⟨by simpa [hhead] using hhi, hp, hmem, List.Sublist.refl _⟩ hnk
    · rcases hkept with ⟨-, hp', hmem', hsub⟩ | ⟨j, hnj, -, hgoal⟩
      · refine ⟨k, hnk, Or.inr ⟨⟨hp', hmem'⟩, ?_⟩⟩
        apply lt_of_le_of_ne hsub.length_le
        intro hlen
        have hin : h ∈ ahead i ((r.state k).queue l) := by
          rw [hsub.eq_of_length hlen]
          exact mem_ahead_of_head? hhead hhi
        exact hgone (mem_of_mem_ahead hin)
      · exact ⟨j, hnj, Or.inl hgoal⟩
    · rintro c a - ha ⟨hfirst, hp', hmem', hsub⟩
      rcases waiting_step hop ha hp' hmem' hfirst hsub with hnone | hstay
      · exact Or.inr (Or.inl hnone)
      · by_cases hserved : ((prog.step c a).queue l).head? = some i
        · exact Or.inr (Or.inr ⟨hstay.1, hserved⟩)
        · exact Or.inl ⟨hserved, hstay⟩
  exact Machine.Run.leadsTo_of_measure (fun c => (ahead i (c.queue l)).length) hfall

theorem leadsTo_released_of_held (d : Disciplined prog) (hfair : FairRun r) {l : L}
    (hhigher : ∀ k, l < k → ∀ h,
      r.LeadsTo (fun c => (c.queue k).head? = some h) fun c => h ∉ c.queue k)
    (i : T) (p : P) (hl : l ∈ d.held p) :
    r.LeadsTo (fun c => c.point i = some p) fun c => i ∉ c.queue l := by
  induction hrank : d.rank p using Nat.strong_induction_on generalizing p with
  | _ v ih =>
      -- once the task has left `p`, it has let go of the lock or stands at a lower rank
      have hmoved : r.LeadsTo (Moved prog i p) fun c => i ∉ c.queue l := by
        rintro n (hnone | ⟨q, hq, hpq, hunlocked⟩)
        · exact ⟨n, le_rfl, (d.kept_reachable (r.reachable n)).not_mem_of_none hnone l⟩
        · rcases d.held_or_lock_of_mem hq (Or.inl hl) with hheld | hop
          · have hlt : d.rank q < v := by
              rw [← hrank]
              exact d.falls p (List.ne_nil_of_mem hl) q hq (List.ne_nil_of_mem hheld)
            exact ih (d.rank q) hlt q hheld rfl n hpq
          · exact ⟨n, le_rfl, hunlocked l hop⟩
      have hstand : ∀ hwait : prog.op p ≠ .wait, (∀ k, prog.op p ≠ .lock k) →
          r.LeadsTo (fun c => c.point i = some p) fun c => i ∉ c.queue l := by
        intro hwait hlock
        refine Machine.Run.LeadsTo.trans ?_ ((d.leadsTo_moved hfair i p hwait).trans hmoved)
        exact Machine.Run.LeadsTo.of_imp r fun c _ hp => ⟨hp, fun k hk => absurd hk (hlock k)⟩
      cases hop : prog.op p with
      | step => exact hstand (by simp [hop]) (by simp [hop])
      | wait => simp [(d.wait_held p hop).1] at hl
      | lock k =>
          have hlk : l < k := (d.lock_held p k hop).1 l hl
          have hgranted := leadsTo_granted (hhigher k hlk) i hop
          have hgo := (d.leadsTo_moved hfair i p (by simp [hop])).trans hmoved
          have hnone : r.LeadsTo (fun c => c.point i = none) fun c => i ∉ c.queue l :=
            fun n hnone => hmoved n (Or.inl hnone)
          apply (leadsTo_asked hfair i p hop).trans
          apply hnone.or
          apply hgranted.trans
          apply hnone.or
          refine Machine.Run.LeadsTo.trans (Machine.Run.LeadsTo.of_imp r ?_) hgo
          rintro c - ⟨hp, hhead⟩
          exact ⟨hp, granted_of_head hop hhead⟩
      | unlock k => exact hstand (by simp [hop]) (by simp [hop])
      | exit => simp [(d.exit_held p hop).1] at hl

/-- Whoever heads the queue of a lock leaves it: the induction goes from the highest
lock down. -/
theorem leadsTo_released [WellFoundedGT L] (d : Disciplined prog) (hfair : FairRun r)
    (l : L) : ∀ i, r.LeadsTo (fun c => (c.queue l).head? = some i) fun c => i ∉ c.queue l := by
  induction l using WellFoundedGT.induction with
  | ind l ih =>
      intro i n hhead
      have hkept := d.kept_reachable (r.reachable n)
      obtain ⟨p, hp, hl | hop⟩ := hkept.queued l i (List.mem_of_head? hhead)
      · exact d.leadsTo_released_of_held hfair ih i p hl n hp
      · have hgranted : prog.Granted (r.state n) i p := granted_of_head hop hhead
        obtain ⟨k, hnk, hnone | ⟨q, hq, hpq, -⟩⟩ :=
          d.leadsTo_moved hfair i p (by simp [hop]) n ⟨hp, hgranted⟩
        · exact ⟨k, hnk, (d.kept_reachable (r.reachable k)).not_mem_of_none hnone l⟩
        · have hheld : l ∈ d.held q := by
            rw [(d.lock_held p l hop).2 q hq]
            exact List.mem_cons_self
          obtain ⟨j, hkj, hgone⟩ := d.leadsTo_released_of_held hfair ih i q hheld k hpq
          exact ⟨j, hnk.trans hkj, hgone⟩

theorem leadsTo_past [WellFoundedGT L] (d : Disciplined prog) (hfair : FairRun r) (i : T) (p : P)
    {l : L} (hop : prog.op p = .lock l) :
    r.LeadsTo (fun c => c.point i = some p) (Moved prog i p) := by
  have hnone : r.LeadsTo (fun c => c.point i = none) (Moved prog i p) :=
    Machine.Run.LeadsTo.of_imp r fun c _ h => Or.inl h
  apply (leadsTo_asked hfair i p hop).trans
  apply hnone.or
  apply (leadsTo_granted (d.leadsTo_released hfair l) i hop).trans
  apply hnone.or
  refine Machine.Run.LeadsTo.trans (Machine.Run.LeadsTo.of_imp r ?_)
    (d.leadsTo_moved hfair i p (by simp [hop]))
  rintro c - ⟨hp, hhead⟩
  exact ⟨hp, granted_of_head hop hhead⟩

end Disciplined

end FeedHandler.Lib
