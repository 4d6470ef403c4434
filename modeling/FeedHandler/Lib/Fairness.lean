import FeedHandler.Lib.Machine
import Mathlib.Order.Monotone.Basic
/-!
# Infinite runs and weak fairness

What a machine must eventually do, as opposed to what it never does. A run goes on
for ever, and at some moments nothing happens in it. `LeadsTo` is the one temporal
relation; it is transitive, it comes from weak fairness by `leadsTo_of_fair`, and it
follows a measure down by `leadsTo_of_measure`.
-/

namespace FeedHandler.Lib.Machine

variable {σ α : Type} {m : Machine σ α}

/-- An infinite run. Where `act` has no action, the state stays. -/
structure Run (m : Machine σ α) where
  state : Nat → σ
  act : Nat → Option α
  start : m.initial (state 0)
  stays : ∀ n, act n = none → state (n + 1) = state n
  step : ∀ n a, act n = some a → m.enabled (state n) a ∧ state (n + 1) = m.next (state n) a

namespace Run

theorem reachable (r : Run m) (n : Nat) : m.Reachable (r.state n) := by
  induction n with
  | zero => exact .start r.start
  | succ n ih =>
      cases hact : r.act n with
      | none =>
          rw [r.stays n hact]
          exact ih
      | some a =>
          obtain ⟨henabled, hnext⟩ := r.step n a hact
          rw [hnext]
          exact ih.step henabled

/-- Whenever `P` holds, `Q` holds then or at a later moment. -/
def LeadsTo (r : Run m) (P Q : σ → Prop) : Prop :=
  ∀ n, P (r.state n) → ∃ k, n ≤ k ∧ Q (r.state k)

/-- An action that helps is taken again and again, unless it is again and again not
possible. -/
def Fair (r : Run m) (ready : σ → Prop) (helps : α → Prop) : Prop :=
  ∀ n, (∀ k, n ≤ k → ready (r.state k)) → ∃ k, n ≤ k ∧ ∃ a, r.act k = some a ∧ helps a

/-! ## Combining -/

theorem LeadsTo.of_imp (r : Run m) {P Q : σ → Prop} (h : ∀ s, m.Reachable s → P s → Q s) :
    r.LeadsTo P Q :=
  fun n hP => ⟨n, le_rfl, h _ (r.reachable n) hP⟩

theorem LeadsTo.trans {r : Run m} {P Q R : σ → Prop} (hPQ : r.LeadsTo P Q)
    (hQR : r.LeadsTo Q R) : r.LeadsTo P R := by
  intro n hP
  obtain ⟨k, hnk, hQ⟩ := hPQ n hP
  obtain ⟨j, hkj, hR⟩ := hQR k hQ
  exact ⟨j, hnk.trans hkj, hR⟩

theorem LeadsTo.or {r : Run m} {P P' Q : σ → Prop} (h : r.LeadsTo P Q) (h' : r.LeadsTo P' Q) :
    r.LeadsTo (fun s => P s ∨ P' s) Q := by
  intro n hP
  rcases hP with hP | hP
  · exact h n hP
  · exact h' n hP

theorem kept_until {r : Run m} {P Q : σ → Prop}
    (hkeep : ∀ s a, m.Reachable s → m.enabled s a → P s → P (m.next s a) ∨ Q (m.next s a))
    {n : Nat} (hP : P (r.state n)) {k : Nat} (hk : n ≤ k) :
    P (r.state k) ∨ ∃ j, n ≤ j ∧ j ≤ k ∧ Q (r.state j) := by
  induction k, hk using Nat.le_induction with
  | base => exact Or.inl hP
  | succ k hk ih =>
      rcases ih with hnow | ⟨j, hnj, hjk, hQ⟩
      · cases hact : r.act k with
        | none =>
            rw [r.stays k hact]
            exact Or.inl hnow
        | some a =>
            obtain ⟨henabled, hnext⟩ := r.step k a hact
            rw [hnext]
            apply (hkeep _ a (r.reachable k) henabled hnow).imp_right
            intro hQ
            exact ⟨k + 1, by omega, le_rfl, hnext ▸ hQ⟩
      · exact Or.inr ⟨j, hnj, by omega, hQ⟩

/-- Weak fairness: `P` is kept until `Q`, in `P` an action that helps stays possible,
and from `P` such an action goes to `Q`. -/
theorem leadsTo_of_fair {r : Run m} {P Q ready : σ → Prop} {helps : α → Prop}
    (hfair : r.Fair ready helps)
    (hready : ∀ s, m.Reachable s → P s → ready s)
    (hkeep : ∀ s a, m.Reachable s → m.enabled s a → P s → P (m.next s a) ∨ Q (m.next s a))
    (hhelps : ∀ s a, m.Reachable s → m.enabled s a → helps a → P s → Q (m.next s a)) :
    r.LeadsTo P Q := by
  intro n hP
  by_contra hnever
  push Not at hnever
  have hnow : ∀ k, n ≤ k → P (r.state k) := by
    intro k hk
    rcases kept_until hkeep hP hk with hnow | ⟨j, hnj, -, hQ⟩
    · exact hnow
    · exact absurd hQ (hnever j hnj)
  obtain ⟨k, hk, a, hact, ha⟩ := hfair n fun k hk => hready _ (r.reachable k) (hnow k hk)
  obtain ⟨henabled, hnext⟩ := r.step k a hact
  have hQ := hhelps _ a (r.reachable k) henabled ha (hnow k hk)
  rw [← hnext] at hQ
  exact hnever (k + 1) (by omega) hQ

/-- The goal is reached when from every value of the measure it is reached or the
measure falls. -/
theorem leadsTo_of_measure {r : Run m} {P Q : σ → Prop} (f : σ → Nat)
    (h : ∀ n, r.LeadsTo (fun s => P s ∧ f s = n) fun s => Q s ∨ P s ∧ f s < n) :
    r.LeadsTo P Q := by
  have hall : ∀ v n, f (r.state n) = v → P (r.state n) → ∃ k, n ≤ k ∧ Q (r.state k) := by
    intro v
    induction v using Nat.strong_induction_on with
    | _ v ih =>
        intro n hv hP
        obtain ⟨k, hnk, hQ | ⟨hP', hlt⟩⟩ := h v n ⟨hP, hv⟩
        · exact ⟨k, hnk, hQ⟩
        · obtain ⟨j, hkj, hQ⟩ := ih _ hlt k rfl hP'
          exact ⟨j, hnk.trans hkj, hQ⟩
  exact fun n hP => hall _ n rfl hP

/-- A quantity that never grows and falls with every action that helps cannot be kept
ready for one for ever. -/
theorem Fair.not_forever {r : Run m} {ready : σ → Prop} {helps : α → Prop}
    (hfair : r.Fair ready helps) (f : Nat → Nat) {n : Nat}
    (hready : ∀ k, n ≤ k → ready (r.state k)) (hle : ∀ k, n ≤ k → f (k + 1) ≤ f k)
    (hlt : ∀ k a, n ≤ k → r.act k = some a → helps a → f (k + 1) < f k) : False := by
  have hanti : ∀ k j, n ≤ k → k ≤ j → f j ≤ f k := by
    intro k j hk hkj
    induction j, hkj using Nat.le_induction with
    | base => exact le_rfl
    | succ j hkj ih => exact (hle j (hk.trans hkj)).trans ih
  have hall : ∀ v k, n ≤ k → f k = v → False := by
    intro v
    induction v using Nat.strong_induction_on with
    | _ v ih =>
        intro k hk hv
        obtain ⟨j, hkj, a, hact, ha⟩ := hfair k fun i hi => hready i (hk.trans hi)
        have hfall := hlt j a (hk.trans hkj) hact ha
        have hbefore := hanti k j hk hkj
        exact ih (f (j + 1)) (by omega) (j + 1) (by omega) rfl
  exact hall _ n le_rfl rfl

/-! ## Runs that come to rest -/

theorem exec_take_succ (s : σ) (as : List α) {n : Nat} {a : α} (h : as[n]? = some a) :
    m.exec s (as.take (n + 1)) = m.next (m.exec s (as.take n)) a := by
  rw [List.take_add_one, h]
  simp [exec]

theorem enabled_of_admits {s : σ} {as : List α} (has : m.Admits s as) {n : Nat} {a : α}
    (h : as[n]? = some a) : m.enabled (m.exec s (as.take n)) a := by
  induction as generalizing s n with
  | nil => simp at h
  | cons b as ih =>
      cases n with
      | zero =>
          simp only [List.getElem?_cons_zero, Option.some.injEq] at h
          rw [← h]
          exact has.1
      | succ n => exact ih has.2 (by simpa using h)

def ofList {s : σ} (as : List α) (hs : m.initial s) (has : m.Admits s as) : Run m where
  state n := m.exec s (as.take n)
  act n := as[n]?
  start := hs
  stays n h := by
    have hlen : as.length ≤ n := List.getElem?_eq_none_iff.mp h
    rw [List.take_of_length_le hlen, List.take_of_length_le (by omega)]
  step n a h := ⟨enabled_of_admits has h, exec_take_succ s as h⟩

theorem fair_ofList {s : σ} {as : List α} (hs : m.initial s) (has : m.Admits s as)
    {ready : σ → Prop} (helps : α → Prop) (hrest : ¬ ready (m.exec s as)) :
    (ofList as hs has).Fair ready helps := by
  intro n hready
  have hlate := hready (max n as.length) (le_max_left _ _)
  change ready (m.exec s (as.take (max n as.length))) at hlate
  rw [List.take_of_length_le (le_max_right _ _)] at hlate
  exact absurd hlate hrest

/-! ## Runs that go round for ever -/

/-- One action of the list; after the last one comes the block of the state reached. -/
def round (m : Machine σ α) (block : σ → List α) (p : σ × List α) : σ × List α :=
  match p.2 with
  | [] => (p.1, block p.1)
  | a :: as => (m.next p.1 a, as)

theorem round_iterate (m : Machine σ α) (block : σ → List α) (s : σ) (as : List α) (j : Nat)
    (hj : j ≤ as.length) :
    (round m block)^[j] (s, as) = (m.exec s (as.take j), as.drop j) := by
  induction j generalizing s as with
  | zero => rfl
  | succ j ih =>
      cases as with
      | nil => simp at hj
      | cons a as =>
          rw [Function.iterate_succ_apply]
          exact ih (m.next s a) as (by simpa using hj)

/-- The block brings a state of rest to one. -/
structure Cycle (m : Machine σ α) (rest : σ → Prop) (block : σ → List α) : Prop where
  admits : ∀ s, rest s → m.Admits s (block s)
  returns : ∀ s, rest s → rest (m.exec s (block s))

section Loop

variable {rest : σ → Prop} {block : σ → List α} {s : σ} {as : List α}

theorem Cycle.round (h : Cycle m rest block) {p : σ × List α} (hadmits : m.Admits p.1 p.2)
    (hrest : rest (m.exec p.1 p.2)) :
    m.Admits (Run.round m block p).1 (Run.round m block p).2 ∧
      rest (m.exec (Run.round m block p).1 (Run.round m block p).2) := by
  obtain ⟨s, as⟩ := p
  cases as with
  | nil => exact ⟨h.admits s hrest, h.returns s hrest⟩
  | cons a as => exact ⟨hadmits.2, hrest⟩

theorem Cycle.iterate (h : Cycle m rest block) (has : m.Admits s as)
    (hrest : rest (m.exec s as)) (n : Nat) :
    m.Admits ((Run.round m block)^[n] (s, as)).1 ((Run.round m block)^[n] (s, as)).2 ∧
      rest (m.exec ((Run.round m block)^[n] (s, as)).1 ((Run.round m block)^[n] (s, as)).2) := by
  induction n with
  | zero => exact ⟨has, hrest⟩
  | succ n ih =>
      rw [Function.iterate_succ_apply']
      exact h.round ih.1 ih.2

/-- The actions of a list to a state of rest, and from there block after block. -/
def ofCycle (h : Cycle m rest block) (as : List α) (hs : m.initial s) (has : m.Admits s as)
    (hrest : rest (m.exec s as)) : Run m where
  state n := ((round m block)^[n] (s, as)).1
  act n := ((round m block)^[n] (s, as)).2.head?
  start := hs
  stays n hnone := by
    rw [Function.iterate_succ_apply', round, List.head?_eq_none_iff.mp hnone]
  step n a hact := by
    have hadmits := (h.iterate has hrest n).1
    obtain ⟨rest, hcons⟩ := List.head?_eq_some_iff.mp hact
    rw [hcons] at hadmits
    rw [Function.iterate_succ_apply', round, hcons]
    exact ⟨hadmits.1, rfl⟩

variable (h : Cycle m rest block) (hs : m.initial s) (has : m.Admits s as)
  (hrest : rest (m.exec s as))

theorem exists_block (n : Nat) :
    ∃ k, n ≤ k ∧ ∃ s', rest s' ∧ (ofCycle h as hs has hrest).state k = s' ∧
      ∀ j a, (block s')[j]? = some a → (ofCycle h as hs has hrest).act (k + 1 + j) = some a ∧
        (ofCycle h as hs has hrest).state (k + 1 + j) = m.exec s' ((block s').take j) := by
  have hiterate := h.iterate has hrest n
  generalize hp : (round m block)^[n] (s, as) = p at hiterate
  have hfrom : ∀ j, (round m block)^[n + j] (s, as) = (round m block)^[j] p := by
    intro j
    rw [Nat.add_comm, Function.iterate_add_apply, hp]
  have hend : (round m block)^[n + p.2.length] (s, as) = (m.exec p.1 p.2, []) := by
    rw [hfrom, round_iterate m block p.1 p.2 _ le_rfl, List.take_length, List.drop_length]
  refine ⟨n + p.2.length, by omega, m.exec p.1 p.2, hiterate.2, congrArg Prod.fst hend, ?_⟩
  intro j a hact
  have hlt : j < (block (m.exec p.1 p.2)).length := (List.getElem?_eq_some_iff.mp hact).1
  have hblock : (round m block)^[n + p.2.length + 1 + j] (s, as) =
      (m.exec (m.exec p.1 p.2) ((block (m.exec p.1 p.2)).take j),
        (block (m.exec p.1 p.2)).drop j) := by
    have hnext : (round m block)^[n + p.2.length + 1] (s, as) =
        (m.exec p.1 p.2, block (m.exec p.1 p.2)) := by
      rw [Function.iterate_succ_apply', hend]
      rfl
    rw [Nat.add_comm, Function.iterate_add_apply, hnext]
    exact round_iterate m block _ _ j hlt.le
  constructor
  · show ((round m block)^[_] (s, as)).2.head? = some a
    rw [hblock, List.head?_drop, hact]
  · exact congrArg Prod.fst hblock

theorem fair_ofCycle {ready : σ → Prop} (helps : α → Prop) (hidle : ∀ s', rest s' → ¬ ready s') :
    (ofCycle h as hs has hrest).Fair ready helps := by
  intro n hready
  obtain ⟨k, hk, s', hs', hstate, -⟩ := exists_block h hs has hrest n
  exact absurd (hstate ▸ hready k hk) (hidle s' hs')

theorem again_ofCycle {done : σ → α → Prop}
    (hdone : ∀ s', rest s' → ∃ j a, (block s')[j]? = some a ∧
      done (m.exec s' ((block s').take j)) a) (n : Nat) :
    ∃ k, n ≤ k ∧ ∃ a, (ofCycle h as hs has hrest).act k = some a ∧
      done ((ofCycle h as hs has hrest).state k) a := by
  obtain ⟨k, hk, s', hs', -, hblock⟩ := exists_block h hs has hrest n
  obtain ⟨j, a, hact, ha⟩ := hdone s' hs'
  obtain ⟨hact', hstate⟩ := hblock j a hact
  exact ⟨k + 1 + j, by omega, a, hact', hstate ▸ ha⟩

end Loop

end Run

end FeedHandler.Lib.Machine
