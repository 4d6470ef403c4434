import Mathlib.Tactic.Common
/-!
# Guarded machines

A machine is a state type, an action type, a guard and a next-state function.
Runs are lists of admitted actions; `Reachable` is the same thing seen from the
last state. A machine can be narrowed by a further guard and can carry a ghost
component that records history without influencing the steps.
-/

namespace FeedHandler.Lib

structure Machine (σ α : Type) where
  initial : σ → Prop
  enabled : σ → α → Prop
  next : σ → α → σ

namespace Machine

variable {σ τ α γ : Type}

/-- States reached from an initial state by admitted actions. -/
inductive Reachable (m : Machine σ α) : σ → Prop
  | start {s : σ} : m.initial s → Reachable m s
  | step {s : σ} {a : α} : Reachable m s → m.enabled s a → Reachable m (m.next s a)

/-- The induction rule every safety theorem goes through. -/
theorem Reachable.invariant {m : Machine σ α} {I : σ → Prop}
    (hstart : ∀ s, m.initial s → I s)
    (hstep : ∀ s a, I s → m.enabled s a → I (m.next s a))
    {s : σ} (hs : m.Reachable s) : I s := by
  induction hs with
  | start h => exact hstart _ h
  | step _ ha ih => exact hstep _ _ ih ha

/-- The same rule when the step may use that the state is reachable, and with
it every invariant already proved. -/
theorem Reachable.invariant_of_reachable {m : Machine σ α} {I : σ → Prop}
    (hstart : ∀ s, m.initial s → I s)
    (hstep : ∀ s a, m.Reachable s → I s → m.enabled s a → I (m.next s a))
    {s : σ} (hs : m.Reachable s) : I s := by
  induction hs with
  | start h => exact hstart _ h
  | step hr ha ih => exact hstep _ _ hr ih ha

def exec (m : Machine σ α) (s : σ) (as : List α) : σ := as.foldl m.next s

theorem exec_append (m : Machine σ α) (s : σ) (as bs : List α) :
    m.exec s (as ++ bs) = m.exec (m.exec s as) bs := List.foldl_append

def Admits (m : Machine σ α) : σ → List α → Prop
  | _, [] => True
  | s, a :: as => m.enabled s a ∧ m.Admits (m.next s a) as

@[simp] theorem admits_nil (m : Machine σ α) (s : σ) : m.Admits s [] := trivial

@[simp] theorem admits_cons (m : Machine σ α) (s : σ) (a : α) (as : List α) :
    m.Admits s (a :: as) ↔ m.enabled s a ∧ m.Admits (m.next s a) as := Iff.rfl

instance decidableAdmits (m : Machine σ α) [∀ s a, Decidable (m.enabled s a)] :
    ∀ s as, Decidable (m.Admits s as)
  | _, [] => inferInstanceAs (Decidable True)
  | s, a :: as =>
      have := decidableAdmits m (m.next s a) as
      inferInstanceAs (Decidable (m.enabled s a ∧ m.Admits (m.next s a) as))

theorem Reachable.exec {m : Machine σ α} {s : σ} (hs : m.Reachable s) (as : List α)
    (has : m.Admits s as) : m.Reachable (m.exec s as) := by
  induction as generalizing s with
  | nil => exact hs
  | cons a as ih => exact ih (hs.step has.1) has.2

theorem admits_append {m : Machine σ α} {s : σ} {as bs : List α} :
    m.Admits s (as ++ bs) ↔ m.Admits s as ∧ m.Admits (m.exec s as) bs := by
  induction as generalizing s with
  | nil => exact (and_iff_right trivial).symm
  | cons a as ih =>
      rw [List.cons_append, admits_cons, admits_cons, ih, and_assoc]
      rfl

theorem admits_of_enabled {m : Machine σ α} (henabled : ∀ s a, m.enabled s a) (s : σ)
    (as : List α) : m.Admits s as := by
  induction as generalizing s with
  | nil => trivial
  | cons a as ih => exact ⟨henabled s a, ih _⟩

theorem reachable_of_enabled {m : Machine σ α} (henabled : ∀ s a, m.enabled s a) {s : σ}
    (hs : m.initial s) (as : List α) : m.Reachable (m.exec s as) :=
  (Reachable.start hs).exec as (admits_of_enabled henabled s as)

theorem Reachable.map {m : Machine σ α} {m' : Machine τ α} {s : σ} (hs : m.Reachable s)
    (f : σ → τ) (hstart : ∀ s, m.initial s → m'.initial (f s))
    (hstep : ∀ s a, m.Reachable s → m.enabled s a →
      m'.enabled (f s) a ∧ f (m.next s a) = m'.next (f s) a) : m'.Reachable (f s) := by
  induction hs with
  | start h => exact .start (hstart _ h)
  | step hr ha ih =>
      obtain ⟨henabled, hnext⟩ := hstep _ _ hr ha
      rw [hnext]
      exact ih.step henabled

/-! ## Narrowing the guard -/

def guarded (m : Machine σ α) (g : σ → α → Prop) : Machine σ α where
  initial := m.initial
  enabled s a := m.enabled s a ∧ g s a
  next := m.next

theorem Reachable.of_guarded {m : Machine σ α} {g : σ → α → Prop} {s : σ}
    (hs : (m.guarded g).Reachable s) : m.Reachable s :=
  hs.map id (fun _ h => h) fun _ _ _ ha => ⟨ha.1, rfl⟩

theorem admits_guarded {m : Machine σ α} {g : σ → α → Prop} {s : σ} {as : List α} :
    (m.guarded g).Admits s as ↔ m.Admits s as ∧ ({ m with enabled := g }).Admits s as := by
  induction as generalizing s with
  | nil => exact ⟨fun _ => ⟨trivial, trivial⟩, fun _ => trivial⟩
  | cons a as ih =>
      have htail := ih (s := m.next s a)
      constructor
      · rintro ⟨⟨ha, hg⟩, has⟩
        exact ⟨⟨ha, (htail.mp has).1⟩, ⟨hg, (htail.mp has).2⟩⟩
      · rintro ⟨⟨ha, has⟩, ⟨hg, hgs⟩⟩
        exact ⟨⟨ha, hg⟩, htail.mpr ⟨has, hgs⟩⟩

/-- Where a step keeps `P` exactly when `g` lets it pass, a run keeps `P` exactly when
`g` lets all of it pass. What `P` takes for granted is the invariant `I`. -/
theorem exec_iff_admits {m : Machine σ α} {I P : σ → Prop} {g : σ → α → Prop}
    (henabled : ∀ s a, m.enabled s a) (hnext : ∀ s a, I s → I (m.next s a))
    (hstep : ∀ s a, I s → (P (m.next s a) ↔ P s ∧ g s a)) {s : σ} (hs : I s) (as : List α) :
    P (m.exec s as) ↔ P s ∧ (m.guarded g).Admits s as := by
  induction as generalizing s with
  | nil => exact (and_iff_left trivial).symm
  | cons a as ih =>
      have htail := ih (hnext s a hs)
      rw [hstep s a hs, and_assoc] at htail
      rw [admits_cons]
      constructor
      · intro hP
        obtain ⟨hPs, hg, has⟩ := htail.mp hP
        exact ⟨hPs, ⟨henabled s a, hg⟩, has⟩
      · intro h
        exact htail.mpr ⟨h.1, h.2.1.2, h.2.2⟩

/-! ## Ghost state -/

/-- The machine that also carries a ghost component. `track` reads the state
before the step; it never changes what the step does. -/
def withGhost (m : Machine σ α) (g₀ : γ) (track : σ → α → γ → γ) :
    Machine (σ × γ) α where
  initial sg := m.initial sg.1 ∧ sg.2 = g₀
  enabled sg a := m.enabled sg.1 a
  next sg a := (m.next sg.1 a, track sg.1 a sg.2)

theorem Reachable.of_withGhost {m : Machine σ α} {g₀ : γ} {track : σ → α → γ → γ}
    {sg : σ × γ} (h : (m.withGhost g₀ track).Reachable sg) : m.Reachable sg.1 :=
  h.map Prod.fst (fun _ h => h.1) fun _ _ _ ha => ⟨ha, rfl⟩

theorem Reachable.exists_withGhost {m : Machine σ α} (g₀ : γ) (track : σ → α → γ → γ)
    {s : σ} (hs : m.Reachable s) : ∃ g, (m.withGhost g₀ track).Reachable (s, g) := by
  induction hs with
  | start h => exact ⟨g₀, .start ⟨h, rfl⟩⟩
  | step _ ha ih =>
      obtain ⟨g, hg⟩ := ih
      exact ⟨_, hg.step ha⟩

theorem admits_withGhost {m : Machine σ α} {g₀ : γ} {track : σ → α → γ → γ} {g : σ → α → Prop}
    {sg : σ × γ} {as : List α} :
    ((m.withGhost g₀ track).guarded fun sg a => g sg.1 a).Admits sg as ↔
      (m.guarded g).Admits sg.1 as := by
  induction as generalizing sg with
  | nil => exact Iff.rfl
  | cons a as ih => exact and_congr Iff.rfl ih

def counting (m : Machine σ α) (p : σ → α → Prop) [∀ s a, Decidable (p s a)] :
    Machine (σ × Nat) α :=
  m.withGhost 0 fun s a n => if p s a then n + 1 else n

/-- A counter of the machine's own that every step outside `g` raises without being
counted falls behind for ever, so it is right exactly when there was none. -/
theorem counter_eq_iff {m : Machine σ α} {p g : σ → α → Prop} [∀ s a, Decidable (p s a)]
    {counter : σ → Nat} (henabled : ∀ s a, m.enabled s a)
    (hright : ∀ s a, g s a → counter (m.next s a) = if p s a then counter s + 1 else counter s)
    (hwrong : ∀ s a, ¬ g s a → counter (m.next s a) = counter s + 1 ∧ ¬ p s a)
    {s : σ} {n : Nat} (hn : n ≤ counter s) (as : List α) :
    counter ((m.counting p).exec (s, n) as).1 = ((m.counting p).exec (s, n) as).2 ↔
      counter s = n ∧ (m.guarded g).Admits s as := by
  have hiff := exec_iff_admits (m := m.counting p) (I := fun sn => sn.2 ≤ counter sn.1)
    (P := fun sn => counter sn.1 = sn.2) (g := fun sn a => g sn.1 a) (s := (s, n))
    (fun sn a => henabled sn.1 a) ?_ ?_ hn as
  · exact hiff.trans (and_congr_right' admits_withGhost)
  · intro sn a hle
    show (if p sn.1 a then sn.2 + 1 else sn.2) ≤ counter (m.next sn.1 a)
    by_cases hg : g sn.1 a
    · rw [hright sn.1 a hg]
      split_ifs <;> omega
    · rw [(hwrong sn.1 a hg).1, if_neg (hwrong sn.1 a hg).2]
      omega
  · intro sn a hle
    show counter (m.next sn.1 a) = (if p sn.1 a then sn.2 + 1 else sn.2) ↔ _
    by_cases hg : g sn.1 a
    · rw [hright sn.1 a hg, and_iff_left hg]
      split_ifs <;> omega
    · rw [(hwrong sn.1 a hg).1, if_neg (hwrong sn.1 a hg).2]
      exact iff_of_false (by omega) fun h => hg h.2

/-! ## Simulation -/

/-- A machine whose every step another machine can follow by a run of its own, of any
length, reaches only what the other reaches. -/
theorem Reachable.simulated {β : Type} {m : Machine σ α} {m' : Machine τ β} {R : σ → τ → Prop}
    (hstart : ∀ s, m.initial s → ∃ t, m'.initial t ∧ R s t)
    (hstep : ∀ s t a, m.Reachable s → R s t → m.enabled s a →
      ∃ bs, m'.Admits t bs ∧ R (m.next s a) (m'.exec t bs))
    {s : σ} (hs : m.Reachable s) : ∃ t, m'.Reachable t ∧ R s t := by
  induction hs with
  | start h =>
      obtain ⟨t, ht, hR⟩ := hstart _ h
      exact ⟨t, .start ht, hR⟩
  | step hr ha ih =>
      obtain ⟨t, ht, hR⟩ := ih
      obtain ⟨bs, hbs, hR'⟩ := hstep _ _ _ hr hR ha
      exact ⟨m'.exec t bs, ht.exec bs hbs, hR'⟩

/-! ## What can still be reached -/

theorem exec_kept {m : Machine σ α} {P : σ → Prop}
    (hkeep : ∀ s a, m.Reachable s → m.enabled s a → P s → P (m.next s a)) {s : σ}
    (hs : m.Reachable s) (hP : P s) {as : List α} (has : m.Admits s as) : P (m.exec s as) := by
  induction as generalizing s with
  | nil => exact hP
  | cons a as ih => exact ih (hs.step has.1) (hkeep s a hs has.1 hP) has.2

def Reaches (m : Machine σ α) (P Q : σ → Prop) : Prop :=
  ∀ s, m.Reachable s → P s → ∃ as, m.Admits s as ∧ Q (m.exec s as)

namespace Reaches

variable {m : Machine σ α} {P P' Q R : σ → Prop}

theorem of_imp (h : ∀ s, m.Reachable s → P s → Q s) : m.Reaches P Q :=
  fun s hs hP => ⟨[], trivial, h s hs hP⟩

theorem of_step (h : ∀ s, m.Reachable s → P s → ∃ a, m.enabled s a ∧ Q (m.next s a)) :
    m.Reaches P Q := by
  intro s hs hP
  obtain ⟨a, ha, hQ⟩ := h s hs hP
  exact ⟨[a], ⟨ha, trivial⟩, hQ⟩

theorem trans (hPQ : m.Reaches P Q) (hQR : m.Reaches Q R) : m.Reaches P R := by
  intro s hs hP
  obtain ⟨as, has, hQ⟩ := hPQ s hs hP
  obtain ⟨bs, hbs, hR⟩ := hQR _ (hs.exec as has) hQ
  refine ⟨as ++ bs, admits_append.mpr ⟨has, hbs⟩, ?_⟩
  rw [exec_append]
  exact hR

theorem or (h : m.Reaches P Q) (h' : m.Reaches P' Q) : m.Reaches (fun s => P s ∨ P' s) Q := by
  intro s hs hP
  rcases hP with hP | hP
  · exact h s hs hP
  · exact h' s hs hP

theorem of_measure (size : σ → Nat)
    (h : ∀ s, m.Reachable s → P s →
      ∃ a, m.enabled s a ∧ (Q (m.next s a) ∨ P (m.next s a) ∧ size (m.next s a) < size s)) :
    m.Reaches P Q := by
  have hdown : ∀ n s, size s ≤ n → m.Reachable s → P s →
      ∃ as, m.Admits s as ∧ Q (m.exec s as) := by
    intro n
    induction n with
    | zero =>
        intro s hsize hs hP
        obtain ⟨a, ha, hQ | ⟨-, hlt⟩⟩ := h s hs hP
        · exact ⟨[a], ⟨ha, trivial⟩, hQ⟩
        · omega
    | succ n ih =>
        intro s hsize hs hP
        obtain ⟨a, ha, hQ | ⟨hP', hlt⟩⟩ := h s hs hP
        · exact ⟨[a], ⟨ha, trivial⟩, hQ⟩
        · obtain ⟨as, has, hQ⟩ := ih (m.next s a) (by omega) (hs.step ha) hP'
          exact ⟨a :: as, ⟨ha, has⟩, hQ⟩
  exact fun s hs hP => hdown (size s) s (Nat.le_refl _) hs hP

end Reaches

end Machine

/-! ## Lockstep of two transducers -/

section Lockstep

variable {σ τ α β : Type}

def answers (step : σ → α → β × σ) : σ → List α → List β
  | _, [] => []
  | s, a :: as => (step s a).1 :: answers step (step s a).2 as

def final (step : σ → α → β × σ) : σ → List α → σ
  | s, [] => s
  | s, a :: as => final step (step s a).2 as

theorem answers_map {γ : Type} (step : σ → α → β × σ) (read : γ → α) (s : σ) (xs : List γ) :
    answers (fun s x => step s (read x)) s xs = answers step s (xs.map read) := by
  induction xs generalizing s with
  | nil => rfl
  | cons x xs ih => simp only [answers, List.map_cons, ih]

theorem final_map {γ : Type} (step : σ → α → β × σ) (read : γ → α) (s : σ) (xs : List γ) :
    final (fun s x => step s (read x)) s xs = final step s (xs.map read) := by
  induction xs generalizing s with
  | nil => rfl
  | cons x xs ih => simp only [final, List.map_cons, ih]

/-- Two transducers whose steps keep a relation and agree on the answer give
the same answers for ever, and stay related. -/
theorem lockstep {step : σ → α → β × σ} {step' : τ → α → β × τ} {R : σ → τ → Prop}
    (hstep : ∀ s t a, R s t → (step s a).1 = (step' t a).1 ∧ R (step s a).2 (step' t a).2)
    (as : List α) {s : σ} {t : τ} (hst : R s t) :
    answers step s as = answers step' t as ∧ R (final step s as) (final step' t as) := by
  induction as generalizing s t with
  | nil => exact ⟨rfl, hst⟩
  | cons a as ih =>
      obtain ⟨hanswer, hnext⟩ := hstep s t a hst
      obtain ⟨hrest, hfinal⟩ := ih hnext
      exact ⟨by simp only [answers, hanswer, hrest], hfinal⟩

end Lockstep

end FeedHandler.Lib
