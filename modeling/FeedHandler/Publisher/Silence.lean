import FeedHandler.Publisher.Steps
/-!
# What a session sends

Data goes out to subscribed clients only. A session that answered an unsubscribe frame
is in the outer loop, where nothing is sent out, until it registers again.
-/

namespace FeedHandler.Publisher

open Lib

namespace Server

variable {β : Type} {q : QueueSizes} {s s' : Server β} {g g' : Trace β} {i : Nat} {k k' : Client}

/-- The last thing a session did about its subscription was to register it. -/
def subscribedAfter (sent : List (Sent β)) : Bool :=
  sent.foldl (fun subscribed item =>
    match item with
    | .subscribed => true
    | .unsubscribed => false
    | .data _ => subscribed) false

@[simp] theorem subscribedAfter_concat (sent : List (Sent β)) (item : Sent β) :
    subscribedAfter (sent ++ [item]) =
      match item with
      | .subscribed => true
      | .unsubscribed => false
      | .data _ => subscribedAfter sent := by
  simp only [subscribedAfter, List.foldl_append, List.foldl_cons, List.foldl_nil]

theorem subscribed_mem_of_after {l l' : List (Sent β)}
    (h : subscribedAfter (l ++ .unsubscribed :: l') = true) : .subscribed ∈ l' := by
  induction l' using List.reverseRecOn with
  | nil => simp at h
  | append_singleton l' item ih =>
      rw [← List.cons_append, ← List.append_assoc, subscribedAfter_concat] at h
      cases item with
      | subscribed => simp
      | unsubscribed => simp at h
      | data msg => exact List.mem_append_left _ (ih h)

def Subscribed (s : Server β) (i : Nat) : Prop :=
  ∃ k, s.clients i = some k ∧ k.pc.subscribed = true

structure Quiet (s : Server β) (g : Trace β) : Prop where
  subscribed : ∀ i, s.Subscribed i → subscribedAfter (g.sent i) = true
  data : ∀ i pre msg post, g.sent i = pre ++ .data msg :: post → subscribedAfter pre = true

namespace Quiet

theorem of_same (h : Quiet s g) (hsent : g'.sent = g.sent)
    (hsubscribed : ∀ i, s'.Subscribed i → s.Subscribed i) : Quiet s' g' := by
  constructor
  · intro i hi
    rw [hsent]
    exact h.subscribed i (hsubscribed i hi)
  · rw [hsent]
    exact h.data

theorem send (h : Quiet s g) (item : Sent β)
    (hsent : g'.sent = Function.update g.sent i (g.sent i ++ [item]))
    (hself : s'.Subscribed i → subscribedAfter (g.sent i ++ [item]) = true)
    (hother : ∀ j, j ≠ i → s'.Subscribed j → s.Subscribed j)
    (hdata : ∀ msg, item = .data msg → s.Subscribed i) : Quiet s' g' := by
  constructor
  · intro j hj
    rw [hsent]
    by_cases heq : j = i
    · subst heq
      rw [Function.update_self]
      exact hself hj
    · rw [Function.update_of_ne heq]
      exact h.subscribed j (hother j heq hj)
  · intro j pre msg post hj
    rw [hsent] at hj
    by_cases heq : j = i
    · subst heq
      rw [Function.update_self] at hj
      rcases List.eq_nil_or_concat' post with rfl | ⟨post, last, rfl⟩
      · obtain ⟨hpre, hitem⟩ := List.append_inj' hj rfl
        rw [← hpre]
        exact h.subscribed j (hdata msg (List.singleton_inj.mp hitem))
      · rw [← List.cons_append, ← List.append_assoc] at hj
        exact h.data j pre msg post (List.append_inj' hj rfl).1
    · rw [Function.update_of_ne heq] at hj
      exact h.data j pre msg post hj

end Quiet

/-! ## Every step -/

theorem subscribed_of_update (hclients : s'.clients = Function.update s.clients i (some k'))
    {j : Nat} (h : s'.Subscribed j) :
    (j = i ∧ k'.pc.subscribed = true) ∨ (j ≠ i ∧ s.Subscribed j) := by
  obtain ⟨k, hk, hpc⟩ := h
  rw [hclients] at hk
  rcases clients_update_cases hk with ⟨heq, rfl⟩ | ⟨hne, hk⟩
  · exact Or.inl ⟨heq, hpc⟩
  · exact Or.inr ⟨hne, k, hk, hpc⟩

theorem subscribed_of_left (hclients : s'.clients = Function.update s.clients i (some k'))
    (hk : k'.pc.subscribed = false) {j : Nat} (h : s'.Subscribed j) : j ≠ i ∧ s.Subscribed j := by
  rcases subscribed_of_update hclients h with ⟨-, hpc⟩ | hother
  · rw [hk] at hpc
    cases hpc
  · exact hother

theorem Moves.subscribed_of (h : Moves s s' i k k') (hk : s.clients i = some k) {j : Nat}
    (hj : s'.Subscribed j) : s.Subscribed j := by
  rcases subscribed_of_update h.clients hj with ⟨rfl, hpc⟩ | ⟨-, hj⟩
  · exact ⟨k, hk, h.subscribed hpc⟩
  · exact hj

theorem sent_track {a : Act β} (hlock : ∀ i, a ≠ .lock i) (hpump : ∀ i, a ≠ .pump i true)
    (hanswer : ∀ i, a ≠ .answer i) : (g.track s a).sent = g.sent := by
  cases a with
  | lock i => exact absurd rfl (hlock i)
  | pump i sent =>
      cases sent
      · rfl
      · exact absurd rfl (hpump i)
  | answer i => exact absurd rfl (hanswer i)
  | _ => rfl

theorem quiet_locked (h : Quiet s g) (hk : s.clients i = some k) :
    Quiet (s.locked i k) (g.track s (.lock i)) := by
  have hsame : (∀ r, k.pc ≠ .subscribing r) → ∀ {s'}, (∀ j, Subscribed s' j → s.Subscribed j) →
      Quiet s' (g.track s (.lock i)) := by
    intro hpc s' hsubscribed
    refine h.of_same ?_ hsubscribed
    simp only [Trace.track, hk, Option.map_some]
    split
    · next r hr => exact absurd (Option.some.inj hr) (hpc r)
    · rfl
  unfold locked
  split
  · next r hpc =>
      split <;> exact hsame (by simp [hpc]) fun j hj => (subscribed_of_left rfl rfl hj).2
  · next r hpc =>
      apply h.send .subscribed (i := i)
      · simp [Trace.track, hk, hpc, Trace.send]
      · exact fun _ => by simp
      · intro j hj hsubscribed
        exact (subscribed_of_update rfl hsubscribed).elim (fun heq => absurd heq.1 hj) And.right
      · exact fun msg hmsg => by cases hmsg
  · next tx hpc => exact hsame (by simp [hpc]) fun j hj => (subscribed_of_left rfl rfl hj).2
  · next tx hpc => exact hsame (by simp [hpc]) fun j hj => (subscribed_of_left rfl rfl hj).2
  · next hother _ _ => exact hsame hother fun j => id

theorem clients_next_of_none {a : Act β} (ha : a.client = none) :
    (s.next q a).clients = s.clients := by
  cases a with
  | forward c | hand c | stop c =>
      simp only [next]
      split <;> rfl
  | beginPublish msg | offer | endPublish => rfl
  | connect i | text i parsed | close i | lock i | confirm i | pump i sent | answer i => cases ha

theorem Quiet.of_silent (h : Quiet s g) {a : Act β} (hlock : ∀ i, a ≠ .lock i)
    (hpump : ∀ i, a ≠ .pump i true) (hanswer : ∀ i, a ≠ .answer i)
    (hsubscribed : ∀ i, s'.Subscribed i → s.Subscribed i) : Quiet s' (g.track s a) :=
  h.of_same (sent_track hlock hpump hanswer) hsubscribed

theorem quiet_next (h : Quiet s g) {a : Act β} (ha : s.enabled q a) :
    Quiet (s.next q a) (g.track s a) := by
  cases a with
  | connect i =>
      exact h.of_silent (by simp) (by simp) (by simp) fun j hj => (subscribed_of_left rfl rfl hj).2
  | text i parsed | close i | confirm i =>
      obtain ⟨k, hk, k', hmoves⟩ := moves_next ha rfl (by simp) (by simp)
      exact h.of_silent (by simp) (by simp) (by simp) fun j => hmoves.subscribed_of hk
  | lock i =>
      obtain ⟨k, hk, -⟩ := exists_clientAt ha.1
      simp only [next, hk]
      exact quiet_locked h hk
  | pump i sent =>
      obtain ⟨k, hk, k', hmoves⟩ := moves_next ha rfl (by simp) (by simp)
      cases sent with
      | false => exact h.of_silent (by simp) (by simp) (by simp) fun j => hmoves.subscribed_of hk
      | true =>
          obtain ⟨k, hk', hnext⟩ := ha
          obtain ⟨hk', hpc⟩ := clientAt_eq_some.mp hk'
          obtain ⟨⟨c, f, msg⟩, hnext⟩ := Option.isSome_iff_exists.mp hnext
          have hsubscribed : s.Subscribed i :=
            ⟨k, hk', by rw [ClientPc.isStreaming_iff.mp hpc]; rfl⟩
          apply h.send (.data msg) (i := i)
          · simp [Trace.track, hk', hnext, Trace.send]
          · exact fun _ => (subscribedAfter_concat _ _).trans (h.subscribed i hsubscribed)
          · exact fun j _ hj => hmoves.subscribed_of hk hj
          · exact fun _ _ => hsubscribed
  | answer i =>
      obtain ⟨k, hk, -⟩ := exists_clientAt ha
      have hleft : ∀ j, (s.next q (.answer i)).Subscribed j → j ≠ i ∧ s.Subscribed j := by
        simp only [next, hk]
        exact fun j hj => subscribed_of_left (clients_leaveInner i k) rfl hj
      apply h.send .unsubscribed (i := i) rfl
      · exact fun hi => absurd rfl (hleft i hi).1
      · exact fun j _ hj => (hleft j hj).2
      · exact fun msg hmsg => by cases hmsg
  | forward c | hand c | stop c | beginPublish msg | offer | endPublish =>
      refine h.of_silent (by simp) (by simp) (by simp) fun j hj => ?_
      rwa [Subscribed, clients_next_of_none rfl] at hj

theorem quiet_reachable {sg : Server β × Trace β} (hs : (traced β q).Reachable sg) :
    Quiet sg.1 sg.2 := by
  refine hs.invariant (I := fun sg => Quiet sg.1 sg.2) ?_ ?_
  · rintro ⟨s, g⟩ ⟨rfl, rfl⟩
    constructor
    · rintro i ⟨k, hk, -⟩
      simp [Server.start] at hk
    · intro i pre msg post h
      simp [Trace.start] at h
  · rintro ⟨s, g⟩ a h ha
    exact quiet_next h ha

end Server

end FeedHandler.Publisher
