import FeedHandler.Publisher.Sessions
/-!
# What a session does alone

Without the lock a session leaves the registry as it is and holds the channel it held;
the frames, the socket and the end of its inner loop all come down to that. What it
does with the lock is `locked`.
-/

namespace FeedHandler.Publisher

open Lib

/-- The channel a session will remove from the registry, if it ever does. -/
def Client.held (k : Client) : Option Nat :=
  match k.pc with
  | .unsubscribing tx | .closing tx => some tx
  | _ => k.subTx

namespace ClientPc

variable {p : ClientPc}

def released : ClientPc → Bool
  | .unsubscribing _ | .answering | .closing _ | .returned => true
  | _ => false

def subscribed : ClientPc → Bool
  | .confirming | .streaming => true
  | _ => false

theorem isOuter_iff : p.isOuter = true ↔ p = .outer := by
  cases p <;> simp [isOuter]

theorem isStreaming_iff : p.isStreaming = true ↔ p = .streaming := by
  cases p <;> simp [isStreaming]

theorem isConfirming_iff : p.isConfirming = true ↔ p = .confirming := by
  cases p <;> simp [isConfirming]

theorem isAnswering_iff : p.isAnswering = true ↔ p = .answering := by
  cases p <;> simp [isAnswering]

end ClientPc

namespace Server

variable {β : Type} {q : QueueSizes} {s s' : Server β} {i : Nat} {k k' : Client}

@[simp] theorem clients_setClient (i : Nat) (k : Client) :
    (s.setClient i k).clients = Function.update s.clients i (some k) := rfl

@[simp] theorem hub_mapForwarder (handle : Option Nat) (f : Forwarder β → Forwarder β) :
    (s.mapForwarder handle f).hub = s.hub := by
  unfold mapForwarder
  split <;> rfl

@[simp] theorem clients_mapForwarder (handle : Option Nat) (f : Forwarder β → Forwarder β) :
    (s.mapForwarder handle f).clients = s.clients := by
  unfold mapForwarder
  split <;> rfl

@[simp] theorem clients_leaveInner (i : Nat) (k : Client) :
    (s.leaveInner i k).clients =
      Function.update s.clients i (some { k with pc := .outer, outRx := none }) := by
  simp [leaveInner, dropOut]

theorem isSome_setForwarder {c c' : Nat} {f : Forwarder β}
    (h : ((s.setForwarder c f).forwarders c').isSome = true) :
    c' = c ∨ (s.forwarders c').isSome = true := by
  by_cases heq : c' = c
  · exact Or.inl heq
  · right
    simp only [setForwarder, Function.update_of_ne heq] at h
    exact h

theorem isSome_mapForwarder {c : Nat} {handle : Option Nat} {f : Forwarder β → Forwarder β}
    (h : ((s.mapForwarder handle f).forwarders c).isSome = true) :
    (s.forwarders c).isSome = true := by
  unfold mapForwarder at h
  split at h
  · next c' forwarder hsome =>
      obtain ⟨c'', -, hmap⟩ := Option.bind_eq_some_iff.mp hsome
      obtain ⟨forwarder', hforwarder, heq⟩ := Option.map_eq_some_iff.mp hmap
      cases heq
      rcases isSome_setForwarder h with rfl | h
      · rw [hforwarder]
        rfl
      · exact h
  · exact h

theorem clients_update_cases {clients : Nat → Option Client} {j : Nat}
    (h : Function.update clients i (some k') j = some k) :
    (j = i ∧ k' = k) ∨ (j ≠ i ∧ clients j = some k) := by
  by_cases heq : j = i
  · subst heq
    rw [Function.update_self] at h
    exact Or.inl ⟨rfl, Option.some.inj h⟩
  · rw [Function.update_of_ne heq] at h
    exact Or.inr ⟨heq, h⟩

theorem clientAt_eq_some {p : ClientPc → Bool} :
    s.clientAt i p = some k ↔ s.clients i = some k ∧ p k.pc = true :=
  Option.filter_eq_some_iff

theorem exists_clientAt {p : ClientPc → Bool} (h : (s.clientAt i p).isSome = true) :
    ∃ k, s.clients i = some k ∧ p k.pc = true := by
  obtain ⟨k, hk⟩ := Option.isSome_iff_exists.mp h
  exact ⟨k, clientAt_eq_some.mp hk⟩

theorem outNext_eq_some {c : Nat} {f : Forwarder β} {msg : Message β}
    (h : s.outNext k = some (c, f, msg)) :
    k.outRx = some c ∧ s.forwarders c = some f ∧ f.out.queue.head? = some msg := by
  unfold outNext at h
  obtain ⟨c', hc, h⟩ := Option.bind_eq_some_iff.mp h
  obtain ⟨f', hf, h⟩ := Option.bind_eq_some_iff.mp h
  obtain ⟨msg', hmsg, h⟩ := Option.bind_eq_some_iff.mp h
  cases h
  exact ⟨hc, hf, hmsg⟩

/-! ## A step without the lock -/

structure Moves (s s' : Server β) (i : Nat) (k k' : Client) : Prop where
  hub : s'.hub = s.hub
  clients : s'.clients = Function.update s.clients i (some k')
  /-- A forwarder is spawned for the channel the session holds. -/
  forwarders : ∀ c, (s'.forwarders c).isSome = true →
    (s.forwarders c).isSome = true ∨ k.held = some c
  held : k'.held = k.held
  released : k'.pc.released = true → k'.subTx = none
  subscribing : ∀ r, k'.pc = .subscribing r → k.held = none
  subscribed : k'.pc.subscribed = true → k.pc.subscribed = true

theorem Moves.ignored (hk : s.clients i = some k) (hpc : k.pc = .outer ∨ k.pc = .streaming) :
    Moves s s i k k where
  hub := rfl
  clients := by rw [← hk, Function.update_eq_self]
  forwarders c hc := Or.inl hc
  held := rfl
  released h := by rcases hpc with hpc | hpc <;> rw [hpc] at h <;> cases h
  subscribing r h := by rcases hpc with hpc | hpc <;> rw [hpc] at h <;> cases h
  subscribed := id

theorem Moves.mapForwarder (handle : Option Nat) (f : Forwarder β → Forwarder β)
    (hheld : k'.held = k.held) (hreleased : k'.pc.released = true → k'.subTx = none)
    (hsubscribing : ∀ r, k'.pc = .subscribing r → k.held = none)
    (hsubscribed : k'.pc.subscribed = true → k.pc.subscribed = true) :
    Moves s ((s.mapForwarder handle f).setClient i k') i k k' where
  hub := hub_mapForwarder handle f
  clients := by rw [clients_setClient, clients_mapForwarder]
  forwarders _ hc := Or.inl (isSome_mapForwarder hc)
  held := hheld
  released := hreleased
  subscribing := hsubscribing
  subscribed := hsubscribed

theorem held_eq_subTx (hpc : k.pc = .outer ∨ k.pc = .confirming ∨ k.pc = .streaming ∨
    k.pc = .answering) : k.held = k.subTx := by
  unfold Client.held
  rcases hpc with hpc | hpc | hpc | hpc <;> rw [hpc]

theorem moves_outerText (hk : s.clients i = some k) (hpc : k.pc = .outer) (parsed : Json) :
    ∃ k', Moves s (s.outerText i k parsed) i k k' := by
  have hheld := held_eq_subTx (Or.inl hpc)
  unfold outerText
  by_cases hsubscribe : (parsed.getStr "action").getD "" = "subscribe"
  · rw [if_pos hsubscribe]
    refine ⟨_, .mapForwarder _ _ ?_ ?_ ?_ ?_⟩
    · rw [hheld]
      cases k.subTx <;> rfl
    · cases k.subTx <;> simp [ClientPc.released]
    · intro r hr
      rw [hheld]
      cases hsub : k.subTx with
      | none => rfl
      | some tx => simp [hsub] at hr
    · cases k.subTx <;> simp [ClientPc.subscribed]
  · rw [if_neg hsubscribe]
    exact ⟨k, .ignored hk (Or.inl hpc)⟩

theorem moves_innerText (hk : s.clients i = some k) (hpc : k.pc = .streaming) (parsed : Json) :
    ∃ k', Moves s (s.innerText i k parsed) i k k' := by
  have hheld : k.held = k.subTx := held_eq_subTx (by simp [hpc])
  unfold innerText
  split_ifs
  · refine ⟨_, .mapForwarder _ _ ?_ (fun _ => rfl) ?_ ?_⟩
    · rw [hheld]
      cases k.subTx <;> rfl
    · intro r hr
      cases hsub : k.subTx <;> simp [hsub] at hr
    · cases k.subTx <;> simp [ClientPc.subscribed]
  · exact ⟨k, .ignored hk (Or.inr hpc)⟩

theorem moves_leaveOuter (hpc : k.pc = .outer) : ∃ k', Moves s (s.leaveOuter i k) i k k' := by
  have hheld : k.held = k.subTx := held_eq_subTx (Or.inl hpc)
  refine ⟨_, .mapForwarder _ _ ?_ (fun _ => rfl) ?_ ?_⟩
  · rw [hheld]
    cases k.subTx <;> rfl
  · intro r hr
    cases hsub : k.subTx <;> simp [hsub] at hr
  · cases k.subTx <;> simp [ClientPc.subscribed]

theorem moves_leaveInner (hpc : k.pc = .streaming ∨ k.pc = .answering) :
    Moves s (s.leaveInner i k) i k { k with pc := .outer, outRx := none } := by
  have hheld : k.held = k.subTx := held_eq_subTx (by rcases hpc with hpc | hpc <;> simp [hpc])
  apply Moves.mapForwarder
  · exact hheld.symm
  · exact fun h => absurd h (by simp [ClientPc.released])
  · exact fun r h => absurd h (by simp)
  · exact fun h => absurd h (by simp [ClientPc.subscribed])

theorem moves_beginStreaming (hk : s.clients i = some k) (hpc : k.pc = .confirming) :
    ∃ k', Moves s (s.beginStreaming i k) i k k' := by
  have hheld := held_eq_subTx (by simp [hpc] : k.pc = .outer ∨ _)
  unfold beginStreaming
  split
  · next tx htx =>
      refine ⟨_, rfl, rfl, fun c hc => ?_, hheld.symm, ?_, ?_, ?_⟩
      · rcases isSome_setForwarder hc with rfl | hc
        · exact Or.inr (hheld.trans htx)
        · exact Or.inl hc
      · exact fun h => absurd h (by simp [ClientPc.released])
      · exact fun r h => absurd h (by simp)
      · exact fun _ => by rw [hpc]; rfl
  · refine ⟨k, rfl, by rw [← hk, Function.update_eq_self], fun c => Or.inl, rfl, ?_, ?_, id⟩
    · exact fun h => absurd h (by simp [hpc, ClientPc.released])
    · exact fun r h => absurd h (by simp [hpc])

theorem moves_pumped (hk : s.clients i = some k) (hpc : k.pc = .streaming) {c : Nat}
    {f : Forwarder β} (hf : (s.forwarders c).isSome = true) (sent : Bool) :
    ∃ k', Moves s (s.pumped i k c f sent) i k k' := by
  have hforwarders : ∀ g : Forwarder β, ∀ c', ((s.setForwarder c g).forwarders c').isSome = true →
      (s.forwarders c').isSome = true := by
    intro g c' hc'
    rcases isSome_setForwarder hc' with rfl | hc'
    · exact hf
    · exact hc'
  unfold pumped
  split_ifs
  · have h := Moves.ignored (s := s) hk (Or.inr hpc)
    exact ⟨k, rfl, h.clients, fun c' hc' => Or.inl (hforwarders _ c' hc'), rfl, h.released,
      h.subscribing, id⟩
  · have h := moves_leaveInner (s := s.setForwarder c { f with out := f.out.advance }) (i := i)
      (Or.inl hpc)
    exact ⟨_, h.hub, h.clients, fun c' hc' => (h.forwarders c' hc').imp_left (hforwarders _ c'),
      h.held, h.released, h.subscribing, h.subscribed⟩

theorem moves_next {a : Act β} (ha : s.enabled q a) (hi : a.client = some i)
    (hconnect : a ≠ .connect i) (hlock : a ≠ .lock i) :
    ∃ k, s.clients i = some k ∧ ∃ k', Moves s (s.next q a) i k k' := by
  cases a with
  | connect j => exact absurd (congrArg _ (Option.some.inj hi)) hconnect
  | lock j => exact absurd (congrArg _ (Option.some.inj hi)) hlock
  | text j parsed =>
      obtain rfl := Option.some.inj hi
      obtain ⟨k, hk, hpc⟩ := exists_clientAt ha
      refine ⟨k, hk, ?_⟩
      simp only [Bool.or_eq_true, ClientPc.isOuter_iff, ClientPc.isStreaming_iff] at hpc
      cases parsed with
      | none =>
          simp only [next, hk]
          exact ⟨k, .ignored hk hpc⟩
      | some parsed =>
          simp only [next, hk]
          rcases hpc with hpc | hpc
          · rw [if_neg (by simp [hpc, ClientPc.isStreaming])]
            exact moves_outerText hk hpc parsed
          · rw [if_pos (ClientPc.isStreaming_iff.mpr hpc)]
            exact moves_innerText hk hpc parsed
  | close j =>
      obtain rfl := Option.some.inj hi
      obtain ⟨k, hk, hpc⟩ := exists_clientAt ha
      refine ⟨k, hk, ?_⟩
      simp only [Bool.or_eq_true, ClientPc.isOuter_iff, ClientPc.isStreaming_iff] at hpc
      simp only [next, hk]
      rcases hpc with hpc | hpc
      · rw [if_neg (by simp [hpc, ClientPc.isStreaming])]
        exact moves_leaveOuter hpc
      · rw [if_pos (ClientPc.isStreaming_iff.mpr hpc)]
        exact ⟨_, moves_leaveInner (Or.inl hpc)⟩
  | confirm j =>
      obtain rfl := Option.some.inj hi
      obtain ⟨k, hk, hpc⟩ := exists_clientAt ha
      refine ⟨k, hk, ?_⟩
      simp only [next, hk]
      exact moves_beginStreaming hk (ClientPc.isConfirming_iff.mp hpc)
  | pump j sent =>
      obtain rfl := Option.some.inj hi
      obtain ⟨k, hk, hnext⟩ := ha
      obtain ⟨hk, hpc⟩ := clientAt_eq_some.mp hk
      obtain ⟨⟨c, f, msg⟩, hnext⟩ := Option.isSome_iff_exists.mp hnext
      have hf : (s.forwarders c).isSome = true := by
        rw [(outNext_eq_some hnext).2.1]
        rfl
      refine ⟨k, hk, ?_⟩
      simp only [next, hk, hnext]
      exact moves_pumped hk (ClientPc.isStreaming_iff.mp hpc) hf sent
  | answer j =>
      obtain rfl := Option.some.inj hi
      obtain ⟨k, hk, hpc⟩ := exists_clientAt ha
      refine ⟨k, hk, ?_⟩
      simp only [next, hk]
      exact ⟨_, moves_leaveInner (Or.inr (ClientPc.isAnswering_iff.mp hpc))⟩
  | forward c | hand c | stop c | beginPublish msg | offer | endPublish => cases hi

end Server

end FeedHandler.Publisher
