import FeedHandler.Publisher.Silence
/-!
# The registry mirrors the sessions

A session holds one channel at most, and every entry of the registry is that of a
channel its session holds. Nobody else holds it, so nobody else removes the entry
while its receiver lives.
-/

namespace FeedHandler.Publisher

open Lib

namespace Server

variable {β : Type} {q : QueueSizes} {s s' : Server β} {g : Trace β} {owner : Nat → Option Nat}
  {i : Nat} {k k' : Client}

def held (s : Server β) (i : Nat) : Option Nat := (s.clients i).bind Client.held

theorem held_of_clients (hk : s.clients i = some k) : s.held i = k.held := by
  rw [held, hk]
  rfl

/-! ## Who holds what -/

structure Mirrored (s : Server β) (owner : Nat → Option Nat) : Prop where
  registered : s.hub.Registered
  owned : ∀ sub ∈ s.hub.subscribers, ∃ i, owner sub.tx = some i ∧ s.held i = some sub.tx
  held : ∀ i tx, s.held i = some tx → tx < s.hub.nextChannel ∧ owner tx = some i
  released : ∀ i k, s.clients i = some k → k.pc.released = true → k.subTx = none
  /-- The old entry is gone before a new one is made. -/
  unregistered : ∀ i k r, s.clients i = some k → k.pc = .subscribing r →
    ∀ sub ∈ s.hub.subscribers, owner sub.tx ≠ some i

namespace Mirrored

theorem start : Mirrored (Server.start : Server β) fun _ => none where
  registered := .start
  owned sub hsub := by simp [Server.start, Hub.start] at hsub
  held i tx h := by simp [Server.held, Server.start] at h
  released i k h := by simp [Server.start] at h
  unregistered i k r h := by simp [Server.start] at h

theorem of_hub (h : Mirrored s owner) (hclients : s'.clients = s.clients)
    (hregistered : s'.hub.Registered)
    (hsubset : ∀ sub ∈ s'.hub.subscribers, sub ∈ s.hub.subscribers)
    (hnext : s'.hub.nextChannel = s.hub.nextChannel) : Mirrored s' owner := by
  have hheld : ∀ i, s'.held i = s.held i := fun i => by
    rw [Server.held, Server.held, hclients]
  constructor
  · exact hregistered
  · intro sub hsub
    obtain ⟨i, howner, hi⟩ := h.owned sub (hsubset sub hsub)
    exact ⟨i, howner, (hheld i).trans hi⟩
  · intro i tx hi
    rw [hnext]
    exact h.held i tx ((hheld i).symm.trans hi)
  · rw [hclients]
    exact h.released
  · rw [hclients]
    exact fun i k r hk hpc sub hsub => h.unregistered i k r hk hpc sub (hsubset sub hsub)

/-- One session moves on and holds nothing it did not hold; the registry loses
entries, and the session's is still held if it is still there. -/
theorem of_client (h : Mirrored s owner)
    (hclients : s'.clients = Function.update s.clients i (some k'))
    (hregistered : s'.hub.Registered)
    (hsubset : ∀ sub ∈ s'.hub.subscribers, sub ∈ s.hub.subscribers)
    (hnext : s'.hub.nextChannel = s.hub.nextChannel)
    (hheld : ∀ tx, k'.held = some tx → s.held i = some tx)
    (hkept : ∀ sub ∈ s'.hub.subscribers, owner sub.tx = some i → k'.held = some sub.tx)
    (hreleased : k'.pc.released = true → k'.subTx = none)
    (hunregistered : ∀ r, k'.pc = .subscribing r →
      ∀ sub ∈ s'.hub.subscribers, owner sub.tx ≠ some i) : Mirrored s' owner := by
  have hself : s'.held i = k'.held := held_of_clients (by rw [hclients, Function.update_self])
  have hother : ∀ j, j ≠ i → s'.held j = s.held j := fun j hj => by
    rw [Server.held, Server.held, hclients, Function.update_of_ne hj]
  constructor
  · exact hregistered
  · intro sub hsub
    obtain ⟨j, howner, hj⟩ := h.owned sub (hsubset sub hsub)
    refine ⟨j, howner, ?_⟩
    by_cases heq : j = i
    · subst heq
      rw [hself]
      exact hkept sub hsub howner
    · rw [hother j heq]
      exact hj
  · intro j tx hj
    rw [hnext]
    by_cases heq : j = i
    · subst heq
      exact h.held j tx (hheld tx (hself.symm.trans hj))
    · exact h.held j tx ((hother j heq).symm.trans hj)
  · intro j k hk hpc
    rw [hclients] at hk
    rcases clients_update_cases hk with ⟨rfl, rfl⟩ | ⟨-, hk⟩
    · exact hreleased hpc
    · exact h.released j k hk hpc
  · intro j k r hk hpc sub hsub
    rw [hclients] at hk
    rcases clients_update_cases hk with ⟨rfl, rfl⟩ | ⟨-, hk⟩
    · exact hunregistered r hpc sub hsub
    · exact h.unregistered j k r hk hpc sub (hsubset sub hsub)

theorem tx_of_owner (h : Mirrored s owner) {sub : Subscriber}
    (hsub : sub ∈ s.hub.subscribers) (howner : owner sub.tx = some i) :
    s.held i = some sub.tx := by
  obtain ⟨j, hj, hheld⟩ := h.owned sub hsub
  rw [howner] at hj
  rwa [Option.some.inj hj]

theorem of_moves (h : Mirrored s owner) (hk : s.clients i = some k) (hm : Moves s s' i k k') :
    Mirrored s' owner := by
  have hheld : s.held i = k'.held := (held_of_clients hk).trans hm.held.symm
  have hhub : s'.hub = s.hub := hm.hub
  apply h.of_client hm.clients
  · exact hhub ▸ h.registered
  · exact hhub ▸ fun _ => id
  · rw [hhub]
  · exact fun tx htx => hheld.trans htx
  · rw [hhub]
    exact fun sub hsub howner => hheld.symm.trans (h.tx_of_owner hsub howner)
  · exact hm.released
  · rw [hhub]
    intro r hr sub hsub howner
    have hsome := h.tx_of_owner hsub howner
    rw [held_of_clients hk, hm.subscribing r hr] at hsome
    cases hsome

theorem connect (h : Mirrored s owner) (hnone : s.clients i = none) :
    Mirrored (s.setClient i .new) owner := by
  refine h.of_client rfl h.registered (fun _ => id) rfl ?_ ?_ ?_ ?_
  · exact fun tx htx => absurd htx (by simp [Client.new, Client.held])
  · intro sub hsub howner
    have hsome := h.tx_of_owner hsub howner
    rw [Server.held, hnone] at hsome
    cases hsome
  · exact fun hpc => absurd hpc (by simp [Client.new, ClientPc.released])
  · exact fun r hr => absurd hr (by simp [Client.new])

theorem unsubscribe (h : Mirrored s owner) (hfree : s.hub.publishing = none) {tx : Nat}
    (hheld : s.held i = some tx) (hsame : k'.held = some tx ∨ k'.held = none)
    (hreleased : k'.pc.released = true → k'.subTx = none) :
    Mirrored { s.setClient i k' with hub := s.hub.unsubscribe tx } owner := by
  have hgone : ∀ sub ∈ (s.hub.unsubscribe tx).subscribers, owner sub.tx ≠ some i := by
    intro sub hsub howner
    obtain ⟨hmem, hne⟩ := List.mem_filter.mp hsub
    have htx := h.tx_of_owner hmem howner
    rw [hheld] at htx
    exact absurd (Option.some.inj htx).symm (by simpa using hne)
  apply h.of_client rfl (h.registered.unsubscribe hfree tx)
  · exact fun sub hsub => (List.mem_filter.mp hsub).1
  · rfl
  · intro tx' htx'
    rcases hsame with hsome | hnone
    · rw [hheld, ← htx', hsome]
    · rw [hnone] at htx'
      cases htx'
  · exact fun sub hsub howner => absurd howner (hgone sub hsub)
  · exact hreleased
  · exact fun r _ => hgone

theorem subscribe (h : Mirrored s owner) (hfree : s.hub.publishing = none) {r : Request}
    (hk : s.clients i = some k) (hpc : k.pc = .subscribing r) (filter : Filter) :
    Mirrored
      { s.setClient i { k with pc := .confirming, subTx := some s.hub.nextChannel } with
        hub := s.hub.subscribe filter }
      (Function.update owner s.hub.nextChannel (some i)) := by
  have howner : ∀ tx, tx < s.hub.nextChannel →
      Function.update owner s.hub.nextChannel (some i) tx = owner tx := fun tx htx =>
    Function.update_of_ne (by omega) _ _
  have hold : ∀ sub ∈ s.hub.subscribers, owner sub.tx ≠ some i := h.unregistered i k r hk hpc
  have hheld : ∀ j, Server.held { s.setClient i
        { k with pc := .confirming, subTx := some s.hub.nextChannel } with
        hub := s.hub.subscribe filter } j =
      if j = i then some s.hub.nextChannel else s.held j := by
    intro j
    by_cases hj : j = i
    · subst hj
      simp [Server.held, Client.held]
    · simp [Server.held, hj]
  constructor
  · exact h.registered.subscribe hfree filter
  · intro sub hsub
    rcases List.mem_append.mp hsub with hmem | hnew
    · obtain ⟨j, hj, hj'⟩ := h.owned sub hmem
      have hne : j ≠ i := by
        rintro rfl
        exact hold sub hmem hj
      refine ⟨j, ?_, ?_⟩
      · rw [howner sub.tx (h.registered.lt_next sub hmem)]
        exact hj
      · rw [hheld, if_neg hne]
        exact hj'
    · obtain rfl := List.mem_singleton.mp hnew
      refine ⟨i, Function.update_self _ _ _, ?_⟩
      rw [hheld, if_pos rfl]
  · intro j tx hj
    rw [hheld] at hj
    split_ifs at hj with heq
    · obtain rfl := Option.some.inj hj
      exact ⟨Nat.lt_succ_self _, heq ▸ Function.update_self _ _ _⟩
    · obtain ⟨hlt, hown⟩ := h.held j tx hj
      exact ⟨Nat.lt_succ_of_lt hlt, (howner tx hlt).trans hown⟩
  · intro j k' hk' hreleased
    rcases clients_update_cases hk' with ⟨-, rfl⟩ | ⟨-, hk'⟩
    · cases hreleased
    · exact h.released j k' hk' hreleased
  · intro j k' r' hk' hpc' sub hsub hj
    rcases clients_update_cases hk' with ⟨-, rfl⟩ | ⟨hne, hk'⟩
    · cases hpc'
    · rcases List.mem_append.mp hsub with hmem | hnew
      · rw [howner sub.tx (h.registered.lt_next sub hmem)] at hj
        exact h.unregistered j k' r' hk' hpc' sub hmem hj
      · rw [List.mem_singleton.mp hnew, Function.update_self] at hj
        exact hne (Option.some.inj hj).symm

end Mirrored

/-! ## Every step -/

/-- A forwarder reads a channel that was made. -/
def Forwarded (s : Server β) : Prop :=
  ∀ c, (s.forwarders c).isSome = true → c < s.hub.nextChannel

namespace Forwarded

theorem of_subset (h : Forwarded s)
    (hforwarders : ∀ c, (s'.forwarders c).isSome = true → (s.forwarders c).isSome = true)
    (hnext : s.hub.nextChannel ≤ s'.hub.nextChannel) : Forwarded s' := fun c hc =>
  (h c (hforwarders c hc)).trans_le hnext

theorem setForwarder (h : Forwarded s) {c : Nat} {f : Forwarder β} (hf : s.forwarders c = some f)
    (f' : Forwarder β) : Forwarded (s.setForwarder c f') := by
  intro c' hc'
  rcases isSome_setForwarder hc' with rfl | hc'
  · exact h c' (by rw [hf]; rfl)
  · exact h c' hc'

end Forwarded

theorem forwarded_next (h : Forwarded s) (hm : Mirrored s owner) {a : Act β}
    (ha : s.enabled q a) : Forwarded (s.next q a) := by
  cases a with
  | connect i => exact h
  | text i parsed | close i | confirm i | pump i sent | answer i =>
      obtain ⟨k, hk, k', hmoves⟩ := moves_next ha rfl (by simp) (by simp)
      intro c hc
      rw [hmoves.hub]
      rcases hmoves.forwarders c hc with hc | hheld
      · exact h c hc
      · exact (hm.held i c ((held_of_clients hk).trans hheld)).1
  | lock i =>
      simp only [next]
      split
      · unfold locked
        split
        · split <;> exact h
        · exact h.of_subset (fun _ => id) (Nat.le_succ _)
        · exact h
        · exact h
        · exact h
      · exact h
  | forward c =>
      obtain ⟨f, hf, -⟩ := ha
      simp only [next, Option.mem_def.mp hf]
      exact h.setForwarder hf _
  | hand c =>
      simp only [next]
      split
      · next hf => exact h.setForwarder hf _
      · exact h
  | stop c =>
      simp only [next]
      split
      · next hf => exact h.setForwarder hf _
      · exact h
  | beginPublish msg => exact h
  | offer => exact h.of_subset (fun _ => id) (by simp [next])
  | endPublish => exact h

theorem owner_track {a : Act β} (h : ∀ i, a ≠ .lock i) : (g.track s a).owner = g.owner := by
  cases a with
  | lock i => exact absurd rfl (h i)
  | pump i sent =>
      cases sent
      · rfl
      · simp only [Trace.track]
        split <;> rfl
  | _ => rfl

theorem mirrored_locked (h : Mirrored s g.owner) (hk : s.clients i = some k)
    (hfree : s.hub.publishing = none) : Mirrored (s.locked i k) (g.track s (.lock i)).owner := by
  have htrack : (∀ r, k.pc ≠ .subscribing r) → (g.track s (.lock i)).owner = g.owner := by
    intro hpc
    simp only [Trace.track, hk, Option.map_some]
    split
    · next r hr => exact absurd (Option.some.inj hr) (hpc r)
    · rfl
  have hheld : s.held i = k.held := held_of_clients hk
  unfold locked
  split
  · next r hpc =>
      rw [htrack (by simp [hpc])]
      have hsub : k.held = k.subTx := by
        rw [Client.held, hpc]
      split
      · next tx htx =>
          apply h.unsubscribe hfree
          · rw [hheld, hsub, htx]
          · exact Or.inl htx
          · exact fun hreleased => absurd hreleased (by simp [ClientPc.released])
      · next hnone =>
          have hmoves : Moves s (s.setClient i { k with pc := .subscribing r }) i k
              { k with pc := .subscribing r } := by
            constructor
            · rfl
            · rfl
            · exact fun c => Or.inl
            · exact hsub.symm
            · exact fun hreleased => absurd hreleased (by simp [ClientPc.released])
            · exact fun _ _ => hsub.trans hnone
            · exact fun hsubscribed => absurd hsubscribed (by simp [ClientPc.subscribed])
          exact h.of_moves hk hmoves
  · next r hpc =>
      have howner : (g.track s (.lock i)).owner =
          Function.update g.owner s.hub.nextChannel (some i) := by
        simp [Trace.track, hk, hpc, Trace.send]
      rw [howner]
      exact h.subscribe hfree hk hpc _
  · next tx hpc =>
      rw [htrack (by simp [hpc])]
      have hnone := h.released i k hk (by rw [hpc]; rfl)
      exact h.unsubscribe hfree (by rw [hheld, Client.held, hpc]) (Or.inr hnone) fun _ => hnone
  · next tx hpc =>
      rw [htrack (by simp [hpc])]
      have hnone := h.released i k hk (by rw [hpc]; rfl)
      exact h.unsubscribe hfree (by rw [hheld, Client.held, hpc]) (Or.inr hnone) fun _ => hnone
  · next hother _ _ =>
      rw [htrack hother]
      exact h

theorem mirrored_next (h : Mirrored s g.owner) (hf : Forwarded s) {a : Act β}
    (ha : s.enabled q a) : Mirrored (s.next q a) (g.track s a).owner := by
  cases a with
  | lock i =>
      obtain ⟨k, hk, -⟩ := exists_clientAt ha.1
      simp only [next, hk]
      exact mirrored_locked h hk (Option.isNone_iff_eq_none.mp ha.2)
  | connect i =>
      rw [owner_track (by simp)]
      exact h.connect (Option.isNone_iff_eq_none.mp ha)
  | text i parsed | close i | confirm i | pump i sent | answer i =>
      rw [owner_track (by simp)]
      obtain ⟨k, hk, k', hmoves⟩ := moves_next ha rfl (by simp) (by simp)
      exact h.of_moves hk hmoves
  | forward c =>
      rw [owner_track (by simp)]
      obtain ⟨f, hforwarder, -, -, hqueue⟩ := ha
      simp only [next, Option.mem_def.mp hforwarder]
      exact h.of_hub rfl (h.registered.recv hqueue) (fun _ => id) rfl
  | hand c =>
      rw [owner_track (by simp)]
      simp only [next]
      split
      · exact h.of_hub rfl h.registered (fun _ => id) rfl
      · exact h
  | stop c =>
      rw [owner_track (by simp)]
      obtain ⟨f, hforwarder, -⟩ := ha
      have hc := hf c (by rw [Option.mem_def.mp hforwarder]; rfl)
      simp only [next, Option.mem_def.mp hforwarder]
      exact h.of_hub rfl (h.registered.setChannel hc _) (fun _ => id) rfl
  | beginPublish msg =>
      rw [owner_track (by simp)]
      have hregistered := h.registered.beginPublish msg
      exact h.of_hub rfl hregistered (fun sub hsub => (List.mem_filter.mp hsub).1) rfl
  | offer =>
      rw [owner_track (by simp)]
      exact h.of_hub rfl (h.registered.offer _) (by simp [next]) (by simp [next])
  | endPublish =>
      rw [owner_track (by simp)]
      exact h.of_hub rfl h.registered.endPublish (fun _ => id) rfl

theorem mirrored_reachable {sg : Server β × Trace β} (hs : (traced β q).Reachable sg) :
    Mirrored sg.1 sg.2.owner ∧ Forwarded sg.1 := by
  refine hs.invariant (I := fun sg => Mirrored sg.1 sg.2.owner ∧ Forwarded sg.1) ?_ ?_
  · rintro ⟨s, g⟩ ⟨rfl, rfl⟩
    exact ⟨.start, fun c hc => by simp [Server.start] at hc⟩
  · rintro ⟨s, g⟩ a ⟨hm, hf⟩ ha
    exact ⟨mirrored_next hm hf ha, forwarded_next hf hm ha⟩

/-! ## The registry and the sessions -/

theorem length_entries_le (h : Mirrored s owner) (i : Nat) :
    (s.hub.subscribers.filter fun sub => decide (owner sub.tx = some i)).length ≤ 1 := by
  have hnodup : ((s.hub.subscribers.filter
      fun sub => decide (owner sub.tx = some i)).map Subscriber.tx).Nodup :=
    h.registered.nodup.sublist (List.filter_sublist.map _)
  have hsame : ∀ sub ∈ s.hub.subscribers.filter fun sub => decide (owner sub.tx = some i),
      s.held i = some sub.tx := by
    intro sub hsub
    obtain ⟨hmem, howner⟩ := List.mem_filter.mp hsub
    exact h.tx_of_owner hmem (by simpa using howner)
  generalize (s.hub.subscribers.filter fun sub => decide (owner sub.tx = some i)) = entries
    at hnodup hsame
  match entries with
  | [] => simp
  | [_] => simp
  | first :: second :: rest =>
      have hfirst := hsame first (by simp)
      have hsecond := hsame second (by simp)
      have heq : first.tx = second.tx := Option.some.inj (hfirst.symm.trans hsecond)
      simp [heq] at hnodup

theorem entry_kept (h : Mirrored s owner) {sub : Subscriber}
    (hsub : sub ∈ s.hub.subscribers) (howner : owner sub.tx = some i)
    (hopen : (s.hub.channels sub.tx).closed = false) {a : Act β} (ha : s.enabled q a)
    (hother : a.client ≠ some i) : sub ∈ (s.next q a).hub.subscribers := by
  cases a with
  | connect j => exact hsub
  | text j parsed | close j | confirm j | pump j sent | answer j =>
      obtain ⟨k, hk, k', hmoves⟩ := moves_next ha rfl (by simp) (by simp)
      rw [hmoves.hub]
      exact hsub
  | lock j =>
      have hj : j ≠ i := fun heq => hother (congrArg some heq)
      obtain ⟨k, hk, -⟩ := exists_clientAt ha.1
      -- what another session removes is a channel it holds, and this one is not
      have hforeign : ∀ tx, k.held = some tx → sub ∈ (s.hub.unsubscribe tx).subscribers := by
        intro tx htx
        apply List.mem_filter.mpr
        refine ⟨hsub, decide_eq_true ?_⟩
        rintro rfl
        have howner' := (h.held j sub.tx ((held_of_clients hk).trans htx)).2
        exact hj (Option.some.inj (howner'.symm.trans howner))
      simp only [next, hk, locked]
      split
      · next r hpc =>
          split
          · next tx htx => exact hforeign tx (by rw [Client.held, hpc, htx])
          · exact hsub
      · exact List.mem_append_left _ hsub
      · next tx hpc => exact hforeign tx (by rw [Client.held, hpc])
      · next tx hpc => exact hforeign tx (by rw [Client.held, hpc])
      · exact hsub
  | forward c | hand c | stop c =>
      simp only [next]
      split <;> exact hsub
  | beginPublish msg => exact List.mem_filter.mpr ⟨hsub, by simp [hopen]⟩
  | offer => simpa [next] using hsub
  | endPublish => exact hsub

/-- In every reachable state: an entry belongs to a session, of which it is the only
one, and none to a session that has returned; the entry of a session that is streaming
outlives every step of the others while its receiver lives; and between an answer to
an unsubscribe frame and the next registration a session sends no data. -/
theorem registry_mirrors_sessions (q : QueueSizes) {sg : Server β × Trace β}
    (hs : (traced β q).Reachable sg) :
    (∀ sub ∈ sg.1.hub.subscribers,
      ∃ i, sg.2.owner sub.tx = some i ∧ (sg.1.clients i).isSome = true) ∧
    (∀ i, (sg.1.hub.subscribers.filter
      fun sub => decide (sg.2.owner sub.tx = some i)).length ≤ 1) ∧
    (∀ i k, sg.1.clients i = some k → k.pc = .returned →
      ∀ sub ∈ sg.1.hub.subscribers, sg.2.owner sub.tx ≠ some i) ∧
    (∀ a i k sub, (traced β q).enabled sg a → sg.1.clients i = some k → k.pc = .streaming →
      sub ∈ sg.1.hub.subscribers → sg.2.owner sub.tx = some i →
      (sg.1.hub.channels sub.tx).closed = false → a.client ≠ some i →
      sub ∈ ((traced β q).next sg a).1.hub.subscribers) ∧
    (∀ i pre mid msg post,
      sg.2.sent i = pre ++ .unsubscribed :: (mid ++ .data msg :: post) → .subscribed ∈ mid) := by
  obtain ⟨hm, -⟩ := mirrored_reachable hs
  refine ⟨?_, length_entries_le hm, ?_, ?_, ?_⟩
  · intro sub hsub
    obtain ⟨i, howner, hheld⟩ := hm.owned sub hsub
    obtain ⟨k, hk, -⟩ := Option.bind_eq_some_iff.mp hheld
    exact ⟨i, howner, by rw [hk]; rfl⟩
  · intro i k hk hpc sub hsub howner
    have hheld := hm.tx_of_owner hsub howner
    rw [held, hk, Option.bind_some, Client.held, hpc] at hheld
    have hnone := hm.released i k hk (by rw [hpc]; rfl)
    rw [show k.subTx = some sub.tx from hheld] at hnone
    cases hnone
  · intro a i k sub ha _ _ hsub howner hopen hother
    exact entry_kept hm hsub howner hopen ha hother
  · intro i pre mid msg post hsent
    apply subscribed_mem_of_after (l := pre)
    apply (quiet_reachable hs).data i (pre ++ .unsubscribed :: mid) msg post
    rw [hsent, List.append_assoc, List.cons_append]

def tick (n : Nat) : Message Nat := ⟨.bbo, "BTCUSDT", n⟩

/-- Two sessions; the first gets one message, unsubscribes with the next on its way,
and leaves. -/
def twoSessions : List (Act Nat) :=
  [.connect 0, .text 0 (subscribeText "bbo" ["BTCUSDT"]), .lock 0, .confirm 0,
    .connect 1, .text 1 (subscribeText "all" ["BTCUSDT"]), .lock 1, .confirm 1,
    .beginPublish (tick 1), .offer, .offer, .endPublish, .forward 0, .hand 0, .pump 0 true,
    .beginPublish (tick 2), .offer, .offer, .endPublish, .forward 0, .hand 0,
    .text 0 unsubscribeText, .lock 0, .answer 0, .stop 0, .close 0]

def twoSessionsState : Server Nat × Trace Nat :=
  (traced Nat ⟨2, 2⟩).exec (.start, .start) twoSessions

theorem twoSessionsState_reachable : (traced Nat ⟨2, 2⟩).Reachable twoSessionsState :=
  (Machine.Reachable.start (m := traced Nat ⟨2, 2⟩) (s := (.start, .start)) ⟨rfl, rfl⟩).exec
    twoSessions (by decide +kernel)

theorem registry_mirrors_sessions_two :
    twoSessionsState.2.sent 0 = [.subscribed, .data (tick 1), .unsubscribed] ∧
      (twoSessionsState.1.hub.subscribers.filter
        fun sub => decide (twoSessionsState.2.owner sub.tx = some 1)).length ≤ 1 :=
  ⟨by decide +kernel, (registry_mirrors_sessions ⟨2, 2⟩ twoSessionsState_reachable).2.1 1⟩

end Server

end FeedHandler.Publisher
