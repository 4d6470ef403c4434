import FeedHandler.Publisher.Pipeline
/-!
# Nothing is lost, repeated or reordered unaccounted

Three invariants of the pipeline. The counters: what a stream counted was taken, is
queued, was shed, or is about to be put. The order: what a drain took and what is
queued behind it is what the shards enqueued, and what it took it published, in that
order. The subscribers: a channel holds what was enqueued to it and not read, and a
pair of a call and a subscriber that was not enqueued is counted or still to come.
-/

namespace FeedHandler.Publisher.Pipeline

open Lib

variable {ι β : Type} {l : Layout ι} {s : Pipeline ι β} {g : Log ι β}

/-! ## The subscribers -/

def Call.tookIn (call : Call β) (tx : Nat) : Call β :=
  { call with enqueuedTo := insert tx call.enqueuedTo }

namespace Log

def tookIn (g : Log ι β) (tx : Nat) : Log ι β :=
  { g with current := g.current.map fun call => call.tookIn tx }

variable {call : Call β} {tx : Nat}

theorem calls_tookIn (hcurrent : g.current = some call) :
    (g.tookIn tx).calls = g.finished ++ [call.tookIn tx] := by
  simp [calls, tookIn, hcurrent]

theorem notEnqueued_tookIn (hcurrent : g.current = some call) (hmatching : tx ∈ call.matching)
    (hfresh : tx ∉ call.enqueuedTo) : (g.tookIn tx).notEnqueued + 1 = g.notEnqueued := by
  have hcard : (call.matching \ insert tx call.enqueuedTo).card + 1 =
      (call.matching \ call.enqueuedTo).card := by
    rw [Finset.sdiff_insert, Finset.card_erase_add_one]
    exact Finset.mem_sdiff.mpr ⟨hmatching, hfresh⟩
  have hcalls : g.calls = g.finished ++ [call] := by
    simp [calls, hcurrent]
  unfold notEnqueued
  rw [calls_tookIn hcurrent, hcalls]
  simp only [List.map_append, List.sum_append, List.map_cons, List.map_nil, List.sum_cons,
    List.sum_nil, Call.tookIn]
  omega

theorem deliveredTo_tookIn (hcurrent : g.current = some call) (hfresh : tx ∉ call.enqueuedTo)
    (c : Nat) : (g.tookIn tx).deliveredTo c =
      if c = tx then g.deliveredTo c ++ [call.msg] else g.deliveredTo c := by
  have hcalls : g.calls = g.finished ++ [call] := by
    simp [calls, hcurrent]
  unfold deliveredTo
  rw [calls_tookIn hcurrent, hcalls, List.filter_append, List.filter_append]
  by_cases hc : c = tx
  · subst hc
    simp [Call.tookIn, hfresh]
  · by_cases hin : c ∈ call.enqueuedTo <;> simp [Call.tookIn, hc, hin]

end Log

structure Accounted (h : Hub β) (g : Log ι β) : Prop where
  registered : h.Registered
  idle : h.publishing = none → g.current = none
  busy : ∀ p, h.publishing = some p → ∃ call, g.current = some call ∧ call.msg = p.msg ∧
    ∀ tx ∈ h.pending, tx ∈ call.matching ∧ tx ∉ call.enqueuedTo
  enqueued_subset : ∀ call ∈ g.calls, call.enqueuedTo ⊆ call.matching
  dropped : h.dropped + h.pending.length = g.notEnqueued
  carries : ∀ c, (h.channels c).Carries (g.deliveredTo c) (g.read c)

namespace Accounted

variable {h : Hub β}

theorem start : Accounted (Hub.start : Hub β) (Log.start : Log ι β) where
  registered := .start
  idle _ := rfl
  busy p hp := by simp [Hub.start] at hp
  enqueued_subset := by simp [Log.start, Log.calls]
  dropped := rfl
  carries _ := .empty

theorem of_registry (ha : Accounted h g) (hfree : h.publishing = none) {h' : Hub β}
    (hregistered : h'.Registered) (hpublishing : h'.publishing = none)
    (hdropped : h'.dropped = h.dropped) (hchannels : h'.channels = h.channels) :
    Accounted h' g where
  registered := hregistered
  idle _ := ha.idle hfree
  busy p hp := by simp [hpublishing] at hp
  enqueued_subset := ha.enqueued_subset
  dropped := by
    rw [← ha.dropped, hdropped, Hub.pending, Hub.pending, hfree, hpublishing]
  carries c := by
    rw [hchannels]
    exact ha.carries c

theorem nodup_pending (hr : h.Registered) : h.pending.Nodup := by
  unfold Hub.pending
  split
  · next p hp =>
      have hsublist : (p.remaining.filter fun sub => decide (sub.Accepts p.msg)).Sublist
          h.subscribers := List.filter_sublist.trans (hr.remaining p hp)
      exact hr.nodup.sublist (hsublist.map _)
  · exact List.nodup_nil

theorem beginPublish (ha : Accounted h g) (hfree : h.publishing = none) (msg : Message β) :
    Accounted (h.beginPublish msg)
      { g with current := some ⟨msg, (h.matching msg).toFinset, ∅⟩ } := by
  have hcurrent := ha.idle hfree
  have hcalls : Log.calls { g with current := some ⟨msg, (h.matching msg).toFinset, ∅⟩ } =
      g.calls ++ [⟨msg, (h.matching msg).toFinset, ∅⟩] := by
    simp [Log.calls, hcurrent]
  have hpending : (h.beginPublish msg).pending = h.matching msg := rfl
  constructor
  · exact ha.registered.beginPublish msg
  · exact fun hnone => absurd hnone (by simp [Hub.beginPublish])
  · intro p hp
    obtain rfl := Option.some.inj hp
    refine ⟨_, rfl, rfl, ?_⟩
    intro tx htx
    exact ⟨List.mem_toFinset.mpr (hpending ▸ htx), Finset.notMem_empty tx⟩
  · rw [hcalls]
    intro call hcall
    rcases List.mem_append.mp hcall with hold | hnew
    · exact ha.enqueued_subset call hold
    · rw [List.mem_singleton.mp hnew]
      exact Finset.empty_subset _
  · have hnodup := nodup_pending (ha.registered.beginPublish msg)
    have hbefore : h.dropped = g.notEnqueued := by
      have := ha.dropped
      rwa [Hub.pending, hfree, List.length_nil, Nat.add_zero] at this
    rw [hpending] at hnodup ⊢
    unfold Log.notEnqueued
    rw [hcalls, List.map_append, List.sum_append, ← Log.notEnqueued, ← hbefore]
    simp [List.toFinset_card_of_nodup hnodup, Hub.beginPublish]
  · intro c
    have hdelivered : Log.deliveredTo
        { g with current := some ⟨msg, (h.matching msg).toFinset, ∅⟩ } c = g.deliveredTo c := by
      unfold Log.deliveredTo
      rw [hcalls, List.filter_append]
      simp
    rw [hdelivered]
    exact ha.carries c

theorem endPublish (ha : Accounted h g) {p : Publishing β} (hp : h.publishing = some p)
    (hdone : p.remaining = []) :
    Accounted h.endPublish { g with finished := g.calls, current := none } := by
  have hcalls : Log.calls { g with finished := g.calls, current := none } = g.calls := by
    simp [Log.calls]
  constructor
  · exact ha.registered.endPublish
  · exact fun _ => rfl
  · exact fun p' hp' => absurd hp' (by simp [Hub.endPublish])
  · rw [hcalls]
    exact ha.enqueued_subset
  · unfold Log.notEnqueued
    rw [hcalls, ← Log.notEnqueued, ← ha.dropped]
    simp [Hub.pending, Hub.endPublish, hp, hdone]
  · intro c
    unfold Log.deliveredTo
    rw [hcalls]
    exact ha.carries c

theorem skip (ha : Accounted h g) {msg : Message β} {sub : Subscriber} {rest : List Subscriber}
    (hp : h.publishing = some ⟨msg, sub :: rest⟩) (hskip : ¬ sub.Accepts msg) :
    Accounted { h with publishing := some ⟨msg, rest⟩ } g := by
  have hpending : Hub.pending { h with publishing := some ⟨msg, rest⟩ } = h.pending := by
    simp [Hub.pending, hp, hskip]
  have hrest : rest.Sublist h.subscribers :=
    (List.sublist_cons_self _ _).trans (ha.registered.remaining _ hp)
  constructor
  · refine ha.registered.sublist (List.Sublist.refl _) rfl ?_ fun _ _ => rfl
    intro p hp'
    obtain rfl := Option.mem_some.mp hp'
    exact hrest
  · exact fun hnone => absurd hnone (by simp)
  · intro p hp'
    obtain rfl := Option.some.inj hp'
    rw [hpending]
    obtain ⟨call, hcall, hmsg, htx⟩ := ha.busy _ hp
    exact ⟨call, hcall, hmsg, htx⟩
  · exact ha.enqueued_subset
  · rw [hpending]
    exact ha.dropped
  · exact ha.carries

theorem shed (ha : Accounted h g) {msg : Message β} {sub : Subscriber} {rest : List Subscriber}
    (hp : h.publishing = some ⟨msg, sub :: rest⟩) (haccepts : sub.Accepts msg) :
    Accounted { h with dropped := h.dropped + 1, publishing := some ⟨msg, rest⟩ } g := by
  have hpending : h.pending = sub.tx ::
      Hub.pending { h with dropped := h.dropped + 1, publishing := some ⟨msg, rest⟩ } := by
    simp [Hub.pending, hp, haccepts]
  have hrest : rest.Sublist h.subscribers :=
    (List.sublist_cons_self _ _).trans (ha.registered.remaining _ hp)
  constructor
  · refine ha.registered.sublist (List.Sublist.refl _) rfl ?_ fun _ _ => rfl
    intro p hp'
    obtain rfl := Option.mem_some.mp hp'
    exact hrest
  · exact fun hnone => absurd hnone (by simp)
  · intro p hp'
    obtain rfl := Option.some.inj hp'
    obtain ⟨call, hcall, hmsg, htx⟩ := ha.busy _ hp
    refine ⟨call, hcall, hmsg, fun tx hmem => htx tx ?_⟩
    rw [hpending]
    exact List.mem_cons_of_mem _ hmem
  · exact ha.enqueued_subset
  · have hbefore := ha.dropped
    rw [hpending, List.length_cons] at hbefore
    show h.dropped + 1 + _ = _
    omega
  · exact ha.carries

theorem enqueue (ha : Accounted h g) {msg : Message β} {sub : Subscriber}
    {rest : List Subscriber} (hp : h.publishing = some ⟨msg, sub :: rest⟩)
    (haccepts : sub.Accepts msg) :
    Accounted
      { h.setChannel sub.tx ((h.channels sub.tx).push msg) with publishing := some ⟨msg, rest⟩ }
      (g.tookIn sub.tx) := by
  obtain ⟨call, hcurrent, hmsg, hmem⟩ := ha.busy _ hp
  have hpending : h.pending = sub.tx :: Hub.pending
      { h.setChannel sub.tx ((h.channels sub.tx).push msg) with
        publishing := some ⟨msg, rest⟩ } := by
    simp [Hub.pending, hp, haccepts]
  have hnodup := nodup_pending ha.registered
  obtain ⟨hmatching, hfresh⟩ := hmem sub.tx (by rw [hpending]; exact List.mem_cons_self)
  have hsublist := ha.registered.remaining _ hp
  have hrest : rest.Sublist h.subscribers := (List.sublist_cons_self _ _).trans hsublist
  constructor
  · have htx := ha.registered.lt_next sub (hsublist.subset List.mem_cons_self)
    refine (ha.registered.setChannel htx ((h.channels sub.tx).push msg)).sublist
      (List.Sublist.refl _) rfl ?_ fun _ _ => rfl
    intro p hp'
    obtain rfl := Option.mem_some.mp hp'
    exact hrest
  · exact fun hnone => absurd hnone (by simp)
  · intro p hp'
    obtain rfl := Option.some.inj hp'
    refine ⟨call.tookIn sub.tx, by simp [Log.tookIn, hcurrent], hmsg, ?_⟩
    intro tx htx
    have hother : tx ≠ sub.tx := by
      rw [hpending] at hnodup
      rintro rfl
      exact (List.nodup_cons.mp hnodup).1 htx
    obtain ⟨hin, hout⟩ := hmem tx (by rw [hpending]; exact List.mem_cons_of_mem _ htx)
    exact ⟨hin, fun h' => (Finset.mem_insert.mp h').elim hother hout⟩
  · rw [Log.calls_tookIn hcurrent]
    intro call' hcall'
    rcases List.mem_append.mp hcall' with hold | hnew
    · exact ha.enqueued_subset call' (List.mem_append_left _ hold)
    · rw [List.mem_singleton.mp hnew]
      have hsubset := ha.enqueued_subset call (by simp [Log.calls, hcurrent])
      exact Finset.insert_subset hmatching hsubset
  · have hcount := Log.notEnqueued_tookIn hcurrent hmatching hfresh
    have hdropped := ha.dropped
    rw [hpending, List.length_cons] at hdropped
    show h.dropped + _ = _
    omega
  · intro c
    rw [Log.deliveredTo_tookIn hcurrent hfresh, hmsg]
    by_cases hc : c = sub.tx
    · subst hc
      rw [if_pos rfl]
      show (Function.update h.channels sub.tx _ sub.tx).Carries _ _
      rw [Function.update_self]
      exact (ha.carries sub.tx).push msg
    · rw [if_neg hc]
      show (Function.update h.channels sub.tx _ c).Carries _ _
      rw [Function.update_of_ne hc]
      exact ha.carries c

theorem offer (ha : Accounted h g) (capacity : Nat) :
    Accounted (h.offer capacity) (g.offered capacity h) := by
  match hp : h.publishing with
  | none => simpa only [Hub.offer, Log.offered, hp] using ha
  | some ⟨msg, []⟩ => simpa only [Hub.offer, Log.offered, hp] using ha
  | some ⟨msg, sub :: rest⟩ =>
      simp only [Hub.offer, Log.offered, hp]
      by_cases haccepts : sub.Accepts msg
      · unfold Hub.putValue
        by_cases hopen : (h.channels sub.tx).Open capacity
        · rw [if_pos haccepts, if_pos hopen, if_pos ⟨haccepts, hopen⟩]
          exact ha.enqueue hp haccepts
        · rw [if_pos haccepts, if_neg hopen, if_neg fun hboth => hopen hboth.2]
          exact ha.shed hp haccepts
      · rw [if_neg haccepts, if_neg fun hboth => haccepts hboth.1]
        exact ha.skip hp haccepts

theorem setChannel (ha : Accounted h g) {c : Nat} (hc : c < h.nextChannel)
    {channel : Channel (Message β)} {read : List (Message β)}
    (hcarries : channel.Carries (g.deliveredTo c) read) :
    Accounted (h.setChannel c channel) { g with read := Function.update g.read c read } where
  registered := ha.registered.setChannel hc channel
  idle := ha.idle
  busy := ha.busy
  enqueued_subset := ha.enqueued_subset
  dropped := ha.dropped
  carries c' := by
    show (Function.update h.channels c channel c').Carries (g.deliveredTo c') _
    by_cases hc' : c' = c
    · subst hc'
      simp only [Function.update_self]
      exact hcarries
    · simp only [Function.update_of_ne hc']
      exact ha.carries c'

theorem recv (ha : Accounted h g) {c : Nat} (hopen : (h.channels c).closed = false)
    (hqueue : (h.channels c).queue ≠ []) :
    Accounted (h.recv c)
      { g with
        read := Function.update g.read c (g.read c ++ (h.channels c).queue.head?.toList) } := by
  obtain ⟨msg, rest, heq⟩ := List.exists_cons_of_ne_nil hqueue
  have hc : c < h.nextChannel := by
    by_contra hle
    rw [ha.registered.unmade c (not_lt.mp hle)] at hqueue
    exact hqueue rfl
  apply ha.setChannel hc
  rw [heq]
  exact (ha.carries c).advance hopen heq

theorem dropReceiver (ha : Accounted h g) {c : Nat} (hc : c < h.nextChannel) :
    Accounted (h.dropReceiver c) g := by
  have hclosed := ha.setChannel hc (ha.carries c).close
  rwa [Function.update_eq_self] at hclosed

end Accounted

theorem accounted_next [DecidableEq ι] [DecidableEq β] (h : Accounted s.hub g) {a : Act ι β}
    (ha : s.enabled l a) : Accounted (s.next l a).hub (g.track l s a) := by
  cases a with
  | count i msg => exact h
  | put i msg =>
      simp only [next, put, Log.track]
      split_ifs
      · exact ⟨h.registered, h.idle, h.busy, h.enqueued_subset, h.dropped, h.carries⟩
      · exact h
  | take stream => exact ⟨h.registered, h.idle, h.busy, h.enqueued_subset, h.dropped, h.carries⟩
  | beginPublish stream =>
      obtain ⟨msg, hmsg⟩ := Option.isSome_iff_exists.mp ha.1
      simp only [next, Log.track, hmsg, Option.map_some]
      exact h.beginPublish (Option.isNone_iff_eq_none.mp ha.2) msg
  | offer => exact h.offer l.subscriberQueueMax
  | endPublish =>
      obtain ⟨p, hp, hdone⟩ := ha
      exact h.endPublish hp hdone
  | subscribe filter =>
      have hfree := Option.isNone_iff_eq_none.mp ha
      exact h.of_registry hfree (h.registered.subscribe hfree filter) hfree rfl rfl
  | unsubscribe tx =>
      have hfree := Option.isNone_iff_eq_none.mp ha
      exact h.of_registry hfree (h.registered.unsubscribe hfree tx) hfree rfl rfl
  | read c => exact h.recv ha.1 ha.2
  | dropReceiver c => exact h.dropReceiver ha.1

/-! ## The counters -/

def between (s : Pipeline ι β) (stream : Stream) : List (ι × Message β) :=
  s.counted.filter fun e => decide (e.2.stream = stream)

/-- What was counted was taken, is queued, was shed, or is about to be put. -/
def Balanced (s : Pipeline ι β) (g : Log ι β) : Prop :=
  ∀ stream, s.count stream =
    (g.taken stream).length + (s.queue stream).queue.length + s.shed stream +
      (s.between stream).length

theorem length_between_erase [DecidableEq ι] [DecidableEq β] {i : ι} {msg : Message β}
    (h : (i, msg) ∈ s.counted) (stream : Stream) :
    (s.between stream).length =
      ((s.counted.erase (i, msg)).filter fun e => decide (e.2.stream = stream)).length +
        if msg.stream = stream then 1 else 0 := by
  have hperm := (List.perm_cons_erase h).filter fun e => decide (e.2.stream = stream)
  rw [between, hperm.length_eq, List.filter_cons]
  by_cases hstream : msg.stream = stream <;> simp [hstream]

theorem balanced_put [DecidableEq ι] [DecidableEq β] (h : Balanced s g) {i : ι} {msg : Message β}
    (hmem : (i, msg) ∈ s.counted) :
    Balanced (s.next l (.put i msg)) (g.track l s (.put i msg)) := by
  intro stream
  have hcount := h stream
  rw [length_between_erase hmem stream] at hcount
  simp only [next, put, Log.track]
  by_cases hopen : (s.queue msg.stream).Open (l.capacity msg.stream)
  · rw [if_pos hopen, if_pos hopen]
    by_cases hstream : msg.stream = stream
    · subst hstream
      simp only [between, Function.update_self, Channel.queue_push, List.length_append,
        List.length_singleton, if_true] at hcount ⊢
      omega
    · simp only [between, Function.update_of_ne (Ne.symm hstream), if_neg hstream] at hcount ⊢
      omega
  · rw [if_neg hopen, if_neg hopen]
    by_cases hstream : msg.stream = stream
    · subst hstream
      simp only [between, Function.update_self, if_true] at hcount ⊢
      omega
    · simp only [between, Function.update_of_ne (Ne.symm hstream), if_neg hstream] at hcount ⊢
      omega

theorem balanced_next [DecidableEq ι] [DecidableEq β] (h : Balanced s g) {a : Act ι β}
    (ha : s.enabled l a) : Balanced (s.next l a) (g.track l s a) := by
  cases a with
  | put i msg => exact balanced_put h ha
  | count i msg =>
      intro stream
      have hcount := h stream
      unfold between at hcount
      simp only [next, Log.track, between, List.filter_append, List.length_append]
      by_cases hstream : stream = msg.stream
      · subst hstream
        simp only [Function.update_self, decide_true, List.filter_cons_of_pos, List.filter_nil,
          List.length_singleton]
        omega
      · simp only [Function.update_of_ne hstream, Ne.symm hstream, decide_false,
          List.filter_singleton, cond_false, List.length_nil]
        omega
  | take stream =>
      obtain ⟨msg, rest, hqueue⟩ := List.exists_cons_of_ne_nil ha.2
      intro other
      have hcount := h other
      simp only [next, Log.track, between] at hcount ⊢
      by_cases hother : other = stream
      · subst hother
        simp only [Function.update_self, Channel.advance, hqueue, List.head?_cons,
          Option.toList_some, List.length_append, List.length_cons, List.length_nil,
          List.tail_cons] at hcount ⊢
        omega
      · simp only [Function.update_of_ne hother]
        exact hcount
  | beginPublish stream =>
      obtain ⟨msg, hmsg⟩ := Option.isSome_iff_exists.mp ha.1
      simp only [next, hmsg]
      exact h
  | offer =>
      have htaken : (g.offered l.subscriberQueueMax s.hub).taken = g.taken := by
        unfold Log.offered
        split
        · split <;> rfl
        · rfl
      intro stream
      simp only [next, Log.track, htaken]
      exact h stream
  | endPublish | subscribe _ | unsubscribe _ | read _ | dropReceiver _ => exact h

/-! ## The order -/

structure InOrder (l : Layout ι) (s : Pipeline ι β) (g : Log ι β) : Prop where
  /-- Everything on a stream's way is on that stream. -/
  on_stream : ∀ stream, ∀ msg ∈ g.taken stream ++ (s.queue stream).queue, msg.stream = stream
  owned : ∀ e ∈ s.counted, l.owner e.2.symbol = e.1
  /-- Of one symbol a stream carries what its shard enqueued. -/
  enqueued : ∀ symbol stream,
    (g.enqueued (l.owner symbol)).filter
        (fun msg => decide (msg.symbol = symbol ∧ msg.stream = stream)) =
      (g.taken stream ++ (s.queue stream).queue).filter fun msg => decide (msg.symbol = symbol)
  /-- A drain publishes what it took, in that order. -/
  published : ∀ stream,
    g.taken stream =
      (g.calls.map Call.msg).filter (fun msg => decide (msg.stream = stream)) ++
        (s.inHand stream).toList

namespace InOrder

theorem start : InOrder l (Pipeline.start : Pipeline ι β) Log.start := by
  constructor <;> simp [Pipeline.start, Log.start, Log.calls]

theorem of_same (h : InOrder l s g) {s' : Pipeline ι β} {g' : Log ι β}
    (hcounted : s'.counted = s.counted) (hqueue : s'.queue = s.queue)
    (hinHand : s'.inHand = s.inHand) (henqueued : g'.enqueued = g.enqueued)
    (htaken : g'.taken = g.taken) (hcalls : g'.calls.map Call.msg = g.calls.map Call.msg) :
    InOrder l s' g' := by
  constructor
  · rw [htaken, hqueue]
    exact h.on_stream
  · rw [hcounted]
    exact h.owned
  · rw [henqueued, htaken, hqueue]
    exact h.enqueued
  · rw [htaken, hcalls, hinHand]
    exact h.published

theorem take [DecidableEq ι] [DecidableEq β] (h : InOrder l s g) {stream : Stream}
    (hidle : (s.inHand stream).isNone) (hne : (s.queue stream).queue ≠ []) :
    InOrder l (s.next l (.take stream)) (g.track l s (.take stream)) := by
  obtain ⟨msg, rest, hqueue⟩ := List.exists_cons_of_ne_nil hne
  have hmoved : ∀ other, (g.track l s (.take stream)).taken other ++
      ((s.next l (.take stream)).queue other).queue = g.taken other ++ (s.queue other).queue := by
    intro other
    simp only [Log.track, next]
    by_cases hother : other = stream
    · subst hother
      simp [Channel.advance, hqueue]
    · simp only [Function.update_of_ne hother]
  constructor
  · intro other
    rw [hmoved other]
    exact h.on_stream other
  · exact h.owned
  · intro symbol other
    rw [hmoved other]
    exact h.enqueued symbol other
  · intro other
    have hpublished := h.published other
    simp only [Log.track, next]
    by_cases hother : other = stream
    · subst hother
      rw [Option.isNone_iff_eq_none.mp hidle, Option.toList_none, List.append_nil] at hpublished
      simp only [Function.update_self, hqueue, List.head?_cons, Option.toList_some]
      rw [hpublished]
      rfl
    · simp only [Function.update_of_ne hother]
      exact hpublished

theorem put [DecidableEq ι] [DecidableEq β] (h : InOrder l s g) {i : ι} {msg : Message β}
    (hmem : (i, msg) ∈ s.counted) :
    InOrder l (s.next l (.put i msg)) (g.track l s (.put i msg)) := by
  have howner : l.owner msg.symbol = i := h.owned _ hmem
  simp only [next, Pipeline.put, Log.track]
  by_cases hopen : (s.queue msg.stream).Open (l.capacity msg.stream)
  · rw [if_pos hopen, if_pos hopen]
    constructor
    · intro stream msg' hmsg'
      by_cases hstream : stream = msg.stream
      · subst hstream
        simp only [Function.update_self, Channel.queue_push, ← List.append_assoc] at hmsg'
        rcases List.mem_append.mp hmsg' with hold | hnew
        · exact h.on_stream _ _ hold
        · rw [List.mem_singleton.mp hnew]
      · simp only [Function.update_of_ne hstream] at hmsg'
        exact h.on_stream _ _ hmsg'
    · exact fun e he => h.owned e (List.mem_of_mem_erase he)
    · intro symbol stream
      have henqueued := h.enqueued symbol stream
      have hshard : (Function.update g.enqueued i (g.enqueued i ++ [msg]) (l.owner symbol)).filter
            (fun msg => decide (msg.symbol = symbol ∧ msg.stream = stream)) =
          (g.enqueued (l.owner symbol)).filter
              (fun msg => decide (msg.symbol = symbol ∧ msg.stream = stream)) ++
            [msg].filter fun msg => decide (msg.symbol = symbol ∧ msg.stream = stream) := by
        by_cases hsame : l.owner symbol = i
        · rw [hsame, Function.update_self, List.filter_append]
        · have hsymbol : msg.symbol ≠ symbol := by
            rintro rfl
            exact hsame howner
          rw [Function.update_of_ne hsame]
          simp [hsymbol]
      rw [hshard, henqueued]
      by_cases hstream : stream = msg.stream
      · subst hstream
        simp only [Function.update_self, Channel.queue_push, ← List.append_assoc,
          List.filter_append]
        simp [List.filter_singleton]
      · simp only [Function.update_of_ne hstream, Ne.symm hstream, and_false, decide_false,
          List.filter_singleton, cond_false, List.append_nil]
    · exact h.published
  · rw [if_neg hopen, if_neg hopen]
    exact ⟨h.on_stream, fun e he => h.owned e (List.mem_of_mem_erase he), h.enqueued, h.published⟩

theorem beginPublish [DecidableEq ι] [DecidableEq β] (h : InOrder l s g)
    (hcurrent : g.current = none) {stream : Stream} {msg : Message β}
    (hmsg : s.inHand stream = some msg) :
    InOrder l (s.next l (.beginPublish stream)) (g.track l s (.beginPublish stream)) := by
  have hstream : msg.stream = stream := by
    apply h.on_stream stream msg
    rw [h.published stream, hmsg]
    simp
  simp only [next, Log.track, hmsg, Option.map_some]
  refine ⟨h.on_stream, h.owned, h.enqueued, ?_⟩
  intro other
  show g.taken other = _
  rw [h.published other]
  simp only [Log.calls, hcurrent, Option.toList_none, List.append_nil, Option.toList_some,
    List.map_append, List.map_cons, List.map_nil, List.filter_append]
  by_cases hother : other = stream
  · subst hother
    simp [hmsg, hstream]
  · have hne : msg.stream ≠ other := fun heq => hother (heq ▸ hstream)
    simp [Function.update_of_ne hother, hne]

end InOrder

theorem calls_offered (capacity : Nat) (h : Hub β) (g : Log ι β) :
    (g.offered capacity h).calls.map Call.msg = g.calls.map Call.msg ∧
      (g.offered capacity h).enqueued = g.enqueued ∧ (g.offered capacity h).taken = g.taken := by
  unfold Log.offered
  split
  · split
    · refine ⟨?_, rfl, rfl⟩
      cases hcurrent : g.current <;> simp [Log.calls, hcurrent]
    · exact ⟨rfl, rfl, rfl⟩
  · exact ⟨rfl, rfl, rfl⟩

theorem inOrder_next [DecidableEq ι] [DecidableEq β] (h : InOrder l s g)
    (haccounted : Accounted s.hub g) {a : Act ι β} (ha : s.enabled l a) :
    InOrder l (s.next l a) (g.track l s a) := by
  cases a with
  | put i msg => exact h.put ha
  | take stream => exact h.take ha.1.1 ha.2
  | count i msg =>
      refine ⟨h.on_stream, ?_, h.enqueued, h.published⟩
      intro e he
      rcases List.mem_append.mp he with hold | hnew
      · exact h.owned e hold
      · rw [List.mem_singleton.mp hnew]
        exact ha.1
  | beginPublish stream =>
      obtain ⟨msg, hmsg⟩ := Option.isSome_iff_exists.mp ha.1
      exact h.beginPublish (haccounted.idle (Option.isNone_iff_eq_none.mp ha.2)) hmsg
  | offer =>
      obtain ⟨hcalls, henqueued, htaken⟩ := calls_offered l.subscriberQueueMax s.hub g
      exact h.of_same rfl rfl rfl henqueued htaken hcalls
  | endPublish => exact h.of_same rfl rfl rfl rfl rfl (by simp [Log.track, Log.calls])
  | subscribe _ | unsubscribe _ | read _ | dropReceiver _ => exact h.of_same rfl rfl rfl rfl rfl rfl

/-! ## Every run -/

theorem delivered_sublist_published (h : Accounted s.hub g) (c : Nat) :
    (g.deliveredTo c).Sublist (g.publishedFor c) := by
  have hrefines : (g.calls.filter fun call => decide (c ∈ call.enqueuedTo)) =
      (g.calls.filter fun call => decide (c ∈ call.matching)).filter
        fun call => decide (c ∈ call.enqueuedTo) := by
    rw [List.filter_filter]
    apply List.filter_congr
    intro call hcall
    have hsubset := h.enqueued_subset call hcall
    by_cases hin : c ∈ call.enqueuedTo
    · simp [hin, hsubset hin]
    · simp [hin]
  unfold Log.deliveredTo
  rw [hrefines]
  exact List.filter_sublist.map _

/-- What was published on a stream for a symbol was enqueued by the shard of the
symbol, in that order. -/
theorem published_sublist_enqueued (h : InOrder l s g) (symbol : String) (stream : Stream) :
    ((g.calls.map Call.msg).filter
        fun msg => decide (msg.symbol = symbol ∧ msg.stream = stream)).Sublist
      ((g.enqueued (l.owner symbol)).filter
        fun msg => decide (msg.symbol = symbol ∧ msg.stream = stream)) := by
  have hsplit : ((g.calls.map Call.msg).filter
        fun msg => decide (msg.symbol = symbol ∧ msg.stream = stream)) =
      ((g.calls.map Call.msg).filter fun msg => decide (msg.stream = stream)).filter
        fun msg => decide (msg.symbol = symbol) := by
    rw [List.filter_filter]
    simp only [Bool.decide_and]
  have hstart : ((g.calls.map Call.msg).filter fun msg => decide (msg.stream = stream)).Sublist
      (g.taken stream ++ (s.queue stream).queue) := by
    rw [h.published stream, List.append_assoc]
    exact List.sublist_append_left _ _
  rw [h.enqueued symbol stream, hsplit]
  exact hstart.filter _

section Runs

variable [DecidableEq ι] [DecidableEq β] {sg : Pipeline ι β × Log ι β}

theorem accounted_reachable (hs : (logged l).Reachable sg) : Accounted sg.1.hub sg.2 := by
  refine hs.invariant (I := fun sg => Accounted sg.1.hub sg.2) ?_ ?_
  · rintro ⟨s, g⟩ ⟨rfl, rfl⟩
    exact .start
  · rintro ⟨s, g⟩ a h ha
    exact accounted_next h ha

theorem balanced_reachable (hs : (logged l).Reachable sg) : Balanced sg.1 sg.2 := by
  refine hs.invariant (I := fun sg => Balanced sg.1 sg.2) ?_ ?_
  · rintro ⟨s, g⟩ ⟨rfl, rfl⟩ stream
    rfl
  · rintro ⟨s, g⟩ a h ha
    exact balanced_next h ha

theorem inOrder_reachable (hs : (logged l).Reachable sg) : InOrder l sg.1 sg.2 := by
  refine hs.invariant_of_reachable (I := fun sg => InOrder l sg.1 sg.2) ?_ ?_
  · rintro ⟨s, g⟩ ⟨rfl, rfl⟩
    exact .start
  · rintro ⟨s, g⟩ a hreachable h ha
    exact inOrder_next h (accounted_reachable hreachable) ha

/-- Nothing is lost, repeated or reordered unaccounted. With no shard between its
increment and its put, what a stream counted was taken, is queued or was shed; what a
drain took it published, in that order, or has in hand, and of each symbol it is with the
queue what the shard of the symbol enqueued. What a channel took in was published for its
subscriber, and its subscriber has read it or will find it in the queue for as long as the
receiver lives; what was read of one symbol on one stream was enqueued in that order by
its shard. And what was published for a subscriber and not enqueued to it is counted, or
is still to be offered by the call under way. -/
theorem nothing_silently_lost (l : Layout ι) (hs : (logged l).Reachable sg) :
    (∀ stream, sg.1.between stream = [] →
      sg.1.count stream =
        (sg.2.taken stream).length + (sg.1.queue stream).queue.length + sg.1.shed stream) ∧
    (∀ stream,
      sg.2.taken stream =
          (sg.2.calls.map Call.msg).filter (fun msg => decide (msg.stream = stream)) ++
            (sg.1.inHand stream).toList ∧
        ∀ symbol, (sg.2.enqueued (l.owner symbol)).filter
            (fun msg => decide (msg.symbol = symbol ∧ msg.stream = stream)) =
          (sg.2.taken stream ++ (sg.1.queue stream).queue).filter
            fun msg => decide (msg.symbol = symbol)) ∧
    (∀ c,
      ((sg.1.hub.channels c).closed = false →
        sg.2.deliveredTo c = sg.2.read c ++ (sg.1.hub.channels c).queue) ∧
      sg.2.read c <+: sg.2.deliveredTo c ∧
      (sg.2.deliveredTo c).Sublist (sg.2.publishedFor c)) ∧
    (∀ c, (sg.2.read c).Sublist (sg.2.publishedFor c) ∧
      ∀ symbol stream,
        ((sg.2.read c).filter
            fun msg => decide (msg.symbol = symbol ∧ msg.stream = stream)).Sublist
          ((sg.2.enqueued (l.owner symbol)).filter
            fun msg => decide (msg.symbol = symbol ∧ msg.stream = stream))) ∧
    sg.1.hub.dropped + sg.1.hub.pending.length = sg.2.notEnqueued ∧
    (sg.1.hub.publishing = none → sg.1.hub.dropped = sg.2.notEnqueued) := by
  have haccounted := accounted_reachable hs
  have hinOrder := inOrder_reachable hs
  have hdropped := haccounted.dropped
  have hread : ∀ c, (sg.2.read c).Sublist (sg.2.publishedFor c) := fun c =>
    (haccounted.carries c).prefix_taken.sublist.trans (delivered_sublist_published haccounted c)
  refine ⟨fun stream hbetween => ?_, fun stream => ?_, fun c => ?_, fun c => ?_, hdropped,
    fun hfree => ?_⟩
  · have hcount := balanced_reachable hs stream
    rw [hbetween] at hcount
    simpa using hcount
  · exact ⟨hinOrder.published stream, fun symbol => hinOrder.enqueued symbol stream⟩
  · have hcarries := haccounted.carries c
    exact ⟨hcarries.of_open, hcarries.prefix_taken, delivered_sublist_published haccounted c⟩
  · refine ⟨hread c, fun symbol stream => ?_⟩
    have hcalls : (sg.2.read c).Sublist (sg.2.calls.map Call.msg) :=
      (hread c).trans (List.filter_sublist.map _)
    exact (hcalls.filter _).trans (published_sublist_enqueued hinOrder symbol stream)
  · rw [← hdropped]
    simp [Hub.pending, hfree]

end Runs

def oneShard : Layout Unit := ⟨fun _ => 2, 2, fun _ => (), fun _ => by decide, by decide⟩

def tickerMessage : Message Nat := ⟨.bbo, "BTCUSDT", 1⟩

def bookMessage : Message Nat := ⟨.book, "BTCUSDT", 2⟩

/-- The drain of the book stream overtakes that of the ticker stream. -/
def overtaking : List (Act Unit Nat) :=
  [.subscribe ⟨.all, none⟩,
    .count () tickerMessage, .put () tickerMessage, .count () bookMessage, .put () bookMessage,
    .take .bbo, .take .book, .beginPublish .book, .offer, .endPublish,
    .beginPublish .bbo, .offer, .endPublish, .read 0, .read 0]

def overtakingState : Pipeline Unit Nat × Log Unit Nat :=
  (logged oneShard).exec (.start, .start) overtaking

theorem overtakingState_reachable : (logged oneShard).Reachable overtakingState :=
  (Machine.Reachable.start (m := logged oneShard) (s := (.start, .start)) ⟨rfl, rfl⟩).exec
    overtaking (by decide +kernel)

theorem nothing_silently_lost_overtaking :
    overtakingState.2.read 0 = [bookMessage, tickerMessage] ∧
      overtakingState.2.deliveredTo 0 =
        overtakingState.2.read 0 ++ (overtakingState.1.hub.channels 0).queue ∧
      overtakingState.1.hub.dropped = overtakingState.2.notEnqueued := by
  have hall := nothing_silently_lost oneShard overtakingState_reachable
  exact ⟨by decide +kernel, (hall.2.2.1 0).1 (by decide +kernel),
    hall.2.2.2.2.2 (by decide +kernel)⟩

/-- A subscriber of both streams does not read the messages of a symbol in the order
its shard enqueued them: each stream has a queue and a drain of its own. -/
theorem streams_overtake :
    ¬ ∀ (l : Layout Unit) (sg : Pipeline Unit Nat × Log Unit Nat), (logged l).Reachable sg →
      ∀ c symbol, ((sg.2.read c).filter fun msg => decide (msg.symbol = symbol)).Sublist
        ((sg.2.enqueued (l.owner symbol)).filter fun msg => decide (msg.symbol = symbol)) := by
  intro hall
  exact absurd (hall oneShard overtakingState overtakingState_reachable 0 "BTCUSDT")
    (by decide +kernel)

end FeedHandler.Publisher.Pipeline
