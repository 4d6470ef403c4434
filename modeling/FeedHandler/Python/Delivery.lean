import FeedHandler.Lib.Fanout
import FeedHandler.Python.Sessions
/-!
# What the sockets of the Python port get

`_publish` offers a message to every entry of the registry whose filter it passes, and a
full queue sheds its oldest one for it. So a socket gets what was published for its
subscription since the subscription was confirmed, in that order, but for what was shed,
and everything shed is counted. An orphaned queue is read by nobody: once it is full
each further message for it counts as dropped.
-/

namespace FeedHandler.Python.Sessions

open Lib Publisher.Server

variable {β : Type}

/-- The data since the session last confirmed anything. -/
def dataSince (sent : List (Sent β)) : List (Message β) :=
  sent.foldl (fun data item =>
    match item with
    | .data msg => data ++ [msg]
    | _ => []) []

namespace Server

variable {s s' : Server β} {g g' : Trace β} {i : Nat} {k : Handler}

/-! ## The queues -/

theorem put_eq {q : Nat} (hbounded : (s.queues q).length ≤ subscriberQueueMax)
    (msg : Message β) :
    s.put q msg =
      { s with
        queues := Function.update s.queues q (slide subscriberQueueMax (s.queues q) msg)
        dropped :=
          if (s.queues q).length < subscriberQueueMax then s.dropped else s.dropped + 1 } := by
  have hput := Shedding.publisherPut_eq subscriberQueueMax ⟨s.queues q, s.dropped⟩ msg
  rw [Shedding.put_python (by decide) hbounded] at hput
  unfold put
  rw [hput]
  rfl

structure Delivered (s : Server β) (g : Trace β) : Prop where
  fanout : Fanout subscriberQueueMax s.nextQueue g.matched g.taken s.queues s.dropped
  orphaned : ∀ q ∈ g.orphans,
    g.taken q = [] ∧ s.queues q = (g.matched q).rtake subscriberQueueMax

namespace Delivered

theorem offer (h : Delivered s g) (msg : Message β) {e : Entry} (he : e.queue < s.nextQueue) :
    Delivered (Server.offer msg s e) (g.offer msg e) := by
  unfold Server.offer Trace.offer
  by_cases haccepts : e.accepts msg = true
  · rw [if_pos haccepts, if_pos haccepts, put_eq (h.fanout.slid e.queue).bounded]
    constructor
    · exact h.fanout.put (by decide) he msg
    · intro q hq
      obtain ⟨htaken, hqueue⟩ := h.orphaned q hq
      refine ⟨htaken, ?_⟩
      by_cases heq : q = e.queue
      · subst heq
        simp only [Function.update_self]
        rw [hqueue]
        exact slide_rtake (by decide) _ msg
      · simp only [Function.update_of_ne heq]
        exact hqueue
  · rw [if_neg haccepts, if_neg haccepts]
    exact h

theorem take (h : Delivered s g) {q : Nat} {msg : Message β} {rest : List (Message β)}
    (hq : q < s.nextQueue) (hread : q ∉ g.orphans) (hqueue : s.queues q = msg :: rest)
    (hnext : s'.nextQueue = s.nextQueue) (hdropped : s'.dropped = s.dropped)
    (hqueues : s'.queues = Function.update s.queues q rest) (horphans : g'.orphans = g.orphans)
    (hmatched : g'.matched = g.matched)
    (htaken : g'.taken = Function.update g.taken q (g.taken q ++ [msg])) : Delivered s' g' := by
  constructor
  · rw [hnext, hdropped, hqueues, hmatched, htaken]
    exact h.fanout.take hq hqueue
  · intro q' hq'
    rw [horphans] at hq'
    have hne : q' ≠ q := fun heq => hread (heq ▸ hq')
    rw [htaken, hqueues, hmatched, Function.update_of_ne hne, Function.update_of_ne hne]
    exact h.orphaned q' hq'

theorem of_same (h : Delivered s g) (hnext : s'.nextQueue = s.nextQueue)
    (hdropped : s'.dropped = s.dropped) (hqueues : s'.queues = s.queues)
    (horphans : g'.orphans = g.orphans) (hmatched : g'.matched = g.matched)
    (htaken : g'.taken = g.taken) : Delivered s' g' := by
  constructor
  · rw [hnext, hdropped, hqueues, hmatched, htaken]
    exact h.fanout
  · rw [hqueues, horphans, hmatched, htaken]
    exact h.orphaned

theorem register (h : Delivered s g) (hnext : s'.nextQueue = s.nextQueue + 1)
    (hdropped : s'.dropped = s.dropped) (hqueues : s'.queues = s.queues)
    (horphans : ∀ q ∈ g'.orphans, q ∈ g.orphans ∨ q = s.nextQueue)
    (hmatched : g'.matched = g.matched) (htaken : g'.taken = g.taken) : Delivered s' g' := by
  constructor
  · rw [hnext, hdropped, hqueues, hmatched, htaken]
    exact h.fanout.grow
  · intro q hq
    rw [hqueues, hmatched, htaken]
    rcases horphans q hq with hold | rfl
    · exact h.orphaned q hold
    · have hunused := h.fanout.unused s.nextQueue (Nat.le_refl _)
      obtain ⟨hnone, hempty⟩ := h.fanout.nil_of_unused (Nat.le_refl s.nextQueue)
      rw [hnone, hempty, hunused]
      exact ⟨rfl, (List.rtake_nil _).symm⟩

end Delivered

/-! ## What a publish call offers -/

theorem matched_offer_of_ne {e : Entry} {q : Nat} (hne : q ≠ e.queue) (msg : Message β)
    (trace : Trace β) : (trace.offer msg e).matched q = trace.matched q := by
  unfold Trace.offer
  split_ifs
  · exact Function.update_of_ne hne _ _
  · rfl

theorem matched_offer_self (e : Entry) (msg : Message β) (trace : Trace β) :
    (trace.offer msg e).matched e.queue =
      trace.matched e.queue ++ if e.accepts msg then [msg] else [] := by
  unfold Trace.offer
  split_ifs
  · exact Function.update_self _ _ _
  · exact (List.append_nil _).symm

theorem matched_foldl_of_notMem (msg : Message β) (entries : List Entry) {q : Nat}
    (hnot : q ∉ entries.map Entry.queue) (trace : Trace β) :
    (entries.foldl (Trace.offer msg) trace).matched q = trace.matched q := by
  induction entries generalizing trace with
  | nil => rfl
  | cons e entries ih =>
      rw [List.map_cons, List.mem_cons, not_or] at hnot
      rw [List.foldl_cons, ih hnot.2, matched_offer_of_ne hnot.1]

theorem matched_foldl_of_mem (msg : Message β) {entries : List Entry}
    (hnodup : (entries.map Entry.queue).Nodup) {e : Entry} (he : e ∈ entries)
    (trace : Trace β) :
    (entries.foldl (Trace.offer msg) trace).matched e.queue =
      trace.matched e.queue ++ if e.accepts msg then [msg] else [] := by
  induction entries generalizing trace with
  | nil => exact absurd he List.not_mem_nil
  | cons head entries ih =>
      rw [List.map_cons, List.nodup_cons] at hnodup
      rw [List.foldl_cons]
      rcases List.mem_cons.mp he with rfl | he
      · rw [matched_foldl_of_notMem msg entries hnodup.1, matched_offer_self]
      · have hne : e.queue ≠ head.queue := fun heq =>
          hnodup.1 (heq ▸ List.mem_map_of_mem he)
        rw [ih hnodup.2 he, matched_offer_of_ne hne]

theorem published_foldl (g : Trace β) (msg : Message β) (entries : List Entry) :
    (entries.foldl (Trace.offer msg) (g.publish msg)).published = g.published ++ [msg] := by
  obtain ⟨matched, hg⟩ := foldl_trace_eq (g.publish msg) msg entries
  rw [hg]
  rfl

theorem publish_or_same (s : Server β) (a : Act β) (g : Trace β) :
    (∃ msg, a = .publish msg) ∨ (Trace.track s a g).matched = g.matched ∧
      (Trace.track s a g).published = g.published := by
  cases a with
  | publish msg => exact Or.inl ⟨msg, rfl⟩
  | frame i text =>
      right
      show (g.trackFrame s.nextQueue i (.ofText text)).matched = g.matched ∧
        (g.trackFrame s.nextQueue i (.ofText text)).published = g.published
      cases Frame.ofText text with
      | subscribe stream symbols =>
          cases houtcome : outcome symbols <;>
            simp [Trace.trackFrame, houtcome, Trace.agree, Trace.send]
      | invalidJson => exact ⟨rfl, rfl⟩
      | unfit => exact ⟨rfl, rfl⟩
      | unsubscribe => exact ⟨rfl, rfl⟩
      | other => exact ⟨rfl, rfl⟩
  | get t =>
      obtain ⟨taken, sent, hg⟩ := track_get_eq s g t
      rw [hg]
      exact Or.inr ⟨rfl, rfl⟩
  | take q =>
      obtain ⟨taken, hg⟩ := track_take_eq s g q
      rw [hg]
      exact Or.inr ⟨rfl, rfl⟩
  | connect i => exact Or.inr ⟨rfl, rfl⟩
  | replied i => exact Or.inr ⟨rfl, rfl⟩
  | leave i => exact Or.inr ⟨rfl, rfl⟩
  | written t => exact Or.inr ⟨rfl, rfl⟩
  | finish t => exact Or.inr ⟨rfl, rfl⟩
  | consume => exact Or.inr ⟨rfl, rfl⟩

/-- What a queue was offered was published, once for each offer and in that order. -/
def Within (g : Trace β) : Prop := ∀ q, (g.matched q).Sublist g.published

theorem Within.track (h : Within g) (hnodup : s.ids.Nodup) (a : Act β) :
    Within (Trace.track s a g) := by
  intro q
  rcases publish_or_same s a g with ⟨msg, rfl⟩ | ⟨hmatched, hpublished⟩
  · have hold : ((g.publish msg).matched q).Sublist g.published := h q
    show ((s.subscribers.foldl (Trace.offer msg) (g.publish msg)).matched q).Sublist
      (s.subscribers.foldl (Trace.offer msg) (g.publish msg)).published
    rw [published_foldl]
    by_cases hq : q ∈ s.ids
    · obtain ⟨e, he, rfl⟩ := List.mem_map.mp hq
      rw [matched_foldl_of_mem msg hnodup he]
      apply hold.append
      split_ifs
      · exact List.Sublist.refl _
      · exact List.nil_sublist _
    · rw [matched_foldl_of_notMem msg _ hq]
      exact hold.trans (List.sublist_append_left _ _)
  · rw [hmatched, hpublished]
    exact h q

/-! ## What a queue is offered is what its subscriber asked for -/

/-- The entry lets through what its call asked for, and of what was published since, the
queue was offered just that. -/
structure Honours (g : Trace β) (e : Entry) (terms : Terms) : Prop where
  called : g.terms e.queue = some terms
  accepts : ∀ msg : Message β, e.accepts msg = terms.passes msg
  since : terms.since ≤ g.published.length
  matched : g.matched e.queue = (g.published.drop terms.since).filter terms.passes

def Honoured (s : Server β) (g : Trace β) : Prop :=
  ∀ e ∈ s.subscribers, ∃ terms, Honours g e terms

namespace Honoured

theorem of_same (h : Honoured s g) (hsubscribers : s'.subscribers ⊆ s.subscribers)
    (hterms : g'.terms = g.terms) (hpublished : g'.published = g.published)
    (hmatched : g'.matched = g.matched) : Honoured s' g' := by
  intro e he
  obtain ⟨terms, honours⟩ := h e (hsubscribers he)
  refine ⟨terms, ?_, honours.accepts, ?_, ?_⟩
  · rw [hterms]
    exact honours.called
  · rw [hpublished]
    exact honours.since
  · rw [hmatched, hpublished]
    exact honours.matched

theorem register (h : Honoured s g) (hfresh : ∀ q ∈ s.ids, q < s.nextQueue)
    (hunmatched : g.matched s.nextQueue = []) {e : Entry} {stream symbols : Json}
    (hqueue : e.queue = s.nextQueue)
    (haccepts : ∀ msg : Message β,
      e.accepts msg = (Terms.mk stream symbols g.published.length).passes msg)
    (hsubscribers : ∀ e' ∈ s'.subscribers, e' ∈ s.subscribers ∨ e' = e)
    (hterms : g'.terms = (g.agree s.nextQueue stream symbols).terms)
    (hpublished : g'.published = g.published) (hmatched : g'.matched = g.matched) :
    Honoured s' g' := by
  intro e' he'
  rcases hsubscribers e' he' with hold | rfl
  · obtain ⟨terms, honours⟩ := h e' hold
    have hlt := hfresh e'.queue (List.mem_map_of_mem hold)
    refine ⟨terms, ?_, honours.accepts, ?_, ?_⟩
    · rw [hterms]
      exact (Function.update_of_ne (Nat.ne_of_lt hlt) _ _).trans honours.called
    · rw [hpublished]
      exact honours.since
    · rw [hmatched, hpublished]
      exact honours.matched
  · refine ⟨_, ?_, haccepts, ?_, ?_⟩
    · rw [hterms, hqueue]
      exact Function.update_self _ _ _
    · rw [hpublished]
    · rw [hmatched, hqueue, hunmatched, hpublished, List.drop_length]
      rfl

theorem publish (h : Honoured s g) (hnodup : s.ids.Nodup) (msg : Message β)
    (hsubscribers : s'.subscribers = s.subscribers) :
    Honoured s' (s.subscribers.foldl (Trace.offer msg) (g.publish msg)) := by
  intro e he
  rw [hsubscribers] at he
  obtain ⟨terms, honours⟩ := h e he
  have hoffered := matched_foldl_of_mem msg hnodup he (g.publish msg)
  have hpublished := published_foldl g msg s.subscribers
  refine ⟨terms, ?_, honours.accepts, ?_, ?_⟩
  · obtain ⟨matched, hg⟩ := foldl_trace_eq (g.publish msg) msg s.subscribers
    rw [hg]
    exact honours.called
  · rw [hpublished, List.length_append]
    exact Nat.le_add_right_of_le honours.since
  · rw [hoffered, hpublished, List.drop_append_of_le_length honours.since, List.filter_append,
      List.filter_singleton, ← honours.matched, ← honours.accepts msg, Bool.cond_eq_ite]
    rfl

end Honoured

/-! ## The sockets -/

/-- Data after the list so far goes out to a subscribed session. -/
def Confirmed (sent : List (Sent β)) : Prop :=
  ∀ pre msg post, sent = pre ++ .data msg :: post → subscribedAfter pre = true

theorem Confirmed.concat {sent : List (Sent β)} (h : Confirmed sent) {item : Sent β}
    (hitem : ∀ msg, item = .data msg → subscribedAfter sent = true) :
    Confirmed (sent ++ [item]) := by
  intro pre msg post heq
  rcases List.eq_nil_or_concat' post with rfl | ⟨post, last, rfl⟩
  · obtain ⟨hpre, hlast⟩ := List.append_inj' heq rfl
    rw [← hpre]
    exact hitem msg (List.singleton_inj.mp hlast)
  · rw [← List.cons_append, ← List.append_assoc] at heq
    exact h pre msg post (List.append_inj' heq rfl).1

structure Told (s : Server β) (g : Trace β) : Prop where
  since : ∀ i q, s.held i = some q →
    dataSince (g.sent i) = g.taken q ∧ subscribedAfter (g.sent i) = true
  confirmed : ∀ i, Confirmed (g.sent i)

namespace Told

theorem of_same (h : Told s g) (hheld : ∀ j q, s'.held j = some q → s.held j = some q)
    (hsent : g'.sent = g.sent) (htaken : ∀ j q, s.held j = some q → g'.taken q = g.taken q) :
    Told s' g' := by
  constructor
  · intro j q hj
    rw [hsent, htaken j q (hheld j q hj)]
    exact h.since j q (hheld j q hj)
  · rw [hsent]
    exact h.confirmed

theorem send (h : Told s g) (item : Sent β)
    (hsent : g'.sent = Function.update g.sent i (g.sent i ++ [item]))
    (hdata : ∀ msg, item = .data msg → subscribedAfter (g.sent i) = true)
    (hself : ∀ q, s'.held i = some q →
      dataSince (g.sent i ++ [item]) = g'.taken q ∧ subscribedAfter (g.sent i ++ [item]) = true)
    (hother : ∀ j q, j ≠ i → s'.held j = some q → s.held j = some q ∧ g'.taken q = g.taken q) :
    Told s' g' := by
  constructor
  · intro j q hj
    rw [hsent]
    by_cases heq : j = i
    · subst heq
      rw [Function.update_self]
      exact hself q hj
    · obtain ⟨hheld, htaken⟩ := hother j q heq hj
      rw [Function.update_of_ne heq, htaken]
      exact h.since j q hheld
  · intro j
    rw [hsent]
    by_cases heq : j = i
    · subst heq
      rw [Function.update_self]
      exact (h.confirmed j).concat hdata
    · rw [Function.update_of_ne heq]
      exact h.confirmed j

end Told

/-! ## Every step -/

end Server

end FeedHandler.Python.Sessions
