import FeedHandler.Handler.Refinement
import FeedHandler.Venue.History
/-!
# Which episode a snapshot belongs to

A snapshot is meant for the stretch of buffering that asked for it. Aborting the
registered sync before spawning another, and all of them on a disconnect, keeps
the shard's own syncs to that. The stale sweeper registers nothing: a sync it
spawned, or is about to spawn, is still there after the shard has reset its books
and connected again. `FirstEventAlone` rules that out, and then every snapshot
that reaches a buffering book was asked for since it began to buffer.
-/

namespace FeedHandler.Handler

open Lib

namespace SymbolState

variable {c : SymbolState} {entries entries' : Nat} {sentIn sentIn' : Nat → Nat}

def Idle (c : SymbolState) : Prop := ∀ t pc, c.tasks t = some pc → pc.unfinished = false

def Only (c : SymbolState) (t : Nat) : Prop :=
  ∀ t' pc, c.tasks t' = some pc → pc.unfinished = true → t' = t

def Alone (c : SymbolState) : Prop := c.marked = false ∧ c.Idle

/-- The operation takes the book into buffering. A snapshot that leaves it there
counts: where the integrity check fails the book was live in between. -/
def Enters (c : SymbolState) (op : SymbolOp) : Prop :=
  (c.next op).book.state = .buffering ∧
    (c.book.state ≠ .buffering ∨ ∃ t lastUpdateId bids asks, op = .respond t lastUpdateId bids asks)

/-- At most one sync is unfinished while the book buffers, and its request went
out after `entries` entries into buffering, which is how many there have been. -/
structure OneSync (c : SymbolState) (entries : Nat) (sentIn : Nat → Nat) : Prop where
  live : c.book.state = .live → c.phase ≠ .asking ∧ c.Alone
  asking : c.phase = .asking → c.book.state = .buffering ∧ c.Alone
  marked : c.book.state = .buffering → c.marked = true → c.Idle
  single : c.book.state = .buffering → ∃ t, c.Only t
  sent : c.book.state = .buffering → ∀ t, c.tasks t = some .inFlight → sentIn t = entries

theorem Idle.only (h : c.Idle) (t : Nat) : c.Only t := by
  intro t' pc ht' hpc
  rw [h t' pc ht'] at hpc
  simp at hpc

theorem Idle.not_unfinished (h : c.Idle) {t : Nat} {pc : TaskPc} (ht : c.tasks t = some pc)
    (hpc : pc.unfinished = true) : False := by
  rw [h t pc ht] at hpc
  simp at hpc

theorem Only.setTask {t : Nat} (h : c.Only t) (pc : TaskPc) : (c.setTask t pc).Only t := by
  intro t' pc' ht' hpc'
  by_contra hne
  rw [setTask_tasks, if_neg hne] at ht'
  exact hne (h t' pc' ht' hpc')

theorem Only.idle_setTask {t : Nat} (h : c.Only t) {pc : TaskPc} (hpc : pc.unfinished = false) :
    (c.setTask t pc).Idle := by
  intro t' pc' ht'
  rw [setTask_tasks] at ht'
  split_ifs at ht' with heq
  · obtain rfl := Option.some.inj ht'
    exact hpc
  · by_contra hunfinished
    exact heq (h t' pc' ht' (Bool.not_eq_false _ ▸ hunfinished))

namespace OneSync

theorem of_uninitialized (hstate : c.book.state = .uninitialized) (hphase : c.phase ≠ .asking) :
    OneSync c entries sentIn where
  live hb := by simp [hstate] at hb
  asking hb := absurd hb hphase
  marked hb := by simp [hstate] at hb
  single hb := by simp [hstate] at hb
  sent hb := by simp [hstate] at hb

theorem of_alone (hstate : c.book.state = .buffering) (halone : c.Alone) :
    OneSync c entries sentIn where
  live hb := by simp [hstate] at hb
  asking _ := ⟨hstate, halone⟩
  marked _ _ := halone.2
  single _ := ⟨0, halone.2.only 0⟩
  sent _ t ht := (halone.2.not_unfinished ht rfl).elim

theorem of_live (hstate : c.book.state = .live) (hphase : c.phase ≠ .asking)
    (halone : c.Alone) : OneSync c entries sentIn where
  live _ := ⟨hphase, halone⟩
  asking hb := absurd hb hphase
  marked hb := by simp [hstate] at hb
  single hb := by simp [hstate] at hb
  sent hb := by simp [hstate] at hb

theorem of_only {t : Nat} (hstate : c.book.state = .buffering) (hphase : c.phase ≠ .asking)
    (hmarked : c.marked = false) (honly : c.Only t) (ht : c.tasks t ≠ some .inFlight) :
    OneSync c entries sentIn where
  live hb := by simp [hstate] at hb
  asking hb := absurd hb hphase
  marked _ hb := by simp [hmarked] at hb
  single _ := ⟨t, honly⟩
  sent _ t' ht' := absurd (honly t' _ ht' rfl ▸ ht') ht

theorem congr (h : OneSync c entries sentIn)
    (hkeep : ∀ t, c.tasks t ≠ none → sentIn' t = sentIn t) : OneSync c entries sentIn' :=
  ⟨h.live, h.asking, h.marked, h.single, fun hb t ht =>
    (hkeep t (by simp [ht])).trans (h.sent hb t ht)⟩

theorem of_unfinished (h : OneSync c entries sentIn) {t : Nat} {pc : TaskPc}
    (ht : c.tasks t = some pc) (hpc : pc.unfinished = true) :
    c.book.state ≠ .live ∧ c.phase ≠ .asking ∧
      (c.book.state = .buffering → c.marked = false ∧ c.Only t) := by
  refine ⟨fun hlive => (h.live hlive).2.2.not_unfinished ht hpc,
    fun hasking => (h.asking hasking).2.2.not_unfinished ht hpc, fun hstate => ⟨?_, ?_⟩⟩
  · by_contra hmarked
    exact (h.marked hstate (Bool.not_eq_false _ ▸ hmarked)).not_unfinished ht hpc
  · obtain ⟨t', honly⟩ := h.single hstate
    obtain rfl := honly t pc ht hpc
    exact honly

theorem setTask (h : OneSync c entries sentIn) {t : Nat} {pc pc' : TaskPc}
    (ht : c.tasks t = some pc) (hpc : pc.unfinished = true)
    (hsent : pc' = .inFlight → sentIn' t = entries) :
    OneSync (c.setTask t pc') entries sentIn' := by
  obtain ⟨hlive, hasking, honly⟩ := h.of_unfinished ht hpc
  refine ⟨fun hb => absurd hb hlive, fun hb => absurd hb hasking, fun hb hmarked => ?_,
    fun hb => ⟨t, (honly hb).2.setTask pc'⟩, fun hb t' ht' => ?_⟩
  · rw [setTask_marked, (honly hb).1] at hmarked
    simp at hmarked
  · obtain rfl := (honly hb).2.setTask pc' t' _ ht' rfl
    rw [setTask_tasks, if_pos rfl] at ht'
    exact hsent (Option.some.inj ht')

theorem deliver (h : OneSync c entries sentIn) {now : Rat} {e : DepthEvent}
    (halone : c.book.state = .uninitialized → c.Alone)
    (hentries : c.book.state = .buffering → entries' = entries)
    (hkeep : ∀ t, c.tasks t ≠ none → sentIn' t = sentIn t) :
    OneSync (c.next (.deliver now e)) entries' sentIn' := by
  have hask := Book.onDepth_eq_needSnapshot_iff (c.book.stamped now) e
  rcases Book.state_onDepth (c.book.stamped now) e with hafter | ⟨hbefore, hafter⟩
  · by_cases hbefore : c.book.state = .buffering
    · -- one more event in the buffer
      have hnot : ((c.book.stamped now).onDepth e).1 ≠ .needSnapshot :=
        fun heq => (hask.mp heq).1 hbefore
      obtain rfl := hentries hbefore
      refine ⟨fun hb => ?_, fun hb => ?_, fun _ => h.marked hbefore,
        fun _ => h.single hbefore, fun _ t ht => ?_⟩
      · exact absurd (hb.symm.trans hafter) (by decide)
      · simp [SymbolState.next, hnot] at hb
      · exact (hkeep t (by simp [show c.tasks t = _ from ht])).trans (h.sent hbefore t ht)
    · refine .of_alone hafter ?_
      rcases hstate : c.book.state with _ | _ | _
      · exact halone hstate
      · exact absurd hstate hbefore
      · exact (h.live hstate).2
  · have hnot : ((c.book.stamped now).onDepth e).1 ≠ .needSnapshot := fun heq =>
      absurd ((hask.mp heq).2.symm.trans hafter) (by decide)
    exact .of_live hafter (by simp [SymbolState.next, hnot]) (h.live hbefore).2

theorem respond (h : OneSync c entries sentIn) {t : Nat} (ht : c.tasks t = some .inFlight)
    (lastUpdateId : Nat) (bids asks : Levels) :
    OneSync (c.next (.respond t lastUpdateId bids asks)) entries' sentIn' := by
  obtain ⟨hlive, hphase, honly⟩ := h.of_unfinished ht rfl
  have hstep := Book.onSnapshot_step c.book lastUpdateId bids asks
  simp only [SymbolState.next]
  generalize (c.book.onSnapshot lastUpdateId bids asks).1 = answer,
    (c.book.onSnapshot lastUpdateId bids asks).2 = b' at hstep
  cases hstep with
  | ignored hstate =>
      refine .of_uninitialized ?_ hphase
      cases hidle : c.book.state <;> simp_all
  | refused hstate =>
      exact .of_only (t := t) (by simp [Book.loadSnapshot, hstate]) hphase (honly hstate).1
        ((honly hstate).2.setTask .asleepLocked) (by simp)
  | rejected hstate =>
      exact .of_only (t := t) rfl hphase (honly hstate).1
        ((honly hstate).2.setTask .asleepLocked) (by simp)
  | accepted hstate =>
      exact .of_live (by simp) hphase ⟨(honly hstate).1, (honly hstate).2.idle_setTask rfl⟩

/-- What each operation does, `entries'` and `sentIn'` being the counts after it. -/
theorem next (h : OneSync c entries sentIn) (hregular : c.Regular) {op : SymbolOp}
    (hop : c.enabled op)
    (halone : ∀ now e, op = .deliver now e → c.book.state = .uninitialized → c.Alone)
    (hentries : ¬ c.Enters op → entries' = entries)
    (hsend : ∀ t, op = .send t → sentIn' t = entries)
    (hkeep : ∀ t, op ≠ .send t → c.tasks t ≠ none → sentIn' t = sentIn t) :
    OneSync (c.next op) entries' sentIn' := by
  have hsame : (∀ t lastUpdateId bids asks, op ≠ .respond t lastUpdateId bids asks) →
      ((c.next op).book.state = .buffering → c.book.state = .buffering) → entries' = entries := by
    rintro hnot hstate
    refine hentries fun henters => ?_
    rcases henters.2 with hbefore | ⟨t, lastUpdateId, bids, asks, heq⟩
    · exact hbefore (hstate henters.1)
    · exact hnot t lastUpdateId bids asks heq
  cases op with
  | connect =>
      exact .of_uninitialized (hregular.cleared hop) (by simp [SymbolState.next])
  | deliver now e =>
      exact h.deliver (halone now e rfl) (fun hbefore => hsame (by simp) fun _ => hbefore)
        fun t => hkeep t (by simp)
  | ticker bid ask =>
      obtain rfl := hsame (by simp) id
      exact ⟨h.live, h.asking, h.marked, h.single, fun hb t ht =>
        (hkeep t (by simp) (by simp [show c.tasks t = _ from ht])).trans (h.sent hb t ht)⟩
  | requestSync t =>
      obtain ⟨hstate, hmarked, hidle⟩ := h.asking hop.1
      have hrest : ∀ t' pc, abort c.tasks c.registered t' = some pc → pc.unfinished ≠ true :=
        fun t' pc ht' hpc => hidle.not_unfinished (abort_eq_some ht' hpc).2 hpc
      refine .of_only (t := t) hstate (by simp [SymbolState.next]) hmarked ?_
        (by simp [SymbolState.next])
      intro t' pc ht' hpc
      by_contra hne
      simp only [SymbolState.next, Function.update_of_ne hne] at ht'
      exact hrest t' pc ht' hpc
  | reset => exact .of_uninitialized rfl (by simp [SymbolState.next])
  | abortHandles =>
      have hphase : c.phase = .cleared := hop
      exact .of_uninitialized (hregular.cleared hop) (by simp [SymbolState.next, hphase])
  | sweep now =>
      obtain ⟨hphase, -, hidle⟩ := h.live hop.1
      exact ⟨fun hb => by simp [SymbolState.next, Book.markForResync, Book.stamped] at hb,
        fun hb => absurd hb hphase, fun _ _ => hidle, fun _ => ⟨0, hidle.only 0⟩,
        fun _ t ht => (hidle.not_unfinished ht rfl).elim⟩
  | spawnResync t =>
      have hphase : c.phase ≠ .asking := fun hb => by simpa [hop.1] using (h.asking hb).2.1
      rcases hstate : c.book.state with _ | _ | _
      · exact .of_uninitialized hstate hphase
      · have hidle := h.marked hstate hop.1
        refine .of_only (t := t) hstate hphase rfl ((hidle.only t).setTask .checking) ?_
        simp [SymbolState.next]
      · have halone' := (h.live hstate).2.1
        simp [hop.1] at halone'
  | check t =>
      obtain rfl := hsame (by simp) id
      refine h.setTask hop rfl fun hb => ?_
      split_ifs at hb
  | send t =>
      obtain rfl := hsame (by simp) id
      exact h.setTask hop rfl fun _ => hsend t rfl
  | fail t =>
      obtain rfl := hsame (by simp) id
      exact h.setTask hop rfl (by simp)
  | respond t lastUpdateId bids asks => exact h.respond hop lastUpdateId bids asks
  | panicTask t =>
      obtain rfl := hsame (by simp) id
      exact h.setTask hop rfl (by simp)
  | wake t =>
      obtain rfl := hsame (by simp) id
      rcases hop with ht | ht
      · exact h.setTask ht rfl (by simp)
      · exact h.setTask ht rfl (by simp)

end OneSync

end SymbolState

variable {u : Universe} {s : System}

/-! ## The ghost -/

/-- How often each book has entered buffering, and how often the book of each sync
had when its request went out. -/
structure Episodes where
  entries : String → Nat
  sentIn : Nat → Nat

def Episodes.start : Episodes := ⟨fun _ => 0, fun _ => 0⟩

def Act.answers : Act → Option Nat
  | .respond t _ _ _ => some t
  | _ => none

def System.Answers (s : System) (symbol : String) (a : Act) : Prop :=
  (a.answers.bind s.tasks).map SyncTask.symbol = some symbol

instance (s : System) (symbol : String) (a : Act) : Decidable (s.Answers symbol a) :=
  inferInstanceAs (Decidable (_ = _))

/-- The action takes the symbol's book into buffering, or a snapshot leaves it
there: where the integrity check fails the book was live in between. -/
def System.Enters (u : Universe) (s : System) (a : Act) (symbol : String) : Prop :=
  ((System.next u s a).books symbol).state = .buffering ∧
    ((s.books symbol).state ≠ .buffering ∨ s.Answers symbol a)

instance (u : Universe) (s : System) (a : Act) (symbol : String) :
    Decidable (System.Enters u s a symbol) := inferInstanceAs (Decidable (_ ∧ _))

def Episodes.track (u : Universe) (s : System) (a : Act) (g : Episodes) : Episodes where
  entries symbol := g.entries symbol + if System.Enters u s a symbol then 1 else 0
  sentIn t :=
    match a with
    | .send t' =>
        if t = t' then (s.tasks t').elim 0 fun k => g.entries k.symbol else g.sentIn t
    | _ => g.sentIn t

def Universe.episodes (u : Universe) : Machine (System × Episodes) Act :=
  u.machine.withGhost Episodes.start (Episodes.track u)

instance (u : Universe) (sg : System × Episodes) (a : Act) :
    Decidable (u.episodes.enabled sg a) :=
  inferInstanceAs (Decidable (System.enabled u sg.1 a))

/-- A snapshot about to be handled on a buffering book was asked for since the
book last began to buffer, by the only sync of the symbol that has not ended. -/
def OwnEpisode (u : Universe) (sg : System × Episodes) (symbol : String) : Prop :=
  ∀ t lastUpdateId bids asks, System.enabled u sg.1 (.respond t lastUpdateId bids asks) →
    sg.1.Syncs t symbol → (sg.1.books symbol).state = .buffering →
      sg.2.sentIn t = sg.2.entries symbol ∧
        ∀ t' k, sg.1.tasks t' = some k → k.symbol = symbol → k.pc.unfinished = true → t' = t

/-- The first event after a reset finds no sync of the symbol unfinished and none
about to be spawned by the sweeper. -/
def FirstEventAlone (s : System) (a : Act) : Prop :=
  ∀ i symbol now e, a = .depth i symbol now e → (s.books symbol).state = .uninitialized →
    symbol ∉ s.stale ∧ ∀ t k, s.tasks t = some k → k.symbol = symbol → k.pc.unfinished = false

theorem Episodes.sentIn_track_of_ne {a : Act} {t : Nat} (hne : a ≠ .send t) (g : Episodes) :
    (g.track u s a).sentIn t = g.sentIn t := by
  cases a with
  | send t' =>
      have hne' : t ≠ t' := fun heq => hne (heq ▸ rfl)
      simp [Episodes.track, hne']
  | _ => rfl

theorem Episodes.sentIn_track_send {symbol : String} {t : Nat} (hsyncs : s.Syncs t symbol)
    (g : Episodes) : (g.track u s (.send t)).sentIn t = g.entries symbol := by
  obtain ⟨k, hk, rfl⟩ := Option.map_eq_some_iff.mp hsyncs
  simp [Episodes.track, hk]

theorem syncs_of_tasks {symbol : String} {t : Nat} (h : (s.symbol u symbol).tasks t ≠ none) :
    s.Syncs t symbol := by
  obtain ⟨pc, hpc⟩ := Option.ne_none_iff_exists'.mp h
  obtain ⟨k, hk, hsame⟩ := Option.bind_eq_some_iff.mp hpc
  split_ifs at hsame with hsymbol
  simp [System.Syncs, hk, hsymbol]

theorem ne_send_of_symbolOp {symbol : String} {t : Nat} {a : Act}
    (ht : (s.symbol u symbol).tasks t ≠ none) (hop : symbolOp u s symbol a ≠ some (.send t)) :
    a ≠ .send t := by
  rintro rfl
  exact hop (if_pos (syncs_of_tasks ht))

theorem tasks_of_taskAt {symbol : String} {t : Nat} {pc : TaskPc} (hat : s.TaskAt t pc)
    (hsyncs : s.Syncs t symbol) : (s.symbol u symbol).tasks t = some pc := by
  obtain ⟨k, hk, hpc⟩ := exists_task hat
  obtain ⟨k', hk', hsymbol⟩ := Option.map_eq_some_iff.mp hsyncs
  obtain rfl := Option.some.inj (hk.symm.trans hk')
  exact (tasks_of_syncs hk hsymbol).trans (congrArg some hpc)

theorem idle_symbol_iff {symbol : String} : (s.symbol u symbol).Idle ↔
    ∀ t k, s.tasks t = some k → k.symbol = symbol → k.pc.unfinished = false := by
  constructor
  · intro h t k hk hsyncs
    exact h t k.pc (tasks_of_syncs hk hsyncs)
  · intro h t pc ht
    obtain ⟨k, hk, hsame⟩ := Option.bind_eq_some_iff.mp ht
    split_ifs at hsame with hsymbol
    obtain rfl := Option.some.inj hsame
    exact h t k hk hsymbol

theorem enters_symbolOp {a : Act} {symbol : String}
    (hmoves : (s.symbol u symbol).Moves ((System.next u s a).symbol u symbol)
      (symbolOp u s symbol a)) (h : System.Enters u s a symbol) :
    ∃ op, symbolOp u s symbol a = some op ∧ (s.symbol u symbol).Enters op := by
  have hanswers : s.Answers symbol a →
      ∃ t lastUpdateId bids asks,
        symbolOp u s symbol a = some (.respond t lastUpdateId bids asks) := by
    intro hanswers
    cases a with
    | respond t lastUpdateId bids asks => exact ⟨t, lastUpdateId, bids, asks, if_pos hanswers⟩
    | _ => simp [System.Answers, Act.answers] at hanswers
  obtain ⟨hafter, hbefore⟩ := h
  cases hop : symbolOp u s symbol a with
  | none =>
      rw [hop] at hmoves
      have hbook : (System.next u s a).books symbol = s.books symbol :=
        congrArg SymbolState.book hmoves
      rcases hbefore with hbefore | hbefore
      · exact absurd (hbook ▸ hafter) hbefore
      · obtain ⟨t, lastUpdateId, bids, asks, hop'⟩ := hanswers hbefore
        simp [hop] at hop'
  | some op =>
      rw [hop] at hmoves
      refine ⟨op, rfl, ?_, hbefore.imp id fun hbefore => ?_⟩
      · rw [← hmoves.2]
        exact hafter
      · obtain ⟨t, lastUpdateId, bids, asks, hop'⟩ := hanswers hbefore
        exact ⟨t, lastUpdateId, bids, asks, Option.some.inj (hop ▸ hop')⟩

theorem depth_of_symbolOp {a : Act} {symbol : String} {now : Rat} {e : DepthEvent}
    (h : symbolOp u s symbol a = some (.deliver now e)) : ∃ i, a = .depth i symbol now e := by
  cases a <;> simp only [symbolOp, Option.ite_none_right_eq_some, Option.some.injEq,
    reduceCtorEq, and_false, SymbolOp.deliver.injEq] at h
  next i other now' e' =>
    obtain ⟨rfl, rfl, rfl⟩ := h
    exact ⟨i, rfl⟩

theorem send_of_symbolOp {a : Act} {symbol : String} {t : Nat}
    (h : symbolOp u s symbol a = some (.send t)) : a = .send t ∧ s.Syncs t symbol := by
  cases a <;> simp only [symbolOp, Option.ite_none_right_eq_some, Option.some.injEq,
    reduceCtorEq, and_false, SymbolOp.send.injEq] at h
  next t' =>
    obtain ⟨hsyncs, rfl⟩ := h
    exact ⟨rfl, hsyncs⟩

theorem oneSync_reachable {sg : System × Episodes}
    (hs : (u.episodes.guarded fun sg => FirstEventAlone sg.1).Reachable sg) {symbol : String}
    (hsymbol : symbol ∈ u.symbols) :
    (sg.1.symbol u symbol).OneSync (sg.2.entries symbol) sg.2.sentIn := by
  refine hs.invariant_of_reachable
    (I := fun sg => (sg.1.symbol u symbol).OneSync (sg.2.entries symbol) sg.2.sentIn) ?_ ?_
  · rintro ⟨s, g⟩ ⟨rfl, rfl⟩
    exact .of_uninitialized rfl (by simp [System.symbol, System.start, ShardPc.phase])
  · rintro ⟨s, g⟩ a hreach h ⟨ha, halone⟩
    have hs := hreach.of_guarded.of_withGhost
    have hmoves := symbol_next (tidy_reachable hs) ha hsymbol
    have hentries : (∀ op, symbolOp u s symbol a = some op → ¬ (s.symbol u symbol).Enters op) →
        (g.track u s a).entries symbol = g.entries symbol := by
      intro hnot
      have hstays : ¬ System.Enters u s a symbol := fun henters => by
        obtain ⟨op, hop, hop'⟩ := enters_symbolOp hmoves henters
        exact hnot op hop hop'
      simp [Episodes.track, hstays]
    have hkeep : ∀ t, symbolOp u s symbol a ≠ some (.send t) →
        (s.symbol u symbol).tasks t ≠ none → (g.track u s a).sentIn t = g.sentIn t :=
      fun t hop ht => Episodes.sentIn_track_of_ne (ne_send_of_symbolOp ht hop) g
    show ((System.next u s a).symbol u symbol).OneSync ((g.track u s a).entries symbol)
      (g.track u s a).sentIn
    cases hop : symbolOp u s symbol a with
    | none =>
        rw [hop] at hmoves hentries hkeep
        rw [show _ = _ from hmoves, hentries (by simp)]
        exact h.congr fun t ht => hkeep t (by simp) ht
    | some op =>
        rw [hop] at hmoves hentries hkeep
        rw [hmoves.2]
        refine h.next (regular_reachable hs hsymbol) hmoves.1 (fun now e heq hstate => ?_)
          (fun hnot => hentries fun op' heq => Option.some.inj heq ▸ hnot) (fun t heq => ?_)
          fun t hne ht => hkeep t (by simpa using hne) ht
        · obtain ⟨i, rfl⟩ := depth_of_symbolOp (heq ▸ hop)
          obtain ⟨hstale, hidle⟩ := halone i symbol now e rfl hstate
          exact ⟨by simpa [System.symbol] using hstale, idle_symbol_iff.mpr hidle⟩
        · obtain ⟨rfl, hsyncs⟩ := send_of_symbolOp (heq ▸ hop)
          exact Episodes.sentIn_track_send hsyncs g

/-- In every run in which the first event after a reset finds its symbol without
a sync, a snapshot is applied in the episode that asked for it. -/
theorem own_episode {sg : System × Episodes}
    (hs : (u.episodes.guarded fun sg => FirstEventAlone sg.1).Reachable sg) {symbol : String}
    (hsymbol : symbol ∈ u.symbols) : OwnEpisode u sg symbol := by
  intro t lastUpdateId bids asks hrespond hsyncs hstate
  have ht : (sg.1.symbol u symbol).tasks t = some .inFlight :=
    tasks_of_taskAt hrespond.1 hsyncs
  have hone := oneSync_reachable hs hsymbol
  refine ⟨hone.sent hstate t ht, fun t' k' hk' hsame' hunfinished => ?_⟩
  exact ((hone.of_unfinished ht rfl).2.2 hstate).2 t' _ (tasks_of_syncs hk' hsame') hunfinished

/-- The first request after startup is such a run. -/
theorem own_episode_first_request : OwnEpisode btc
    (btc.episodes.exec (System.start, Episodes.start)
      [.connect 0, .depth 0 "BTCUSDT" 0 (stepEvent 1), .requestSync 0, .check 0, .send 0])
    "BTCUSDT" := by
  refine own_episode ((Machine.Reachable.start
    (m := btc.episodes.guarded fun sg => FirstEventAlone sg.1)
    (s := (System.start, Episodes.start)) ⟨rfl, rfl⟩).exec
      [.connect 0, .depth 0 "BTCUSDT" 0 (stepEvent 1), .requestSync 0, .check 0, .send 0]
      ⟨⟨rfl, by simp [FirstEventAlone]⟩, ⟨by decide, fun i symbol now e _ _ => ⟨?_, ?_⟩⟩,
        ⟨by decide, by simp [FirstEventAlone]⟩, ⟨by decide, by simp [FirstEventAlone]⟩,
        ⟨by decide, by simp [FirstEventAlone]⟩, trivial⟩) (by decide)
  · exact List.not_mem_nil
  · rintro t k ⟨⟩

/-- The sweeper finds the book silent and asks for a snapshot. Before the response
is there the shard has reconnected, and an event has made it ask for another. -/
def lateSweep : List Act :=
  [.connect 0, .depth 0 "BTCUSDT" 0 (stepEvent 1), .requestSync 0, .check 0, .send 0,
    .respond 0 10 (stepBids 1) [],
    .sweep 100 ["BTCUSDT"], .spawnResync, .check 1, .send 1,
    .close 0, .markDisconnected 0, .resetBooks 0, .abortHandles 0, .reconnect 0,
    .connect 0, .depth 0 "BTCUSDT" 101 (stepEvent 3), .requestSync 0]

/-- The response to the sweeper's request then reaches a book that has begun to
buffer since, and the shard's own sync has not ended. -/
theorem late_sync_answers_next_episode :
    ¬ ∀ (u : Universe) (sg : System × Episodes) (symbol : String),
      u.episodes.Reachable sg → symbol ∈ u.symbols → OwnEpisode u sg symbol := by
  intro hall
  have hreachable := (Machine.Reachable.start (m := btc.episodes)
    (s := (System.start, Episodes.start)) ⟨rfl, rfl⟩).exec lateSweep (by decide +kernel)
  have hown := hall btc _ "BTCUSDT" hreachable (by decide) 1 20 [] [] (by decide +kernel)
    (by decide +kernel) (by decide +kernel)
  exact absurd hown.1 (by decide +kernel)

end FeedHandler.Handler
