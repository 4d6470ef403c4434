import FeedHandler.Json
import FeedHandler.Lib.Machine
import FeedHandler.Publisher.Filter
/-!
# The client protocol

What a WebSocket client is answered, frame by frame, on a socket that does not fail:
`handle_ws_client` of `rust/src/publisher.rs` with its two nested loops and
`_ws_handler` of `python/publisher.py` with its single one. The JSON libraries,
`serde_json::from_str` and `json.loads`, are parameters; a text they do not take for JSON
they read as `none`.
-/

namespace FeedHandler

open Lib

/-- A control reply. What is confirmed is read back to the client as it was taken. -/
inductive Reply
  | subscribed (stream symbols : Json)
  | unsubscribed
  | invalidJson

namespace Publisher

structure Request where
  stream : String
  symbols : Option (List String)

/-- Elements that are no strings are left out. -/
def Request.ofJson (v : Json) : Request where
  stream := (v.getStr "stream").getD "all"
  symbols := (v.get "symbols").bind fun symbols =>
    symbols.asArray.map fun elements => elements.filterMap Json.asStr

def Request.symbolsJson (r : Request) : Json :=
  match r.symbols with
  | none => .null
  | some symbols => .array (symbols.map .string)

/-- Where `handle_ws_client` is between two frames, and the subscription `sub_tx`
stands for. -/
structure WsClient where
  streaming : Bool
  sub : Option Request

namespace WsClient

def start : WsClient := ⟨false, none⟩

/-- The outer loop. The subscription made here replaces any older one. -/
def outer (c : WsClient) : Option Json → List Reply × WsClient
  | none => ([.invalidJson], c)
  | some parsed =>
      if (parsed.getStr "action").getD "" = "subscribe" then
        ([.subscribed (.string (Request.ofJson parsed).stream) (Request.ofJson parsed).symbolsJson],
          { streaming := true, sub := some (Request.ofJson parsed) })
      else ([], c)

/-- The inner loop knows `unsubscribe` only. -/
def inner (c : WsClient) : Option Json → List Reply × WsClient
  | none => ([], c)
  | some v =>
      if v.getStr "action" = some "unsubscribe" then
        ([.unsubscribed], { streaming := false, sub := none })
      else ([], c)

def handle (c : WsClient) (parsed : Option Json) : List Reply × WsClient :=
  if c.streaming then c.inner parsed else c.outer parsed

def step (fromStr : String → Option Json) (c : WsClient) (text : String) :
    List Reply × WsClient :=
  c.handle (fromStr text)

end WsClient

end Publisher

namespace Python

/-- What `_ws_handler` keeps between two frames: the arguments its queue was
subscribed with, as they came. -/
structure WsHandler where
  q : Option (Json × Json)

namespace WsHandler

def start : WsHandler := ⟨none⟩

def handle (c : WsHandler) : Option Json → List Reply × WsHandler
  | none => ([.invalidJson], c)
  | some msg =>
      if msg.getStr "action" = some "subscribe" then
        let stream := (msg.get "stream").getD (.string "all")
        let symbols := (msg.get "symbols").getD .null
        ([.subscribed stream symbols], ⟨some (stream, symbols)⟩)
      else if msg.getStr "action" = some "unsubscribe" then ([.unsubscribed], ⟨none⟩)
      else ([], c)

def step (loads : String → Option Json) (c : WsHandler) (text : String) :
    List Reply × WsHandler :=
  c.handle (loads text)

end WsHandler

end Python

namespace Publisher

/-! ## The frames of the protocol -/

/-- Anything that is not JSON, and an object that names, if it subscribes, one of the
three streams or none and a list of symbols that is not empty, or none, or null. -/
def Documented : Option Json → Prop
  | none => True
  | some v => (∃ fields, v = .object fields) ∧
      (v.getStr "action" = some "subscribe" →
        (v.get "stream" = none ∨ ∃ stream, Known stream ∧ v.get "stream" = some (.string stream)) ∧
        (v.get "symbols" = none ∨ v.get "symbols" = some .null ∨
          ∃ symbols : List String, symbols ≠ [] ∧
            v.get "symbols" = some (.array (symbols.map .string))))

inductive Command
  | invalid
  | subscribe (r : Request)
  | unsubscribe
  | other

def command : Option Json → Command
  | none => .invalid
  | some v =>
      if v.getStr "action" = some "subscribe" then .subscribe (.ofJson v)
      else if v.getStr "action" = some "unsubscribe" then .unsubscribe
      else .other

def Command.apply (sub : Option Request) : Command → Option Request
  | .subscribe r => some r
  | .unsubscribe => none
  | _ => sub

def lastRequest (texts : List (Option Json)) : Option Request :=
  texts.foldl (fun sub text => (command text).apply sub) none

/-- While subscribed a client unsubscribes or sends what asks for nothing; while not,
it does anything but unsubscribe. -/
def Command.InOrder (subscribed : Bool) : Command → Prop
  | .invalid | .subscribe _ => subscribed = false
  | .unsubscribe => subscribed = true
  | .other => True

def Command.after (subscribed : Bool) : Command → Bool
  | .subscribe _ => true
  | .unsubscribe => false
  | _ => subscribed

def Orderly : Bool → List (Option Json) → Prop
  | _, [] => True
  | subscribed, text :: texts =>
      (command text).InOrder subscribed ∧ Orderly ((command text).after subscribed) texts

/-! ## One frame -/

theorem filterMap_asStr (symbols : List String) :
    (symbols.map Json.string).filterMap Json.asStr = symbols := by
  rw [List.filterMap_map]
  exact List.filterMap_some

theorem ofJson_documented {v : Json} (h : Documented (some v))
    (hsubscribe : v.getStr "action" = some "subscribe") :
    Json.string (Request.ofJson v).stream = (v.get "stream").getD (.string "all") ∧
      (Request.ofJson v).symbolsJson = (v.get "symbols").getD .null := by
  obtain ⟨hstream, hsymbols⟩ := h.2 hsubscribe
  constructor
  · rcases hstream with hnone | ⟨stream, -, hsome⟩
    · simp [Request.ofJson, Json.getStr, hnone]
    · simp [Request.ofJson, Json.getStr, hsome]
  · rcases hsymbols with hnone | hnull | ⟨symbols, -, hsome⟩
    · simp [Request.ofJson, Request.symbolsJson, hnone]
    · simp [Request.ofJson, Request.symbolsJson, Json.asArray, hnull]
    · simp only [Request.ofJson, Request.symbolsJson, hsome, Option.bind_some, Json.asArray_array,
        Option.map_some, filterMap_asStr, Option.getD_some]

def Request.raw (r : Request) : Json × Json := (.string r.stream, r.symbolsJson)

def Command.replies : Command → List Reply
  | .invalid => [.invalidJson]
  | .subscribe r => [.subscribed r.raw.1 r.raw.2]
  | .unsubscribe => [.unsubscribed]
  | .other => []

theorem command_of_subscribe {v : Json} (h : v.getStr "action" = some "subscribe") :
    command (some v) = .subscribe (.ofJson v) := if_pos h

theorem command_of_unsubscribe {v : Json} (h : v.getStr "action" = some "unsubscribe") :
    command (some v) = .unsubscribe := by
  simp [command, h]

theorem command_of_other {v : Json} (hsubscribe : v.getStr "action" ≠ some "subscribe")
    (hunsubscribe : v.getStr "action" ≠ some "unsubscribe") : command (some v) = .other := by
  simp [command, hsubscribe, hunsubscribe]

theorem python_handle {text : Option Json} (h : Documented text) {c : Python.WsHandler}
    {sub : Option Request} (hsub : c.q = sub.map Request.raw) :
    c.handle text = ((command text).replies, ⟨((command text).apply sub).map Request.raw⟩) := by
  obtain ⟨q⟩ := c
  obtain rfl : q = sub.map Request.raw := hsub
  cases text with
  | none => rfl
  | some v =>
      by_cases hsubscribe : v.getStr "action" = some "subscribe"
      · obtain ⟨hstream, hsymbols⟩ := ofJson_documented h hsubscribe
        rw [command_of_subscribe hsubscribe]
        simp only [Python.WsHandler.handle, if_pos hsubscribe, ← hstream, ← hsymbols]
        rfl
      · by_cases hunsubscribe : v.getStr "action" = some "unsubscribe"
        · rw [command_of_unsubscribe hunsubscribe]
          simp [Python.WsHandler.handle, hunsubscribe, Command.replies, Command.apply]
        · rw [command_of_other hsubscribe hunsubscribe]
          simp [Python.WsHandler.handle, hsubscribe, hunsubscribe, Command.replies, Command.apply]

theorem outer_some (c : WsClient) (v : Json) :
    c.outer (some v) =
      if v.getStr "action" = some "subscribe" then
        ([.subscribed (.string (Request.ofJson v).stream) (Request.ofJson v).symbolsJson],
          { streaming := true, sub := some (Request.ofJson v) })
      else ([], c) := by
  have haction : (v.getStr "action").getD "" = "subscribe" ↔
      v.getStr "action" = some "subscribe" := by
    cases v.getStr "action" <;> simp
  simp only [WsClient.outer, haction]

theorem rust_handle_of_inOrder {text : Option Json} {c : WsClient}
    (h : (command text).InOrder c.streaming) :
    c.handle text =
      ((command text).replies, ⟨(command text).after c.streaming, (command text).apply c.sub⟩) := by
  obtain ⟨streaming, sub⟩ := c
  cases text with
  | none =>
      obtain rfl : streaming = false := h
      rfl
  | some v =>
      by_cases hsubscribe : v.getStr "action" = some "subscribe"
      · rw [command_of_subscribe hsubscribe] at h ⊢
        obtain rfl : streaming = false := h
        show WsClient.outer _ (some v) = _
        rw [outer_some, if_pos hsubscribe]
        rfl
      · by_cases hunsubscribe : v.getStr "action" = some "unsubscribe"
        · rw [command_of_unsubscribe hunsubscribe] at h ⊢
          obtain rfl : streaming = true := h
          exact if_pos hunsubscribe
        · rw [command_of_other hsubscribe hunsubscribe]
          cases streaming
          · show WsClient.outer _ (some v) = _
            rw [outer_some, if_neg hsubscribe]
            rfl
          · exact if_neg hunsubscribe

theorem rust_handle_of_not_inOrder {text : Option Json} {c : WsClient}
    (h : ¬ (command text).InOrder c.streaming) : c.handle text = ([], c) := by
  obtain ⟨streaming, sub⟩ := c
  cases text with
  | none =>
      obtain rfl : streaming = true := by simpa [command, Command.InOrder] using h
      rfl
  | some v =>
      by_cases hsubscribe : v.getStr "action" = some "subscribe"
      · rw [command_of_subscribe hsubscribe] at h
        obtain rfl : streaming = true := by simpa [Command.InOrder] using h
        have hother : v.getStr "action" ≠ some "unsubscribe" := by
          simp [hsubscribe]
        exact if_neg hother
      · by_cases hunsubscribe : v.getStr "action" = some "unsubscribe"
        · rw [command_of_unsubscribe hunsubscribe] at h
          obtain rfl : streaming = false := by simpa [Command.InOrder] using h
          show WsClient.outer _ (some v) = _
          rw [outer_some, if_neg hsubscribe]
        · rw [command_of_other hsubscribe hunsubscribe] at h
          exact absurd trivial h

/-! ## Sequences of frames -/

theorem isSome_apply (sub : Option Request) (c : Command) :
    (c.apply sub).isSome = c.after sub.isSome := by
  cases c <;> rfl

def WsClient.Settled (c : WsClient) : Prop := c.streaming = c.sub.isSome

theorem agree_of_orderly {texts : List (Option Json)} (hdocumented : ∀ t ∈ texts, Documented t)
    {c : WsClient} (hc : c.Settled) {d : Python.WsHandler} (hd : d.q = c.sub.map Request.raw)
    (h : Orderly c.streaming texts) :
    answers WsClient.handle c texts = answers Python.WsHandler.handle d texts ∧
      (final WsClient.handle c texts).sub =
        texts.foldl (fun sub text => (command text).apply sub) c.sub ∧
      (final Python.WsHandler.handle d texts).q =
        (final WsClient.handle c texts).sub.map Request.raw := by
  induction texts generalizing c d with
  | nil => exact ⟨rfl, rfl, hd⟩
  | cons text texts ih =>
      obtain ⟨hinOrder, hrest⟩ := h
      obtain ⟨hdoc, hdocs⟩ := List.forall_mem_cons.mp hdocumented
      have hrust := rust_handle_of_inOrder hinOrder
      have hpython := python_handle hdoc hd
      have hsettled : WsClient.Settled
          ⟨(command text).after c.streaming, (command text).apply c.sub⟩ := by
        show (command text).after c.streaming = ((command text).apply c.sub).isSome
        rw [isSome_apply, show c.streaming = c.sub.isSome from hc]
      obtain ⟨hanswers, hsub, hq⟩ := ih hdocs hsettled rfl hrest
      simp only [answers, final, hrust, hpython, List.foldl_cons]
      exact ⟨congrArg _ hanswers, hsub, hq⟩

/-- Whatever comes, the Python port sends at least as many replies, and as many only
to frames in their places. -/
theorem length_answers {texts : List (Option Json)} (hdocumented : ∀ t ∈ texts, Documented t)
    {c : WsClient} {d : Python.WsHandler} (sub : Option Request) (hd : d.q = sub.map Request.raw)
    (hsub : c.streaming = sub.isSome) :
    (answers WsClient.handle c texts).flatten.length ≤
        (answers Python.WsHandler.handle d texts).flatten.length ∧
      ((answers Python.WsHandler.handle d texts).flatten.length ≤
        (answers WsClient.handle c texts).flatten.length → Orderly c.streaming texts) := by
  induction texts generalizing c d sub with
  | nil => exact ⟨le_rfl, fun _ => trivial⟩
  | cons text texts ih =>
      obtain ⟨hdoc, hdocs⟩ := List.forall_mem_cons.mp hdocumented
      have hpython := python_handle hdoc hd
      have hafter : (command text).after c.streaming = ((command text).apply sub).isSome := by
        rw [isSome_apply, hsub]
      by_cases hinOrder : (command text).InOrder c.streaming
      · obtain ⟨hle, horderly⟩ := ih hdocs (c := ⟨(command text).after c.streaming,
          (command text).apply c.sub⟩) (d := ⟨((command text).apply sub).map Request.raw⟩) _ rfl
          hafter
        simp only [answers, rust_handle_of_inOrder hinOrder, hpython, List.flatten_cons,
          List.length_append]
        refine ⟨by omega, fun h => ⟨hinOrder, horderly (by omega)⟩⟩
      · have hstays : (command text).after c.streaming = c.streaming := by
          cases hcommand : command text <;> cases hstreaming : c.streaming <;>
            simp_all [Command.InOrder, Command.after]
        have hreply : (command text).replies.length = 1 := by
          cases hcommand : command text <;> simp_all [Command.InOrder, Command.replies]
        obtain ⟨hle, -⟩ := ih hdocs (c := c)
          (d := ⟨((command text).apply sub).map Request.raw⟩) _ rfl (hstays ▸ hafter)
        simp only [answers, rust_handle_of_not_inOrder hinOrder, hpython, List.flatten_cons,
          List.length_append, List.length_nil, hreply]
        exact ⟨by omega, fun h => absurd h (by omega)⟩

theorem answers_rust (fromStr : String → Option Json) (c : WsClient) (texts : List String) :
    answers (WsClient.step fromStr) c texts = answers WsClient.handle c (texts.map fromStr) :=
  answers_map WsClient.handle fromStr c texts

theorem final_rust (fromStr : String → Option Json) (c : WsClient) (texts : List String) :
    final (WsClient.step fromStr) c texts = final WsClient.handle c (texts.map fromStr) :=
  final_map WsClient.handle fromStr c texts

/-- What the Python port makes of texts that its library reads as the other does. -/
theorem python_of_same {fromStr loads : String → Option Json} {texts : List String}
    (hparsers : ∀ t ∈ texts, fromStr t = loads t) (d : Python.WsHandler) :
    answers (Python.WsHandler.step loads) d texts =
        answers Python.WsHandler.handle d (texts.map fromStr) ∧
      final (Python.WsHandler.step loads) d texts =
        final Python.WsHandler.handle d (texts.map fromStr) := by
  rw [List.map_congr_left hparsers]
  exact ⟨answers_map Python.WsHandler.handle loads d texts,
    final_map Python.WsHandler.handle loads d texts⟩

/-- Both ports send the same replies, and end with the subscription of the last
subscribe frame not followed by an unsubscribe, exactly when no frame asks for
something out of its place. The two libraries read each text of the run alike. -/
theorem protocol_same_iff (fromStr loads : String → Option Json) (texts : List String)
    (hparsers : ∀ t ∈ texts, fromStr t = loads t)
    (hdocumented : ∀ t ∈ texts, Documented (fromStr t)) :
    ((answers (WsClient.step fromStr) .start texts).flatten =
        (answers (Python.WsHandler.step loads) .start texts).flatten ∧
      (final (Python.WsHandler.step loads) .start texts).q =
        (final (WsClient.step fromStr) .start texts).sub.map Request.raw ∧
      (final (WsClient.step fromStr) .start texts).sub = lastRequest (texts.map fromStr)) ↔
    Orderly false (texts.map fromStr) := by
  obtain ⟨hanswers, hfinal⟩ := python_of_same hparsers .start
  rw [answers_rust, final_rust, hanswers, hfinal]
  have hall : ∀ v ∈ texts.map fromStr, Documented v := by
    intro v hv
    obtain ⟨t, ht, rfl⟩ := List.mem_map.mp hv
    exact hdocumented t ht
  constructor
  · intro hsame
    apply (length_answers hall (c := .start) (d := .start) none rfl rfl).2
    rw [hsame.1]
  · intro horderly
    obtain ⟨hanswers, hsub, hq⟩ :=
      agree_of_orderly hall (c := .start) rfl (d := .start) rfl horderly
    exact ⟨congrArg List.flatten hanswers, hq, hsub⟩

def subscribeText (stream : String) (symbols : List String) : Option Json :=
  some (.object [("action", .string "subscribe"), ("stream", .string stream),
    ("symbols", .array (symbols.map .string))])

def unsubscribeText : Option Json := some (.object [("action", .string "unsubscribe")])

theorem documented_subscribeText {stream : String} (hstream : Known stream)
    {symbols : List String} (hsymbols : symbols ≠ []) :
    Documented (subscribeText stream symbols) :=
  ⟨⟨_, rfl⟩, fun _ => ⟨Or.inr ⟨stream, hstream, rfl⟩,
    Or.inr (Or.inr ⟨symbols, hsymbols, rfl⟩)⟩⟩

theorem documented_unsubscribeText : Documented unsubscribeText :=
  ⟨⟨_, rfl⟩, fun h => absurd h (by decide)⟩

def bboFrame : String :=
  "\x7b\"action\":\"subscribe\",\"stream\":\"bbo\",\"symbols\":[\"BTCUSDT\"]\x7d"

def bookFrame : String :=
  "\x7b\"action\":\"subscribe\",\"stream\":\"book\",\"symbols\":[\"ETHUSDT\"]\x7d"

def unsubscribeFrame : String := "\x7b\"action\":\"unsubscribe\"\x7d"

/-- What either library makes of these three texts. -/
def readFrame (text : String) : Option Json :=
  if text = bboFrame then subscribeText "bbo" ["BTCUSDT"]
  else if text = bookFrame then subscribeText "book" ["ETHUSDT"]
  else if text = unsubscribeFrame then unsubscribeText
  else none

theorem readFrame_book : readFrame bookFrame = subscribeText "book" ["ETHUSDT"] := by
  rw [readFrame, if_neg (by decide), if_pos rfl]

theorem readFrame_unsubscribe : readFrame unsubscribeFrame = unsubscribeText := by
  rw [readFrame, if_neg (by decide), if_neg (by decide), if_pos rfl]

theorem documented_readFrame (text : String) : Documented (readFrame text) := by
  unfold readFrame
  split_ifs
  · exact documented_subscribeText (by decide) (by simp)
  · exact documented_subscribeText (by decide) (by simp)
  · exact documented_unsubscribeText
  · trivial

def twoSubscriptions : List String := [bboFrame, unsubscribeFrame, bookFrame]

theorem protocol_same_iff_twice :
    (answers (WsClient.step readFrame) .start twoSubscriptions).flatten =
      (answers (Python.WsHandler.step readFrame) .start twoSubscriptions).flatten := by
  have horderly : Orderly false (twoSubscriptions.map readFrame) := by
    simp only [twoSubscriptions, List.map_cons, List.map_nil, readFrame_book,
      readFrame_unsubscribe]
    exact ⟨rfl, rfl, rfl, trivial⟩
  exact ((protocol_same_iff readFrame readFrame twoSubscriptions (fun _ _ => rfl)
    fun t _ => documented_readFrame t).mpr horderly).1

/-- The second subscribe frame is confirmed in Python; in Rust it is not even answered. -/
theorem resubscribe_ignored :
    ¬ ∀ (fromStr loads : String → Option Json) (texts : List String),
      (∀ t ∈ texts, fromStr t = loads t) → (∀ t ∈ texts, Documented (fromStr t)) →
      (answers (WsClient.step fromStr) .start texts).flatten =
          (answers (Python.WsHandler.step loads) .start texts).flatten ∧
        (final (Python.WsHandler.step loads) .start texts).q =
          (final (WsClient.step fromStr) .start texts).sub.map Request.raw ∧
        (final (WsClient.step fromStr) .start texts).sub = lastRequest (texts.map fromStr) := by
  intro hall
  have hsame := hall readFrame readFrame [bboFrame, bookFrame] (fun _ _ => rfl)
    fun t _ => documented_readFrame t
  exact absurd (congrArg List.length hsame.1) (by decide)

/-! ## What the active subscription lets through -/

theorem ofJson_known {v : Json} (h : Documented (some v))
    (hsubscribe : v.getStr "action" = some "subscribe") :
    Known (Request.ofJson v).stream ∧ (Request.ofJson v).symbols ≠ some [] := by
  obtain ⟨hstream, hsymbols⟩ := h.2 hsubscribe
  constructor
  · rcases hstream with hnone | ⟨stream, hknown, hsome⟩
    · simp only [Request.ofJson, Json.getStr, hnone, Option.bind_none, Option.getD_none]
      decide
    · simpa [Request.ofJson, Json.getStr, hsome] using hknown
  · rcases hsymbols with hnone | hnull | ⟨symbols, hne, hsome⟩
    · simp [Request.ofJson, hnone]
    · simp [Request.ofJson, Json.asArray, hnull]
    · simp only [Request.ofJson, hsome, Option.bind_some, Json.asArray_array, Option.map_some,
        filterMap_asStr, ne_eq, Option.some.injEq]
      exact hne

theorem known_apply {text : Option Json} (hdoc : Documented text) {sub : Option Request}
    (hsub : ∀ r, sub = some r → Known r.stream ∧ r.symbols ≠ some []) {r : Request}
    (hr : (command text).apply sub = some r) : Known r.stream ∧ r.symbols ≠ some [] := by
  cases text with
  | none => exact hsub r hr
  | some v =>
      by_cases hsubscribe : v.getStr "action" = some "subscribe"
      · rw [command_of_subscribe hsubscribe] at hr
        obtain rfl := Option.some.inj hr
        exact ofJson_known hdoc hsubscribe
      · by_cases hunsubscribe : v.getStr "action" = some "unsubscribe"
        · rw [command_of_unsubscribe hunsubscribe] at hr
          cases hr
        · rw [command_of_other hsubscribe hunsubscribe] at hr
          exact hsub r hr

theorem known_foldl {texts : List (Option Json)} (hdocumented : ∀ t ∈ texts, Documented t)
    {sub : Option Request} (hsub : ∀ r, sub = some r → Known r.stream ∧ r.symbols ≠ some [])
    {r : Request} (hr : texts.foldl (fun sub text => (command text).apply sub) sub = some r) :
    Known r.stream ∧ r.symbols ≠ some [] := by
  induction texts generalizing sub with
  | nil => exact hsub r hr
  | cons text texts ih =>
      obtain ⟨hdoc, hdocs⟩ := List.forall_mem_cons.mp hdocumented
      exact ih hdocs (fun r hr => known_apply hdoc hsub hr) hr

/-- The subscription that documented frames end with lets the same messages through
in both ports. -/
theorem active_filters_agree {texts : List (Option Json)}
    (hdocumented : ∀ t ∈ texts, Documented t) {r : Request} (hr : lastRequest texts = some r)
    (stream : Stream) (symbol : String) :
    (Filter.subscribe r.stream r.symbols).Accepts stream symbol ↔
      (Python.Filter.subscribe r.stream r.symbols).Accepts stream symbol := by
  obtain ⟨hknown, hsymbols⟩ := known_foldl hdocumented (by simp) hr
  rw [accepts_iff_accepts, if_pos hknown]
  exact fun hempty => absurd hempty hsymbols

end Publisher

end FeedHandler
