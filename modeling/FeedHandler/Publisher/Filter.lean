import Mathlib.Data.Finset.Basic
import Mathlib.Data.Finset.Dedup
/-!
# Subscription filters

What `subscribe` makes of a request and what `publish` lets through, in
`rust/src/publisher.rs` and in `python/publisher.py`. The Rust port turns the stream
into an enumeration with a catch-all and keeps an empty list of symbols; the Python
port keeps the string and takes an empty list for none.
-/

namespace FeedHandler

inductive Stream
  | bbo
  | book
deriving DecidableEq

/-- The name the Python port gives it. -/
def Stream.name : Stream → String
  | bbo => "bbo"
  | book => "book"

namespace Publisher

inductive StreamFilter
  | all
  | bbo
  | book
deriving DecidableEq

def StreamFilter.ofString (stream : String) : StreamFilter :=
  if stream = "bbo" then .bbo
  else if stream = "book" then .book
  else .all

def StreamFilter.only : Stream → StreamFilter
  | .bbo => .bbo
  | .book => .book

/-- The filter of a `Subscriber`. -/
structure Filter where
  stream : StreamFilter
  symbols : Option (Finset String)
deriving DecidableEq

/-- `subscribe(stream, symbols)`. -/
def Filter.subscribe (stream : String) (symbols : Option (List String)) : Filter where
  stream := .ofString stream
  symbols := symbols.map List.toFinset

/-- The message passes both `continue`s of `publish`. -/
def Filter.Accepts (f : Filter) (stream : Stream) (symbol : String) : Prop :=
  (f.stream = .only stream ∨ f.stream = .all) ∧ ∀ symbols ∈ f.symbols, symbol ∈ symbols

instance (f : Filter) (stream : Stream) (symbol : String) :
    Decidable (f.Accepts stream symbol) :=
  inferInstanceAs (Decidable (_ ∧ _))

end Publisher

namespace Python

/-- An entry of `_subscribers`. -/
structure Filter where
  stream : String
  symbols : Option (Finset String)
deriving DecidableEq

/-- `subscribe(stream, symbols)`: `set(symbols) if symbols else None`. -/
def Filter.subscribe (stream : String) (symbols : Option (List String)) : Filter where
  stream := stream
  symbols :=
    match symbols with
    | some (symbol :: rest) => some (symbol :: rest).toFinset
    | _ => none

/-- The message passes both `continue`s of `_publish`. -/
def Filter.Accepts (f : Filter) (stream : Stream) (symbol : String) : Prop :=
  (f.stream = "all" ∨ f.stream = stream.name) ∧ ∀ symbols ∈ f.symbols, symbol ∈ symbols

instance (f : Filter) (stream : Stream) (symbol : String) :
    Decidable (f.Accepts stream symbol) :=
  inferInstanceAs (Decidable (_ ∧ _))

end Python

namespace Publisher

variable {request symbol : String} {symbols : Option (List String)} {stream : Stream}

def Known (request : String) : Prop := request ∈ ["bbo", "book", "all"]

instance : Decidable (Known request) := inferInstanceAs (Decidable (_ ∈ _))

theorem accepts_rust :
    (Filter.subscribe request symbols).Accepts stream symbol ↔
      (¬ Known request ∨ request = "all" ∨ request = stream.name) ∧
        ∀ l, symbols = some l → symbol ∈ l := by
  have hstream : (StreamFilter.ofString request = .only stream ∨
      StreamFilter.ofString request = .all) ↔
        (¬ Known request ∨ request = "all" ∨ request = stream.name) := by
    unfold StreamFilter.ofString Known
    by_cases hall : request = "all" <;> cases stream <;> split_ifs <;>
      simp_all [StreamFilter.only, Stream.name]
  unfold Filter.Accepts
  apply and_congr hstream
  cases symbols <;> simp [Filter.subscribe]

theorem accepts_python :
    (Python.Filter.subscribe request symbols).Accepts stream symbol ↔
      (request = "all" ∨ request = stream.name) ∧
        ∀ l, symbols = some l → l = [] ∨ symbol ∈ l := by
  unfold Python.Filter.Accepts
  apply and_congr Iff.rfl
  match symbols with
  | none => simp [Python.Filter.subscribe]
  | some [] => simp [Python.Filter.subscribe]
  | some (first :: rest) => simp [Python.Filter.subscribe]

theorem known_of_named (h : request = "all" ∨ request = stream.name) : Known request := by
  rcases h with rfl | rfl
  · decide
  · cases stream <;> decide

/-- For one message the ports agree when an empty list does not meet a stream that
the message is on, or when an unknown stream comes with a list without its symbol. -/
theorem accepts_iff_accepts :
    ((Filter.subscribe request symbols).Accepts stream symbol ↔
      (Python.Filter.subscribe request symbols).Accepts stream symbol) ↔
    if Known request then symbols = some [] → ¬ (request = "all" ∨ request = stream.name)
    else ∃ l, symbols = some l ∧ symbol ∉ l := by
  rw [accepts_rust, accepts_python]
  split_ifs with hknown
  · simp only [hknown, not_true_eq_false, false_or]
    constructor
    · rintro h rfl hnamed
      have hmem := (h.mpr ⟨hnamed, by simp⟩).2 [] rfl
      simp at hmem
    · intro h
      apply and_congr_right
      intro hnamed
      constructor
      · exact fun hall l hl => Or.inr (hall l hl)
      · rintro hall l rfl
        rcases hall l rfl with rfl | hmem
        · exact absurd hnamed (h rfl)
        · exact hmem
  · have hnamed : ¬ (request = "all" ∨ request = stream.name) :=
      fun h => hknown (known_of_named h)
    simp only [hknown, not_false_eq_true, true_or, true_and, hnamed, false_and, iff_false,
      not_forall]
    constructor
    · rintro ⟨l, hl, hmem⟩
      exact ⟨l, hl, hmem⟩
    · rintro ⟨l, hl, hmem⟩
      exact ⟨l, hl, hmem⟩

/-- The two ports deliver the same messages to a request exactly when it names one
of the three streams and its list is not empty, or does neither. -/
theorem filters_agree_iff (request : String) (symbols : Option (List String)) :
    (∀ (stream : Stream) (symbol : String),
      ((Filter.subscribe request symbols).Accepts stream symbol ↔
        (Python.Filter.subscribe request symbols).Accepts stream symbol) ↔
      if Known request then symbols = some [] → ¬ (request = "all" ∨ request = stream.name)
      else ∃ l, symbols = some l ∧ symbol ∉ l) ∧
    ((∀ (stream : Stream) (symbol : String),
      (Filter.subscribe request symbols).Accepts stream symbol ↔
        (Python.Filter.subscribe request symbols).Accepts stream symbol) ↔
      (Known request ↔ symbols ≠ some [])) := by
  refine ⟨fun stream symbol => accepts_iff_accepts, ?_⟩
  simp only [accepts_iff_accepts]
  by_cases hknown : Known request
  · simp only [hknown, if_true, true_iff]
    constructor
    · intro h hempty
      have hbbo := h .bbo "" hempty
      have hbook := h .book "" hempty
      simp only [Known, List.mem_cons, List.not_mem_nil, or_false] at hknown
      simp only [Stream.name] at hbbo hbook
      tauto
    · intro h stream symbol hempty
      exact absurd hempty h
  · simp only [hknown, if_false, false_iff, not_not]
    constructor
    · intro h
      obtain ⟨l, rfl, -⟩ := h .bbo ""
      have hnone : ∀ symbol, symbol ∉ l := by
        intro symbol
        obtain ⟨l', hl', hmem⟩ := h .bbo symbol
        rwa [Option.some.inj hl']
      rw [List.eq_nil_iff_forall_not_mem.mpr hnone]
    · rintro rfl stream symbol
      exact ⟨[], rfl, by simp⟩

/-- An empty list of symbols: nothing in Rust, everything in Python. -/
theorem empty_list_differs :
    ¬ ∀ (request : String) (symbols : Option (List String)) (stream : Stream) (symbol : String),
      (Filter.subscribe request symbols).Accepts stream symbol ↔
        (Python.Filter.subscribe request symbols).Accepts stream symbol := by
  intro hall
  exact absurd (hall "all" (some []) .bbo "BTCUSDT") (by decide)

end Publisher

end FeedHandler
