import Mathlib.Data.List.TakeWhile
import Mathlib.Tactic.Common
/-!
# The Prometheus text format

Metric families as a page of lines: a help line, a type line and one line for each
sample, which has at most one label. A page is read back line by line; a page written
from well-formed families reads as those families.
-/

namespace FeedHandler.Lib.Exposition

/-- A sample, its metric name left to the family. -/
structure Sample where
  label : Option (String × String)
  value : String
deriving DecidableEq

structure Family where
  name : String
  help : String
  kind : String
  samples : List Sample
deriving DecidableEq

/-! ## Writing -/

def labelText : Option (String × String) → String
  | none => ""
  | some (key, value) => "\x7b" ++ key ++ "=\"" ++ value ++ "\"\x7d"

def Sample.text (name : String) (s : Sample) : String :=
  name ++ labelText s.label ++ " " ++ s.value ++ "\n"

def Family.text (f : Family) : String :=
  "# HELP " ++ f.name ++ " " ++ f.help ++ "\n# TYPE " ++ f.name ++ " " ++ f.kind ++ "\n" ++
    String.join (f.samples.map (Sample.text f.name))

/-! ## Reading -/

def lines : List Char → List (List Char)
  | [] => []
  | c :: cs =>
      if c = '\n' then [] :: lines cs
      else
        match lines cs with
        | [] => [[c]]
        | line :: rest => (c :: line) :: rest

def before (stop : Char) (cs : List Char) : List Char := cs.takeWhile fun c => c != stop

def after (stop : Char) (cs : List Char) : List Char := (cs.dropWhile fun c => c != stop).tail

inductive Row
  | help (name text : String)
  | kind (name text : String)
  | sample (name : String) (s : Sample)
deriving DecidableEq

def readLabel (cs : List Char) : Option (String × String) :=
  if cs = [] then none
  else
    some (String.ofList (before '=' cs),
      String.ofList (before '\x22' (after '\x22' (after '=' cs))))

def helpMark : List Char := ['#', ' ', 'H', 'E', 'L', 'P', ' ']

def kindMark : List Char := ['#', ' ', 'T', 'Y', 'P', 'E', ' ']

def readRow (line : List Char) : Row :=
  if helpMark <+: line then
    .help (String.ofList (before ' ' (line.drop 7))) (String.ofList (after ' ' (line.drop 7)))
  else if kindMark <+: line then
    .kind (String.ofList (before ' ' (line.drop 7))) (String.ofList (after ' ' (line.drop 7)))
  else
    .sample (String.ofList (before '\x7b' (before ' ' line)))
      { label := readLabel (after '\x7b' (before ' ' line))
        value := String.ofList (after ' ' line) }

/-- The families of the rows, and the samples that stand before the first of them. -/
def group : List Row → Option (List (String × Sample) × List Family)
  | [] => some ([], [])
  | .sample name s :: rows => do
      let (samples, families) ← group rows
      return ((name, s) :: samples, families)
  | .help name text :: .kind name' kind :: rows => do
      let (samples, families) ← group rows
      if name = name' ∧ ∀ s ∈ samples, s.1 = name then
        return ([], ⟨name, text, kind, samples.map Prod.snd⟩ :: families)
      else none
  | _ => none

def parse (page : List Char) : Option (List Family) := do
  let (samples, families) ← group ((lines page).map readRow)
  if samples = [] then return families else none

/-! ## Well-formed families -/

def Free (chars : List Char) (s : String) : Prop := ∀ c ∈ chars, c ∉ s.toList

instance (chars : List Char) (s : String) : Decidable (Free chars s) :=
  decidable_of_iff (chars.all fun c => !s.toList.contains c) (by simp [Free])

structure Sample.WellFormed (s : Sample) : Prop where
  label : ∀ l ∈ s.label, Free ['=', ' ', '\n'] l.1 ∧ Free ['\x22', ' ', '\n'] l.2
  value : Free ['\n'] s.value

structure Family.WellFormed (f : Family) : Prop where
  name : Free ['#', '\x7b', ' ', '\n'] f.name
  help : Free ['\n'] f.help
  kind : Free ['\n'] f.kind
  samples : ∀ s ∈ f.samples, s.WellFormed

/-! ## Reading back one line -/

theorem lines_append {line : List Char} (h : '\n' ∉ line) (rest : List Char) :
    lines (line ++ '\n' :: rest) = line :: lines rest := by
  induction line with
  | nil => rfl
  | cons c line ih =>
      obtain ⟨hc, hline⟩ : '\n' ≠ c ∧ '\n' ∉ line := by simpa [not_or] using h
      rw [List.cons_append, lines, if_neg hc.symm, ih hline]

theorem before_append {stop : Char} {cs : List Char} (h : stop ∉ cs) (rest : List Char) :
    before stop (cs ++ stop :: rest) = cs := by
  unfold before
  rw [List.takeWhile_append_of_pos]
  · simp
  · intro c hc
    rw [bne_iff_ne]
    rintro rfl
    exact h hc

theorem after_append {stop : Char} {cs : List Char} (h : stop ∉ cs) (rest : List Char) :
    after stop (cs ++ stop :: rest) = rest := by
  unfold after
  rw [List.dropWhile_append_of_pos]
  · simp
  · intro c hc
    rw [bne_iff_ne]
    rintro rfl
    exact h hc

theorem before_of_not_mem {stop : Char} {cs : List Char} (h : stop ∉ cs) : before stop cs = cs := by
  unfold before
  rw [List.takeWhile_eq_self_iff]
  intro c hc
  rw [bne_iff_ne]
  rintro rfl
  exact h hc

theorem after_of_not_mem {stop : Char} {cs : List Char} (h : stop ∉ cs) : after stop cs = [] := by
  unfold after
  rw [List.dropWhile_eq_nil_iff.mpr]
  · rfl
  · intro c hc
    rw [bne_iff_ne]
    rintro rfl
    exact h hc

theorem Free.not_mem {chars : List Char} {s : String} (h : Free chars s) {c : Char}
    (hc : c ∈ chars) : c ∉ s.toList := h c hc

/-! ## Reading back a family -/

def helpLine (f : Family) : List Char := helpMark ++ (f.name.toList ++ ' ' :: f.help.toList)

def kindLine (f : Family) : List Char := kindMark ++ (f.name.toList ++ ' ' :: f.kind.toList)

def sampleLine (name : String) (s : Sample) : List Char :=
  (name.toList ++ (labelText s.label).toList) ++ ' ' :: s.value.toList

theorem Sample.toList_text (name : String) (s : Sample) :
    (s.text name).toList = sampleLine name s ++ ['\n'] := by
  simp [Sample.text, sampleLine, String.toList_append]

theorem Family.toList_text (f : Family) :
    f.text.toList = helpLine f ++ '\n' :: (kindLine f ++ '\n' ::
      f.samples.flatMap fun s => sampleLine f.name s ++ ['\n']) := by
  have hsamples : (String.join (f.samples.map (Sample.text f.name))).toList =
      f.samples.flatMap fun s => sampleLine f.name s ++ ['\n'] := by
    rw [String.toList_join, List.flatMap_map]
    simp only [Sample.toList_text]
  simp [Family.text, helpLine, helpMark, kindLine, kindMark, String.toList_append, hsamples]

theorem readRow_helpLine {f : Family} (h : f.WellFormed) :
    readRow (helpLine f) = .help f.name f.help := by
  have hdrop : (helpLine f).drop 7 = f.name.toList ++ ' ' :: f.help.toList := rfl
  have hmark : helpMark <+: helpLine f := List.prefix_append _ _
  have hname : ' ' ∉ f.name.toList := h.name.not_mem (by simp)
  rw [readRow, if_pos hmark, hdrop, before_append hname, after_append hname]
  simp

theorem readRow_kindLine {f : Family} (h : f.WellFormed) :
    readRow (kindLine f) = .kind f.name f.kind := by
  have hnot : ¬ helpMark <+: kindLine f := by
    rintro ⟨rest, hrest⟩
    simp [helpMark, kindLine, kindMark] at hrest
  have hdrop : (kindLine f).drop 7 = f.name.toList ++ ' ' :: f.kind.toList := rfl
  have hname : ' ' ∉ f.name.toList := h.name.not_mem (by simp)
  have hmark : kindMark <+: kindLine f := List.prefix_append _ _
  rw [readRow, if_neg hnot, if_pos hmark, hdrop, before_append hname, after_append hname]
  simp

theorem readRow_of_head {line : List Char} (h : line.head? ≠ some '#') :
    readRow line = .sample (String.ofList (before '\x7b' (before ' ' line)))
      { label := readLabel (after '\x7b' (before ' ' line))
        value := String.ofList (after ' ' line) } := by
  have hhelp : ¬ helpMark <+: line := by
    rintro ⟨rest, rfl⟩
    exact h rfl
  have hkind : ¬ kindMark <+: line := by
    rintro ⟨rest, rfl⟩
    exact h rfl
  rw [readRow, if_neg hhelp, if_neg hkind]

def labelEnd (value : String) : List Char := '\x22' :: value.toList ++ ['\x22', '\x7d']

theorem toList_labelText_some (l : String × String) :
    (labelText (some l)).toList = '\x7b' :: (l.1.toList ++ '=' :: labelEnd l.2) := by
  obtain ⟨key, value⟩ := l
  simp [labelText, labelEnd, String.toList_append]

theorem readLabel_end {key value : String} (hkey : '=' ∉ key.toList)
    (hvalue : '\x22' ∉ value.toList) :
    readLabel (key.toList ++ '=' :: labelEnd value) = some (key, value) := by
  have hne : key.toList ++ '=' :: labelEnd value ≠ [] := by simp
  have hopen : after '\x22' (labelEnd value) = value.toList ++ '\x22' :: ['\x7d'] := by
    have hquote : '\x22' ∉ ([] : List Char) := List.not_mem_nil
    simpa [labelEnd] using after_append hquote (value.toList ++ ['\x22', '\x7d'])
  rw [readLabel, if_neg hne, before_append hkey, after_append hkey, hopen, before_append hvalue]
  simp

theorem blank_not_mem_metric {name : String} {s : Sample}
    (hname : Free ['#', '\x7b', ' ', '\n'] name) (h : s.WellFormed) :
    ' ' ∉ name.toList ++ (labelText s.label).toList := by
  have hblank : ' ' ∉ name.toList := hname.not_mem (by simp)
  obtain ⟨label, value⟩ := s
  cases label with
  | none => simpa [labelText] using hblank
  | some l =>
      obtain ⟨hkey, hvalue⟩ := h.label l rfl
      have hkey' : ' ' ∉ l.1.toList := hkey.not_mem (by simp)
      have hvalue' : ' ' ∉ l.2.toList := hvalue.not_mem (by simp)
      simp [toList_labelText_some, labelEnd, hblank, hkey', hvalue']

theorem head?_sampleLine {name : String} (hname : Free ['#', '\x7b', ' ', '\n'] name)
    (s : Sample) : (sampleLine name s).head? ≠ some '#' := by
  have hhash : '#' ∉ name.toList := hname.not_mem (by simp)
  unfold sampleLine
  cases hchars : name.toList with
  | nil =>
      cases hlabel : s.label with
      | none => simp [labelText]
      | some l => simp [toList_labelText_some]
  | cons c cs =>
      rw [hchars] at hhash
      simp only [List.cons_append, List.head?_cons, ne_eq, Option.some.injEq]
      rintro rfl
      exact hhash List.mem_cons_self

theorem readRow_sampleLine {name : String} {s : Sample}
    (hname : Free ['#', '\x7b', ' ', '\n'] name) (h : s.WellFormed) :
    readRow (sampleLine name s) = .sample name s := by
  have hbrace : '\x7b' ∉ name.toList := hname.not_mem (by simp)
  have hblank := blank_not_mem_metric hname h
  rw [readRow_of_head (head?_sampleLine hname s), sampleLine, before_append hblank,
    after_append hblank]
  obtain ⟨label, value⟩ := s
  cases label with
  | none =>
      simp [labelText, before_of_not_mem hbrace, after_of_not_mem hbrace, readLabel]
  | some l =>
      obtain ⟨hkey, hvalue⟩ := h.label l rfl
      rw [toList_labelText_some, before_append hbrace, after_append hbrace,
        readLabel_end (hkey.not_mem (by simp)) (hvalue.not_mem (by simp))]
      simp

/-! ## Reading back a page -/

def rows (f : Family) : List Row :=
  .help f.name f.help :: .kind f.name f.kind :: f.samples.map (Row.sample f.name)

theorem newline_not_mem_sampleLine {name : String} {s : Sample}
    (hname : Free ['#', '\x7b', ' ', '\n'] name) (h : s.WellFormed) :
    '\n' ∉ sampleLine name s := by
  have hname' : '\n' ∉ name.toList := hname.not_mem (by simp)
  have hvalue : '\n' ∉ s.value.toList := h.value.not_mem (by simp)
  have hlabel : '\n' ∉ (labelText s.label).toList := by
    cases hl : s.label with
    | none => simp [labelText]
    | some l =>
        obtain ⟨hkey, hval⟩ := h.label l hl
        have hkey' : '\n' ∉ l.1.toList := hkey.not_mem (by simp)
        have hval' : '\n' ∉ l.2.toList := hval.not_mem (by simp)
        simp [toList_labelText_some, labelEnd, hkey', hval']
  simp [sampleLine, hname', hvalue, hlabel]

theorem rows_samples {name : String} (hname : Free ['#', '\x7b', ' ', '\n'] name)
    {samples : List Sample} (h : ∀ s ∈ samples, s.WellFormed) (rest : List Char) :
    (lines ((samples.flatMap fun s => sampleLine name s ++ ['\n']) ++ rest)).map readRow =
      samples.map (Row.sample name) ++ (lines rest).map readRow := by
  induction samples with
  | nil => rfl
  | cons s samples ih =>
      have hs := h s List.mem_cons_self
      have hline := newline_not_mem_sampleLine hname hs
      have htail := ih fun d hd => h d (List.mem_cons_of_mem s hd)
      rw [List.flatMap_cons, List.append_assoc, List.append_assoc]
      rw [List.singleton_append, lines_append hline, List.map_cons, htail,
        readRow_sampleLine hname hs]
      rfl

theorem rows_family {f : Family} (h : f.WellFormed) (rest : List Char) :
    (lines (f.text.toList ++ rest)).map readRow = rows f ++ (lines rest).map readRow := by
  have hname : '\n' ∉ f.name.toList := h.name.not_mem (by simp)
  have hhelp : '\n' ∉ f.help.toList := h.help.not_mem (by simp)
  have hkind : '\n' ∉ f.kind.toList := h.kind.not_mem (by simp)
  have hhelpLine : '\n' ∉ helpLine f := by simp [helpLine, helpMark, hname, hhelp]
  have hkindLine : '\n' ∉ kindLine f := by simp [kindLine, kindMark, hname, hkind]
  rw [Family.toList_text, List.append_assoc, List.cons_append, List.append_assoc,
    List.cons_append, lines_append hhelpLine, lines_append hkindLine, List.map_cons,
    List.map_cons, readRow_helpLine h, readRow_kindLine h, rows_samples h.name h.samples]
  rfl

theorem group_samples (name : String) (samples : List Sample) {rest : List Row}
    {families : List Family} (h : group rest = some ([], families)) :
    group (samples.map (Row.sample name) ++ rest) =
      some (samples.map fun s => (name, s), families) := by
  induction samples with
  | nil => exact h
  | cons s samples ih => simp [group, ih]

theorem group_rows (f : Family) {rest : List Row} {families : List Family}
    (h : group rest = some ([], families)) :
    group (rows f ++ rest) = some ([], f :: families) := by
  have hsamples := group_samples f.name f.samples h
  have hnames : ∀ s ∈ f.samples.map fun s => (f.name, s), s.1 = f.name := by
    intro s hs
    obtain ⟨sample, -, rfl⟩ := List.mem_map.mp hs
    rfl
  have hback : (f.samples.map fun s => (f.name, s)).map Prod.snd = f.samples := by
    rw [List.map_map]
    exact List.map_id _
  simp only [rows, List.cons_append, group, hsamples, Option.bind_eq_bind, Option.bind_some]
  rw [if_pos ⟨trivial, hnames⟩, hback]
  rfl

theorem parse_text {families : List Family} (h : ∀ f ∈ families, f.WellFormed) :
    parse (String.join (families.map Family.text)).toList = some families := by
  have hrows : (lines (families.flatMap fun f => f.text.toList)).map readRow =
      families.flatMap rows := by
    induction families with
    | nil => rfl
    | cons f families ih =>
        rw [List.flatMap_cons, rows_family (h f List.mem_cons_self),
          ih fun g hg => h g (List.mem_cons_of_mem f hg), List.flatMap_cons]
  have hgroup : group (families.flatMap rows) = some ([], families) := by
    clear hrows h
    induction families with
    | nil => rfl
    | cons f families ih =>
        rw [List.flatMap_cons]
        exact group_rows f ih
  rw [String.toList_join, List.flatMap_map]
  simp [parse, hrows, hgroup]

end FeedHandler.Lib.Exposition
