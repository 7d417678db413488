import Nasty.Lib.Lists
import Nasty.Lib.Text

/-!
# Files of sections and parameters

A line in brackets opens a section, a line with an equals sign sets a parameter of the section that
is open, and a line that ends in a backslash goes on with the next one. `items_eq_iff` says when
lines that were written one for each item are read back as these items: as every line gives at
most one item, none may be continued and each has to be read back on its own.
-/

namespace List

variable {α : Type*} {p : α → Bool}

theorem rdropWhile_append_cons (as : List α) {c : α} (hc : p c = false) (bs : List α) :
    (as ++ c :: bs).rdropWhile p = as ++ c :: bs.rdropWhile p := by
  induction bs using reverseRecOn with
  | nil => exact rdropWhile_concat_neg p as c (by simp [hc])
  | append_singleton bs b ih =>
  rw [← cons_append, ← append_assoc]
  by_cases hb : p b = true
  · rw [rdropWhile_concat_pos p _ b hb, rdropWhile_concat_pos p _ b hb, ih]
  · rw [rdropWhile_concat_neg p _ b hb, rdropWhile_concat_neg p _ b hb]
    simp

theorem dropWhile_append_cons (as : List α) {c : α} (hc : p c = false) (bs : List α) :
    (as ++ c :: bs).dropWhile p = as.dropWhile p ++ c :: bs := by
  have hkeep : (c :: bs).dropWhile p = c :: bs := dropWhile_cons_of_neg (by simp [hc])
  rw [dropWhile_append, hkeep]
  split_ifs with h
  · rw [isEmpty_iff.1 h, nil_append]
  · rfl

theorem dropWhile_rdropWhile (l : List α) :
    (l.rdropWhile p).dropWhile p = (l.dropWhile p).rdropWhile p := by
  by_cases hall : ∀ x ∈ l, p x = true
  · rw [rdropWhile_eq_nil_iff.2 hall, dropWhile_eq_nil_iff.2 hall]
    rfl
  push Not at hall
  obtain ⟨c, hmem, hc⟩ := hall
  obtain ⟨as, bs, rfl⟩ := append_of_mem hmem
  have hc : p c = false := by simpa using hc
  rw [rdropWhile_append_cons as hc, dropWhile_append_cons as hc, dropWhile_append_cons as hc,
    rdropWhile_append_cons _ hc]

end List

namespace Ini

open List
open Text (splitOnce splitOnce_append splitOnce_eq_some)

abbrev Line := List Char

def isSpace (c : Char) : Bool := c = ' ' || (9 ≤ c.toNat && c.toNat ≤ 13)

def strip (cs : Line) : Line := (cs.dropWhile isSpace).rdropWhile isSpace

inductive Item
  | bad
  | header (name : Line)
  | param (key value : Line)
  deriving DecidableEq

def parseHeader (rest : Line) : Item :=
  match splitOnce ']' rest with
  | some (name, _) => .header (strip name)
  | none => .bad

def parseParam (line : Line) : Item :=
  match splitOnce '=' line with
  | some (key, value) => if strip key = [] then .bad else .param (strip key) (strip value)
  | none => .bad

/-- A blank line and a comment give nothing. -/
def parseLine (line : Line) : Option Item :=
  match strip line with
  | [] => none
  | c :: rest =>
    if c = '#' ∨ c = ';' then none
    else if c = '[' then some (parseHeader rest)
    else some (parseParam (c :: rest))

def Continued (line : Line) : Prop := line.getLast? = some '\\'

instance (line : Line) : Decidable (Continued line) :=
  inferInstanceAs (Decidable (line.getLast? = some '\\'))

/-- The lines after continued ones were joined; `acc` is what the next line continues. -/
def logical : Line → List Line → List Line
  | acc, [] => if acc = [] then [] else [acc]
  | acc, l :: ls =>
    if Continued l then logical (acc ++ l.dropLast) ls else (acc ++ l) :: logical [] ls

def items (lines : List Line) : List Item := (logical [] lines).filterMap parseLine

structure Section where
  name : Line
  params : List (Line × Line)
  deriving DecidableEq

/-- The sections that the items make, the first one being open already. -/
def sections (current : Section) : List Item → List Section
  | [] => [current]
  | .header name :: rest => current :: sections ⟨name, []⟩ rest
  | .param key value :: rest =>
    sections { current with params := current.params ++ [(key, value)] } rest
  | .bad :: rest => sections current rest

/-- The sections of files that are read one after the other, if every line is blank or well-formed.
-/
def parse (start : Line) (files : List Line) : Option (List Section) :=
  let all := files.flatMap fun file => items (Text.lines file)
  if .bad ∈ all then none else some (sections ⟨start, []⟩ all)

/-! ## Stripping -/

variable {c : Char} (cs : Line)

theorem isSpace_of_isAlphanum (h : c.isAlphanum) : isSpace c = false := by
  have hrange := Text.toNat_of_isAlphanum h
  have hne : c ≠ ' ' := Text.ne_of_isAlphanum h (by decide)
  simp only [isSpace, hne, decide_false, Bool.false_or, Bool.and_eq_false_iff,
    decide_eq_false_iff_not]
  omega

theorem strip_strip : strip (strip cs) = strip cs := by
  unfold strip
  rw [dropWhile_rdropWhile, dropWhile_idempotent, rdropWhile_idempotent]

theorem strip_rdropWhile : strip (cs.rdropWhile isSpace) = strip cs := by
  unfold strip
  rw [dropWhile_rdropWhile, rdropWhile_idempotent]

theorem strip_cons_of_space (hc : isSpace c = true) (cs : Line) : strip (c :: cs) = strip cs := by
  rw [strip, dropWhile_cons_of_pos hc, strip]

theorem strip_concat_of_space (hc : isSpace c = true) (cs : Line) :
    strip (cs ++ [c]) = strip cs := by
  rw [strip, ← dropWhile_rdropWhile, rdropWhile_concat_pos _ _ _ hc,
    dropWhile_rdropWhile, strip]

theorem strip_sublist : (strip cs).Sublist cs :=
  ( rdropWhile_prefix isSpace _).sublist.trans (dropWhile_sublist _)

theorem isSpace_head {cs : Line} (h : strip (c :: cs) = c :: cs) : isSpace c = false := by
  by_contra hc
  rw [strip_cons_of_space (by simpa using hc)] at h
  have hlen := (strip_sublist cs).length_le
  rw [h, length_cons] at hlen
  omega

theorem strip_eq_self {cs : Line} (hhead : ∀ c, cs.head? = some c → isSpace c = false)
    (hlast : ∀ c, cs.getLast? = some c → isSpace c = false) : strip cs = cs := by
  cases cs with
  | nil => rfl
  | cons c cs =>
  rw [strip, dropWhile_cons_of_neg (by simp [hhead c rfl]), rdropWhile_eq_self_iff]
  intro hne
  rw [hlast _ (getLast?_eq_some_getLast hne)]
  exact Bool.false_ne_true

/-! ## One line -/

/-- What can be the name of a parameter. -/
structure KeyOk (key : Line) : Prop where
  ne_nil : key ≠ []
  stripped : strip key = key
  no_equals : '=' ∉ key
  head : key.head? ≠ some '[' ∧ key.head? ≠ some '#' ∧ key.head? ≠ some ';'

instance (key : Line) : Decidable (KeyOk key) :=
  decidable_of_iff (key ≠ [] ∧ strip key = key ∧ '=' ∉ key ∧
    key.head? ≠ some '[' ∧ key.head? ≠ some '#' ∧ key.head? ≠ some ';')
    ⟨fun ⟨h1, h2, h3, h4⟩ => ⟨h1, h2, h3, h4⟩, fun h => ⟨h.1, h.2, h.3, h.4⟩⟩

def paramLine (key value : Line) : Line := "    ".toList ++ key ++ " = ".toList ++ value

def headerLine (name : Line) : Line := '[' :: (name ++ [']'])

theorem paramLine_eq (key value : Line) :
    paramLine key value = ' ' :: ' ' :: ' ' :: ' ' :: (key ++ ' ' :: '=' :: ' ' :: value) := by
  simp [paramLine]

theorem strip_paramLine (hc : isSpace c = false) (cs value : Line) :
    strip (paramLine (c :: cs) value) =
      c :: (cs ++ ' ' :: '=' :: (' ' :: value).rdropWhile isSpace) := by
  have hsplit : c :: cs ++ ' ' :: '=' :: ' ' :: value = (c :: cs ++ [' ']) ++ '=' :: ' ' :: value := by
    simp
  rw [paramLine_eq]
  iterate 4 rw [strip_cons_of_space (by decide)]
  rw [strip, cons_append, dropWhile_cons_of_neg (by simp [hc]), ← cons_append, hsplit,
    rdropWhile_append_cons _ (by decide)]
  simp

variable {key value : Line} {ls : List Line}

/-- A parameter is read back, but for blanks around the value. -/
theorem parseLine_paramLine (h : KeyOk key) (value : Line) :
    parseLine (paramLine key value) = some (.param key (strip value)) := by
  obtain ⟨hne, hstripped, hequals, hhead⟩ := h
  cases key with
  | nil => exact absurd rfl hne
  | cons c cs =>
  have hsplit : c :: (cs ++ ' ' :: '=' :: (' ' :: value).rdropWhile isSpace) =
      (c :: cs ++ [' ']) ++ '=' :: (' ' :: value).rdropWhile isSpace := by simp
  have hno : '=' ∉ c :: cs ++ [' '] := by simpa using hequals
  have hkey : strip (c :: cs ++ [' ']) = c :: cs :=
    (strip_concat_of_space (by decide) _).trans hstripped
  unfold parseLine
  rw [strip_paramLine (isSpace_head hstripped)]
  simp only [head?_cons, ne_eq, Option.some.injEq] at hhead
  simp only [hhead.1, hhead.2.1, hhead.2.2, parseParam, hsplit, splitOnce_append hno, hkey,
    strip_rdropWhile, strip_cons_of_space (show isSpace ' ' = true by decide)]
  simp

theorem parseLine_eq_param {line : Line} (h : parseLine line = some (.param key value)) :
    ∃ c rest, strip line = c :: rest ∧ c ≠ '[' ∧ c ≠ '#' ∧ c ≠ ';' ∧
      ∃ k v, splitOnce '=' (c :: rest) = some (k, v) ∧ strip k = key ∧ key ≠ [] ∧ strip v = value := by
  unfold parseLine at h
  split at h
  · cases h
  rename_i c rest hstrip
  split_ifs at h with hcomment hheader
  · have hbad := Option.some.inj h
    unfold parseHeader at hbad
    split at hbad <;> cases hbad
  have hparam := Option.some.inj h
  unfold parseParam at hparam
  split at hparam
  · rename_i k v hsplit
    split_ifs at hparam with hempty
    cases hparam
    exact ⟨c, rest, hstrip, hheader, fun hc => hcomment (.inl hc), fun hc => hcomment (.inr hc),
      k, v, hsplit, rfl, hempty, rfl⟩
  · cases hparam

/-- Only what can be a name is read back as the name. -/
theorem keyOk_of_parseLine {value' : Line}
    (h : parseLine (paramLine key value) = some (.param key value')) : KeyOk key := by
  obtain ⟨c, rest, hstrip, hbracket, hhash, hsemi, k, v, hsplit, hkey, hne, -⟩ :=
    parseLine_eq_param h
  have hstripped : strip key = key := by rw [← hkey, strip_strip]
  have hhead : key.head? = some c := by
    cases key with
    | nil => exact absurd rfl hne
    | cons d ds =>
      rw [strip_paramLine (isSpace_head hstripped)] at hstrip
      rw [head?_cons, (cons.inj hstrip).1]
  refine ⟨hne, hstripped, fun hmem => ?_, ?_⟩
  · rw [← hkey] at hmem
    exact (splitOnce_eq_some.1 hsplit).2 ((strip_sublist k).subset hmem)
  · rw [hhead]
    simpa using ⟨hbracket, hhash, hsemi⟩

/-- A line is read as one item, and does not go on. -/
def Reads (line : Line) (item : Item) : Prop := ¬ Continued line ∧ parseLine line = some item

theorem continued_paramLine : Continued (paramLine key value) ↔ Continued value := by
  rw [Continued, Continued, paramLine, getLast?_append, getLast?_append]
  cases value.getLast? with
  | none => exact iff_of_false (by simp) nofun
  | some c => rw [Option.some_or]

theorem reads_paramLine : Reads (paramLine key value) (.param key value) ↔
      KeyOk key ∧ strip value = value ∧ ¬ Continued value := by
  rw [Reads, continued_paramLine]
  constructor
  · rintro ⟨hcontinued, hparse⟩
    have hkey := keyOk_of_parseLine hparse
    rw [parseLine_paramLine hkey] at hparse
    exact ⟨hkey, (Item.param.inj (Option.some.inj hparse)).2, hcontinued⟩
  · rintro ⟨hkey, hvalue, hcontinued⟩
    exact ⟨hcontinued, by rw [parseLine_paramLine hkey, hvalue]⟩

/-- The last line of a file, too, is not read back without its backslash. -/
theorem not_reads_dropLast (h : Continued (paramLine key value)) :
    parseLine (paramLine key value).dropLast ≠ some (.param key value) := by
  rw [continued_paramLine] at h
  have hne : value ≠ [] := by
    rintro rfl
    cases h
  have hdrop : (paramLine key value).dropLast = paramLine key value.dropLast := by
    rw [paramLine, dropLast_append_of_ne_nil hne, paramLine]
  rw [hdrop]
  intro hparse
  rw [parseLine_paramLine (keyOk_of_parseLine hparse)] at hparse
  have hvalue := (Item.param.inj (Option.some.inj hparse)).2
  have hlen := (strip_sublist value.dropLast).length_le
  rw [hvalue, length_dropLast] at hlen
  have hpos := length_pos_iff.2 hne
  omega

theorem not_continued_headerLine (name : Line) : ¬ Continued (headerLine name) := by
  simp [Continued, headerLine, getLast?_cons]

theorem parseLine_headerLine {name : Line} (h : ']' ∉ name) :
    parseLine (headerLine name) = some (.header (strip name)) := by
  have hstrip : strip (headerLine name) = headerLine name := by
    rw [strip, headerLine, dropWhile_cons_of_neg (by decide), ← cons_append,
      rdropWhile_concat_neg _ _ _ (by decide)]
  rw [parseLine, hstrip, headerLine]
  simp [parseHeader, splitOnce_append h]

/-! ## Many lines -/

theorem length_logical_le (hne : ls ≠ []) (acc : Line) : (logical acc ls).length ≤ ls.length := by
  induction ls generalizing acc with
  | nil => exact absurd rfl hne
  | cons l ls ih =>
  rw [logical]
  split_ifs
  · cases ls with
    | nil =>
      rw [logical]
      split_ifs <;> simp
    | cons l' ls => exact (ih (cons_ne_nil _ _) _).trans (Nat.le_succ _)
  · cases ls with
    | nil => simp [logical]
    | cons l' ls => exact Nat.succ_le_succ (ih (cons_ne_nil _ _) _)

theorem length_items_le (ls : List Line) : (items ls).length ≤ ls.length := by
  cases ls with
  | nil => exact Nat.le_refl 0
  | cons l ls =>
    exact (length_filterMap_le _ _).trans (length_logical_le (cons_ne_nil _ _) [])

/-- **One item for each line.** The items are read back exactly if each line is read as its item:
a continued line is one item less. -/
theorem items_eq_iff {expected : List Item}
    (hlast : List.Forall₂ (fun l e => Continued l → parseLine l.dropLast ≠ some e) ls expected) :
    items ls = expected ↔ List.Forall₂ Reads ls expected := by
  induction hlast with
  | nil => exact iff_of_true rfl .nil
  | @cons l e ls expected hl hrest ih =>
  have hlen := hrest.length_eq
  rw [forall₂_cons]
  by_cases hc : Continued l
  · refine iff_of_false (fun heq => ?_) fun h => h.1.1 hc
    cases ls with
    | nil =>
      rw [items, logical, nil_append, logical] at heq
      split_ifs at heq
      · cases heq
      cases hp : parseLine l.dropLast with
      | none =>
        rw [filterMap_cons_none hp] at heq
        cases heq
      | some e' =>
        rw [filterMap_cons_some hp] at heq
        exact hl hc (hp.trans (congrArg some (cons.inj heq).1))
    | cons l' ls =>
      have hle : (items (l :: l' :: ls)).length ≤ (l' :: ls).length := by
        rw [items, logical, if_pos hc]
        exact (length_filterMap_le _ _).trans (length_logical_le (cons_ne_nil _ _) _)
      rw [heq, length_cons] at hle
      omega
  · have hitems : items (l :: ls) = (parseLine l).toList ++ items ls := by
      rw [items, logical, if_neg hc, nil_append, filterMap_cons]
      cases parseLine l <;> rfl
    rw [hitems, Reads]
    cases hp : parseLine l with
    | none =>
      refine iff_of_false (fun heq => ?_) fun h => nomatch h.1.2
      have hle := length_items_le ls
      rw [show items ls = e :: expected from heq, length_cons] at hle
      omega
    | some e' =>
      rw [Option.toList_some, singleton_append, cons_eq_cons, ih, Option.some_inj]
      exact ⟨fun h => ⟨⟨hc, h.1⟩, h.2⟩, fun h => ⟨h.1.2, h.2⟩⟩

/-! ## Sections -/

def Section.items (s : Section) : List Item :=
  .header s.name :: s.params.map fun p => .param p.1 p.2

theorem sections_params (current : Section) (params : List (Line × Line)) (rest : List Item) :
    sections current (params.map (fun p => .param p.1 p.2) ++ rest) =
      sections { current with params := current.params ++ params } rest := by
  induction params generalizing current with
  | nil => simp
  | cons p params ih =>
    rw [map_cons, cons_append, sections, ih]
    simp

theorem sections_items (current : Section) (secs : List Section) :
    sections current (secs.flatMap Section.items) = current :: secs := by
  induction secs generalizing current with
  | nil => rfl
  | cons s secs ih =>
    rw [flatMap_cons, Section.items, cons_append, sections, sections_params, ih,
      nil_append]

theorem items_sections {all : List Item} (hbad : .bad ∉ all) (current : Section) :
    (sections current all).flatMap Section.items = current.items ++ all := by
  induction all generalizing current with
  | nil => simp [sections]
  | cons i all ih =>
  rw [mem_cons, not_or] at hbad
  cases i with
  | bad => exact absurd rfl hbad.1
  | header name =>
    rw [sections, flatMap_cons, ih hbad.2]
    rfl
  | param key value =>
    rw [sections, ih hbad.2]
    simp [Section.items]

/-- The sections are read exactly if their items are. -/
theorem parse_eq_iff {start : Line} {files : List Line} {secs : List Section} :
    parse start files = some (⟨start, []⟩ :: secs) ↔
      (files.flatMap fun file => items (Text.lines file)) = secs.flatMap Section.items := by
  simp only [parse]
  constructor
  · intro h
    split_ifs at h with hbad
    have hitems := items_sections hbad ⟨start, []⟩
    rw [Option.some.inj h] at hitems
    exact (append_cancel_left hitems).symm
  intro h
  have hbad : Item.bad ∉ secs.flatMap Section.items := by
    simp [Section.items]
  simp only [h, if_neg hbad, sections_items]

end Ini
