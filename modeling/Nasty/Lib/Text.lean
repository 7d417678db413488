import Mathlib.Data.Bool.AllAny
import Mathlib.Data.List.DropRight
import Mathlib.Data.String.Basic

/-!
# Text

String slices as character lists: splitting at a separator, unsigned numbers, and the shape of
printed numbers.
-/

namespace Text

open List Option

instance lawfulBEqChars : LawfulBEq (List Char) := inferInstance

/-! ## Splitting -/

def splitOnce (sep : Char) : List Char → Option (List Char × List Char)
  | [] => none
  | c :: cs => if c = sep then some ([], cs) else (splitOnce sep cs).map (Prod.map (c :: ·) id)

def rsplitOnce (sep : Char) (cs : List Char) : Option (List Char × List Char) :=
  (splitOnce sep cs.reverse).map fun (a, b) => (b.reverse, a.reverse)

/-- All pieces between the characters that satisfy `p`; never empty. -/
def splitBy (p : Char → Bool) : List Char → List (List Char)
  | [] => [[]]
  | c :: cs => if p c then [] :: splitBy p cs else (splitBy p cs).modifyHead (c :: ·)

def split (sep : Char) : List Char → List (List Char) := splitBy (· = sep)

/-- The Unicode property `White_Space`. -/
def isWhitespace (c : Char) : Bool :=
  let n := c.toNat
  (9 ≤ n ∧ n ≤ 13) ∨ (0x2000 ≤ n ∧ n ≤ 0x200A) ∨
    n ∈ [0x20, 0x85, 0xA0, 0x1680, 0x2028, 0x2029, 0x202F, 0x205F, 0x3000]

/-- The Unicode category `Cc`. -/
def isControl (c : Char) : Bool :=
  c.toNat < 32 || (127 ≤ c.toNat && c.toNat < 160)

def isAsciiHexdigit (c : Char) : Bool :=
  c.isDigit || ('a' ≤ c && c ≤ 'f') || ('A' ≤ c && c ≤ 'F')

def hasWhitespace (cs : List Char) : Bool := cs.any isWhitespace

def splitWhitespace (cs : List Char) : List (List Char) :=
  (splitBy isWhitespace cs).filter (· ≠ [])

def trim (cs : List Char) : List Char :=
  (((cs.dropWhile isWhitespace).reverse).dropWhile isWhitespace).reverse

def utf8Len : List Char → ℕ
  | [] => 0
  | c :: cs => c.utf8Size + utf8Len cs

def stripCr (cs : List Char) : List Char :=
  if cs.getLast? = some '\r' then cs.dropLast else cs

/-- A line ends with `\n` or `\r\n`; the last one may end without, and then keeps a `\r`. -/
def lines (cs : List Char) : List (List Char) :=
  let pieces := split '\n' cs
  pieces.dropLast.map stripCr ++ pieces.getLast?.toList.filter (· ≠ [])

def join (sep : List Char) (pieces : List (List Char)) : List Char := sep.intercalate pieces

variable {cs bs as : List Char} {sep : Char}

theorem splitOnce_eq_none : splitOnce sep cs = none ↔ sep ∉ cs := by
  induction cs with
  | nil => simp [splitOnce]
  | cons c cs ih =>
  rw [splitOnce]
  split_ifs with h
  · simp [h]
  · rw [map_eq_none_iff, ih, mem_cons, not_or]
    exact ⟨fun hcs => ⟨Ne.symm h, hcs⟩, And.right⟩

theorem splitOnce_append (h : sep ∉ as) (bs : List Char) :
    splitOnce sep (as ++ sep :: bs) = some (as, bs) := by
  induction as with
  | nil => simp [splitOnce]
  | cons a as ih =>
    rw [mem_cons, not_or] at h
    rw [cons_append, splitOnce, if_neg (Ne.symm h.1), ih h.2]
    rfl

theorem splitOnce_eq_some : splitOnce sep cs = some (as, bs) ↔ cs = as ++ sep :: bs ∧ sep ∉ as := by
  refine ⟨fun h => ?_, fun ⟨heq, has⟩ => heq ▸ splitOnce_append has bs⟩
  induction cs generalizing as with
  | nil => cases h
  | cons c cs ih =>
  rw [splitOnce] at h
  split_ifs at h with hc
  · cases h
    exact ⟨by rw [hc, nil_append], not_mem_nil⟩
  obtain ⟨⟨us, vs⟩, hrest, heq⟩ := map_eq_some_iff.1 h
  cases heq
  obtain ⟨rfl, hus⟩ := ih hrest
  exact ⟨rfl, not_mem_cons_of_ne_of_not_mem (Ne.symm hc) hus⟩

theorem rsplitOnce_eq_none : rsplitOnce sep cs = none ↔ sep ∉ cs := by
  rw [rsplitOnce, map_eq_none_iff, splitOnce_eq_none, mem_reverse]

/-- What stands before the first separator stands before any separator. -/
theorem mem_of_splitOnce {sep c : Char} {us vs : List Char}
    (h : splitOnce sep (as ++ sep :: bs) = some (us, vs)) (hc : c ∈ us) : c ∈ as := by
  obtain ⟨heq, hus⟩ := splitOnce_eq_some.1 h
  rcases append_eq_append_iff.1 heq with ⟨ws, rfl, hws⟩ | ⟨ws, rfl, -⟩
  · cases ws with
    | nil => exact append_nil as ▸ hc
    | cons w ws =>
      cases hws
      exact absurd (by simp) hus
  · exact mem_append_left _ hc

theorem eq_of_rsplitOnce (h : rsplitOnce sep cs = some (as, bs)) :
    cs = as ++ sep :: bs ∧ sep ∉ bs := by
  obtain ⟨⟨us, vs⟩, hsplit, heq⟩ := map_eq_some_iff.1 h
  cases heq
  obtain ⟨hcs, hus⟩ := splitOnce_eq_some.1 hsplit
  exact ⟨by rw [← reverse_reverse cs, hcs]; simp, by simpa using hus⟩

theorem mem_of_rsplitOnce {sep c : Char} {us vs : List Char}
    (h : rsplitOnce sep (as ++ sep :: bs) = some (us, vs)) (hc : c ∈ vs) : c ∈ bs := by
  obtain ⟨⟨us', vs'⟩, hsplit, heq⟩ := map_eq_some_iff.1 h
  cases heq
  rw [reverse_append, reverse_cons, append_assoc] at hsplit
  exact mem_reverse.1 (mem_of_splitOnce hsplit (mem_reverse.1 hc))

variable {c : Char}

theorem splitWhitespace_cons (h : isWhitespace c = true) (cs : List Char) :
    splitWhitespace (c :: cs) = splitWhitespace cs := by
  unfold splitWhitespace
  rw [splitBy, if_pos h]
  rfl

theorem splitBy_eq_splitOnP (p : Char → Bool) (cs : List Char) : splitBy p cs = cs.splitOnP p := by
  induction cs with
  | nil => rfl
  | cons c cs ih => rw [splitBy, ih, splitOnP_cons_eq_if_modifyHead]

theorem split_eq_splitOn (sep : Char) (cs : List Char) : split sep cs = cs.splitOn sep :=
  splitBy_eq_splitOnP (· == sep) cs

theorem splitBy_ne_nil (p : Char → Bool) (cs : List Char) : splitBy p cs ≠ [] := by
  rw [splitBy_eq_splitOnP]
  exact splitOnP_ne_nil p cs

variable {p : Char → Bool}

/-- A separator separates: the pieces of both sides, one after the other. -/
theorem splitBy_append (h : p c = true) (cs ds : List Char) :
    splitBy p (cs ++ c :: ds) = splitBy p cs ++ splitBy p ds := by
  simp only [splitBy_eq_splitOnP]
  exact splitOnP_append_cons cs ds h

theorem splitWhitespace_append (h : isWhitespace c = true) (cs : List Char) :
    splitWhitespace (cs ++ [c]) = splitWhitespace cs := by
  unfold splitWhitespace
  rw [splitBy_append h]
  simp [splitBy]

theorem splitBy_of_forall (h : ∀ c ∈ cs, p c = false) : splitBy p cs = [cs] := by
  rw [splitBy_eq_splitOnP, splitOnP_eq_singleton h]

theorem split_of_not_mem (h : sep ∉ cs) : split sep cs = [cs] := by
  rw [split_eq_splitOn, splitOn_eq_singleton h]

/-- The first piece starts with what holds no separator. -/
theorem splitBy_head (h : ∀ c ∈ cs, p c = false)
    (ds : List Char) : ∃ rest pieces, splitBy p (cs ++ ds) = (cs ++ rest) :: pieces := by
  induction cs with
  | nil =>
    obtain ⟨rest, pieces, hp⟩ := exists_cons_of_ne_nil (splitBy_ne_nil p ds)
    exact ⟨rest, pieces, hp⟩
  | cons c cs ih =>
  rw [forall_mem_cons] at h
  obtain ⟨rest, pieces, hp⟩ := ih h.2
  refine ⟨rest, pieces, ?_⟩
  rw [cons_append, splitBy, if_neg (by simp [h.1]), hp]
  rfl

theorem splitWhitespace_stripCr (cs : List Char) :
    splitWhitespace (stripCr cs) = splitWhitespace cs := by
  unfold stripCr
  split_ifs with h
  · obtain ⟨ds, rfl⟩ : ∃ ds, cs = ds ++ ['\r'] := getLast?_eq_some_iff.1 h
    rw [dropLast_concat, splitWhitespace_append (by decide)]
  · rfl

theorem hasWhitespace_eq_false : hasWhitespace cs = false ↔ ∀ c ∈ cs, isWhitespace c = false := by
  simp [hasWhitespace]

/-- No whitespace in it, and not empty: what stays one piece. -/
def Token (cs : List Char) : Prop := cs ≠ [] ∧ ∀ c ∈ cs, isWhitespace c = false

theorem token_of_all (hne : cs ≠ []) (h : cs.all (!isWhitespace ·)) : Token cs :=
  ⟨hne, fun c hc => by simpa using all_eq_true.1 h c hc⟩

theorem Token.splitWhitespace (h : Token cs) : splitWhitespace cs = [cs] := by
  rw [Text.splitWhitespace, splitBy_of_forall h.2, filter_cons_of_pos (by simpa using h.1)]
  rfl

variable {cs piece ds cs : List Char} {pieces : List (List Char)}

/-- A text without separators is one piece; what stands before the first separator is the first. -/
theorem splitBy_induction {P : List Char → List (List Char) → Prop}
    (one : ∀ cs, (∀ c ∈ cs, p c = false) → P cs [cs])
    (more : ∀ as c bs, (∀ c ∈ as, p c = false) → P bs (splitBy p bs) →
      P (as ++ c :: bs) (as :: splitBy p bs)) (cs : List Char) : P cs (splitBy p cs) := by
  induction hlen : cs.length using Nat.strongRecOn generalizing cs with
  | ind n ih =>
  rcases hfind : cs.find? p with _ | c
  · have hcs : ∀ c ∈ cs, p c = false := by simpa using find?_eq_none.1 hfind
    exact splitBy_of_forall hcs ▸ one cs hcs
  · obtain ⟨hc, as, bs, rfl, has⟩ := find?_eq_some_iff_append.1 hfind
    have has : ∀ c ∈ as, p c = false := by simpa using has
    rw [splitBy_append hc, splitBy_of_forall has]
    rw [length_append, length_cons] at hlen
    exact more as c bs has (ih bs.length (by omega) bs rfl)

theorem infix_of_mem_splitBy : piece ∈ splitBy p cs → piece <:+: cs := by
  refine splitBy_induction (P := fun cs pieces => piece ∈ pieces → piece <:+: cs)
    (fun cs _ h => mem_singleton.1 h ▸ infix_rfl) (fun as c bs _ ih h => ?_) cs
  rcases mem_cons.1 h with rfl | h
  · exact (prefix_append _ _).isInfix
  · exact (ih h).trans ((suffix_cons c bs).trans (suffix_append _ _)).isInfix

theorem not_sep_of_mem_splitBy : piece ∈ splitBy p cs → ∀ c ∈ piece, p c = false := by
  refine splitBy_induction (P := fun _ pieces => piece ∈ pieces → ∀ c ∈ piece, p c = false)
    (fun cs hcs h => mem_singleton.1 h ▸ hcs) (fun as c bs has ih h => ?_) cs
  rcases mem_cons.1 h with rfl | h
  · exact has
  · exact ih h

theorem token_of_mem_splitWhitespace (h : piece ∈ Text.splitWhitespace cs) : Token piece := by
  obtain ⟨hpiece, hne⟩ := mem_filter.1 h
  exact ⟨of_decide_eq_true hne, not_sep_of_mem_splitBy hpiece⟩

theorem Token.splitWhitespace_append (h : Token cs) (hc : isWhitespace c = true) (ds : List Char) :
    Text.splitWhitespace (cs ++ c :: ds) = cs :: Text.splitWhitespace ds := by
  have hcs := h.splitWhitespace
  unfold Text.splitWhitespace at hcs ⊢
  rw [splitBy_append hc, filter_append, hcs]
  rfl

/-- What follows a token may prolong it. -/
theorem Token.splitWhitespace_head (h : Token cs) (ds : List Char) :
    ∃ rest pieces, Text.splitWhitespace (cs ++ ds) = (cs ++ rest) :: pieces := by
  obtain ⟨rest, pieces, hp⟩ := splitBy_head h.2 ds
  refine ⟨rest, pieces.filter (· ≠ []), ?_⟩
  rw [Text.splitWhitespace, hp, filter_cons_of_pos (by simp [h.1])]

/-! ## Lines -/

/-- The lines before a newline, the empty ones too, and the lines after it. -/
theorem lines_append_newline (cs ds : List Char) :
    lines (cs ++ '\n' :: ds) = (split '\n' cs).map stripCr ++ lines ds := by
  have hne : split '\n' ds ≠ [] := splitBy_ne_nil _ ds
  have hsplit : split '\n' (cs ++ '\n' :: ds) = split '\n' cs ++ split '\n' ds :=
    splitBy_append (by simp) cs ds
  simp only [lines, hsplit, dropLast_append_of_ne_nil hne, map_append, append_assoc,
    getLast?_append_of_ne_nil _ hne]

theorem lines_append (h : '\n' ∉ cs) (ds : List Char) :
    lines (cs ++ '\n' :: ds) = stripCr cs :: lines ds := by
  rw [lines_append_newline, split_of_not_mem h]
  rfl

theorem lines_flatMap {ls : List (List Char)} (h : ∀ l ∈ ls, ∀ c ∈ l, c ≠ '\n' ∧ c ≠ '\r') :
    lines (ls.flatMap (· ++ ['\n'])) = ls := by
  induction ls with
  | nil => rfl
  | cons l ls ih =>
  rw [forall_mem_cons] at h
  have hcr : stripCr l = l := by
    exact if_neg fun hlast => (h.1 _ (mem_of_getLast? hlast)).2 rfl
  have hlf : '\n' ∉ l := fun hmem => (h.1 _ hmem).1 rfl
  rw [flatMap_cons, append_assoc, singleton_append, lines_append hlf, hcr, ih h.2]

theorem join_split (sep : Char) (cs : List Char) : join [sep] (split sep cs) = cs := by
  rw [split_eq_splitOn, join, intercalate_splitOn]

theorem split_join (hne : pieces ≠ []) (h : ∀ piece ∈ pieces, sep ∉ piece) :
    split sep (join [sep] pieces) = pieces := by
  rw [split_eq_splitOn, join, splitOn_intercalate sep h hne]

theorem mem_join {c : Char} (h : c ∈ join [sep] pieces) :
    c = sep ∨ ∃ piece ∈ pieces, c ∈ piece := by
  unfold join at h
  induction pieces with
  | nil => cases h
  | cons piece pieces ih =>
  cases pieces with
  | nil => exact .inr ⟨piece, mem_cons_self, by rwa [intercalate_singleton] at h⟩
  | cons next pieces =>
  rw [intercalate_cons_cons, mem_append, mem_append] at h
  rcases h with (h | h) | h
  · exact .inr ⟨piece, mem_cons_self, h⟩
  · exact .inl (mem_singleton.1 h)
  · obtain heq | ⟨p, hp, hc⟩ := ih h
    · exact .inl heq
    · exact .inr ⟨p, mem_cons_of_mem _ hp, hc⟩

/-- What holds no separator belongs to the last piece. -/
theorem splitBy_append_right (h : ∀ c ∈ bs, p c = false) (as : List Char) :
    ∃ init last, splitBy p as = init ++ [last] ∧ splitBy p (as ++ bs) = init ++ [last ++ bs] := by
  induction as with
  | nil => exact ⟨[], [], rfl, splitBy_of_forall h⟩
  | cons a as ih =>
  obtain ⟨init, last, has, happend⟩ := ih
  rw [cons_append, splitBy, splitBy, has, happend]
  split_ifs
  · exact ⟨[] :: init, last, rfl, rfl⟩
  · cases init with
    | nil => exact ⟨[], a :: last, rfl, rfl⟩
    | cons first init => exact ⟨(a :: first) :: init, last, rfl, rfl⟩

theorem join_concat (hne : pieces ≠ []) (last : List Char) :
    join [sep] (pieces ++ [last]) = join [sep] pieces ++ sep :: last := by
  unfold join
  induction pieces with
  | nil => exact absurd rfl hne
  | cons piece pieces ih =>
  cases pieces with
  | nil => simp
  | cons next rest =>
    rw [cons_append, cons_append, intercalate_cons_cons, ← cons_append, ih (cons_ne_nil _ _)]
    simp

theorem rsplitOnce_append (h : sep ∉ bs) (as : List Char) :
    rsplitOnce sep (as ++ sep :: bs) = some (as, bs) := by
  have hreverse : (as ++ sep :: bs).reverse = bs.reverse ++ sep :: as.reverse := by simp
  rw [rsplitOnce, hreverse, splitOnce_append (by simpa using h)]
  simp

/-- The first line starts with what holds no newline. -/
theorem lines_head (hne : cs ≠ []) (h : '\n' ∉ cs) (ds : List Char) :
    ∃ rest, ∃ line ∈ lines (cs ++ ds), splitWhitespace line = splitWhitespace (cs ++ rest) := by
  obtain ⟨rest, pieces, hp⟩ := splitBy_head (p := (· = '\n'))
    (fun c hc => by simpa using fun heq : c = '\n' => h (heq ▸ hc)) ds
  have hp' : split '\n' (cs ++ ds) = (cs ++ rest) :: pieces := hp
  unfold lines
  rw [hp']
  cases pieces with
  | nil => exact ⟨rest, cs ++ rest, by simp [hne], rfl⟩
  | cons piece pieces =>
    exact ⟨rest, _, mem_append_left _ mem_cons_self, splitWhitespace_stripCr _⟩

theorem splitWhitespace_dropWhile (cs : List Char) :
    splitWhitespace (cs.dropWhile isWhitespace) = splitWhitespace cs := by
  induction cs with
  | nil => rfl
  | cons c cs ih =>
    by_cases h : isWhitespace c = true
    · rw [dropWhile_cons_of_pos h, ih, splitWhitespace_cons h]
    · rw [dropWhile_cons_of_neg h]

/-- Surrounding whitespace is not part of any piece. -/
theorem splitWhitespace_trim (cs : List Char) : splitWhitespace (trim cs) = splitWhitespace cs := by
  have hright : ∀ ds : List Char,
      splitWhitespace (ds.reverse.dropWhile isWhitespace).reverse = splitWhitespace ds := by
    intro ds
    induction ds using List.reverseRecOn with
    | nil => rfl
    | append_singleton ds c ih =>
    rw [reverse_append, reverse_singleton, singleton_append]
    by_cases h : isWhitespace c = true
    · rw [dropWhile_cons_of_pos h, ih, splitWhitespace_append h]
    · rw [dropWhile_cons_of_neg h, reverse_cons, reverse_reverse]
  rw [trim, hright, splitWhitespace_dropWhile]

/-! ## Numbers -/

def digitsValue (cs : List Char) : ℕ := cs.foldl (fun n c => 10 * n + (c.toNat - '0'.toNat)) 0

def digits (max : ℕ) (ds : List Char) : Option ℕ :=
  if ds ≠ [] ∧ ds.all Char.isDigit ∧ digitsValue ds ≤ max then some (digitsValue ds) else none

/-- An unsigned decimal of at most `max`, with an optional leading plus sign. -/
def unsigned (max : ℕ) : List Char → Option ℕ
  | '+' :: ds => digits max ds
  | ds => digits max ds

theorem digits_mono {m m' n : ℕ} (hm : m ≤ m') (h : digits m ds = some n) :
    digits m' ds = some n := by
  unfold digits at h ⊢
  split_ifs at h with hd
  rw [if_pos ⟨hd.1, hd.2.1, Nat.le_trans hd.2.2 hm⟩, h]

/-- A number that fits one bound is read alike under a larger one. -/
theorem unsigned_mono {m m' n : ℕ} (hm : m ≤ m') (h : unsigned m cs = some n) :
    unsigned m' cs = some n := by
  unfold unsigned at h ⊢
  split at h <;> exact digits_mono hm h

theorem not_mem_toDigits_ten (h : c.isDigit = false) (n : ℕ) : c ∉ Nat.toDigits 10 n := by
  intro hc
  have hd := Nat.isDigit_of_mem_toDigits (by omega) (by omega) hc
  rw [h] at hd
  exact Bool.false_ne_true hd

theorem isWhitespace_of_isDigit (h : c.isDigit) : isWhitespace c = false := by
  simp only [Char.isDigit, Bool.and_eq_true, decide_eq_true_eq]
    at h
  have hlow : 48 ≤ c.toNat := h.1
  have hhigh : c.toNat ≤ 57 := h.2
  simp only [isWhitespace, mem_cons, not_mem_nil, decide_eq_false_iff_not, or_false]
  omega

theorem toNat_of_isAlphanum (h : c.isAlphanum) : 48 ≤ c.toNat ∧ c.toNat ≤ 122 := by
  have h : ((decide (65 ≤ c.val ∧ c.val ≤ 90) ||
      decide (97 ≤ c.val) && decide (c.val ≤ 122)) ||
      decide (48 ≤ c.val) && decide (c.val ≤ 57)) = true := h
  simp only [Bool.or_eq_true, Bool.and_eq_true, decide_eq_true_eq] at h
  have h' : ((65 ≤ c.toNat ∧ c.toNat ≤ 90) ∨ 97 ≤ c.toNat ∧ c.toNat ≤ 122) ∨
      48 ≤ c.toNat ∧ c.toNat ≤ 57 := h
  omega

/-- A property of letters, digits and the characters of a list. -/
@[elab_as_elim]
theorem of_alphanum_or {motive : Char → Prop} [DecidablePred motive]
    (h : (c.isAlphanum || c ∈ cs) = true) (halnum : c.isAlphanum → motive c)
    (hcs : cs.all (motive ·) = true) : motive c := by
  rcases Bool.or_eq_true_iff.1 h with h | h
  · exact halnum h
  · exact of_decide_eq_true (all_eq_true.1 hcs c (of_decide_eq_true h))

theorem ne_of_isAlphanum {d : Char} (h : c.isAlphanum) (hd : d.isAlphanum = false) : c ≠ d := by
  rintro rfl
  exact Bool.false_ne_true (hd.symm.trans h)

theorem token_toDigits (n : ℕ) : Token (Nat.toDigits 10 n) :=
  ⟨Nat.toDigits_ne_nil, fun _ hc =>
    isWhitespace_of_isDigit (Nat.isDigit_of_mem_toDigits (by omega) (by omega) hc)⟩

theorem unsigned_toDigits {max n : ℕ} (h : n ≤ max) : unsigned max (Nat.toDigits 10 n) = some n := by
  have hdigits : ∀ c ∈ Nat.toDigits 10 n, c.isDigit = true := fun c hc =>
    Nat.isDigit_of_mem_toDigits (by omega) (by omega) hc
  have hvalue : digitsValue (Nat.toDigits 10 n) = n :=
    Nat.ofDigitChars_toDigits (by omega) (by omega)
  have hread : digits max (Nat.toDigits 10 n) = some n := by
    rw [digits, if_pos ⟨Nat.toDigits_ne_nil, all_eq_true.2 hdigits, hvalue.symm ▸ h⟩, hvalue]
  unfold unsigned
  split
  · rename_i ds heq
    exact absurd (hdigits '+' (heq ▸ mem_cons_self)) (by decide)
  · exact hread

/-- Every digit of a printed number is the digit of a value below the base. -/
theorem mem_toDigits {b n : ℕ} (hb : 1 < b) (h : c ∈ Nat.toDigits b n) :
    ∃ d < b, c = d.digitChar := by
  induction n using Nat.strongRecOn with
  | ind n ih =>
    by_cases hn : n < b
    · rw [Nat.toDigits_of_lt_base hn, mem_singleton] at h
      exact ⟨n, hn, h⟩
    rw [Nat.toDigits_of_base_le hb (by omega), mem_append, mem_singleton] at h
    rcases h with h | h
    · exact ih (n / b) (Nat.div_lt_self (by omega) hb) h
    · exact ⟨n % b, Nat.mod_lt _ (by omega), h⟩

theorem digitChar_inj : ∀ m < 16, ∀ n < 16, m.digitChar = n.digitChar → m = n := by
  decide

theorem toDigits_inj {b m n : ℕ} (hb : 1 < b) (hb' : b ≤ 16)
    (h : Nat.toDigits b m = Nat.toDigits b n) : m = n := by
  induction m using Nat.strongRecOn generalizing n with
  | ind m ih =>
    have hlt : m < b ↔ n < b := by
      rw [← pow_one b, ← Nat.length_toDigits_le_iff hb Nat.one_pos, h,
        Nat.length_toDigits_le_iff hb Nat.one_pos]
    by_cases hm : m < b
    · have hn := hlt.1 hm
      rw [Nat.toDigits_of_lt_base hm, Nat.toDigits_of_lt_base hn, singleton_inj] at h
      exact digitChar_inj m (by omega) n (by omega) h
    rw [Nat.toDigits_of_base_le hb (by omega), Nat.toDigits_of_base_le hb (show b ≤ n by omega),
      append_singleton_inj] at h
    have hdiv : m / b = n / b := ih (m / b) (Nat.div_lt_self (by omega) hb) h.1
    have hlt : ∀ k, k % b < 16 := fun k =>
      Nat.lt_of_lt_of_le (Nat.mod_lt k (show 0 < b by omega)) hb'
    have hmod : m % b = n % b := digitChar_inj _ (hlt m) _ (hlt n) h.2
    rw [← Nat.div_add_mod m b, ← Nat.div_add_mod n b, hdiv, hmod]

/-- What follows the only separator is determined. -/
theorem eq_of_append_sep (hb : sep ∉ bs) (hd : sep ∉ ds) (h : as ++ sep :: bs = cs ++ sep :: ds) :
    bs = ds := by
  have hsplit := rsplitOnce_append hb as
  rw [h, rsplitOnce_append hd cs] at hsplit
  exact (Prod.mk.inj (some.inj hsplit)).2.symm

/-- What stands on both sides of the first separator is determined. -/
theorem append_sep_inj (ha : sep ∉ as) (hc : sep ∉ cs) (h : as ++ sep :: bs = cs ++ sep :: ds) :
    as = cs ∧ bs = ds := by
  have hsplit := splitOnce_append ha bs
  rw [h, splitOnce_append hc ds] at hsplit
  obtain ⟨has, hbs⟩ := Prod.mk.inj (some.inj hsplit)
  exact ⟨has.symm, hbs.symm⟩

/-- Lower case makes lower-case letters only. -/
theorem eq_of_toLower {c d : Char} (h : c.toLower = d) (hd : d.isLower = false) : c = d := by
  unfold Char.toLower at h
  split at h
  · next hupper =>
    have hlow := UInt32.le_iff_toNat_le.1 hupper.1
    have hhigh := UInt32.le_iff_toNat_le.1 hupper.2
    rw [← h] at hd
    have hd : (decide (97 ≤ c.val + 32) && decide (c.val + 32 ≤ 122)) = false := hd
    simp [UInt32.le_iff_toNat_le] at hd hlow hhigh
    omega
  · exact h

/-! ## Bytes -/

theorem bytes_of_fromUTF8? {b : ByteArray} {s : String} (h : String.fromUTF8? b = some s) :
    b.data.toList = s.toList.flatMap String.utf8EncodeChar := by
  have hb : s.toByteArray = b := by
    unfold String.fromUTF8? at h
    split at h <;> cases h
    rfl
  rw [← hb, ← String.utf8Encode_toList, List.utf8Encode, toList_data_toByteArray]

end Text
