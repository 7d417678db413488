import Mathlib.Data.List.Infix
import Nasty.Lib.Text

/-!
# Certificate events in the journal

The last line of Caddy's journal that names a host tells how its certificate stands. The text of
the event is cut out of the line by a scan over bytes that steps over escapes two bytes at a time.
The scan stops between characters (`sliceTo_scan`), unless the line breaks off behind the
backslash of an escape: then the slice is out of range (`classify_right_iff`).
-/

namespace Nasty.System.AcmeJournal

open List Text

/-! ## The messages of a line -/

/-- What a call returns; none if a slice is out of range or not on a character boundary, which is
a panic. -/
abbrev Returns (α : Type) := Option α

def sliceTo : ℕ → List Char → Returns (List Char)
  | 0, _ => some []
  | _ + 1, [] => none
  | n + 1, c :: cs =>
    if c.utf8Size ≤ n + 1 then (sliceTo (n + 1 - c.utf8Size) cs).map (c :: ·) else none

/-- What stands behind the first occurrence of the key, on a character boundary. -/
def behind (key : List Char) : List Char → Option (List Char)
  | [] => if key = [] then some [] else none
  | c :: cs => if key <+: c :: cs then some ((c :: cs).drop key.length) else behind key cs

/-- Where the loop over the bytes ends. At a backslash `end` moves by two, past the text if need be.
-/
def scan : (escaped : Bool) → List UInt8 → ℕ
  | escaped, [] => if escaped then 1 else 0
  | true, _ :: bs => 1 + scan false bs
  | false, b :: bs => if b = 92 then 1 + scan true bs else if b = 34 then 0 else 1 + scan false bs

def unescape (x : Char) : List Char → List Char
  | [] => []
  | [c] => [c]
  | c :: d :: cs => if c = '\\' ∧ d = x then x :: unescape x cs else c :: unescape x (d :: cs)

def fieldText (line : List Char) (field : String) : Option (List Char) :=
  behind ('"' :: field.toList ++ "\":\"".toList) line

def extractJsonStringField (line : List Char) (field : String) : Returns (Option (List Char)) :=
  match fieldText line field with
  | none => some none
  | some rest => (sliceTo (scan false (rest.flatMap String.utf8EncodeChar)) rest).map fun v =>
    some (unescape '\\' (unescape '"' v))

def extractLogMessage (line : List Char) : Returns (List Char) := do
  let err := (← extractJsonStringField line "error").getD []
  if err ≠ [] then return err
  return (← extractJsonStringField line "msg").getD line

/-! ## The events -/

inductive AcmeJournalState
  | succeeded
  | failed
  | issuing

structure AcmeJournalEvent where
  state : AcmeJournalState
  message : List Char

def stateOf (toLowercase : List Char → List Char) (host line : List Char) :
    Option AcmeJournalState :=
  let host := host.map Char.toLower
  let contains (phrase : String) : Bool := phrase.toList <:+: toLowercase line
  let quoted := '"' :: host ++ ['"']
  if ¬ ("\"identifier\":".toList ++ quoted <:+: toLowercase line) ∧
      ¬ (contains "\"identifiers\":" ∧ quoted <:+: toLowercase line) then none
  else if contains "obtained successfully" ∨ contains "renewed successfully" then some .succeeded
  else if contains "could not get" ∨ contains "timed out" ∨ contains "\"level\":\"error\"" then
    some .failed
  else if contains "obtaining certificate" ∨ contains "renewing certificate" ∨
      contains "trying to solve challenge" ∨ contains "using acme account" then some .issuing
  else none

def classifyAcmeJournalEvent (toLowercase : List Char → List Char) (logs host : List Char) :
    Returns (Option AcmeJournalEvent) :=
  match (lines logs).reverse.findSome? fun line =>
      (stateOf toLowercase host line).map (line, ·) with
  | none => some none
  | some (line, state) => (extractLogMessage line).map fun message => some ⟨state, message⟩

/-! ## Characters -/

/-- The value of a field, character by character; none if it breaks off behind a backslash. -/
def value : (escaped : Bool) → List Char → Option (List Char)
  | escaped, [] => if escaped then none else some []
  | true, c :: cs => (value false cs).map (c :: ·)
  | false, c :: cs =>
    if c = '"' then some [] else (value (decide (c = '\\')) cs).map (c :: ·)

def fieldValue (line : List Char) (field : String) : Option (List Char) :=
  (fieldText line field).elim (some []) (value false)

def Readable (line : List Char) : Prop :=
  fieldValue line "error" ≠ none ∧
    (fieldValue line "error" = some [] → fieldValue line "msg" ≠ none)

variable {c : Char} {cs : List Char}

theorem utf8_plain (c : Char) : (∀ b ∈ (String.utf8EncodeChar c).tail, b ≠ 92 ∧ b ≠ 34) ∧
    (c.toNat ≠ 92 → c.toNat ≠ 34 → ∀ b ∈ String.utf8EncodeChar c, b ≠ 92 ∧ b ≠ 34) := by
  unfold String.utf8EncodeChar Char.toNat
  simp only [ne_eq, ← UInt8.toNat_inj]
  generalize c.val.toNat = v
  split_ifs <;> simp <;> omega

theorem scan_append {bs : List UInt8} (h : ∀ b ∈ bs, b ≠ 92 ∧ b ≠ 34) (rest : List UInt8) :
    scan false (bs ++ rest) = bs.length + scan false rest := by
  induction bs with
  | nil => simp
  | cons b bs ih =>
    rw [forall_mem_cons] at h
    rw [cons_append, scan, if_neg h.1.1, if_neg h.1.2, ih h.2, length_cons]
    omega

theorem sliceTo_add (n : ℕ) : sliceTo (c.utf8Size + n) (c :: cs) = (sliceTo n cs).map (c :: ·) := by
  obtain ⟨k, hk⟩ := Nat.exists_eq_succ_of_ne_zero (show c.utf8Size + n ≠ 0 by
    have := c.utf8Size_pos
    omega)
  rw [hk, sliceTo, if_pos (by omega), show k + 1 - c.utf8Size = n by omega]

theorem sliceTo_scan (escaped : Bool) (cs : List Char) :
    sliceTo (scan escaped (cs.flatMap String.utf8EncodeChar)) cs = value escaped cs := by
  induction cs generalizing escaped with
  | nil => cases escaped <;> rfl
  | cons c cs ih =>
  have hsize := String.length_utf8EncodeChar c
  obtain ⟨htail, hplain⟩ := utf8_plain c
  rw [flatMap_cons]
  cases escaped with
  | true =>
    obtain ⟨b, bs, hbs⟩ := exists_cons_of_length_pos (hsize ▸ c.utf8Size_pos)
    rw [hbs] at hsize
    rw [hbs, tail_cons] at htail
    rw [hbs, cons_append, scan, scan_append htail, ← add_assoc, add_comm 1,
      ← length_cons (a := b), hsize, sliceTo_add, ih, value]
  | false =>
  by_cases hquote : c = '"'
  · rw [hquote]
    rfl
  rw [value, if_neg hquote, ← ih, ← sliceTo_add]
  by_cases hslash : c = '\\'
  · rw [hslash]
    rfl
  · rw [scan_append (hplain (fun h => hslash (Char.toNat_inj.1 h)) fun h =>
      hquote (Char.toNat_inj.1 h)), hsize, decide_eq_false hslash]

theorem unescape_eq_nil {x : Char} : unescape x cs = [] ↔ cs = [] := by
  fun_cases unescape <;> simp

theorem extract_spec (line : List Char) (field : String) :
    fieldValue line field = none ∧ extractJsonStringField line field = none ∨
    ∃ v r, fieldValue line field = some v ∧ extractJsonStringField line field = some r ∧
      (r.getD [] = [] ↔ v = []) := by
  unfold fieldValue extractJsonStringField
  cases fieldText line field with
  | none => exact .inr ⟨[], none, rfl, rfl, Iff.rfl⟩
  | some rest =>
  dsimp only [Option.elim_some]
  rw [sliceTo_scan]
  cases value false rest with
  | none => exact .inl ⟨rfl, rfl⟩
  | some v => exact .inr ⟨_, _, rfl, rfl, unescape_eq_nil.trans unescape_eq_nil⟩

theorem extractLogMessage_isSome (line : List Char) :
    (extractLogMessage line).isSome ↔ Readable line := by
  unfold extractLogMessage Readable
  rcases extract_spec line "error" with ⟨he, hx⟩ | ⟨v, r, he, hx, hnil⟩ <;> rw [he, hx]
  · simp
  by_cases hr : r.getD [] = []
  · rcases extract_spec line "msg" with ⟨hm, hy⟩ | ⟨u, q, hm, hy, -⟩ <;>
      simp [hr, hnil.1 hr, hm, hy]
  · simp [hr, mt hnil.2 hr]

/-! ## The last event -/

def lastEvent (toLowercase : List Char → List Char) (logs host : List Char) :
    Option (List Char × AcmeJournalState) :=
  ((lines logs).filterMap fun line => (stateOf toLowercase host line).map (line, ·)).getLast?

def Right (last : Option (List Char × AcmeJournalState)) (r : Returns (Option AcmeJournalEvent)) :
    Prop :=
  ∃ event, r = some event ∧ match last with
    | none => event = none
    | some (line, state) =>
      ∃ message, extractLogMessage line = some message ∧ event = some ⟨state, message⟩

/-- **The journal.** The last line of the host decides exactly if it does not break off in an escape
of the field that is taken. -/
theorem classify_right_iff (toLowercase : List Char → List Char) (logs host : List Char) :
    Right (lastEvent toLowercase logs host) (classifyAcmeJournalEvent toLowercase logs host) ↔
      ∀ line state, lastEvent toLowercase logs host = some (line, state) → Readable line := by
  unfold Right classifyAcmeJournalEvent lastEvent
  rw [← head?_filterMap, filterMap_reverse, head?_reverse]
  rcases List.getLast? _ with _ | ⟨line, state⟩
  · simp
  · simp [← extractLogMessage_isSome, Option.isSome_iff_exists]

def cutLine : String := "\"identifier\":\"nas\",\"error\":\"timed out for C:\\"

theorem cut_line_panics : classifyAcmeJournalEvent (List.map Char.toLower) cutLine.toList
    "nas".toList = none := by
  decide +kernel

end Nasty.System.AcmeJournal
