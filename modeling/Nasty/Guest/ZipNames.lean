import Nasty.Lib.Lists
import Nasty.Lib.Percent
import Nasty.Lib.Text

/-!
# Names in a guest archive

`safeZipComponent` turns a file name, any bytes, into one component of an archive entry. A name
that is UTF-8 keeps its text, with separators, percent signs and control characters escaped; any
other name is written in hexadecimal after a marker that no text starts with. Reading the escapes
back gives the bytes of the name (`decode_safeZipComponent`), so two names never get the same
component.
-/

namespace Nasty.Guest

open List Percent String

def rawMarker : List Char := "__nasty_raw_".toList

def escaped (c : Char) : Bool :=
  c = '/' || c = '\\' || c = ':' || c = '%' || Text.isControl c

/-- The component before it is checked for an empty text and for dots. -/
def zipValue (name : ByteArray) : List Char :=
  match String.fromUTF8? name with
  | some text =>
    let value := encode escaped text.toList
    if rawMarker.isPrefixOf value then "%5F".toList ++ value.drop 1 else value
  | none => rawMarker ++ name.data.toList.flatMap hexByte

def safeZipComponent (name : ByteArray) : String :=
  let value := zipValue name
  if value = [] then "file"
  else if value = ['.'] ∨ value = ['.', '.'] then String.ofList ("%2E".toList ++ value.drop 1)
  else String.ofList value

def suffixed (name : String) (suffix : ℕ) : String := s!"{name} ({suffix})"

/-- The name, or its first unused variant from 2 on (`uniqueZipRootName_not_mem`). -/
def uniqueZipRootName (name : String) (used : List String) : String :=
  if name ∉ used then name
  else (((List.range' 2 (used.length + 1)).map (suffixed name)).find? (· ∉ used)).getD name

def Plain (x : Char) : Prop := x ≠ '/' ∧ x ≠ '\\' ∧ x ≠ ':' ∧ Text.isControl x = false

instance : DecidablePred Plain := fun _ => inferInstanceAs (Decidable (_ ∧ _))

/-- A component that names an entry of the directory it is unpacked to, on any system. -/
structure SafeComponent (c : List Char) : Prop where
  ne_nil : c ≠ []
  ne_dot : c ≠ ['.']
  ne_dots : c ≠ ['.', '.']
  plain : ∀ x ∈ c, Plain x

/-! ## Reading back -/

variable {name : ByteArray} {text : String}

theorem decode_dot (cs : List Char) :
    decode ("%2E".toList ++ cs) = decode ('.' :: cs) := by
  rw [decode_cons (by decide)]
  exact decode_escape '.' cs

theorem decode_zipValue (htext : fromUTF8? name = some text) :
    decode (zipValue name) = name.data.toList := by
  have henc : decode (encode escaped text.toList) = name.data.toList := by
    rw [decode_encode rfl, Text.bytes_of_fromUTF8? htext]
  unfold zipValue
  simp only [htext]
  split_ifs with hraw
  · obtain ⟨rest, hrest⟩ := isPrefixOf_iff_prefix.1 hraw
    rw [← henc, ← hrest]
    rfl
  · exact henc

theorem zipValue_of_bytes (htext : fromUTF8? name = none) :
    zipValue name = rawMarker ++ name.data.toList.flatMap hexByte := by
  unfold zipValue
  simp only [htext]

/-- A text does not start with the marker: its first character would be escaped. -/
theorem zipValue_not_raw (htext : fromUTF8? name = some text) :
    ¬ rawMarker <+: zipValue name := by
  unfold zipValue
  simp only [htext]
  split_ifs with hraw
  · rintro ⟨rest, hrest⟩
    cases hrest
  · rwa [← isPrefixOf_iff_prefix]

section

variable (hne : name ≠ ByteArray.empty)
include hne

theorem zipValue_ne_nil : zipValue name ≠ [] := by
  intro hnil
  rcases htext : fromUTF8? name with _ | text
  · rw [zipValue_of_bytes htext] at hnil
    cases hnil
  · have hbytes := decode_zipValue htext
    rw [hnil] at hbytes
    exact hne (ByteArray.ext (Array.toList_inj.1 hbytes.symm))

theorem toList_safeZipComponent :
    (∃ dots, zipValue name = '.' :: dots ∧ (dots = [] ∨ dots = ['.']) ∧
      (safeZipComponent name).toList = "%2E".toList ++ dots) ∨
    (zipValue name ≠ ['.'] ∧ zipValue name ≠ ['.', '.'] ∧
      (safeZipComponent name).toList = zipValue name) := by
  unfold safeZipComponent
  simp only [zipValue_ne_nil hne, if_false]
  split_ifs with hdots
  · rcases hdots with hdot | hdots
    · exact .inl ⟨[], hdot, .inl rfl, by rw [hdot]; rfl⟩
    · exact .inl ⟨['.'], hdots, .inr rfl, by rw [hdots]; rfl⟩
  · rw [not_or] at hdots
    exact .inr ⟨hdots.1, hdots.2, toList_ofList⟩

theorem decode_safeZipComponent (htext : fromUTF8? name = some text) :
    decode (safeZipComponent name).toList = name.data.toList := by
  rcases toList_safeZipComponent hne with ⟨dots, hvalue, -, heq⟩ | ⟨-, -, heq⟩
  · rw [heq, decode_dot, ← hvalue, decode_zipValue htext]
  · rw [heq, decode_zipValue htext]

theorem safeZipComponent_of_bytes (htext : fromUTF8? name = none) :
    (safeZipComponent name).toList = rawMarker ++ name.data.toList.flatMap hexByte := by
  rcases toList_safeZipComponent hne with ⟨dots, hvalue, -, -⟩ | ⟨-, -, heq⟩
  · rw [zipValue_of_bytes htext] at hvalue
    cases hvalue
  · rw [heq, zipValue_of_bytes htext]

theorem safeZipComponent_not_raw (htext : fromUTF8? name = some text) :
    ¬ rawMarker <+: (safeZipComponent name).toList := by
  rcases toList_safeZipComponent hne with ⟨dots, -, -, heq⟩ | ⟨-, -, heq⟩
  · rw [heq]
    rintro ⟨rest, hrest⟩
    cases hrest
  · rw [heq]
    exact zipValue_not_raw htext

end

theorem bytes_of_eq {a b : ByteArray} (ha : a ≠ ByteArray.empty) (hb : b ≠ ByteArray.empty)
    (h : safeZipComponent a = safeZipComponent b) (hta : fromUTF8? a = none) :
    fromUTF8? b = none := by
  by_contra htb
  obtain ⟨text, htext⟩ := Option.ne_none_iff_exists'.1 htb
  refine safeZipComponent_not_raw hb htext ?_
  rw [← h, safeZipComponent_of_bytes ha hta]
  exact prefix_append _ _

/-- Two names with the same component are the same: texts by their escapes, other bytes by their
digits. -/
theorem safeZipComponent_inj {a b : ByteArray} (ha : a ≠ ByteArray.empty)
    (hb : b ≠ ByteArray.empty) (h : safeZipComponent a = safeZipComponent b) : a = b := by
  suffices hbytes : a.data.toList = b.data.toList from
    ByteArray.ext (Array.toList_inj.1 hbytes)
  rcases hta : fromUTF8? a with _ | text
  · have htb := bytes_of_eq ha hb h hta
    have hlist := congrArg toList h
    rw [safeZipComponent_of_bytes ha hta, safeZipComponent_of_bytes hb htb] at hlist
    exact hexBytes_injective (append_cancel_left hlist)
  rcases htb : fromUTF8? b with _ | text'
  · rw [bytes_of_eq hb ha h.symm htb] at hta
    cases hta
  · rw [← decode_safeZipComponent ha hta, ← decode_safeZipComponent hb htb, h]

example : safeZipComponent "..\\file".toUTF8 = "..%5Cfile" := by decide +kernel
example : safeZipComponent ⟨#[0xFF]⟩ = "__nasty_raw_FF" := by decide +kernel
example : safeZipComponent "__nasty_raw_FF".toUTF8 = "%5F_nasty_raw_FF" := by decide +kernel

/-! ## Safe components -/

theorem plain_hexDigit : ∀ n < 16, Plain (hexDigit n) := by decide

variable {x : Char} {cs : List Char}

theorem plain_of_not_escaped (h : escaped x = false) : Plain x := by
  simp only [escaped, Bool.or_eq_false_iff, decide_eq_false_iff_not] at h
  exact ⟨h.1.1.1.1, h.1.1.1.2, h.1.1.2, h.2⟩

theorem plain_of_all (h : cs.all (decide <| Plain ·)) (hx : x ∈ cs) : Plain x :=
  of_decide_eq_true (all_eq_true.1 h x hx)

theorem plain_encode (h : x ∈ encode escaped cs) : Plain x := by
  rcases mem_encode h with ⟨-, hx⟩ | rfl | ⟨n, hn, rfl⟩
  · exact plain_of_not_escaped hx
  · decide
  · exact plain_hexDigit n hn

theorem plain_zipValue (h : x ∈ zipValue name) : Plain x := by
  rcases htext : fromUTF8? name with _ | text
  · rw [zipValue_of_bytes htext] at h
    rcases mem_append.1 h with h | h
    · exact plain_of_all (by decide) h
    · obtain ⟨b, -, hb⟩ := mem_flatMap.1 h
      obtain ⟨n, hn, rfl⟩ := mem_hexByte hb
      exact plain_hexDigit n hn
  unfold zipValue at h
  simp only [htext] at h
  split_ifs at h
  · rcases mem_append.1 h with h | h
    · exact plain_of_all (by decide) h
    · exact plain_encode (mem_of_mem_drop h)
  · exact plain_encode h

theorem safeComponent_safeZipComponent (name : ByteArray) :
    SafeComponent (safeZipComponent name).toList := by
  by_cases hne : name = ByteArray.empty
  · subst hne
    exact ⟨by decide +kernel, by decide +kernel, by decide +kernel,
      fun x => plain_of_all (by decide +kernel)⟩
  rcases toList_safeZipComponent hne with ⟨dots, -, hdots, heq⟩ | ⟨hdot, hdots, heq⟩
  · rw [heq]
    rcases hdots with rfl | rfl <;>
      exact ⟨by decide, by decide, by decide, fun x => plain_of_all (by decide)⟩
  · rw [heq]
    exact ⟨zipValue_ne_nil hne, hdot, hdots, fun x => plain_zipValue⟩

/-! ## Root names -/

theorem suffixed_injective (name : String) : Function.Injective (suffixed name) := by
  intro m n h
  have hrepr : m.repr = n.repr := by simpa [suffixed] using h
  exact Text.toDigits_inj (by omega) (by omega) (ofList_injective hrepr)

theorem toList_suffixed (name : String) (n : ℕ) :
    (suffixed name n).toList = name.toList ++ " (".toList ++ Nat.toDigits 10 n ++ [')'] := by
  simp only [suffixed, toList_append, ToString.toString, Nat.repr, toList_ofList]
  rfl

theorem uniqueZipRootName_cases (name : String) (used : List String) :
    uniqueZipRootName name used ∉ used ∧
      (uniqueZipRootName name used = name ∨
        ∃ n, uniqueZipRootName name used = suffixed name n) := by
  unfold uniqueZipRootName
  by_cases hname : name ∉ used
  · rw [if_pos hname]
    exact ⟨hname, .inl rfl⟩
  rw [if_neg hname]
  rcases hfind : ((List.range' 2 (used.length + 1)).map (suffixed name)).find? (· ∉ used)
    with _ | found
  · obtain ⟨k, hk, hfree⟩ :=
      exists_not_mem_of_injective (suffixed_injective name) used 2
    have htaken := find?_eq_none.1 hfind _ (mem_map_of_mem hk)
    exact absurd hfree (by simpa using htaken)
  · obtain ⟨n, -, rfl⟩ := mem_map.1 (mem_of_find?_eq_some hfind)
    exact ⟨by simpa using find?_some hfind, .inr ⟨n, rfl⟩⟩

theorem safeComponent_suffixed {name : String} (h : SafeComponent name.toList) (n : ℕ) :
    SafeComponent (suffixed name n).toList := by
  have hlast : ∀ (c : List Char) (x : Char), c.getLast? = some x → x ≠ ')' →
      (suffixed name n).toList ≠ c := by
    rintro _ x hx hne rfl
    rw [toList_suffixed, getLast?_append] at hx
    cases hx
    exact hne rfl
  refine ⟨?_, hlast _ '.' rfl (by decide), hlast _ '.' rfl (by decide), fun x hx => ?_⟩
  · rw [toList_suffixed]
    simp
  rw [toList_suffixed] at hx
  simp only [mem_append, mem_singleton] at hx
  rcases hx with ((hx | hx) | hx) | rfl
  · exact h.plain x hx
  · exact plain_of_all (by decide) hx
  · obtain ⟨d, hd, rfl⟩ := Text.mem_toDigits (by omega) hx
    exact (by decide : ∀ d < 10, Plain d.digitChar) d hd
  · decide

theorem safeComponent_uniqueZipRootName {name : String} (h : SafeComponent name.toList)
    (used : List String) : SafeComponent (uniqueZipRootName name used).toList := by
  rcases (uniqueZipRootName_cases name used).2 with heq | ⟨n, heq⟩
  · rwa [heq]
  · rw [heq]
    exact safeComponent_suffixed h n

end Nasty.Guest
