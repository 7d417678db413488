import Nasty.Backup.Profile

/-!
# Credentials in the URL of a REST target

Older clients put the user name and the password of a REST server into its URL. When a target is
normalized they move to fields of their own, and when the repository is opened they are put back.
`userinfo_kept_iff` says for which URLs the backend is given what the URL said.
-/

namespace Nasty.Backup.Service

open List Option

/-- The repository that `to_backend_options` names for a REST target. -/
def restRepository (crate : UrlCrate) (url : String) (username restPassword : Option String) :
    String :=
  "rest:" ++ match username, restPassword with
    | some user, some pass =>
      if user = "" then url
      else match crate.parse url with
        | some u => crate.text (crate.setPassword (crate.setUsername u user) (some pass))
        | none => url
    | _, _ => url

def openedRepository (crate : UrlCrate) (secrets : Secrets) (targetId url : String)
    (username password : Option String) (blob : Option EncryptedBlob) :
    Except BackupError String :=
  (resolveSecrets secrets targetId (.rest url username password blob)).map fun resolved =>
    restRepository crate url username resolved.restPassword

/-! ## What a URL carries -/

def percentDecoded : List UInt8 → List UInt8
  | [] => []
  | b :: bytes =>
    match b, bytes with
    | 37, high :: low :: rest =>
      match hexValue high, hexValue low with
      | some h, some l => (16 * h + l) :: percentDecoded rest
      | _, _ => 37 :: percentDecoded (high :: low :: rest)
    | b, bytes => b :: percentDecoded bytes

/-- The bytes that a user name or password in a URL stands for. -/
def carried (value : String) : List UInt8 := percentDecoded value.toUTF8.data.toList

theorem percentDecoded_length_le (bytes : List UInt8) :
    (percentDecoded bytes).length ≤ bytes.length := by
  fun_induction percentDecoded bytes <;> simp <;> grind

theorem percentDecoded_cons {b : UInt8} (h : b ≠ 37) (bytes : List UInt8) :
    percentDecoded (b :: bytes) = b :: percentDecoded bytes := by
  rw [percentDecoded]
  rintro high low rest rfl
  exact absurd rfl h

theorem hexValue_ne {b v : UInt8} (h : hexValue b = some v) : b ≠ 37 := by
  rintro rfl
  cases h

/-- Both decoders agree where their results are of one length: an escape with a plus sign is one
byte to the engine and three to a URL. -/
theorem percentDecode_eq {bytes decoded : List UInt8} (h : percentDecode bytes = some decoded) :
    decoded = percentDecoded bytes ∨ decoded.length < (percentDecoded bytes).length := by
  fun_induction percentDecode bytes generalizing decoded with
  | case1 => cases h; exact .inl rfl
  | case2 high low rest ih =>
    simp only [bind_eq_bind, bind_eq_some_iff, some.injEq] at h
    obtain ⟨byte, hbyte, tail, htail, rfl⟩ := h
    unfold hexByte at hbyte
    split_ifs at hbyte with hplus
    · subst hplus
      have hdecoded : percentDecoded (37 :: 43 :: low :: rest) =
          37 :: 43 :: low :: percentDecoded rest := by
        rw [percentDecoded, show hexValue 43 = none from rfl]
        simp only [percentDecoded_cons (show (43 : UInt8) ≠ 37 by decide),
          percentDecoded_cons (hexValue_ne hbyte)]
      have hle : tail.length ≤ (percentDecoded rest).length :=
        (ih htail).elim (fun h => h ▸ le_rfl) le_of_lt
      rw [hdecoded, length_cons, length_cons, length_cons, length_cons]
      exact .inr (by omega)
    · simp only [bind_eq_bind, bind_eq_some_iff, some.injEq] at hbyte
      obtain ⟨hi, hhi, lo, hlo, rfl⟩ := hbyte
      rw [percentDecoded, hhi, hlo]
      exact (ih htail).imp (congrArg (_ :: ·)) Nat.succ_lt_succ
  | case3 => cases h
  | case4 b bytes hne ih =>
    obtain ⟨tail, htail, rfl⟩ := map_eq_some_iff.1 h
    rw [percentDecoded_cons hne]
    exact (ih htail).imp (congrArg (b :: ·)) Nat.succ_lt_succ

/-- What the engine decodes carries what the URL does only where it is that, free of escapes. -/
theorem carried_eq_iff {value plain : String} (h : decodeUrlUserinfo value = some plain) :
    carried plain = carried value ↔ carried value = plain.toUTF8.data.toList ∧
      carried plain = plain.toUTF8.data.toList := by
  obtain ⟨bytes, hbytes, hplain⟩ := bind_eq_some_iff.1 h
  obtain rfl : bytes = plain.toUTF8.data.toList := by
    unfold String.fromUTF8? at hplain
    split at hplain <;> cases hplain
    rfl
  constructor
  · intro heq
    have hle := percentDecoded_length_le plain.toUTF8.data.toList
    rw [← carried, heq] at hle
    have hsame := (percentDecode_eq hbytes).resolve_right (Nat.not_lt.2 hle)
    exact ⟨hsame.symm, heq.trans hsame.symm⟩
  · rintro ⟨hvalue, hplain⟩
    rw [hvalue, hplain]
/-- What is written is read back. The setters escape what may not stand in the userinfo, but no
percent sign; an empty password is none, and the rest stays. -/
structure UrlCrate.Lawful (crate : UrlCrate) {R : Type} (remainder : crate.Url → R)
    (Takes : crate.Url → Prop) : Prop where
  parse_text : ∀ u, crate.parse (crate.text u) = some u
  takes : ∀ u, hasUserinfo crate u → Takes u
  username : ∀ u s, Takes u → (s = "" ∨ ∃ v, decodeUrlUserinfo (crate.username v) = some s) →
    let v := crate.setUsername u s
    Takes v ∧ remainder v = remainder u ∧ carried (crate.username v) = carried s
  password : ∀ u (p : Option String), Takes u →
    (∀ s ∈ p, ∃ v, (crate.password v).bind decodeUrlUserinfo = some s) →
    let v := crate.setPassword u p
    Takes v ∧ remainder v = remainder u ∧ crate.username v = crate.username u ∧
      (crate.password v).map carried = (p.filter (· ≠ "")).map carried

/-- The URLs carry the same user name and password, and agree otherwise. -/
def SameUrl (crate : UrlCrate) {R : Type} (remainder : crate.Url → R) (u v : crate.Url) : Prop :=
  carried (crate.username v) = carried (crate.username u) ∧
    (crate.password v).map carried = (crate.password u).map carried ∧ remainder v = remainder u

/-- The backend is given the URL with its credentials. -/
def Kept (crate : UrlCrate) {R : Type} (remainder : crate.Url → R) (secrets : Secrets)
    (targetId url : String) (parsed : crate.Url) : Prop :=
  ∃ url' username password blob text given,
    (normalizeRestUrlUserinfo crate (.rest url none none none)).2 =
      .rest url' username password blob ∧
    openedRepository crate secrets targetId url' username password blob = .ok ("rest:" ++ text) ∧
    crate.parse text = some given ∧ SameUrl crate remainder parsed given

/-- The engine decodes the value to what it stands for, a text that is not empty and has no escapes
itself. -/
def Decodes (value plain : String) : Prop :=
  plain ≠ "" ∧ decodeUrlUserinfo value = some plain ∧
    carried value = plain.toUTF8.data.toList ∧ carried plain = plain.toUTF8.data.toList

section Kept

variable {crate : UrlCrate} {R : Type} {remainder : crate.Url → R} {Takes : crate.Url → Prop}
  {url : String} {parsed u : crate.Url} {user pass : String}

theorem eq_empty_of_carried {value : String} (h : carried value = carried "") : value = "" := by
  rw [carried] at h
  cases hbytes : value.toUTF8.data.toList with
  | nil => exact String.toByteArray_inj.1 (ByteArray.ext (Array.toList_eq_nil_iff.1 hbytes))
  | cons b bytes =>
  rw [hbytes] at h
  unfold percentDecoded at h
  split at h
  · split at h <;> cases h
  · cases h

theorem normalize_unset (hparse : crate.parse url = some parsed)
    (hinfo : hasUserinfo crate parsed) :
    normalizeRestUrlUserinfo crate (.rest url none none none) =
      (true, .rest (clearUserinfo crate parsed) (decodeUrlUserinfo (crate.username parsed))
        ((crate.password parsed).bind decodeUrlUserinfo) none) := by
  simp [normalizeRestUrlUserinfo, hparse, hinfo]

theorem parse_clearUserinfo (h : crate.Lawful remainder Takes)
    (hparse : crate.parse url = some parsed) (hinfo : hasUserinfo crate parsed) :
    ∃ u, crate.parse (clearUserinfo crate parsed) = some u ∧ Takes u ∧
      remainder u = remainder parsed ∧ crate.username u = "" ∧ crate.password u = none := by
  have hread := h.parse_text (crate.setPassword (crate.setUsername parsed "") none)
  obtain ⟨htakes, hrest, -⟩ := h.username parsed "" (h.takes _ hinfo) (.inl rfl)
  obtain ⟨htakes', hrest', -⟩ := h.password _ none htakes nofun
  exact ⟨_, hread, htakes', hrest'.trans hrest, crate.parse_cleared hparse hread⟩

theorem set_carries (h : crate.Lawful remainder Takes) (htakes : Takes u)
    (huser : decodeUrlUserinfo (crate.username parsed) = some user)
    (hsecret : (crate.password parsed).bind decodeUrlUserinfo = some pass) :
    let v := crate.setPassword (crate.setUsername u user) (some pass)
    carried (crate.username v) = carried user ∧
      (crate.password v).map carried = ((some pass).filter (· ≠ "")).map carried ∧
      remainder v = remainder u := by
  obtain ⟨htakes', hrest, hname⟩ := h.username u user htakes (.inr ⟨_, huser⟩)
  obtain ⟨-, hrest', hkept, hset⟩ := h.password (crate.setUsername u user) (some pass) htakes'
    (by simpa using ⟨parsed, hsecret⟩)
  exact ⟨hkept ▸ hname, hset, hrest'.trans hrest⟩

/-- **Moved credentials.** They and the rest of the URL arrive as they were, exactly if both are
there and decode to plain texts. -/
theorem userinfo_kept_iff (h : crate.Lawful remainder Takes) (secrets : Secrets) (targetId : String)
    (hparse : crate.parse url = some parsed) (hinfo : hasUserinfo crate parsed) :
    Kept crate remainder secrets targetId url parsed ↔
      (∃ user, Decodes (crate.username parsed) user) ∧
        ∃ value pass, crate.password parsed = some value ∧ Decodes value pass := by
  obtain ⟨u, hclear, htakes, hrest, hempty, hnone⟩ := parse_clearUserinfo h hparse hinfo
  rw [Kept, normalize_unset hparse hinfo]
  constructor
  · rintro ⟨_, _, _, _, text, given, ⟨⟩, hopened, hgiven, hname, hpassword, -⟩
    -- without a name or with an empty one the URL stays cleared, and a password is lost
    have hlost (hbare : clearUserinfo crate parsed = text) :
        crate.username parsed = "" ∧ crate.password parsed = none := by
      cases hclear.symm.trans (hbare ▸ hgiven)
      rw [hempty] at hname
      exact ⟨eq_empty_of_carried hname.symm, by simpa [hnone] using hpassword⟩
    cases huser : decodeUrlUserinfo (crate.username parsed) with
    | none =>
      rw [huser] at hopened
      simp [hasUserinfo, hlost (by simpa [openedRepository, resolveSecrets, restRepository,
        Except.map] using hopened)] at hinfo
    | some user =>
    rw [huser] at hopened
    cases hsecret : (crate.password parsed).bind decodeUrlUserinfo with
    | none =>
      rw [hsecret] at hopened
      cases hopened
    | some pass =>
    rw [hsecret] at hopened
    replace hopened : "rest:" ++ _ = "rest:" ++ text := Except.ok.inj hopened
    rw [String.append_right_inj] at hopened
    have hne : user ≠ "" := by
      rintro rfl
      rw [(hlost hopened).2] at hsecret
      cases hsecret
    simp only [if_neg hne, hclear] at hopened
    cases (h.parse_text _).symm.trans (hopened ▸ hgiven)
    obtain ⟨hname', hpassword', -⟩ := set_carries h htakes huser hsecret
    obtain ⟨value, hvalue, hdecode⟩ := bind_eq_some_iff.1 hsecret
    rw [hpassword', hvalue] at hpassword
    have hpass : pass ≠ "" := by
      rintro rfl
      cases hpassword
    refine ⟨⟨user, hne, huser, (carried_eq_iff huser).1 (hname'.symm.trans hname)⟩, value, pass,
      hvalue, hpass, hdecode, (carried_eq_iff hdecode).1 ?_⟩
    rw [filter_some, if_pos (by simpa using hpass)] at hpassword
    exact some.inj hpassword
  · rintro ⟨⟨user, hne, huser, hcarried⟩, value, pass, hvalue, hpass, hdecode, hcarried'⟩
    have hsecret : (crate.password parsed).bind decodeUrlUserinfo = some pass := by
      rw [hvalue]
      exact hdecode
    obtain ⟨hname, hpassword, hrest'⟩ := set_carries h htakes huser hsecret
    refine ⟨_, _, _, _, _, _, rfl, ?_, h.parse_text _,
      hname.trans ((carried_eq_iff huser).2 hcarried), ?_, hrest'.trans hrest⟩
    · simp [openedRepository, resolveSecrets, resolveSecret, restRepository, huser, hsecret, hne,
        hclear, Except.map]
    · rw [hpassword, hvalue, map_some, ← (carried_eq_iff hdecode).2 hcarried']
      simp [hpass]

end Kept

/-- The URLs of one host as they are written; they are also read without the slash. -/
def serverText (u : Bool × Bool) : String :=
  "http://" ++ (if u.1 then "alice" else "") ++ (if u.2 then ":pw" else "") ++
    (if u.1 ∨ u.2 then "@" else "") ++ "host/"

def oneServer : UrlCrate where
  Url := Bool × Bool
  parse s := [(false, false), (false, true), (true, false), (true, true)].find? fun u =>
    serverText u = s ∨ serverText u = s ++ "/"
  username u := if u.1 then "alice" else ""
  password u := if u.2 then some "pw" else none
  setUsername u s := (s ≠ "", u.2)
  setPassword u p := (u.1, p.any (· ≠ ""))
  text := serverText
  parse_cleared _ h := by
    cases h
    exact ⟨rfl, rfl⟩

theorem decode_empty : decodeUrlUserinfo "" = some "" := by decide +kernel

theorem decodes_alice : Decodes "alice" "alice" :=
  ⟨by decide, by decide +kernel, by decide +kernel, by decide +kernel⟩

theorem decodes_pw : Decodes "pw" "pw" :=
  ⟨by decide, by decide +kernel, by decide +kernel, by decide +kernel⟩

theorem oneServer_lawful : oneServer.Lawful (fun _ => ()) fun _ => True where
  parse_text := by rintro ⟨_ | _, _ | _⟩ <;> rfl
  takes _ _ := trivial
  username u s _ h := by
    refine ⟨trivial, rfl, ?_⟩
    rcases h with rfl | ⟨⟨_ | _, _⟩, h⟩
    · rfl
    · cases decode_empty.symm.trans h
      rfl
    · cases decodes_alice.2.1.symm.trans h
      rfl
  password u p _ h := by
    refine ⟨trivial, rfl, rfl, ?_⟩
    rcases p with _ | s
    · rfl
    obtain ⟨⟨_, _ | _⟩, h⟩ := h s rfl
    · cases h
    · cases decodes_pw.2.1.symm.trans h
      rfl

def noSecrets : Secrets := ⟨fun _ _ => .error "unavailable", fun _ _ => .error "unavailable"⟩

theorem userinfo_kept_both : oneServer.parse "http://alice:pw@host" = some (true, true) ∧
    Kept oneServer (fun _ => ()) noSecrets "1" "http://alice:pw@host" (true, true) :=
  ⟨rfl, (userinfo_kept_iff oneServer_lawful noSecrets "1" rfl rfl).2
    ⟨⟨_, decodes_alice⟩, _, _, rfl, decodes_pw⟩⟩

/-- A URL with a user name and no password: the repository cannot be opened. -/
theorem userinfo_lost : oneServer.parse "http://alice@host" = some (true, false) ∧
    ¬ Kept oneServer (fun _ => ()) noSecrets "1" "http://alice@host" (true, false) := by
  refine ⟨rfl, ?_⟩
  rintro ⟨_, _, _, _, text, _, hnormal, hopened, -⟩
  rw [normalize_unset (show oneServer.parse "http://alice@host" = some (true, false) from rfl) rfl,
    show decodeUrlUserinfo (oneServer.username (true, false)) = _ from decodes_alice.2.1] at hnormal
  cases hnormal
  cases hopened

end Nasty.Backup.Service
