import Mathlib.Data.List.AList
import Mathlib.Data.List.Sort
import Nasty.Lib.Checks
import Nasty.Lib.Ini
import Nasty.Lib.Lts

/-!
# SMB shares and the file that Samba reads

Every enabled share has a file with its section; the files are included one after the other. The
shares are checked when they are created and changed, and some texts are cleaned when the section is
written. `conf_right_iff` says what the checks leave open: it lists what has to hold of the shares
for the files to be read as one section for each share with that share's parameters.
-/

namespace Nasty.Sharing.Smb

open List Except Text Ini

open Ini (strip Continued KeyOk Reads paramLine headerLine)
open Lts

abbrev Name := List Char

inductive SmbError
  | notFound (id : Name)
  | nameExists (name : Name)
  | pathNotFound (path : Name)
  | pathNotInFilesystem (path : Name)
  | invalidName (text : String)
  | timeMachineRequiresAuth

abbrev ExtraParams := AList fun _ : Name => Name

structure SmbShare where
  id : Name
  name : Name
  path : Name
  comment : Option Name
  readOnly : Bool
  browseable : Bool
  guestOk : Bool
  validUsers : List Name
  extraParams : ExtraParams
  timeMachine : Bool
  timeMachineMaxSizeGib : Option ℕ
  enabled : Bool
  deriving Inhabited

/-! ## Checks -/

def sanitizeSmbValue (s : Name) : Name :=
  s.filter fun c => !isControl c && c ≠ ';' && c ≠ '\n' && c ≠ '\r'

def validateShareName (name : Name) : Except SmbError Unit :=
  .refuse (name = [] ∨ utf8Len name > 80 ∨ name.any (· ∈ ['/', '\\', '[', ']', ':', '|', '<',
      '>', '+', '=', ';', ',', '?', '*']))
    (.invalidName "Share name must be 1-80 chars without special characters")

def validateSharePath (path : Name) : Except SmbError Unit := do
  .refuse (path = []) (.invalidName "share path is empty")
  .refuse (path.any (· ∈ ['\n', '\r', '\x00', '"', '#'])) (.invalidName
    ("share path contains characters that would inject smb.conf directives " ++
      "(newline, CR, NUL, double-quote, '#')"))

def isLocalName (name : Name) : Bool := name.all fun c => c.isAlphanum || c ∈ ['-', '_', '.']

def isDomain (domain : Name) : Bool :=
  domain ≠ [] ∧ utf8Len domain ≤ 15 ∧ domain.all fun c => c.isAlphanum || c = '-'

def isDomainName (name : Name) : Bool :=
  name ≠ [] ∧ name.all fun c => c.isAlphanum || c ∈ ['-', '_', '.', ' ']

def principal : Name → Name
  | '@' :: entry => entry
  | entry => entry

def validateValidUser (raw : Name) : Except SmbError Unit := do
  let entry := principal raw
  .refuse (entry = [] ∨ utf8Len entry > 256)
    (.invalidName ("invalid valid_users entry '" ++ .ofList raw ++ "'"))
  .refuse (entry.any fun c => isControl c || c ∈ [';', '"', '#', '=', '\n', '\r'])
    (.invalidName ("valid_users entry '" ++ .ofList raw ++ "' contains forbidden characters"))
  match Text.split '\\' entry with
  | [name] =>
    .refuse (isLocalName name = false)
      (.invalidName ("invalid user/group name '" ++ .ofList raw ++ "'"))
  | [domain, name] =>
    .refuse (isDomain domain = false ∨ isDomainName name = false)
      (.invalidName ("invalid domain principal '" ++ .ofList raw ++ "'"))
  | _ => .error (.invalidName ("invalid valid_users entry '" ++ .ofList raw ++ "'"))

def validateValidUsers (entries : List Name) : Except SmbError Unit :=
  .checkAll validateValidUser entries

def validateTimeMachine (s : SmbShare) : Except SmbError Unit :=
  .refuse (s.timeMachine ∧ (s.guestOk ∨ s.readOnly)) .timeMachineRequiresAuth

/-! ## The section of a share -/

def yesNo (b : Bool) : Name := if b then "yes".toList else "no".toList

def quoteUser (user : Name) : Name :=
  let s := sanitizeSmbValue user
  if ' ' ∈ s then '"' :: s ++ ['"'] else s

def firstUser (s : SmbShare) : Option Name := s.validUsers.find? (·.head? ≠ some '@')

def accessParams (s : SmbShare) : List (Name × Name) :=
  if s.guestOk then
    [("force user".toList, "nobody".toList), ("force group".toList, "nogroup".toList),
      ("create mask".toList, "0666".toList), ("directory mask".toList, "0777".toList)]
  else if s.validUsers ≠ [] then
    ((firstUser s).map fun u => ("force user".toList, sanitizeSmbValue u)).toList ++
      [("create mask".toList, "0664".toList), ("directory mask".toList, "0775".toList)]
  else []

def validUsersText (s : SmbShare) : Name := Text.join [' '] (s.validUsers.map quoteUser)

def sortedExtra (extra : ExtraParams) : List (Name × Name) :=
  (extra.entries.map fun e => (e.1, e.2)).mergeSort fun a b => a.1 ≤ b.1

def timeMachineParams (s : SmbShare) : List (Name × Name) :=
  if s.timeMachine then
    [("vfs objects".toList, "catia fruit streams_xattr".toList),
      ("fruit:time machine".toList, "yes".toList), ("fruit:metadata".toList, "stream".toList),
      ("fruit:posix_rename".toList, "yes".toList), ("fruit:veto_appledouble".toList, "no".toList),
      ("fruit:wipe_intentionally_left_blank_rfork".toList, "yes".toList),
      ("fruit:delete_empty_adfiles".toList, "yes".toList)] ++
    (s.timeMachineMaxSizeGib.map fun gib =>
      ("fruit:time machine max size".toList, Nat.toDigits 10 gib ++ ['G'])).toList
  else []

def shareParams (s : SmbShare) : List (Name × Name) :=
  [("path".toList, s.path)] ++
  (s.comment.map fun c => ("comment".toList, sanitizeSmbValue c)).toList ++
  [("read only".toList, yesNo s.readOnly), ("browseable".toList, yesNo s.browseable),
    ("guest ok".toList, yesNo s.guestOk)] ++
  accessParams s ++
  (if s.validUsers ≠ [] then [("valid users".toList, validUsersText s)] else []) ++
  (sortedExtra s.extraParams).map (fun e => (sanitizeSmbValue e.1, sanitizeSmbValue e.2)) ++
  timeMachineParams s

def renderShareConf (s : SmbShare) : Name :=
  "[".toList ++ sanitizeSmbValue s.name ++ "]\n".toList ++
    (shareParams s).flatMap fun p =>
      "    ".toList ++ p.1 ++ " = ".toList ++ p.2 ++ "\n".toList

/-! ## The service -/

structure State where
  shares : List SmbShare
  /-- The files of the enabled shares, by the id of the share. -/
  confs : List (Name × Name)

def saveShare (s : SmbShare) (st : State) : State :=
  { st with shares := s :: st.shares.filter (·.id ≠ s.id) }

def writeShareConf (s : SmbShare) (st : State) : State :=
  let others := st.confs.filter (·.1 ≠ s.id)
  { st with confs := if s.enabled then (s.id, renderShareConf s) :: others else others }

structure CreateSmbShareRequest where
  name : Name
  path : Name
  comment : Option Name
  readOnly : Option Bool
  browseable : Option Bool
  guestOk : Option Bool
  validUsers : Option (List Name)
  extraParams : Option ExtraParams
  timeMachine : Option Bool
  timeMachineMaxSizeGib : Option ℕ
  enabled : Option Bool

def CreateSmbShareRequest.share (req : CreateSmbShareRequest) (id : Name) : SmbShare where
  id := id
  name := req.name
  path := req.path
  comment := req.comment
  readOnly := req.readOnly.getD false
  browseable := req.browseable.getD true
  guestOk := req.guestOk.getD false
  validUsers := req.validUsers.getD []
  extraParams := req.extraParams.getD ∅
  timeMachine := req.timeMachine.getD false
  timeMachineMaxSizeGib := req.timeMachineMaxSizeGib.filter (0 < ·)
  enabled := req.enabled.getD true

def inFilesystem (canonical : Name) : Bool :=
  canonical = "/fs".toList || "/fs/".toList.isPrefixOf canonical

/-- `canonicalize` tells the path that a path leads to, if there is anything. -/
def create (canonicalize : Name → Option Name) (id : Name) (req : CreateSmbShareRequest)
    (st : State) : Except SmbError State := do
  validateShareName req.name
  validateSharePath req.path
  validateValidUsers (req.validUsers.getD [])
  let canonical ← (canonicalize req.path).elim (.error (.pathNotFound req.path)) .ok
  .refuse (inFilesystem canonical = false) (.pathNotInFilesystem req.path)
  if ∃ s ∈ st.shares, s.name = req.name then return st
  let share := req.share id
  validateTimeMachine share
  return writeShareConf share (saveShare share st)

structure UpdateSmbShareRequest where
  id : Name
  name : Option Name
  comment : Option Name
  readOnly : Option Bool
  browseable : Option Bool
  guestOk : Option Bool
  validUsers : Option (List Name)
  extraParams : Option ExtraParams
  timeMachine : Option Bool
  timeMachineMaxSizeGib : Option ℕ
  enabled : Option Bool

/-- A size of zero takes the limit away. -/
def UpdateSmbShareRequest.apply (req : UpdateSmbShareRequest) (s : SmbShare) : SmbShare where
  id := s.id
  name := req.name.getD s.name
  path := s.path
  comment := req.comment.or s.comment
  readOnly := req.readOnly.getD s.readOnly
  browseable := req.browseable.getD s.browseable
  guestOk := req.guestOk.getD s.guestOk
  validUsers := req.validUsers.getD s.validUsers
  extraParams := req.extraParams.getD s.extraParams
  timeMachine := req.timeMachine.getD s.timeMachine
  timeMachineMaxSizeGib := match req.timeMachineMaxSizeGib with
    | some n => if n > 0 then some n else none
    | none => s.timeMachineMaxSizeGib
  enabled := req.enabled.getD s.enabled

def update (req : UpdateSmbShareRequest) (st : State) : Except SmbError State := do
  req.name.elim (.ok ()) validateShareName
  let share ← (st.shares.find? (·.id = req.id)).elim (.error (.notFound req.id)) .ok
  req.name.elim (.ok ()) fun name =>
    .refuse (∃ s ∈ st.shares, s.name = name ∧ s.id ≠ req.id) (.nameExists name)
  req.validUsers.elim (.ok ()) validateValidUsers
  let share := req.apply share
  validateTimeMachine share
  return writeShareConf share (saveShare share st)

def delete (id : Name) (st : State) : Except SmbError State := do
  .refuse (st.shares.find? (·.id = id) = none) (.notFound id)
  return ⟨st.shares.filter (·.id ≠ id), st.confs.filter (·.1 ≠ id)⟩

inductive Op
  | create (canonicalize : Name → Option Name) (id : Name) (req : CreateSmbShareRequest)
  | update (req : UpdateSmbShareRequest)
  | delete (id : Name)

def Op.apply : Op → State → Except SmbError State
  | .create canonicalize id req => Smb.create canonicalize id req
  | .update req => Smb.update req
  | .delete id => Smb.delete id

def Step (st : State) (op : Op) (st' : State) : Prop :=
  op.apply st = .ok st' ∧
    match op with
    | .create _ id _ => id ∉ st.shares.map (·.id)
    | _ => True

/-! ## What Samba reads -/

/-- The entries of a list: blanks and commas separate them unless they are quoted. -/
def listEntries : Option Name → Bool → Name → List Name
  | entry, _, [] => entry.toList
  | entry, quoted, c :: cs =>
    if c = '"' then listEntries (some (entry.getD [])) (!quoted) cs
    else if !quoted && (isSpace c || c = ',' || c = ';') then
      entry.toList ++ listEntries none false cs
    else listEntries (some (entry.getD [] ++ [c])) quoted cs

/-- The parameters that the engine sets by the fields of a share. -/
inductive Param
  | path | comment | readOnly | browseable | guestOk
  | forceUser | forceGroup | createMask | directoryMask | validUsers
  | vfsObjects | timeMachine | metadata | posixRename | vetoAppledouble | wipeRfork
  | deleteEmptyAdfiles | maxSize
  deriving DecidableEq

def Param.key : Param → Name
  | path => "path".toList
  | comment => "comment".toList
  | readOnly => "read only".toList
  | browseable => "browseable".toList
  | guestOk => "guest ok".toList
  | forceUser => "force user".toList
  | forceGroup => "force group".toList
  | createMask => "create mask".toList
  | directoryMask => "directory mask".toList
  | validUsers => "valid users".toList
  | vfsObjects => "vfs objects".toList
  | timeMachine => "fruit:time machine".toList
  | metadata => "fruit:metadata".toList
  | posixRename => "fruit:posix_rename".toList
  | vetoAppledouble => "fruit:veto_appledouble".toList
  | wipeRfork => "fruit:wipe_intentionally_left_blank_rfork".toList
  | deleteEmptyAdfiles => "fruit:delete_empty_adfiles".toList
  | maxSize => "fruit:time machine max size".toList

def setting (on : Bool) (text : String) : Option Name := if on then some text.toList else none

/-- The value that the share's fields ask for. -/
def Param.value (s : SmbShare) : Param → Option Name
  | path => some s.path
  | comment => s.comment.map sanitizeSmbValue
  | readOnly => setting true (if s.readOnly then "yes" else "no")
  | browseable => setting true (if s.browseable then "yes" else "no")
  | guestOk => setting true (if s.guestOk then "yes" else "no")
  | forceUser => if s.guestOk then some "nobody".toList else firstUser s
  | forceGroup => setting s.guestOk "nogroup"
  | createMask => setting (s.guestOk || s.validUsers ≠ []) (if s.guestOk then "0666" else "0664")
  | directoryMask => setting (s.guestOk || s.validUsers ≠ []) (if s.guestOk then "0777" else "0775")
  | validUsers => if s.validUsers ≠ [] then some (validUsersText s) else none
  | vfsObjects => setting s.timeMachine "catia fruit streams_xattr"
  | metadata => setting s.timeMachine "stream"
  | vetoAppledouble => setting s.timeMachine "no"
  | timeMachine | posixRename | wipeRfork | deleteEmptyAdfiles => setting s.timeMachine "yes"
  | maxSize =>
    if s.timeMachine then s.timeMachineMaxSizeGib.map fun gib => Nat.toDigits 10 gib ++ ['G']
    else none

/-- A field of the share asks for the parameter. -/
def Field (s : SmbShare) (p : Name × Name) : Prop :=
  ∃ f : Param, p.1 = f.key ∧ f.value s = some p.2

/-- The parameter is one of the extra ones, cleaned. -/
def Extra (s : SmbShare) (p : Name × Name) : Prop :=
  ∃ k v, s.extraParams.lookup k = some v ∧ p = (sanitizeSmbValue k, sanitizeSmbValue v)

/-- How Samba compares. The keys give one text for all names of one section (up to case) or
parameter (up to case, blanks and synonyms), `meaning` one for all ways to set a parameter to one
value. A directive (`include`, `copy`) is no parameter. The engine's names are of different
parameters. -/
structure Rules where
  sectionKey : Name → Name
  paramKey : Name → Name
  meaning : Name × Name → Name
  directive : Name → Bool
  apart : Function.Injective fun f : Param => paramKey f.key
  plain : ∀ f : Param, directive f.key = false

def specialNames : List Name := ["global".toList, "homes".toList, "printers".toList]

/-- The name is that of a share. -/
def Rules.Ordinary (R : Rules) (name : Name) : Prop :=
  name ≠ [] ∧ R.sectionKey name ∉ specialNames.map R.sectionKey

/-- What was set last under the names of the parameter means the same. -/
def Rules.InEffect (R : Rules) (params : List (Name × Name)) (p : Name × Name) : Prop :=
  ∃ q, params.reverse.find? (fun q => R.paramKey q.1 = R.paramKey p.1) = some q ∧
    R.meaning q = R.meaning p

def sectionOf (s : SmbShare) : Ini.Section := ⟨sanitizeSmbValue s.name, shareParams s⟩

/-- The section holds what the fields of the share ask for and the extra ones, all in effect. -/
structure Holds (R : Rules) (s : SmbShare) (params : List (Name × Name)) : Prop where
  exact : ∀ p, p ∈ params ↔ Field s p ∨ Extra s p
  effect : ∀ p ∈ params, R.InEffect params p ∧ R.directive p.1 = false
  users : s.validUsers ≠ [] → ∃ text, ("valid users".toList, text) ∈ params ∧
    listEntries none false text = s.validUsers

/-- The files are read as one ordinary section for each share, no two alike, that holds its
parameters. -/
structure Right (R : Rules) (listed : List SmbShare) (files : List Name) : Prop where
  parse : parse "global".toList files =
    some (⟨"global".toList, []⟩ :: listed.map sectionOf)
  ordinary : ∀ s ∈ listed, R.Ordinary (sectionOf s).name
  distinct : (listed.map fun s => R.sectionKey (sectionOf s).name).Nodup
  holds : ∀ s ∈ listed, Holds R s (sectionOf s).params

/-- A value has no blanks around it and no backslash at its end. -/
def Neat (v : Name) : Prop := strip v = v ∧ ¬ Continued v

/-- What has to hold of the texts of a share. -/
structure ShareOk (R : Rules) (s : SmbShare) : Prop where
  ordinary : R.Ordinary (sanitizeSmbValue s.name)
  name : strip (sanitizeSmbValue s.name) = sanitizeSmbValue s.name
  path : Neat s.path
  comment : ∀ c ∈ s.comment, Neat (sanitizeSmbValue c)
  user : s.guestOk = false → ∀ u ∈ firstUser s, strip u = u
  extra : ∀ p, Extra s p → KeyOk p.1 ∧ Neat p.2 ∧ R.directive p.1 = false
  /-- An extra parameter says the same as a field, or another one, of the same parameter. -/
  agree : ∀ p, Extra s p → ∀ q, Field s q ∨ Extra s q → R.paramKey q.1 = R.paramKey p.1 →
    R.meaning q = R.meaning p

/-! ## Accepted shares -/

structure Accepted (s : SmbShare) : Prop where
  name : validateShareName s.name = .ok ()
  path : validateSharePath s.path = .ok ()
  users : ∀ u ∈ s.validUsers, validateValidUser u = .ok ()

structure Inv (st : State) : Prop where
  accepted : ∀ s ∈ st.shares, Accepted s
  ids : (st.shares.map (·.id)).Nodup
  files : (st.confs.map (·.1)).Nodup
  confs : ∀ id text, (id, text) ∈ st.confs ↔
    ∃ s ∈ st.shares, s.enabled ∧ s.id = id ∧ renderShareConf s = text

section Accepted

variable {s : SmbShare} {st : State}

theorem Inv.confs_without (h : Inv st) (i id text : Name) :
    (id, text) ∈ st.confs.filter (·.1 ≠ i) ↔
      ∃ t ∈ st.shares.filter (·.id ≠ i), t.enabled ∧ t.id = id ∧ renderShareConf t = text := by
  rw [mem_filter, h.confs id text]
  constructor
  · rintro ⟨⟨t, ht, hon, rfl, hrender⟩, hne⟩
    exact ⟨t, mem_filter.2 ⟨ht, hne⟩, hon, rfl, hrender⟩
  · rintro ⟨t, ht, hon, rfl, hrender⟩
    exact ⟨⟨t, mem_of_mem_filter ht, hon, rfl, hrender⟩, (mem_filter.1 ht).2⟩

theorem Inv.store (h : Inv st) (hs : Accepted s) : Inv (writeShareConf s (saveShare s st)) := by
  refine ⟨?_, nodup_map_cons_filter h.ids s, ?_, fun id text => ?_⟩
  · show ∀ t ∈ s :: st.shares.filter (·.id ≠ s.id), Accepted t
    rw [forall_mem_cons]
    exact ⟨hs, fun t ht => h.accepted t (mem_of_mem_filter ht)⟩
  · simp only [writeShareConf]
    split_ifs
    · exact nodup_map_cons_filter h.files (s.id, renderShareConf s)
    · exact h.files.sublist (filter_sublist.map _)
  show (id, text) ∈ (if s.enabled then (s.id, renderShareConf s) :: st.confs.filter (·.1 ≠ s.id)
    else st.confs.filter (·.1 ≠ s.id)) ↔ ∃ t ∈ s :: st.shares.filter (·.id ≠ s.id), _
  rw [exists_mem_cons_iff, ← h.confs_without]
  split_ifs with hon
  · rw [mem_cons, Prod.mk.injEq]
    exact or_congr_left ⟨fun heq => ⟨hon, heq.1.symm, heq.2.symm⟩,
      fun hs => ⟨hs.2.1.symm, hs.2.2.symm⟩⟩
  · exact (or_iff_right fun hs => hon hs.1).symm

variable {st' : State}

theorem Inv.create {canonicalize : Name → Option Name} {id : Name} {req : CreateSmbShareRequest}
    (h : Inv st) (hcreate : create canonicalize id req st = .ok st') : Inv st' := by
  obtain ⟨⟨⟩, hname, hcreate⟩ := bind_eq_ok.1 hcreate
  obtain ⟨⟨⟩, hpath, hcreate⟩ := bind_eq_ok.1 hcreate
  obtain ⟨⟨⟩, husers, hcreate⟩ := bind_eq_ok.1 hcreate
  obtain ⟨_, hcreate⟩ := rest_ok hcreate
  obtain ⟨⟨⟩, hcreate⟩ := rest_ok hcreate
  split_ifs at hcreate
  · cases hcreate
    exact h
  · obtain ⟨⟨⟩, hcreate⟩ := rest_ok hcreate
    cases hcreate
    exact h.store ⟨hname, hpath, checkAll_eq_ok.1 husers⟩

theorem Inv.update {req : UpdateSmbShareRequest} (h : Inv st)
    (hupdate : update req st = .ok st') : Inv st' := by
  obtain ⟨⟨⟩, hname, hupdate⟩ := bind_eq_ok.1 hupdate
  obtain ⟨s, hs, hupdate⟩ := bind_eq_ok.1 hupdate
  obtain ⟨⟨⟩, hupdate⟩ := rest_ok hupdate
  obtain ⟨⟨⟩, husers, hupdate⟩ := bind_eq_ok.1 hupdate
  obtain ⟨⟨⟩, hupdate⟩ := rest_ok hupdate
  cases hupdate
  have hold : Accepted s := h.accepted s (mem_of_find?_eq_some (elim_eq_ok.1 hs))
  refine h.store ⟨?_, hold.path, ?_⟩
  · show validateShareName (req.name.getD s.name) = .ok ()
    cases hreq : req.name with
    | none => exact hold.name
    | some name =>
      rw [hreq] at hname
      exact hname
  show ∀ u ∈ req.validUsers.getD s.validUsers, _
  cases hreq : req.validUsers with
  | none => exact hold.users
  | some users =>
    rw [hreq] at husers
    exact checkAll_eq_ok.1 husers

theorem Inv.delete {id : Name} (h : Inv st) (hdelete : delete id st = .ok st') : Inv st' := by
  obtain ⟨⟨⟩, hdelete⟩ := rest_ok hdelete
  cases hdelete
  exact ⟨fun s hs => h.accepted s (mem_of_mem_filter hs),
    h.ids.sublist (filter_sublist.map _), h.files.sublist (filter_sublist.map _),
    h.confs_without id⟩

theorem Inv.step {op : Op} (h : Inv st) (hstep : Step st op st') : Inv st' := by
  cases op with
  | create canonicalize id req => exact h.create hstep.1
  | update req => exact h.update hstep.1
  | delete id => exact h.delete hstep.1

theorem Inv.empty : Inv ⟨[], []⟩ := ⟨nofun, .nil, .nil, by simp⟩

theorem Inv.listed (h : Inv st) : ∃ listed : List SmbShare,
    listed.Perm (st.shares.filter (·.enabled)) ∧ st.confs.map (·.2) = listed.map renderShareConf := by
  have hshare : ∀ c ∈ st.confs, ∃ s ∈ st.shares, s.enabled ∧ s.id = c.1 ∧ renderShareConf s = c.2 :=
    fun c hc => (h.confs c.1 c.2).1 hc
  choose! f hmem hon hid hrender using hshare
  have hids : (st.confs.map f).map (·.id) = st.confs.map (·.1) := by
    rw [map_map]
    exact map_congr_left hid
  refine ⟨st.confs.map f, ?_, ?_⟩
  · refine (perm_ext_iff_of_nodup (.of_map _ (hids ▸ h.files))
      ((List.Nodup.of_map _ h.ids).filter _)).2 fun s => ?_
    rw [mem_filter]
    constructor
    · intro hs
      obtain ⟨c, hc, rfl⟩ := mem_map.1 hs
      exact ⟨hmem c hc, hon c hc⟩
    rintro ⟨hs, henabled⟩
    have hc := (h.confs s.id (renderShareConf s)).2 ⟨s, hs, henabled, rfl, rfl⟩
    have heq : f (s.id, renderShareConf s) = s :=
      inj_on_of_nodup_map h.ids (hmem _ hc) hs (hid _ hc)
    rw [← heq]
    exact mem_map_of_mem hc
  · rw [map_map]
    exact map_congr_left fun c hc => (hrender c hc).symm

end Accepted

/-! ## Users -/

def isUserChar (c : Char) : Bool := c.isAlphanum || c ∈ ['-', '_', '.', ' ', '\\', '@']

structure UserText (u : Name) : Prop where
  chars : ∀ c ∈ u, isUserChar c
  head : ∃ c, u.head? = some c ∧ isSpace c = false
  last : ∃ c, u.getLast? = some c ∧ c ≠ '\\'

section Users

variable {u : Name} {c : Char}

theorem isUserChar_plain (h : isUserChar c) : isControl c = false ∧ c ≠ ';' ∧
    c ≠ '\n' ∧ c ≠ '\r' ∧ c ≠ '"' ∧ (c ≠ ' ' → isSpace c = false ∧ c ≠ ',') := by
  refine of_alphanum_or h (fun halnum => ?_) (by decide)
  have hne {d : Char} : d.isAlphanum = false → c ≠ d := ne_of_isAlphanum halnum
  refine ⟨?_, hne (by decide), hne (by decide), hne (by decide), hne (by decide),
    fun _ => ⟨isSpace_of_isAlphanum halnum, hne (by decide)⟩⟩
  have hrange := toNat_of_isAlphanum halnum
  simp only [isControl, Bool.or_eq_false_iff, Bool.and_eq_false_iff, decide_eq_false_iff_not]
  omega

theorem sanitize_user (h : UserText u) : sanitizeSmbValue u = u := by
  refine filter_eq_self.2 fun c hc => ?_
  obtain ⟨hcontrol, hsemi, hlf, hcr, -⟩ := isUserChar_plain (h.chars c hc)
  simp [hcontrol, hsemi, hlf, hcr]

theorem head_last_of_all {p : Char → Bool} {cs : Name} (hne : cs ≠ []) (h : cs.all p) :
    (∃ c, cs.head? = some c ∧ p c) ∧ ∃ c, cs.getLast? = some c ∧ p c := by
  rw [all_eq_true] at h
  exact ⟨⟨_, head?_eq_some_head hne, h _ (head_mem hne)⟩,
    _, getLast?_eq_some_getLast hne, h _ (getLast_mem hne)⟩

theorem isLocal_char (h : (c.isAlphanum || c ∈ ['-', '_', '.']) = true) :
    isUserChar c ∧ isSpace c = false ∧ c ≠ '\\' :=
  of_alphanum_or h (fun halnum => ⟨by simp [isUserChar, halnum], isSpace_of_isAlphanum halnum,
    ne_of_isAlphanum halnum (by decide)⟩) (by decide)

theorem isDomain_char (h : (c.isAlphanum || c = '-') = true) :
    isUserChar c ∧ isSpace c = false := by
  have hlocal : (c.isAlphanum || c ∈ ['-', '_', '.']) = true := by
    rcases Bool.or_eq_true_iff.1 h with h | h
    · simp [h]
    · simp [of_decide_eq_true h]
  exact ⟨(isLocal_char hlocal).1, (isLocal_char hlocal).2.1⟩

theorem isDomainName_char (h : (c.isAlphanum || c ∈ ['-', '_', '.', ' ']) = true) :
    isUserChar c ∧ c ≠ '\\' :=
  of_alphanum_or h (fun halnum => ⟨by simp [isUserChar, halnum],
    ne_of_isAlphanum halnum (by decide)⟩) (by decide)

theorem userText_local {entry : Name} (hne : entry ≠ []) (h : isLocalName entry) :
    UserText entry := by
  obtain ⟨⟨c, hc, hhead⟩, d, hd, hlast⟩ := head_last_of_all hne h
  exact ⟨fun e he => (isLocal_char (all_eq_true.1 h e he)).1,
    ⟨c, hc, (isLocal_char hhead).2.1⟩, d, hd, (isLocal_char hlast).2.2⟩

theorem userText_domain {domain name : Name} (hdomain : isDomain domain) (hname : isDomainName name) :
    UserText (domain ++ '\\' :: name) := by
  obtain ⟨hdne, -, hdall⟩ := of_decide_eq_true hdomain
  obtain ⟨hnne, hnall⟩ := of_decide_eq_true hname
  obtain ⟨⟨c, hc, hhead⟩, -⟩ := head_last_of_all hdne hdall
  obtain ⟨-, d, hd, hlast⟩ := head_last_of_all hnne hnall
  refine ⟨fun e he => ?_, ⟨c, ?_, (isDomain_char hhead).2⟩, d, ?_, (isDomainName_char hlast).2⟩
  · rcases mem_append.1 he with he | he
    · exact (isDomain_char (all_eq_true.1 hdall e he)).1
    · rcases mem_cons.1 he with rfl | he
      · decide
      · exact (isDomainName_char (all_eq_true.1 hnall e he)).1
  · rw [head?_append, hc, Option.some_or]
  · rw [getLast?_append, getLast?_cons, hd]
    rfl

theorem userText_of_valid (h : validateValidUser u = .ok ()) : UserText u := by
  obtain ⟨⟨⟩, hne, h⟩ := bind_eq_ok.1 h
  obtain ⟨⟨⟩, h⟩ := rest_ok h
  rw [refuse_eq_ok, not_or] at hne
  have hjoin := join_split '\\' (principal u)
  have hentry : UserText (principal u) := by
    split at h
    · rename_i name hsplit
      rw [hsplit] at hjoin
      rw [refuse_eq_ok, Bool.not_eq_false] at h
      obtain rfl : name = principal u := by simpa [Text.join] using hjoin
      exact userText_local hne.1 h
    · rename_i domain name hsplit
      rw [hsplit] at hjoin
      rw [refuse_eq_ok, not_or, Bool.not_eq_false, Bool.not_eq_false] at h
      rw [← hjoin]
      simpa [Text.join] using userText_domain h.1 h.2
    · cases h
  unfold principal at hentry
  split at hentry
  · obtain ⟨d, hd, hlast⟩ := hentry.last
    refine ⟨?_, ⟨'@', rfl, by decide⟩, d, ?_, hlast⟩
    · rw [forall_mem_cons]
      exact ⟨by decide, hentry.chars⟩
    · rw [getLast?_cons, hd]
      rfl
  · exact hentry

end Users

/-! ## The list of users -/

section

variable {u rest v : Name} {users : List Name}

theorem listEntries_append {quoted : Bool} (acc : Name)
    (h : ∀ c ∈ u, c ≠ '"' ∧ (quoted = false → isSpace c = false ∧ c ≠ ',' ∧ c ≠ ';')) :
    listEntries (some acc) quoted (u ++ rest) = listEntries (some (acc ++ u)) quoted rest := by
  induction u generalizing acc with
  | nil => simp
  | cons c u ih =>
  rw [forall_mem_cons] at h
  obtain ⟨hquote, hplain⟩ := h.1
  have hinside : (!quoted && (isSpace c || c = ',' || c = ';')) = false := by
    cases quoted with
    | true => rfl
    | false => simp [hplain rfl]
  rw [cons_append, listEntries, if_neg hquote, if_neg (by simp [hinside]), ih _ h.2,
    Option.getD_some, append_assoc, singleton_append]

theorem listEntries_quoteUser (hu : UserText u) :
    listEntries none false (quoteUser u ++ rest) = listEntries (some u) false rest := by
  have hquote : '"' ∉ u := fun hmem => (isUserChar_plain (hu.chars _ hmem)).2.2.2.2.1 rfl
  simp only [quoteUser, sanitize_user hu]
  split_ifs with hspace
  · have hsplit : '"' :: u ++ ['"'] ++ rest = '"' :: (u ++ '"' :: rest) := by simp
    rw [hsplit]
    refine (listEntries_append [] fun c hc => ⟨fun heq => hquote (heq ▸ hc), ?_⟩).trans rfl
    exact fun h => by cases h
  have hplain : ∀ c ∈ u, c ≠ '"' ∧ isSpace c = false ∧ c ≠ ',' ∧ c ≠ ';' := by
    intro c hc
    obtain ⟨-, hsemi, -, -, hq, hrest⟩ := isUserChar_plain (hu.chars c hc)
    have hne : c ≠ ' ' := fun heq => hspace (heq ▸ hc)
    exact ⟨hq, (hrest hne).1, (hrest hne).2, hsemi⟩
  obtain ⟨c, hc, -⟩ := hu.head
  obtain ⟨cs, rfl⟩ := head?_eq_some_iff.1 hc
  rw [forall_mem_cons] at hplain
  obtain ⟨hq, hspace', hcomma, hsemi⟩ := hplain.1
  rw [cons_append, listEntries, if_neg hq]
  simp only [hspace', hcomma, hsemi, decide_false, Bool.or_self, Bool.and_false,
    Bool.false_eq_true, if_false, Option.getD_none, nil_append]
  rw [listEntries_append _ fun c hc => ⟨(hplain.2 c hc).1, fun _ => (hplain.2 c hc).2⟩,
    singleton_append]

theorem listEntries_join (h : ∀ u ∈ users, UserText u) :
    listEntries none false (Text.join [' '] (users.map quoteUser)) = users := by
  induction users with
  | nil => rfl
  | cons u users ih =>
  rw [forall_mem_cons] at h
  cases users with
  | nil =>
    have hone : listEntries none false (quoteUser u ++ []) = listEntries (some u) false [] :=
      listEntries_quoteUser h.1
    simpa [Text.join, listEntries] using hone
  | cons v users =>
  rw [map_cons, map_cons, Text.join, intercalate_cons_cons, append_assoc,
    listEntries_quoteUser h.1, singleton_append, listEntries, if_neg (by decide)]
  have hrest := ih h.2
  rw [map_cons, Text.join] at hrest
  simp only [isSpace, decide_true, Bool.true_or, Bool.not_false, Bool.and_self, if_true,
    Option.toList_some, hrest, singleton_append]

theorem neat_of_ends (hhead : ∃ c, v.head? = some c ∧ isSpace c = false)
    (hlast : ∃ c, v.getLast? = some c ∧ isSpace c = false ∧ c ≠ '\\') : Neat v := by
  obtain ⟨c, hc, hspace⟩ := hhead
  obtain ⟨d, hd, hspace', hne⟩ := hlast
  refine ⟨strip_eq_self (fun e he => ?_) fun e he => ?_, fun hcontinued => ?_⟩
  · cases hc.symm.trans he
    exact hspace
  · cases hd.symm.trans he
    exact hspace'
  · exact hne (Option.some.inj (hd.symm.trans hcontinued))

theorem quoteUser_ends (hu : UserText u) :
    (∃ c, (quoteUser u).head? = some c ∧ isSpace c = false) ∧
      ∃ c, (quoteUser u).getLast? = some c ∧ isSpace c = false ∧ c ≠ '\\' := by
  simp only [quoteUser, sanitize_user hu]
  split_ifs with hspace
  · exact ⟨⟨'"', rfl, by decide⟩, '"', by simp [getLast?_cons], by decide, by decide⟩
  obtain ⟨d, hd, hne⟩ := hu.last
  have hmem : d ∈ u := mem_of_getLast? hd
  have hplain := (isUserChar_plain (hu.chars d hmem)).2.2.2.2.2 fun heq => hspace (heq ▸ hmem)
  exact ⟨hu.head, d, hd, hplain.1, hne⟩

theorem join_ends (hne : users ≠ []) (h : ∀ u ∈ users, UserText u) :
    (∃ c, (Text.join [' '] (users.map quoteUser)).head? = some c ∧ isSpace c = false) ∧
      ∃ c, (Text.join [' '] (users.map quoteUser)).getLast? = some c ∧ isSpace c = false ∧
        c ≠ '\\' := by
  induction users with
  | nil => exact absurd rfl hne
  | cons u users ih =>
  rw [forall_mem_cons] at h
  cases users with
  | nil => simpa [Text.join] using quoteUser_ends h.1
  | cons v users =>
  obtain ⟨⟨c, hc, hspace⟩, -⟩ := quoteUser_ends h.1
  obtain ⟨-, d, hd, hlast⟩ := ih (cons_ne_nil _ _) h.2
  rw [map_cons, map_cons, Text.join, intercalate_cons_cons]
  rw [map_cons, Text.join] at hd
  refine ⟨⟨c, ?_, hspace⟩, d, ?_, hlast⟩
  · rw [append_assoc, head?_append, hc, Option.some_or]
  · rw [getLast?_append, hd, Option.some_or]

theorem neat_validUsersText {s : SmbShare} (hs : Accepted s) (hne : s.validUsers ≠ []) :
    Neat (validUsersText s) := by
  have hends := join_ends hne fun u hu => userText_of_valid (hs.users u hu)
  exact neat_of_ends hends.1 hends.2

end

/-! ## The parameters of a share -/

section

variable {s : SmbShare} {p : Name × Name}

theorem mem_sortedExtra {extra : ExtraParams} {k : Name} :
    (k, v) ∈ sortedExtra extra ↔ extra.lookup k = some v := by
  rw [sortedExtra, mem_mergeSort, mem_map, ← Option.mem_def, AList.mem_lookup_iff]
  constructor
  · rintro ⟨e, he, heq⟩
    cases heq
    exact he
  · intro h
    exact ⟨_, h, rfl⟩

theorem firstUser_text {u : Name} (hs : Accepted s) (h : firstUser s = some u) : UserText u :=
  userText_of_valid (hs.users u (mem_of_find?_eq_some h))

def fieldsOf (s : SmbShare) (fields : List Param) : List (Name × Name) :=
  fields.filterMap fun f => (f.value s).map (f.key, ·)

theorem accessParams_eq (hs : Accepted s) : accessParams s =
    fieldsOf s [.forceUser, .forceGroup, .createMask, .directoryMask] := by
  unfold accessParams fieldsOf
  by_cases hguest : s.guestOk
  · simp only [hguest, if_true, filterMap_cons, filterMap_nil, Param.value]
    rfl
  by_cases husers : s.validUsers = []
  · simp only [hguest, husers, filterMap_cons, filterMap_nil, Param.value, firstUser]
    rfl
  have hsome : decide (s.validUsers ≠ []) = true := decide_eq_true husers
  simp only [hguest, hsome, if_pos husers, filterMap_cons, filterMap_nil, Param.value]
  cases hfirst : firstUser s with
  | none => rfl
  | some u =>
    simp only [Option.map_some, sanitize_user (firstUser_text hs hfirst)]
    rfl

theorem timeMachineParams_eq (s : SmbShare) : timeMachineParams s =
    fieldsOf s [.vfsObjects, .timeMachine, .metadata, .posixRename, .vetoAppledouble, .wipeRfork,
      .deleteEmptyAdfiles, .maxSize] := by
  unfold timeMachineParams fieldsOf
  simp only [filterMap_cons, filterMap_nil, Param.value]
  cases s.timeMachine with
  | true => cases s.timeMachineMaxSizeGib <;> rfl
  | false => rfl

theorem mem_fieldsOf {fields : List Param} :
    p ∈ fieldsOf s fields ↔ ∃ f ∈ fields, p.1 = f.key ∧ f.value s = some p.2 := by
  obtain ⟨k, v⟩ := p
  simp only [fieldsOf, mem_filterMap, Option.map_eq_some_iff, Prod.mk.injEq]
  grind

theorem mem_extraParams : p ∈ (sortedExtra s.extraParams).map
    (fun e => (sanitizeSmbValue e.1, sanitizeSmbValue e.2)) ↔ Extra s p := by
  rw [mem_map]
  constructor
  · rintro ⟨⟨k, v⟩, he, rfl⟩
    exact ⟨k, v, mem_sortedExtra.1 he, rfl⟩
  · rintro ⟨k, v, he, rfl⟩
    exact ⟨(k, v), mem_sortedExtra.2 he, rfl⟩

theorem shareParams_eq (hs : Accepted s) : shareParams s =
    fieldsOf s [.path, .comment, .readOnly, .browseable, .guestOk, .forceUser, .forceGroup,
      .createMask, .directoryMask, .validUsers] ++
    (sortedExtra s.extraParams).map (fun e => (sanitizeSmbValue e.1, sanitizeSmbValue e.2)) ++
    fieldsOf s [.vfsObjects, .timeMachine, .metadata, .posixRename, .vetoAppledouble, .wipeRfork,
      .deleteEmptyAdfiles, .maxSize] := by
  have hfirst : [("path".toList, s.path)] ++
      (s.comment.map fun c => ("comment".toList, sanitizeSmbValue c)).toList ++
      [("read only".toList, yesNo s.readOnly), ("browseable".toList, yesNo s.browseable),
        ("guest ok".toList, yesNo s.guestOk)] =
      fieldsOf s [.path, .comment, .readOnly, .browseable, .guestOk] := by
    unfold fieldsOf
    simp only [filterMap_cons, filterMap_nil, Param.value]
    cases s.comment <;> cases s.readOnly <;> cases s.browseable <;> cases s.guestOk <;> rfl
  have husers : (if s.validUsers ≠ [] then [("valid users".toList, validUsersText s)] else []) =
      fieldsOf s [.validUsers] := by
    unfold fieldsOf
    simp only [filterMap_cons, filterMap_nil, Param.value]
    split_ifs <;> rfl
  rw [shareParams, hfirst, accessParams_eq hs, husers, timeMachineParams_eq]
  simp only [fieldsOf, ← filterMap_append, cons_append, nil_append]

theorem mem_shareParams (hs : Accepted s) : p ∈ shareParams s ↔ Field s p ∨ Extra s p := by
  rw [shareParams_eq hs, mem_append, mem_append, mem_extraParams, mem_fieldsOf, mem_fieldsOf,
    or_right_comm, ← exists_or]
  refine or_congr_left (exists_congr fun f => ?_)
  rw [← or_and_right, and_iff_right]
  cases f <;> decide

end

/-! ## The lines of a file -/

/-- A text on one line. -/
abbrev Clean (cs : Name) : Prop := ∀ c ∈ cs, c ≠ '\n' ∧ c ≠ '\r'

section Lines

variable {s : SmbShare} {p : Name × Name} {f : Param}

theorem clean_sanitize (cs : Name) : Clean (sanitizeSmbValue cs) := by
  intro c hc
  constructor <;> rintro rfl <;> exact absurd (mem_filter.1 hc).2 (by decide)

def fixedTexts : List Name :=
  ["yes", "no", "nobody", "nogroup", "0666", "0664", "0777", "0775", "catia fruit streams_xattr",
    "stream"].map String.toList

theorem fixed_clean : ∀ v ∈ fixedTexts, Clean v := by
  have hall : fixedTexts.all fun v => v.all fun c => c ≠ '\n' ∧ c ≠ '\r' := by decide
  exact fun v hv => all_iff_forall_prop.1 (all_eq_true.1 hall v hv)

theorem clean_quoteUser (u : Name) : Clean (quoteUser u) := by
  simp only [quoteUser]
  split_ifs
  · exact forall_mem_cons.2 ⟨by decide, forall_mem_append.2 ⟨clean_sanitize u, all_iff_forall_prop.1 rfl⟩⟩
  · exact clean_sanitize u

theorem clean_path (hs : Accepted s) : Clean s.path := by
  obtain ⟨⟨⟩, hchars⟩ := rest_ok hs.path
  rw [refuse_eq_ok, Bool.not_eq_true, any_eq_false] at hchars
  intro c hc
  constructor <;> rintro rfl <;> exact hchars _ hc (by decide)

/-- What the values of fields are. -/
inductive FieldText (s : SmbShare) : Param → Name → Prop
  | fixed {f v} : v ∈ fixedTexts → FieldText s f v
  | path : FieldText s .path s.path
  | comment {c} : s.comment = some c → FieldText s .comment (sanitizeSmbValue c)
  | user {u} : s.guestOk = false → firstUser s = some u → FieldText s .forceUser u
  | users : s.validUsers ≠ [] → FieldText s .validUsers (validUsersText s)
  | size (gib : ℕ) : FieldText s .maxSize (Nat.toDigits 10 gib ++ ['G'])

theorem fieldText_setting {on : Bool} {text : String} (h : setting on text = some v)
    (htext : text.toList ∈ fixedTexts) : FieldText s f v := by
  unfold setting at h
  split_ifs at h
  cases h
  exact .fixed htext

theorem fieldText_of_value (h : f.value s = some v) : FieldText s f v := by
  cases f with
  | path => cases h; exact .path
  | comment =>
    obtain ⟨c, hc, rfl⟩ := Option.map_eq_some_iff.1 h
    exact .comment hc
  | forceUser =>
    simp only [Param.value] at h
    split_ifs at h with hguest
    · cases h
      exact .fixed (by decide)
    · exact .user (by simpa using hguest) h
  | validUsers =>
    simp only [Param.value] at h
    split_ifs at h with hne
    cases h
    exact .users hne
  | maxSize =>
    simp only [Param.value] at h
    split_ifs at h
    obtain ⟨gib, -, rfl⟩ := Option.map_eq_some_iff.1 h
    exact .size gib
  | readOnly | browseable | guestOk | createMask | directoryMask =>
    refine fieldText_setting h ?_
    split_ifs <;> decide
  | _ => exact fieldText_setting h (by decide)

theorem clean_key (f : Param) : Clean f.key := by cases f <;> exact all_iff_forall_prop.1 rfl

theorem clean_value (hs : Accepted s) (h : f.value s = some v) : Clean v := by
  cases fieldText_of_value h with
  | fixed hv => exact fixed_clean v hv
  | path => exact clean_path hs
  | comment => exact clean_sanitize _
  | user _ hu =>
    rw [← sanitize_user (firstUser_text hs hu)]
    exact clean_sanitize _
  | users =>
    intro c hc
    obtain rfl | ⟨piece, hpiece, hc⟩ := mem_join hc
    · decide
    · obtain ⟨u, -, rfl⟩ := mem_map.1 hpiece
      exact clean_quoteUser u c hc
  | size gib =>
    refine forall_mem_append.2 ⟨fun c hc => ?_, all_iff_forall_prop.1 rfl⟩
    constructor <;> rintro rfl <;> exact not_mem_toDigits_ten (by decide) gib hc

theorem clean_param (hs : Accepted s) (hp : p ∈ shareParams s) : Clean p.1 ∧ Clean p.2 := by
  rcases (mem_shareParams hs).1 hp with ⟨f, hkey, hvalue⟩ | ⟨k, v, -, rfl⟩
  · exact ⟨hkey ▸ clean_key f, clean_value hs hvalue⟩
  · exact ⟨clean_sanitize k, clean_sanitize v⟩

def confLines (s : SmbShare) : List Name :=
  headerLine (sanitizeSmbValue s.name) :: (shareParams s).map fun p => paramLine p.1 p.2

theorem renderShareConf_eq (s : SmbShare) :
    renderShareConf s = (confLines s).flatMap (· ++ ['\n']) := by
  rw [confLines, flatMap_cons, flatMap_map]
  simp [renderShareConf, headerLine, paramLine]

theorem lines_renderShareConf (hs : Accepted s) : Text.lines (renderShareConf s) = confLines s := by
  rw [renderShareConf_eq]
  refine lines_flatMap ?_
  rw [confLines, forall_mem_cons]
  refine ⟨?_, fun l hl => ?_⟩
  · exact forall_mem_cons.2 ⟨by decide, forall_mem_append.2 ⟨clean_sanitize s.name,
      all_iff_forall_prop.1 rfl⟩⟩
  obtain ⟨p, hp, rfl⟩ := mem_map.1 hl
  obtain ⟨hkey, hvalue⟩ := clean_param hs hp
  exact forall_mem_append.2 ⟨forall_mem_append.2 ⟨forall_mem_append.2 ⟨all_iff_forall_prop.1 rfl, hkey⟩,
    all_iff_forall_prop.1 rfl⟩, hvalue⟩

theorem bracket_not_mem_name (hs : Accepted s) : ']' ∉ sanitizeSmbValue s.name := by
  have hname := hs.name
  rw [validateShareName, refuse_eq_ok, not_or, not_or, Bool.not_eq_true, any_eq_false] at hname
  exact fun hmem => hname.2.2 _ (mem_of_mem_filter hmem) (by decide)

theorem items_confLines (hs : Accepted s) : items (confLines s) = (sectionOf s).items ↔
      strip (sanitizeSmbValue s.name) = sanitizeSmbValue s.name ∧
        ∀ p ∈ shareParams s, KeyOk p.1 ∧ Neat p.2 := by
  have hheader := parseLine_headerLine (bracket_not_mem_name hs)
  rw [items_eq_iff]
  · rw [confLines, Ini.Section.items, forall₂_cons, forall₂_map_left_iff,
      sectionOf, forall₂_map_right_iff, forall₂_same]
    refine and_congr ?_ (forall₂_congr fun p _ => reads_paramLine)
    rw [Reads, hheader]
    simp [not_continued_headerLine]
  rw [confLines, Ini.Section.items, forall₂_cons, forall₂_map_left_iff,
    sectionOf, forall₂_map_right_iff, forall₂_same]
  exact ⟨fun h => absurd h (not_continued_headerLine _),
    fun p _ h => not_reads_dropLast h⟩

theorem length_items_confLines (s : SmbShare) :
    (items (confLines s)).length ≤ (sectionOf s).items.length := by
  refine (length_items_le _).trans ?_
  simp [confLines, Ini.Section.items, sectionOf]

end Lines

/-! ## When the files are right -/

section

variable {R : Rules} {s : SmbShare} {listed : List SmbShare}

theorem fixed_neat : ∀ v ∈ fixedTexts, strip v = v ∧ ¬ Continued v := by decide

theorem keyOk_key (f : Param) : KeyOk f.key := by cases f <;> decide

theorem neat_size (gib : ℕ) : Neat (Nat.toDigits 10 gib ++ ['G']) := by
  refine neat_of_ends ?_ ⟨'G', getLast?_concat, by decide, by decide⟩
  have hne : Nat.toDigits 10 gib ≠ [] := Nat.toDigits_ne_nil
  refine ⟨(Nat.toDigits 10 gib).head hne, ?_, ?_⟩
  · rw [head?_append, head?_eq_some_head hne, Option.some_or]
  have hdigit := Nat.isDigit_of_mem_toDigits (by omega) (by omega) (head_mem hne)
  exact isSpace_of_isAlphanum (by simp [Char.isAlphanum, hdigit])

theorem params_ok_iff (hs : Accepted s) :
    (∀ p ∈ shareParams s, KeyOk p.1 ∧ Neat p.2) ↔ Neat s.path ∧
      (∀ c ∈ s.comment, Neat (sanitizeSmbValue c)) ∧
      (s.guestOk = false → ∀ u ∈ firstUser s, strip u = u) ∧
      ∀ p, Extra s p → KeyOk p.1 ∧ Neat p.2 := by
  simp only [mem_shareParams hs]
  constructor
  · intro h
    have hfield {f : Param} {v : Name} (hf : f.value s = some v) : Neat v :=
      (h (f.key, v) (.inl ⟨f, rfl, hf⟩)).2
    refine ⟨hfield (f := .path) rfl, fun c hc => hfield (f := .comment) ?_, fun hguest u hu => ?_,
      fun p hp => h p (.inr hp)⟩
    · exact Option.map_eq_some_iff.2 ⟨c, hc, rfl⟩
    · refine (hfield (f := .forceUser) ?_).1
      rw [Param.value, hguest]
      exact hu
  rintro ⟨hpath, hcomment, huser, hextra⟩ ⟨key, v⟩ (⟨f, rfl, hvalue⟩ | hp)
  · refine ⟨keyOk_key f, ?_⟩
    cases fieldText_of_value hvalue with
    | fixed hv => exact fixed_neat _ hv
    | path => exact hpath
    | comment hc => exact hcomment _ hc
    | user hguest hu =>
      obtain ⟨d, hd, hne⟩ := (firstUser_text hs hu).last
      exact ⟨huser hguest _ hu, fun hcontinued => hne (Option.some.inj (hd.symm.trans hcontinued))⟩
    | users hne => exact neat_validUsersText hs hne
    | size gib => exact neat_size gib
  · exact hextra _ hp

theorem inEffect_iff {params : List (Name × Name)} :
    (∀ p ∈ params, R.InEffect params p) ↔
      ∀ p ∈ params, ∀ q ∈ params, R.paramKey q.1 = R.paramKey p.1 → R.meaning q = R.meaning p := by
  constructor
  · intro h p hp q hq hkey
    obtain ⟨r, hr, hmeaning⟩ := h p hp
    obtain ⟨r', hr', hmeaning'⟩ := h q hq
    rw [hkey, hr] at hr'
    cases hr'
    exact hmeaning'.symm.trans hmeaning
  intro h p hp
  have hsome : (params.reverse.find? fun q => R.paramKey q.1 = R.paramKey p.1).isSome := by
    rw [find?_isSome]
    exact ⟨p, mem_reverse.2 hp, by simp⟩
  obtain ⟨q, hq⟩ := Option.isSome_iff_exists.1 hsome
  have hmem : q ∈ params := mem_reverse.1 (mem_of_find?_eq_some hq)
  exact ⟨q, hq, h p hp q hmem (by simpa using find?_some hq)⟩

/-- Only extra parameters can have the name of another one. -/
theorem Field.unique {p q : Name × Name} (hp : Field s p) (hq : Field s q)
    (h : R.paramKey q.1 = R.paramKey p.1) : q = p := by
  obtain ⟨f, hkey, hvalue⟩ := hp
  obtain ⟨g, hkey', hvalue'⟩ := hq
  rw [hkey, hkey'] at h
  obtain rfl := R.apart h
  exact Prod.ext (hkey'.trans hkey.symm) (Option.some.inj (hvalue'.symm.trans hvalue))

theorem holds_iff (hs : Accepted s) : Holds R s (shareParams s) ↔
    (∀ p, Extra s p → R.directive p.1 = false) ∧
      ∀ p, Extra s p → ∀ q, Field s q ∨ Extra s q → R.paramKey q.1 = R.paramKey p.1 →
        R.meaning q = R.meaning p := by
  have heffect : (∀ p ∈ shareParams s, R.InEffect (shareParams s) p ∧ R.directive p.1 = false) ↔
      (∀ p, Field s p ∨ Extra s p → ∀ q, Field s q ∨ Extra s q →
        R.paramKey q.1 = R.paramKey p.1 → R.meaning q = R.meaning p) ∧
      ∀ p, Field s p ∨ Extra s p → R.directive p.1 = false := by
    rw [forall₂_and, inEffect_iff]
    simp only [mem_shareParams hs]
  constructor
  · intro h
    obtain ⟨hagree, hdirective⟩ := heffect.1 h.effect
    exact ⟨fun p hp => hdirective p (.inr hp), fun p hp => hagree p (.inr hp)⟩
  rintro ⟨hdirective, hagree⟩
  refine ⟨fun p => mem_shareParams hs, heffect.2 ⟨?_, ?_⟩, fun hne => ⟨validUsersText s, ?_, ?_⟩⟩
  · rintro p (hp | hp) q hq hkey
    · rcases hq with hq | hq
      · rw [hp.unique hq hkey]
      · exact (hagree q hq p (.inl hp) hkey.symm).symm
    · exact hagree p hp q hq hkey
  · rintro p (⟨f, hkey, -⟩ | hp)
    · exact hkey ▸ R.plain f
    · exact hdirective p hp
  · exact (mem_shareParams hs).2 (.inl ⟨.validUsers, rfl, if_pos hne⟩)
  · exact listEntries_join fun u hu => userText_of_valid (hs.users u hu)

theorem shareOk_iff (hs : Accepted s) : ShareOk R s ↔
    R.Ordinary (sanitizeSmbValue s.name) ∧ items (confLines s) = (sectionOf s).items ∧
      Holds R s (shareParams s) := by
  rw [items_confLines hs, params_ok_iff hs, holds_iff hs]
  constructor
  · rintro ⟨hordinary, hname, hpath, hcomment, huser, hextra, hagree⟩
    exact ⟨hordinary, ⟨hname, hpath, hcomment, huser, fun p hp => ⟨(hextra p hp).1,
      (hextra p hp).2.1⟩⟩, fun p hp => (hextra p hp).2.2, hagree⟩
  · rintro ⟨hordinary, ⟨hname, hpath, hcomment, huser, hextra⟩, hdirective, hagree⟩
    exact ⟨hordinary, hname, hpath, hcomment, huser, fun p hp => ⟨(hextra p hp).1,
      (hextra p hp).2, hdirective p hp⟩, hagree⟩

theorem parse_iff (hlisted : ∀ s ∈ listed, Accepted s) :
    parse "global".toList (listed.map renderShareConf) =
        some (⟨"global".toList, []⟩ :: listed.map sectionOf) ↔
      ∀ s ∈ listed, items (confLines s) = (sectionOf s).items := by
  rw [parse_eq_iff, flatMap_map, flatMap_map]
  have hlines : (listed.flatMap fun s => items (Text.lines (renderShareConf s))) =
      listed.flatMap fun s => items (confLines s) :=
    flatMap_congr fun s hs => by rw [lines_renderShareConf (hlisted s hs)]
  rw [hlines]
  exact flatMap_eq_flatMap_iff fun s _ => length_items_confLines s

theorem right_iff (hlisted : ∀ s ∈ listed, Accepted s) :
    Right R listed (listed.map renderShareConf) ↔ (∀ s ∈ listed, ShareOk R s) ∧
      (listed.map fun s => R.sectionKey (sanitizeSmbValue s.name)).Nodup := by
  constructor
  · intro h
    refine ⟨fun s hs => (shareOk_iff (hlisted s hs)).2 ⟨h.ordinary s hs, ?_, h.holds s hs⟩,
      h.distinct⟩
    exact (parse_iff hlisted).1 h.parse s hs
  rintro ⟨hok, hdistinct⟩
  have hall := fun s hs => (shareOk_iff (hlisted s hs)).1 (hok s hs)
  exact ⟨(parse_iff hlisted).2 fun s hs => (hall s hs).2.1, fun s hs => (hall s hs).1, hdistinct,
    fun s hs => (hall s hs).2.2⟩

end

/-- **What Samba reads.** The files are read as the sections of the enabled shares exactly if their
texts are as they have to be and no two sections meet. -/
theorem conf_right_iff {st : State} {ops : List Op} (hrun : Run Step ⟨[], []⟩ ops st) (R : Rules) :
    ∃ listed, listed.Perm (st.shares.filter (·.enabled)) ∧
      st.confs.map (·.2) = listed.map renderShareConf ∧
      (Right R listed (st.confs.map (·.2)) ↔
        (∀ s ∈ st.shares.filter (·.enabled), ShareOk R s) ∧
          ((st.shares.filter (·.enabled)).map fun s =>
            R.sectionKey (sanitizeSmbValue s.name)).Nodup) := by
  have hinv : Inv st := hrun.inv .empty fun _ _ _ h hstep => h.step hstep
  obtain ⟨listed, hperm, hfiles⟩ := hinv.listed
  have hlisted : ∀ s ∈ listed, Accepted s := fun s hs =>
    hinv.accepted s (mem_of_mem_filter (hperm.subset hs))
  refine ⟨listed, hperm, hfiles, ?_⟩
  rw [hfiles, right_iff hlisted, (hperm.map _).nodup_iff]
  exact and_congr_left fun _ => forall_congr' fun s => imp_congr hperm.mem_iff Iff.rfl

def plainKey (key : Name) : Name := (key.filter (· ≠ ' ')).map Char.toLower

/-- Names up to case and blanks, with `writable` for the inverse of `read only`. -/
def plainRules : Rules where
  sectionKey := List.map Char.toLower
  paramKey key := if plainKey key = "writable".toList then "readonly".toList else plainKey key
  meaning p := if plainKey p.1 = "writable".toList then yesNo (p.2 = "no".toList) else p.2
  directive key := plainKey key ∈ ["include".toList, "copy".toList]
  apart f g h := by
    cases f <;> cases g <;> first
      | rfl
      | exact absurd h (by decide)
  plain f := by cases f <;> decide

def archiveRequest (comment : Name) : CreateSmbShareRequest :=
  ⟨"Archive".toList, "/fs/tank/archive".toList, some comment, some true, none, none,
    some ["EXAMPLE\\jane doe".toList], none, none, none, none⟩

def archiveState (comment : Name) : State :=
  writeShareConf ((archiveRequest comment).share "1".toList)
    (saveShare ((archiveRequest comment).share "1".toList) ⟨[], []⟩)

theorem run_archive (comment : Name) : Run Step ⟨[], []⟩
    [.create some "1".toList (archiveRequest comment)] (archiveState comment) :=
  Run.snoc .nil ⟨rfl, not_mem_nil⟩

theorem conf_right_iff_archive : ∃ listed,
    listed.Perm ((archiveState "old files".toList).shares.filter (·.enabled)) ∧
      Right plainRules listed ((archiveState "old files".toList).confs.map (·.2)) := by
  obtain ⟨listed, hperm, -, hiff⟩ := conf_right_iff (run_archive "old files".toList) plainRules
  refine ⟨listed, hperm, hiff.2 ⟨?_, by decide⟩⟩
  intro s hs
  obtain rfl : s = (archiveRequest "old files".toList).share "1".toList := mem_singleton.1 hs
  have hextra (p : Name × Name) : ¬ Extra ((archiveRequest "old files".toList).share "1".toList) p := by
    rintro ⟨k, v, ⟨⟩, -⟩
  exact ⟨⟨by decide, by decide⟩, by decide, ⟨by decide, by decide⟩,
    fun c hc => by cases hc; exact ⟨by decide, by decide⟩, by decide,
    fun p hp => absurd hp (hextra p), fun p hp => absurd hp (hextra p)⟩

/-- A comment with a backslash at its end takes the line below with it: the section has no
`read only`, and its comment is not that of the share. -/
theorem read_only_lost : ∃ st ops, Run Step ⟨[], []⟩ ops st ∧
    parse "global".toList (st.confs.map (·.2)) =
      some [⟨"global".toList, []⟩, ⟨"Archive".toList,
        [("path".toList, "/fs/tank/archive".toList),
          ("comment".toList, "old files    read only = yes".toList),
          ("browseable".toList, "yes".toList), ("guest ok".toList, "no".toList),
          ("force user".toList, "EXAMPLE\\jane doe".toList), ("create mask".toList, "0664".toList),
          ("directory mask".toList, "0775".toList),
          ("valid users".toList, "\"EXAMPLE\\jane doe\"".toList)]⟩] ∧
    ∀ R listed, listed.Perm (st.shares.filter (·.enabled)) →
      ¬ Right R listed (st.confs.map (·.2)) := by
  refine ⟨_, _, run_archive "old files\\".toList, by decide +kernel, fun R listed hperm h => ?_⟩
  obtain rfl : listed = [(archiveRequest "old files\\".toList).share "1".toList] :=
    perm_singleton.1 hperm
  have hinv := (run_archive "old files\\".toList).inv .empty fun _ _ _ h hstep => Inv.step h hstep
  have hok := ((right_iff fun s hs => hinv.accepted s hs).1 h).1 _ (mem_singleton_self _)
  exact (hok.comment _ rfl).2 (by decide)

end Nasty.Sharing.Smb
