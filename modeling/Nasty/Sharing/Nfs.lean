import Mathlib.Data.List.Infix
import Nasty.Lib.Checks
import Nasty.Lib.Ini
import Nasty.Lib.Lts

/-!
# NFS shares and the files that exportfs reads

Every enabled share has a file with one export: the path, and for each client its host and its
options. Paths and clients are checked when a share is created or changed, and once more when the
file is written. `exports_right_iff` says what the checks leave open.
-/

namespace Nasty.Sharing.Nfs

open Lts List Except Text Ini

abbrev Name := List Char

inductive NfsError
  | notFound (id : Name)
  | pathNotFound (path : Name)
  | pathNotInFilesystem (path : Name)
  | invalidClient (text : String)
  deriving DecidableEq

structure NfsClient where
  host : Name
  options : Name
  deriving DecidableEq

structure NfsShare where
  id : Name
  path : Name
  comment : Option Name
  clients : List NfsClient
  enabled : Bool
  deriving DecidableEq

/-! ## Checks -/

def validateNfsHost (host : Name) : Except NfsError Unit := do
  .refuse (host = []) (.invalidClient "host is empty")
  .refuse (host.any fun c => isWhitespace c || isControl c ||
      c ∈ ['(', ')', '"', '\'', ';', ',', '\\'])
    (.invalidClient ("host '" ++ .ofList host ++ "' contains invalid characters"))

def validateNfsOptions (options : Name) : Except NfsError Unit :=
  .refuse (options.any fun c => !(c.isAlphanum || c ∈ ['_', '-', '=', ',', '/', '.', ':', '@']))
    (.invalidClient ("options '" ++ .ofList options ++ "' contain invalid characters"))

def validateNfsClient (client : NfsClient) : Except NfsError Unit := do
  validateNfsHost client.host
  validateNfsOptions client.options

def validateExportPath (path : Name) : Except NfsError Unit :=
  .refuse (path.any fun c => isControl c || c ∈ ['\t', '\n', '\r', '"', '\'', '\\'])
    (.invalidClient
      ("path '" ++ .ofList path ++ "' contains invalid characters for an exports file"))

/-! ## The file of a share -/

def stableFsid (id : Name) : UInt32 :=
  (id.flatMap String.utf8EncodeChar).foldl (fun hash b => hash * 33 + b.toUInt32) 5381 %
    0x7FFFFFFE + 1

def fsidOption (id : Name) : Name := "fsid=".toList ++ Nat.toDigits 10 (stableFsid id).toNat

def withFsid (id options : Name) : Name :=
  if "fsid=".toList <:+: options then options else options ++ ",".toList ++ fsidOption id

def SaysSecure (options : Name) : Prop :=
  "insecure".toList <:+: options ∨ "secure".toList <:+: options

instance decidableSaysSecure (options : Name) : Decidable (SaysSecure options) :=
  inferInstanceAs (Decidable (_ ∨ _))

def withSecurity (options : Name) : Name :=
  if SaysSecure options then options else options ++ ",insecure".toList

def renderClient (id : Name) (c : NfsClient) : Name :=
  c.host ++ "(".toList ++ withSecurity (withFsid id c.options) ++ ")".toList

def renderExportFile (s : NfsShare) : Except NfsError Name := do
  validateExportPath s.path
  .checkAll validateNfsClient s.clients
  return "# NASty share ".toList ++ s.id ++ "\n".toList ++ s.path ++ "\t".toList ++
    Text.join [' '] (s.clients.map (renderClient s.id)) ++ "\n".toList

/-! ## The service -/

structure State where
  shares : List NfsShare
  /-- The files that are there, by the id of the share. -/
  exports : List (Name × Name)
  deriving DecidableEq

def saveShare (s : NfsShare) (st : State) : State :=
  { st with shares := s :: st.shares.filter (·.id ≠ s.id) }

def removeExportFile (id : Name) (st : State) : State :=
  { st with exports := st.exports.filter (·.1 ≠ id) }

/-- `canonicalize` tells where a path leads. A share whose path leads nowhere has no file. -/
def writeExportFile (canonicalize : Name → Option Name) (s : NfsShare) (st : State) :
    Except NfsError State := do
  if s.enabled = false ∨ canonicalize s.path = none then return removeExportFile s.id st
  let content ← renderExportFile s
  return { st with exports := (s.id, content) :: st.exports.filter (·.1 ≠ s.id) }

structure CreateNfsShareRequest where
  path : Name
  comment : Option Name
  clients : List NfsClient
  enabled : Option Bool

def inFilesystem (canonical : Name) : Bool :=
  canonical = "/fs".toList || "/fs/".toList.isPrefixOf canonical

/-- Whether exportfs then reads the files or fails changes neither shares nor files. -/
def create (canonicalize : Name → Option Name) (id : Name) (req : CreateNfsShareRequest)
    (st : State) : Except NfsError State := do
  validateExportPath req.path
  let canonical ← (canonicalize req.path).elim (.error (.pathNotFound req.path)) .ok
  .refuse (inFilesystem canonical = false) (.pathNotInFilesystem req.path)
  .checkAll validateNfsClient req.clients
  if ∃ s ∈ st.shares, s.path = req.path then return st
  let share : NfsShare := ⟨id, req.path, req.comment, req.clients, req.enabled.getD true⟩
  writeExportFile canonicalize share (saveShare share st)

structure UpdateNfsShareRequest where
  id : Name
  comment : Option Name
  clients : Option (List NfsClient)
  enabled : Option Bool

def UpdateNfsShareRequest.apply (req : UpdateNfsShareRequest) (s : NfsShare) : NfsShare :=
  { s with
    comment := req.comment.or s.comment
    clients := req.clients.getD s.clients
    enabled := req.enabled.getD s.enabled }

def update (canonicalize : Name → Option Name) (req : UpdateNfsShareRequest) (st : State) :
    Except NfsError State := do
  let share ← (st.shares.find? (·.id = req.id)).elim (.error (.notFound req.id)) .ok
  .checkAll validateNfsClient (req.clients.getD [])
  let share := req.apply share
  writeExportFile canonicalize share (saveShare share st)

def delete (id : Name) (st : State) : Except NfsError State := do
  .refuse (st.shares.find? (·.id = id) = none) (.notFound id)
  return removeExportFile id { st with shares := st.shares.filter (·.id ≠ id) }

inductive Op
  | create (canonicalize : Name → Option Name) (id : Name) (req : CreateNfsShareRequest)
  | update (canonicalize : Name → Option Name) (req : UpdateNfsShareRequest)
  | delete (id : Name)

def Op.apply : Op → State → Except NfsError State
  | .create canonicalize id req => Nfs.create canonicalize id req
  | .update canonicalize req => Nfs.update canonicalize req
  | .delete id => Nfs.delete id

def isUuidText (id : Name) : Bool := id.all (· ∈ "0123456789abcdef-".toList)

def Step (st : State) (op : Op) (st' : State) : Prop :=
  op.apply st = .ok st' ∧
    match op with
    | .create _ id _ => id ∉ st.shares.map (·.id) ∧ isUuidText id
    | _ => True

/-! ## What exportfs reads -/

structure Client where
  host : Name
  options : List Name
  deriving DecidableEq

structure Export where
  path : Name
  clients : List Client
  deriving DecidableEq

/-- The words of a line. White space that is not quoted ends a word, `#` ends the line. -/
def words : Option Name → Bool → Name → List Name
  | word, _, [] => word.toList
  | word, quoted, c :: cs =>
    if c = '"' then words (some (word.getD [])) (!quoted) cs
    else if !quoted && c = '#' then word.toList
    else if !quoted && Ini.isSpace c then word.toList ++ words none false cs
    else words (some (word.getD [] ++ [c])) quoted cs

def optionsOf (text : Name) : List Name := (Text.split ',' text).filter (· ≠ [])

def clientOf (token : Name) : Option Client :=
  match splitOnce '(' token with
  | none => some ⟨token, []⟩
  | some (host, rest) =>
    match splitOnce ')' rest with
    | some (options, []) => some ⟨host, optionsOf options⟩
    | _ => none

/-- A word that starts with `-` sets the options that the clients after it have. -/
def clientsOf : List Name → List Name → Option (List Client)
  | _, [] => some []
  | _, ('-' :: options) :: tokens => clientsOf (optionsOf options) tokens
  | defaults, token :: tokens => do
    let client ← clientOf token
    let clients ← clientsOf defaults tokens
    return ⟨client.host, defaults ++ client.options⟩ :: clients

/-- The clients of a line that names none, when two ids are the same, and where a path leads. -/
structure Reading where
  everyone : List Client
  plain : ∀ c ∈ everyone, '#' ∉ c.host ∧ c.host.head? ≠ some '-'
  fsidKey : Name → Name
  directory : Name → Name

def readLine (R : Reading) (line : Name) : Option (List Export) :=
  match words none false line with
  | [] => some []
  | path :: tokens =>
    (clientsOf [] tokens).map fun clients => [⟨path, if clients = [] then R.everyone else clients⟩]

def readExports (R : Reading) (text : Name) : Option (List Export) :=
  ((Text.lines text).mapM (readLine R)).map List.flatten

/-- The export that a share stands for: its clients with the options that are added. -/
def intended (s : NfsShare) : Export where
  path := s.path
  clients := s.clients.map fun c => ⟨c.host, optionsOf c.options ++
    (if "fsid=".toList <:+: c.options then [] else [fsidOption s.id]) ++
    (if SaysSecure (withFsid s.id c.options) then [] else ["insecure".toList])⟩

def fsidOf (option : Name) : Option Name :=
  if "fsid=".toList <+: option then some (option.drop 5) else none

def Export.fsids (e : Export) : List Name := e.clients.flatMap fun c => c.options.filterMap fsidOf

/-- The exports are of different directories and have different ids. -/
def Export.Apart (R : Reading) (e e' : Export) : Prop :=
  R.directory e.path ≠ R.directory e'.path ∧
    ∀ f ∈ e.fsids, ∀ g ∈ e'.fsids, R.fsidKey f ≠ R.fsidKey g

/-- Every file is read as the export of its share, and the exports of two files are apart. -/
structure Right (R : Reading) (st : State) : Prop where
  lines : ∀ id text, (id, text) ∈ st.exports →
    ∃ s ∈ st.shares, s.id = id ∧ s.enabled ∧ readExports R text = some [intended s]
  apart : ∀ a ∈ st.exports, ∀ b ∈ st.exports, a.1 ≠ b.1 →
    ∀ es ∈ readExports R a.2, ∀ es' ∈ readExports R b.2, ∀ e ∈ es, ∀ e' ∈ es', e.Apart R e'

/-! ## What the texts have to be like -/

structure ShareOk (R : Reading) (s : NfsShare) : Prop where
  path : s.path ≠ [] ∧ ' ' ∉ s.path ∧ '#' ∉ s.path
  hosts : ∀ c ∈ s.clients, '#' ∉ c.host ∧ c.host.head? ≠ some '-'
  clients : s.clients = [] → R.everyone = []

/-- The ids that the clients' options give, and the id of the share where they give none. -/
def givenFsids (s : NfsShare) : List Name :=
  s.clients.flatMap fun c =>
    if "fsid=".toList <:+: c.options then (optionsOf c.options).filterMap fsidOf
    else [Nat.toDigits 10 (stableFsid s.id).toNat]

/-! ## Accepted shares -/

structure Accepted (s : NfsShare) : Prop where
  id : isUuidText s.id
  path : validateExportPath s.path = .ok ()
  clients : ∀ c ∈ s.clients, validateNfsClient c = .ok ()

structure Inv (st : State) : Prop where
  accepted : ∀ s ∈ st.shares, Accepted s
  ids : (st.shares.map (·.id)).Nodup
  files : ∀ id text, (id, text) ∈ st.exports →
    ∃ s ∈ st.shares, s.id = id ∧ s.enabled ∧ renderExportFile s = .ok text

section Accepted

variable {canonicalize : Name → Option Name} {s : NfsShare} {st st' : State}

section

variable (h : Inv st)
include h

variable {id : Name}

theorem Inv.kept_files {shares : List NfsShare} (hkept : ∀ s ∈ st.shares, s.id ≠ id → s ∈ shares) :
    ∀ i text, (i, text) ∈ st.exports.filter (·.1 ≠ id) →
      ∃ s ∈ shares, s.id = i ∧ s.enabled ∧ renderExportFile s = .ok text := by
  intro i text hmem
  obtain ⟨hmem, hne⟩ := mem_filter.1 hmem
  obtain ⟨s, hs, rfl, hon, hrender⟩ := h.files i text hmem
  exact ⟨s, hkept s hs (of_decide_eq_true hne), rfl, hon, hrender⟩

theorem Inv.write (hs : Accepted s)
    (hwrite : writeExportFile canonicalize s (saveShare s st) = .ok st') : Inv st' := by
  have haccepted : ∀ t ∈ s :: st.shares.filter (·.id ≠ s.id), Accepted t := by
    rw [forall_mem_cons]
    exact ⟨hs, fun t ht => h.accepted t (mem_of_mem_filter ht)⟩
  have hids : ((s :: st.shares.filter (·.id ≠ s.id)).map (·.id)).Nodup :=
    nodup_map_cons_filter h.ids s
  have hfiles := h.kept_files fun t ht (hne : t.id ≠ s.id) =>
    (mem_cons_of_mem s (mem_filter.2 ⟨ht, decide_eq_true hne⟩) :
      t ∈ s :: st.shares.filter (·.id ≠ s.id))
  unfold writeExportFile at hwrite
  split_ifs at hwrite with hoff
  · cases hwrite
    exact ⟨haccepted, hids, hfiles⟩
  obtain ⟨content, hrender, hwrite⟩ := bind_eq_ok.1 hwrite
  cases hwrite
  refine ⟨haccepted, hids, fun id text hmem => ?_⟩
  rcases mem_cons.1 hmem with heq | hmem
  · cases heq
    have hon : s.enabled = true := by
      rw [not_or, Bool.not_eq_false] at hoff
      exact hoff.1
    exact ⟨s, mem_cons_self, rfl, hon, hrender⟩
  · exact hfiles id text hmem

theorem Inv.create {req : CreateNfsShareRequest} (hid : isUuidText id)
    (hcreate : create canonicalize id req st = .ok st') : Inv st' := by
  obtain ⟨⟨⟩, hpath, hcreate⟩ := bind_eq_ok.1 hcreate
  obtain ⟨_, hcreate⟩ := rest_ok hcreate
  obtain ⟨⟨⟩, hcreate⟩ := rest_ok hcreate
  obtain ⟨⟨⟩, hclients, hcreate⟩ := bind_eq_ok.1 hcreate
  split_ifs at hcreate
  · cases hcreate
    exact h
  · exact h.write ⟨hid, hpath, checkAll_eq_ok.1 hclients⟩ hcreate

theorem Inv.update {req : UpdateNfsShareRequest}
    (hupdate : update canonicalize req st = .ok st') : Inv st' := by
  obtain ⟨s, hs, hupdate⟩ := bind_eq_ok.1 hupdate
  obtain ⟨⟨⟩, hclients, hupdate⟩ := bind_eq_ok.1 hupdate
  have hold : Accepted s := h.accepted s (mem_of_find?_eq_some (elim_eq_ok.1 hs))
  refine h.write (s := req.apply s) ⟨hold.id, hold.path, ?_⟩ hupdate
  show ∀ c ∈ req.clients.getD s.clients, _
  cases hreq : req.clients with
  | none => exact hold.clients
  | some clients =>
    rw [hreq] at hclients
    exact checkAll_eq_ok.1 hclients

theorem Inv.delete (hdelete : delete id st = .ok st') : Inv st' := by
  obtain ⟨⟨⟩, hdelete⟩ := rest_ok hdelete
  cases hdelete
  exact ⟨fun s hs => h.accepted s (mem_of_mem_filter hs),
    h.ids.sublist (filter_sublist.map _),
    h.kept_files fun s hs hne => mem_filter.2 ⟨hs, decide_eq_true hne⟩⟩

theorem Inv.step {op : Op} (hstep : Step st op st') : Inv st' := by
  cases op with
  | create canonicalize id req => exact h.create hstep.2.2 hstep.1
  | update canonicalize req => exact h.update hstep.1
  | delete id => exact h.delete hstep.1

end

theorem Inv.empty : Inv ⟨[], []⟩ := ⟨nofun, .nil, nofun⟩

end Accepted

/-! ## Words -/

/-- The characters of a word that needs no quotes. -/
def Bare (c : Char) : Prop := c ≠ '"' ∧ c ≠ '#' ∧ isSpace c = false

structure Plain (w : Name) : Prop where
  ne_nil : w ≠ []
  bare : ∀ c ∈ w, Bare c

section Words

variable {w cs : Name}

theorem words_bare {c : Char} (h : Bare c) (word : Option Name) :
    words word false (c :: cs) = words (some (word.getD [] ++ [c])) false cs := by
  obtain ⟨hquote, hcomment, hspace⟩ := h
  rw [words, if_neg hquote]
  simp [hcomment, hspace]

theorem words_append (h : ∀ c ∈ w, Bare c) (acc : Name) :
    words (some acc) false (w ++ cs) = words (some (acc ++ w)) false cs := by
  induction w generalizing acc with
  | nil => simp
  | cons c w ih =>
  rw [forall_mem_cons] at h
  rw [cons_append, words_bare h.1, ih h.2, Option.getD_some, append_assoc, singleton_append]

theorem Plain.words_append (h : Plain w) (cs : Name) :
    words none false (w ++ cs) = words (some w) false cs := by
  obtain ⟨hne, hbare⟩ := h
  obtain ⟨c, w, rfl⟩ := exists_cons_of_ne_nil hne
  rw [forall_mem_cons] at hbare
  rw [cons_append, words_bare hbare.1, Nfs.words_append hbare.2]
  rfl

theorem words_space {sep : Char} (h : Ini.isSpace sep = true) (word : Option Name) :
    words word false (sep :: cs) = word.toList ++ words none false cs := by
  have hquote : sep ≠ '"' := by
    rintro rfl
    exact absurd h (by decide)
  have hcomment : sep ≠ '#' := by
    rintro rfl
    exact absurd h (by decide)
  rw [words, if_neg hquote]
  simp [hcomment, h]

theorem words_join {ws : List Name} (h : ∀ w ∈ ws, Plain w) :
    words none false (Text.join [' '] ws) = ws := by
  induction ws with
  | nil => rfl
  | cons w ws ih =>
  rw [forall_mem_cons] at h
  cases ws with
  | nil =>
    have hone := h.1.words_append []
    simpa [Text.join, words] using hone
  | cons v ws =>
  have hrest := ih h.2
  rw [Text.join] at hrest
  rw [Text.join, intercalate_cons_cons, append_assoc, h.1.words_append,
    singleton_append, words_space (by decide), hrest]
  rfl

theorem plain_of_mem_words {word : Option Name} (hword : ∀ w ∈ word, Plain w) (hquote : '"' ∉ cs)
    {v : Name} (hv : v ∈ words word false cs) : Plain v := by
  induction cs generalizing word with
  | nil =>
    exact hword v (Option.mem_toList.1 hv)
  | cons c cs ih =>
  rw [mem_cons, not_or] at hquote
  rw [words, if_neg (Ne.symm hquote.1)] at hv
  simp only [Bool.not_false, Bool.true_and, decide_eq_true_eq] at hv
  split_ifs at hv with hcomment hspace
  · exact hword v (Option.mem_toList.1 hv)
  · rcases mem_append.1 hv with hv | hv
    · exact hword v (Option.mem_toList.1 hv)
    · exact ih (by simp) hquote.2 hv
  refine ih ?_ hquote.2 hv
  rintro _ ⟨⟩
  have hc : ∀ d ∈ [c], Bare d :=
    forall_mem_singleton.2 ⟨Ne.symm hquote.1, hcomment, by simpa using hspace⟩
  cases word with
  | none => exact ⟨by simp, hc⟩
  | some w => exact ⟨by simp, forall_mem_append.2 ⟨(hword w rfl).bare, hc⟩⟩

end Words

/-! ## Clients -/

section

variable {tokens : List Name} {defaults : List Name} {clients : List Client}

theorem clientOf_eq_some {token : Name} {c : Client} (h : clientOf token = some c) :
    ∃ rest, token = c.host ++ rest := by
  unfold clientOf at h
  split at h
  · cases h
    exact ⟨[], (append_nil _).symm⟩
  · rename_i host rest hsplit
    split at h <;> cases h
    · exact ⟨_, (splitOnce_eq_some.1 hsplit).1⟩

theorem hosts_of_clientsOf (h : clientsOf defaults tokens = some clients)
    (hplain : ∀ t ∈ tokens, Plain t) : ∀ c ∈ clients, '#' ∉ c.host ∧ c.host.head? ≠ some '-' := by
  induction tokens generalizing defaults clients with
  | nil =>
    cases h
    nofun
  | cons token tokens ih =>
  rw [forall_mem_cons] at hplain
  by_cases hdash : token.head? = some '-'
  · obtain ⟨options, rfl⟩ := head?_eq_some_iff.1 hdash
    exact ih h hplain.2
  rw [clientsOf] at h
  · obtain ⟨c, hc, h⟩ := Option.bind_eq_some_iff.1 h
    obtain ⟨cs, hcs, h⟩ := Option.bind_eq_some_iff.1 h
    cases h
    rw [forall_mem_cons]
    refine ⟨?_, ih hcs hplain.2⟩
    obtain ⟨rest, rfl⟩ := clientOf_eq_some hc
    refine ⟨fun hmem => (hplain.1.bare _ (mem_append_left _ hmem)).2.1 rfl, fun hhead => ?_⟩
    obtain ⟨tail, htail⟩ := head?_eq_some_iff.1 hhead
    exact hdash (by rw [htail]; rfl)
  · rintro options rfl
    exact hdash rfl

end

/-! ## The line of a share -/

def isOptionChar (c : Char) : Bool :=
  c.isAlphanum || c ∈ ['_', '-', '=', ',', '/', '.', ':', '@']

section Line

variable {s : NfsShare} {host options id : Name} {c : Char}

theorem isSpace_of_isWhitespace (h : isWhitespace c = false) : isSpace c = false := by
  rw [Bool.eq_false_iff] at h ⊢
  intro hspace
  refine h ?_
  simp only [isSpace, Bool.or_eq_true, decide_eq_true_eq] at hspace
  rcases hspace with rfl | hspace
  · decide
  · simp [isWhitespace, hspace]

theorem isSpace_of_isControl (hne : c ≠ ' ') (h : isControl c = false) : isSpace c = false := by
  simp only [isControl, Bool.or_eq_false_iff, decide_eq_false_iff_not] at h
  simp only [isSpace, hne, decide_false, Bool.false_or, Bool.and_eq_false_iff,
    decide_eq_false_iff_not]
  omega

/-- The characters that end neither a word nor a host or its options. -/
abbrev Quiet (c : Char) : Prop := c ≠ '"' ∧ isSpace c = false ∧ c ≠ '(' ∧ c ≠ ')'

theorem quiet_of_isOptionChar (h : isOptionChar c) : Quiet c ∧ c ≠ '#' := by
  refine of_alphanum_or h (fun halnum => ?_) (by decide)
  have hne {d : Char} : d.isAlphanum = false → c ≠ d := ne_of_isAlphanum halnum
  exact ⟨⟨hne (by decide), isSpace_of_isAlphanum halnum, hne (by decide), hne (by decide)⟩,
    hne (by decide)⟩

theorem quiet_host (h : validateNfsHost host = .ok ()) : host ≠ [] ∧ ∀ c ∈ host, Quiet c := by
  obtain ⟨⟨⟩, hne, hchars⟩ := bind_eq_ok.1 h
  rw [refuse_eq_ok] at hne hchars
  rw [Bool.not_eq_true, any_eq_false] at hchars
  refine ⟨hne, fun c hc => ?_⟩
  have hc := hchars c hc
  rw [Bool.not_eq_true, Bool.or_eq_false_iff, Bool.or_eq_false_iff, decide_eq_false_iff_not] at hc
  obtain ⟨⟨hspace, -⟩, hmem⟩ := hc
  simp only [mem_cons, not_or] at hmem
  exact ⟨hmem.2.2.1, isSpace_of_isWhitespace hspace, hmem.1, hmem.2.1⟩

theorem isOptionChar_of_valid (h : validateNfsOptions options = .ok ()) :
    ∀ c ∈ options, isOptionChar c := by
  rw [validateNfsOptions, refuse_eq_ok, Bool.not_eq_true, any_eq_false] at h
  intro c hc
  have hc := h c hc
  rwa [Bool.not_eq_true, Bool.not_eq_false'] at hc

theorem isOptionChar_fsidOption : ∀ c ∈ fsidOption id, isOptionChar c := by
  have hkey : ("fsid=".toList.all isOptionChar) = true := by decide
  intro c hc
  rcases mem_append.1 hc with hc | hc
  · exact all_eq_true.1 hkey c hc
  · have hdigit := Nat.isDigit_of_mem_toDigits (by omega) (by omega) hc
    simp [isOptionChar, Char.isAlphanum, hdigit]

theorem isOptionChar_rendered (h : ∀ c ∈ options, isOptionChar c) :
    ∀ c ∈ withSecurity (withFsid id options), isOptionChar c := by
  have hfsid : ∀ c ∈ withFsid id options, isOptionChar c := by
    unfold withFsid
    split_ifs
    · exact h
    exact forall_mem_append.2 ⟨forall_mem_append.2 ⟨h, forall_mem_singleton.2 (by decide)⟩,
      isOptionChar_fsidOption⟩
  unfold withSecurity
  split_ifs
  · exact hfsid
  have hadded : (",insecure".toList.all isOptionChar) = true := by decide
  intro c hc
  rcases mem_append.1 hc with hc | hc
  · exact hfsid c hc
  · exact all_eq_true.1 hadded c hc

variable {client : NfsClient}

theorem mem_renderClient (h : validateNfsClient client = .ok ()) (hc : c ∈ renderClient id client) :
    c ≠ '"' ∧ Ini.isSpace c = false ∧ (c = '#' → '#' ∈ client.host) := by
  obtain ⟨⟨⟩, hhost, hoptions⟩ := bind_eq_ok.1 h
  simp only [renderClient, mem_append] at hc
  rcases hc with ((hc | hc) | hc) | hc
  · have hquiet := (quiet_host hhost).2 c hc
    exact ⟨hquiet.1, hquiet.2.1, fun heq => heq ▸ hc⟩
  · obtain rfl : c = '(' := mem_singleton.1 hc
    exact ⟨by decide, by decide, fun heq => absurd heq (by decide)⟩
  · have hquiet := quiet_of_isOptionChar
      (isOptionChar_rendered (isOptionChar_of_valid hoptions) c hc)
    exact ⟨hquiet.1.1, hquiet.1.2.1, fun heq => absurd heq hquiet.2⟩
  · obtain rfl : c = ')' := mem_singleton.1 hc
    exact ⟨by decide, by decide, fun heq => absurd heq (by decide)⟩

theorem optionsOf_append (a b : Name) : optionsOf (a ++ ',' :: b) = optionsOf a ++ optionsOf b := by
  unfold optionsOf Text.split
  rw [Text.splitBy_append (by simp), filter_append]

theorem optionsOf_single (hne : options ≠ []) (h : ',' ∉ options) :
    optionsOf options = [options] := by
  unfold optionsOf Text.split
  rw [splitBy_of_forall fun c hc => by simpa using fun heq : c = ',' => h (heq ▸ hc)]
  simp [hne]

theorem optionsOf_rendered (id options : Name) :
    optionsOf (withSecurity (withFsid id options)) = optionsOf options ++
      (if "fsid=".toList <:+: options then [] else [fsidOption id]) ++
      (if SaysSecure (withFsid id options) then [] else ["insecure".toList]) := by
  have hfsid : optionsOf (fsidOption id) = [fsidOption id] := by
    refine optionsOf_single (by simp [fsidOption]) fun hmem => ?_
    rcases mem_append.1 hmem with hmem | hmem
    · exact absurd hmem (by decide)
    · exact not_mem_toDigits_ten (by decide) _ hmem
  have hadded : optionsOf (withFsid id options) = optionsOf options ++
      (if "fsid=".toList <:+: options then [] else [fsidOption id]) := by
    unfold withFsid
    split_ifs
    · rw [append_nil]
    · have hcomma : options ++ ",".toList ++ fsidOption id = options ++ ',' :: fsidOption id := by
        simp
      rw [hcomma, optionsOf_append, hfsid]
  rw [← hadded]
  by_cases hsecure : SaysSecure (withFsid id options)
  · rw [withSecurity, if_pos hsecure, if_pos hsecure, append_nil]
  have hcomma : ",insecure".toList = ',' :: "insecure".toList := by decide
  have hsingle : optionsOf "insecure".toList = ["insecure".toList] :=
    optionsOf_single (by decide) (by decide)
  rw [withSecurity, if_neg hsecure, if_neg hsecure, hcomma, optionsOf_append, hsingle]

theorem clientOf_renderClient (h : validateNfsClient client = .ok ()) :
    clientOf (renderClient id client) =
      some ⟨client.host, optionsOf (withSecurity (withFsid id client.options))⟩ := by
  obtain ⟨⟨⟩, hhost, hoptions⟩ := bind_eq_ok.1 h
  have hopen : '(' ∉ client.host := fun hmem => ((quiet_host hhost).2 _ hmem).2.2.1 rfl
  have hclose : ')' ∉ withSecurity (withFsid id client.options) := fun hmem =>
    (quiet_of_isOptionChar (isOptionChar_rendered (isOptionChar_of_valid hoptions) _
      hmem)).1.2.2.2 rfl
  have htoken : renderClient id client = client.host ++
      '(' :: (withSecurity (withFsid id client.options) ++ ')' :: []) := by
    simp [renderClient]
  rw [htoken, clientOf, splitOnce_append hopen]
  simp only [splitOnce_append hclose]

theorem plain_renderClient (h : validateNfsClient client = .ok ())
    (hhost : '#' ∉ client.host) : Plain (renderClient id client) := by
  refine ⟨by simp [renderClient], fun c hmem => ?_⟩
  obtain ⟨hquote, hspace, hcomment⟩ := mem_renderClient h hmem
  exact ⟨hquote, fun heq => hhost (hcomment heq), hspace⟩

theorem clientsOf_rendered {clients : List NfsClient}
    (h : ∀ client ∈ clients, validateNfsClient client = .ok ())
    (hdash : ∀ client ∈ clients, client.host.head? ≠ some '-') :
    clientsOf [] (clients.map (renderClient id)) = some (clients.map fun client =>
      ⟨client.host, optionsOf (withSecurity (withFsid id client.options))⟩) := by
  induction clients with
  | nil => rfl
  | cons client clients ih =>
  rw [forall_mem_cons] at h hdash
  rw [map_cons, clientsOf, clientOf_renderClient h.1, ih h.2 hdash.2]
  · rfl
  intro options heq
  obtain ⟨⟨⟩, hhost, -⟩ := bind_eq_ok.1 h.1
  obtain ⟨d, rest, hrest⟩ := exists_cons_of_ne_nil (quiet_host hhost).1
  refine hdash.1 ?_
  rw [renderClient, hrest] at heq
  rw [hrest]
  exact congrArg List.head? heq

/-! ## When a file is read as its share -/

def exportLine (s : NfsShare) : Name :=
  s.path ++ "\t".toList ++ Text.join [' '] (s.clients.map (renderClient s.id))

theorem quiet_path (hs : Accepted s) : ∀ c ∈ s.path, c ≠ '"' ∧ (c ≠ ' ' → isSpace c = false) := by
  have hpath := hs.path
  rw [validateExportPath, refuse_eq_ok, Bool.not_eq_true, any_eq_false] at hpath
  intro c hc
  have hc := hpath c hc
  rw [Bool.not_eq_true, Bool.or_eq_false_iff, decide_eq_false_iff_not] at hc
  refine ⟨fun heq => hc.2 ?_, fun hne => isSpace_of_isControl hne hc.1⟩
  rw [heq]
  decide

theorem mem_exportLine (hs : Accepted s) (hc : c ∈ exportLine s) :
    c ≠ '"' ∧ (Ini.isSpace c = false ∨ c = ' ' ∨ c = '\t') := by
  simp only [exportLine, mem_append] at hc
  rcases hc with (hc | hc) | hc
  · refine ⟨(quiet_path hs c hc).1, ?_⟩
    by_cases hspace : c = ' '
    · exact .inr (.inl hspace)
    · exact .inl ((quiet_path hs c hc).2 hspace)
  · obtain rfl : c = '\t' := mem_singleton.1 hc
    exact ⟨by decide, .inr (.inr rfl)⟩
  rcases mem_join hc with rfl | ⟨_, hpiece, hc⟩
  · exact ⟨by decide, .inr (.inl rfl)⟩
  · obtain ⟨client, hclient, rfl⟩ := mem_map.1 hpiece
    obtain ⟨hquote, hspace, -⟩ := mem_renderClient (hs.clients client hclient) hc
    exact ⟨hquote, .inl hspace⟩

theorem lines_render (hs : Accepted s) {text : Name} (h : renderExportFile s = .ok text) :
    Text.lines text = ["# NASty share ".toList ++ s.id, exportLine s] := by
  obtain ⟨⟨⟩, h⟩ := rest_ok h
  obtain ⟨⟨⟩, h⟩ := rest_ok h
  have htext : text = ["# NASty share ".toList ++ s.id, exportLine s].flatMap (· ++ ['\n']) := by
    rw [← Except.ok.inj h]
    simp [exportLine]
  have huuid : ∀ c ∈ s.id, c ≠ '\n' ∧ c ≠ '\r' := by
    intro c hc
    have hc := of_decide_eq_true (all_eq_true.1 hs.id c hc)
    constructor <;> rintro rfl <;> exact absurd hc (by decide)
  rw [htext]
  refine lines_flatMap ?_
  rw [forall_mem_cons, forall_mem_singleton]
  refine ⟨forall_mem_append.2 ⟨all_iff_forall_prop.1 rfl, huuid⟩, fun c hc => ?_⟩
  have hc := (mem_exportLine hs hc).2
  constructor <;> rintro rfl <;> exact absurd hc (by decide)

theorem readExports_render (hs : Accepted s) {text : Name} (h : renderExportFile s = .ok text)
    (R : Reading) : readExports R text = readLine R (exportLine s) := by
  have hcomment : readLine R ("# NASty share ".toList ++ s.id) = some [] := by
    simp [readLine, words]
  rw [readExports, lines_render hs h, mapM_cons, hcomment, mapM_cons]
  cases readLine R (exportLine s) <;> simp

/-- **The line of a share.** It is read as the export of the share exactly if its texts are as they
have to be. -/
theorem readLine_iff {R : Reading} (hs : Accepted s) :
    readLine R (exportLine s) = some [intended s] ↔ ShareOk R s := by
  have hintended : (intended s).clients = s.clients.map fun client =>
      ⟨client.host, optionsOf (withSecurity (withFsid s.id client.options))⟩ :=
    map_congr_left fun client _ => by rw [optionsOf_rendered]
  constructor
  · intro h
    have hquote : '"' ∉ exportLine s := fun hmem => (mem_exportLine hs hmem).1 rfl
    have hplain : ∀ w ∈ words none false (exportLine s), Plain w := fun w hw =>
      plain_of_mem_words (by simp) hquote hw
    unfold readLine at h
    split at h
    · cases h
    rename_i path tokens hwords
    rw [hwords, forall_mem_cons] at hplain
    obtain ⟨clients, hclients, heq⟩ := Option.map_eq_some_iff.1 h
    obtain ⟨hpath, hread⟩ := Export.mk.inj (List.cons.inj heq).1
    have hread : (if clients = [] then R.everyone else clients) = (intended s).clients := hread
    have hhosts : ∀ c ∈ (intended s).clients, '#' ∉ c.host ∧ c.host.head? ≠ some '-' := by
      rw [← hread]
      split_ifs
      · exact R.plain
      · exact hosts_of_clientsOf hclients hplain.2
    rw [hpath] at hplain
    refine ⟨⟨hplain.1.ne_nil, fun hmem => ?_, fun hmem => (hplain.1.bare _ hmem).2.1 rfl⟩,
      fun client hclient => ?_, fun hnone => ?_⟩
    · exact absurd (hplain.1.bare _ hmem).2.2 (by decide)
    · exact hhosts _ (mem_map_of_mem hclient)
    have hline : exportLine s = s.path ++ ['\t'] := by
      simp [exportLine, hnone, Text.join]
    rw [hline, hplain.1.words_append] at hwords
    obtain rfl : tokens = [] := (List.cons.inj hwords).2.symm
    obtain rfl : clients = [] := (Option.some.inj hclients).symm
    rw [intended, hnone] at hread
    exact hread
  · rintro ⟨⟨hne, hspace, hcomment⟩, hhosts, hnone⟩
    have hpath : Plain s.path := ⟨hne, fun c hc => ⟨(quiet_path hs c hc).1,
      fun heq => hcomment (heq ▸ hc), (quiet_path hs c hc).2 fun heq => hspace (heq ▸ hc)⟩⟩
    have htokens : ∀ w ∈ s.clients.map (renderClient s.id), Plain w := by
      intro w hw
      obtain ⟨client, hclient, rfl⟩ := mem_map.1 hw
      exact plain_renderClient (hs.clients client hclient) (hhosts client hclient).1
    have hwords : words none false (exportLine s) =
        s.path :: s.clients.map (renderClient s.id) := by
      have htab : exportLine s =
          s.path ++ '\t' :: Text.join [' '] (s.clients.map (renderClient s.id)) := by
        simp [exportLine]
      rw [htab, hpath.words_append, words_space (by decide), words_join htokens]
      rfl
    rw [readLine, hwords]
    simp only [clientsOf_rendered hs.clients fun client hclient => (hhosts client hclient).2,
      Option.map_some, ← hintended]
    have hclients : (if (intended s).clients = [] then R.everyone else (intended s).clients) =
        (intended s).clients := by
      split_ifs with hempty
      · have hno : s.clients = [] := map_eq_nil_iff.1 hempty
        rw [hnone hno, hempty]
      · rfl
    rw [hclients]
    rfl

end Line

/-! ## File system ids -/

theorem fsidOf_fsidOption (id : Name) :
    fsidOf (fsidOption id) = some (Nat.toDigits 10 (stableFsid id).toNat) := by
  unfold fsidOf fsidOption
  generalize Nat.toDigits 10 (stableFsid id).toNat = digits
  rfl

theorem fsids_intended (s : NfsShare) : (intended s).fsids = givenFsids s := by
  unfold Export.fsids intended givenFsids
  rw [flatMap_map]
  refine flatMap_congr fun c _ => ?_
  have hsecure : fsidOf "insecure".toList = none := by decide
  have hlast : (if SaysSecure (withFsid s.id c.options) then [] else
      ["insecure".toList]).filterMap fsidOf = [] := by
    split_ifs
    · rfl
    · rw [filterMap_cons_none hsecure, filterMap_nil]
  rw [filterMap_append, filterMap_append, hlast, append_nil]
  by_cases hown : "fsid=".toList <:+: c.options
  · rw [if_pos hown, if_pos hown, filterMap_nil, append_nil]
  have hnone : (optionsOf c.options).filterMap fsidOf = [] := by
    refine filterMap_eq_nil_iff.2 fun o ho => if_neg fun hpre => hown ?_
    exact hpre.isInfix.trans (infix_of_mem_splitBy (mem_of_mem_filter ho))
  rw [if_neg hown, if_neg hown, hnone, nil_append,
    filterMap_cons_some (fsidOf_fsidOption s.id), filterMap_nil]

theorem apart_intended {R : Reading} {s t : NfsShare} : (intended s).Apart R (intended t) ↔
    R.directory s.path ≠ R.directory t.path ∧
      ∀ f ∈ givenFsids s, ∀ g ∈ givenFsids t, R.fsidKey f ≠ R.fsidKey g := by
  rw [Export.Apart, fsids_intended, fsids_intended]
  rfl

/-! ## The theorem -/

theorem Inv.reads {st : State} (h : Inv st) (R : Reading) {file : Name × Name}
    (hmem : file ∈ st.exports) : ∃ s ∈ st.shares, s.id = file.1 ∧ s.enabled ∧
      (readExports R file.2 = some [intended s] ↔ ShareOk R s) := by
  obtain ⟨s, hs, hid, hon, hrender⟩ := h.files file.1 file.2 hmem
  refine ⟨s, hs, hid, hon, ?_⟩
  rw [readExports_render (h.accepted s hs) hrender]
  exact readLine_iff (h.accepted s hs)

/-- **What exportfs reads.** The files are read as the exports of their shares exactly if texts,
directories and ids are as they have to be. -/
theorem exports_right_iff {st : State} {ops : List Op} (hrun : Run Step ⟨[], []⟩ ops st)
    (R : Reading) : Right R st ↔
      (∀ s ∈ st.shares, s.id ∈ st.exports.map (·.1) → ShareOk R s) ∧
      (∀ s ∈ st.shares, ∀ t ∈ st.shares, s.id ∈ st.exports.map (·.1) →
        t.id ∈ st.exports.map (·.1) → s ≠ t →
        R.directory s.path ≠ R.directory t.path ∧
        ∀ f ∈ givenFsids s, ∀ g ∈ givenFsids t, R.fsidKey f ≠ R.fsidKey g) := by
  have hinv : Inv st := hrun.inv .empty fun _ _ _ h hstep => h.step hstep
  have hsame : ∀ s ∈ st.shares, ∀ t ∈ st.shares, s.id = t.id → s = t := fun s hs t ht hid =>
    inj_on_of_nodup_map hinv.ids hs ht hid
  constructor
  · rintro ⟨hlines, hapart⟩
    have hread : ∀ s ∈ st.shares, s.id ∈ st.exports.map (·.1) →
        ∃ file ∈ st.exports, file.1 = s.id ∧ readExports R file.2 = some [intended s] := by
      intro s hs hfile
      obtain ⟨file, hmem, hid⟩ := mem_map.1 hfile
      obtain ⟨t, ht, htid, -, hread⟩ := hlines file.1 file.2 hmem
      obtain rfl : t = s := hsame t ht s hs (htid.trans hid)
      exact ⟨file, hmem, hid, hread⟩
    refine ⟨fun s hs hfile => ?_, fun s hs t ht hsfile htfile hne => ?_⟩
    · obtain ⟨file, hmem, hid, hread⟩ := hread s hs hfile
      obtain ⟨t, ht, htid, -, hiff⟩ := hinv.reads R hmem
      obtain rfl : t = s := hsame t ht s hs (htid.trans hid)
      exact hiff.1 hread
    · obtain ⟨a, ha, hsid, hsread⟩ := hread s hs hsfile
      obtain ⟨b, hb, htid, htread⟩ := hread t ht htfile
      refine apart_intended.1 (hapart a ha b hb (fun heq => hne (hsame s hs t ht ?_)) _ hsread _
        htread _ (mem_singleton_self _) _ (mem_singleton_self _))
      rw [← hsid, ← htid, heq]
  · rintro ⟨hok, hapart⟩
    have hread : ∀ file ∈ st.exports, ∃ s ∈ st.shares, s.id = file.1 ∧ s.enabled ∧
        readExports R file.2 = some [intended s] := by
      intro file hmem
      obtain ⟨s, hs, hid, hon, hiff⟩ := hinv.reads R hmem
      exact ⟨s, hs, hid, hon, hiff.2 (hok s hs (hid ▸ mem_map_of_mem hmem))⟩
    refine ⟨fun id text => hread (id, text), fun a ha b hb hne es hes es' hes' e he e' he' => ?_⟩
    obtain ⟨s, hs, hsid, -, hsread⟩ := hread a ha
    obtain ⟨t, ht, htid, -, htread⟩ := hread b hb
    cases hsread.symm.trans hes
    cases htread.symm.trans hes'
    rw [mem_singleton.1 he, mem_singleton.1 he']
    refine apart_intended.2 (hapart s hs t ht (hsid ▸ mem_map_of_mem ha)
      (htid ▸ mem_map_of_mem hb) fun heq => hne ?_)
    rw [← hsid, ← htid, heq]

def plainReading : Reading where
  everyone := [⟨"*".toList, []⟩]
  plain := by decide
  fsidKey := id
  directory := id

def hostRequest (path : Name) : CreateNfsShareRequest :=
  ⟨path, none, [⟨"10.0.0.5".toList, "ro".toList⟩], none⟩

def hostShare (id path : Name) : NfsShare :=
  ⟨id, path, none, [⟨"10.0.0.5".toList, "ro".toList⟩], true⟩

def hostFile (id path fsid : Name) : Name × Name :=
  (id, "# NASty share ".toList ++ id ++ "\n".toList ++ path ++ "\t10.0.0.5(ro,fsid=".toList ++
    fsid ++ ",insecure)\n".toList)

def hostId : Name := "5c88b35d-8e94-447a-b53f-5908565ce34d".toList

def hostState (path : Name) : State :=
  ⟨[hostShare hostId path], [hostFile hostId path "228298965".toList]⟩

theorem run_hostState {path : Name}
    (h : path = "/fs/tank/data".toList ∨ path = "/fs/tank/my data".toList) :
    Run Step ⟨[], []⟩ [.create some hostId (hostRequest path)] (hostState path) := by
  refine .snoc .nil ⟨?_, not_mem_nil, by decide⟩
  obtain rfl | rfl := h <;> decide +kernel

theorem exports_right_iff_two : ∃ st ops, Run Step ⟨[], []⟩ ops st ∧ st.exports.length = 2 ∧
    Right plainReading st := by
  have hsecond : Step (hostState "/fs/tank/data".toList)
      (.create some "1".toList (hostRequest "/fs/tank/media".toList))
      ⟨[hostShare "1".toList "/fs/tank/media".toList, hostShare hostId "/fs/tank/data".toList],
        [hostFile "1".toList "/fs/tank/media".toList "177623".toList,
          hostFile hostId "/fs/tank/data".toList "228298965".toList]⟩ :=
    ⟨by decide +kernel, by decide, by decide⟩
  have hrun := (run_hostState (.inl rfl)).snoc hsecond
  refine ⟨_, _, hrun, rfl, (exports_right_iff hrun plainReading).2 ⟨?_, ?_⟩⟩
  · intro s hs _
    obtain rfl | rfl := mem_pair.1 hs <;> exact ⟨by decide, by decide, nofun⟩
  · intro s hs t ht _ _ hne
    obtain rfl | rfl := mem_pair.1 hs <;> obtain rfl | rfl := mem_pair.1 ht
    · exact absurd rfl hne
    · decide +kernel
    · decide +kernel
    · exact absurd rfl hne

/-- A path with a blank: another directory is exported, also to a host that the share does not name.
And two UUIDs with one file system id. -/
theorem path_with_blank_exported : (∃ st ops, Run Step ⟨[], []⟩ ops st ∧
      (st.exports.map fun e => readExports plainReading e.2) = [some [⟨"/fs/tank/my".toList,
        [⟨"data".toList, []⟩, ⟨"10.0.0.5".toList,
          ["ro".toList, "fsid=228298965".toList, "insecure".toList]⟩]⟩]] ∧
      ∀ R, ¬ Right R st) ∧ stableFsid "5c88b35d-8e94-447a-b53f-5908565ce34d".toList =
      stableFsid "4bbcfd79-6d73-400c-b58c-7c14c54d8d84".toList := by
  refine ⟨?_, by decide +kernel⟩
  have hrun := run_hostState (.inr rfl)
  refine ⟨_, _, hrun, by decide +kernel, fun R h => ?_⟩
  have hinv : Inv _ := hrun.inv .empty fun _ _ _ h hstep => h.step hstep
  obtain ⟨s, hs, -, -, hread⟩ := h.lines _ _ (mem_singleton_self _)
  obtain ⟨t, ht, -, -, hrender⟩ := hinv.files _ _ (mem_singleton_self _)
  obtain rfl : t = s := (mem_singleton.1 ht).trans (mem_singleton.1 hs).symm
  rw [readExports_render (hinv.accepted t hs) hrender] at hread
  have hpath := ((readLine_iff (hinv.accepted t hs)).1 hread).path.2.1
  rw [mem_singleton.1 hs] at hpath
  exact hpath (by decide)

end Nasty.Sharing.Nfs
