import Nasty.Files.Paths

/-!
# Deleting, renaming, copying and creating

The handlers of the file browser that change the tree. Each resolves the path of its request, so
that a link at its end is followed, and checks the result; the tree does not change meanwhile.

1. `filesDelete`, `filesRename`, `filesCopy`, `filesMkdir`: the handlers.
2. `delete_keeps_iff`, `rename_keeps_iff`: for which requests only what the request names goes away.
3. `creates_below_iff`: for which requests nothing is created directly under `/fs`.
-/

namespace Nasty.Files

open FileTree List

structure IoError where
  text : String
  rawOsError : Option ℕ

/-- What a handler finds of the machine. -/
structure Machine where
  tree : Tree
  inventory : Except String (List Subvolume)
  /-- Whether directories can be opened. -/
  opens : Bool
  /-- An error of the operation itself, and the tree that it leaves. -/
  fault : Option (IoError × Tree)

/-- The answer, and the tree after it. -/
structure Answer where
  status : StatusCode
  error : Option String
  tree : Tree

def Machine.refuse (m : Machine) (status : StatusCode) (error : String) : Answer :=
  ⟨status, some error, m.tree⟩

/-- The operation would leave `t`; `refusal` words its failure. -/
def Machine.finishWith (m : Machine) (refusal : IoError → StatusCode × String) (t : Tree) :
    Answer :=
  match m.fault with
  | some (e, left) => ⟨(refusal e).1, some (refusal e).2, left⟩
  | none => ⟨.ok, none, t⟩

def ioRefusal (e : IoError) : StatusCode × String := (.internalServerError, e.text)

def Machine.finish (m : Machine) (t : Tree) : Answer := m.finishWith ioRefusal t

/-! ## Delete -/

def removeAt (t : Tree) (p : Path) : Tree := if h : p ≠ [] then t.remove p h else t

def filesDelete (m : Machine) (s : Session) (path : String) : Answer :=
  if path.isEmpty then m.refuse .badRequest "path is required"
  else
    match safePathForSession m.tree s path with
    | .error status => m.refuse status "Invalid path"
    | .ok target =>
      if isStorageRootLive m.inventory target then
        m.refuse .forbidden
          "Cannot delete filesystem or subvolume roots — use the Subvolumes page"
      else if isInsideBlockSubvolume m.tree target then
        m.refuse .forbidden
          "Cannot modify block subvolume contents — manage via the Subvolumes page"
      else if m.opens then m.finish (removeAt m.tree target)
      else m.refuse .notFound "Not found"

/-! ## Destinations -/

structure DestTexts where
  bare : String
  leaf : String
  parent : String

/-- The parent, which is resolved, and the new name, which is not. -/
def destination (m : Machine) (s : Session) (texts : DestTexts) (requested : String) :
    Except (StatusCode × String) (Path × String) :=
  match Text.rsplitOnce '/' (clean requested) with
  | none => .error (.forbidden, texts.bare)
  | some (parentReq, leaf) =>
    if leaf = [] ∨ leaf = ['.'] ∨ leaf = ['.', '.'] then .error (.badRequest, texts.leaf)
    else
      match safePathForSession m.tree s (String.ofList parentReq) with
      | .error status => .error (status, texts.parent)
      | .ok parent => .ok (parent, String.ofList leaf)

def mkdirTexts : DestTexts where
  bare := "Path must include a filesystem and parent directory"
  leaf := "Invalid directory name"
  parent := "Invalid path"

def moveTexts : DestTexts where
  bare := "Destination must include a filesystem path component"
  leaf := "Invalid destination name"
  parent := "Invalid destination parent"

/-! ## Create a directory -/

def filesMkdir (m : Machine) (s : Session) (path : String) : Answer :=
  if path.isEmpty then m.refuse .badRequest "path is required"
  else
    match destination m s mkdirTexts path with
    | .error (status, e) => m.refuse status e
    | .ok (parent, leaf) =>
      if isInsideBlockSubvolume m.tree (parent ++ [leaf]) ||
          isInsideBlockSubvolume m.tree parent then
        m.refuse .forbidden "Cannot create directories inside block subvolumes"
      else if ¬ m.opens ∨ m.tree.node parent ≠ some .dir then
        m.refuse .conflict "Parent directory changed; try again"
      else if h : m.tree.Room (parent ++ [leaf]) then
        m.finish (m.tree.insert (parent ++ [leaf]) .dir h)
      else m.refuse .conflict "Already exists"

/-! ## Rename -/

def moveAt (t : Tree) (src dst : Path) (h : t.Room dst) : Tree :=
  if hsrc : src ≠ [] then t.move src dst h hsrc else t

/-- Error 18 is `EXDEV`, for two filesystems. -/
def renameRefusal (e : IoError) : StatusCode × String :=
  if e.rawOsError = some 18 then
    (.conflict, "Cross-filesystem rename not supported — use copy + delete")
  else ioRefusal e

def renameTo (m : Machine) (s : Session) (source : Path) (dst : String) : Answer :=
  match destination m s moveTexts dst with
  | .error (status, e) => m.refuse status e
  | .ok (parent, leaf) =>
    if isInsideBlockSubvolume m.tree parent then
      m.refuse .forbidden "Cannot move into block subvolume contents"
    else if parent ++ [leaf] = source then ⟨.ok, none, m.tree⟩
    else if ¬ m.opens ∨ m.tree.node parent ≠ some .dir then
      m.refuse .conflict "Source or destination changed; try again"
    else if (m.tree.node (parent ++ [leaf])).isSome then
      m.refuse .conflict "Destination already exists"
    else if h : m.tree.Room (parent ++ [leaf]) ∧ ¬ source <+: parent ++ [leaf] then
      m.finishWith renameRefusal (moveAt m.tree source (parent ++ [leaf]) h.1)
    else m.refuse .internalServerError "Invalid argument"

def filesRename (m : Machine) (s : Session) (src dst : String) : Answer :=
  match safePathForSession m.tree s src with
  | .error status => m.refuse status "Invalid source path"
  | .ok source =>
    if isStorageRootLive m.inventory source then
      m.refuse .forbidden "Cannot rename filesystem or subvolume roots — use the Subvolumes page"
    else if isInsideBlockSubvolume m.tree source then
      m.refuse .forbidden
        "Cannot rename block subvolume contents — manage via the Subvolumes page"
    else renameTo m s source dst

/-! ## Copy -/

def copyTo (m : Machine) (s : Session) (source : Path) (dst : String) : Answer :=
  match destination m s moveTexts dst with
  | .error (status, e) => m.refuse status e
  | .ok (parent, leaf) =>
    if isInsideBlockSubvolume m.tree parent then
      m.refuse .forbidden "Cannot copy into block subvolume contents"
    else if parent ++ [leaf] = source then
      m.refuse .badRequest "Source and destination are the same"
    else if source <+: parent ++ [leaf] then
      m.refuse .badRequest "Cannot copy a directory into itself"
    else if pathExists m.tree (parent ++ [leaf]) then
      m.refuse .conflict "Destination already exists"
    else if h : m.tree.Room (parent ++ [leaf]) then
      m.finish (m.tree.graft source (parent ++ [leaf]) h)
    else m.refuse .internalServerError "copy failed"

def filesCopy (m : Machine) (s : Session) (src dst : String) : Answer :=
  match safePathForSession m.tree s src with
  | .error status => m.refuse status "Invalid source path"
  | .ok source =>
    if (source.drop 1).length ≤ 1 then
      m.refuse .forbidden "Cannot copy filesystem root directories — use the Subvolumes page"
    else if isInsideBlockSubvolume m.tree source then
      m.refuse .forbidden
        "Cannot copy block subvolume contents — manage via the Subvolumes page"
    else copyTo m s source dst

/-! ## What is required -/

/-- Only what the request names goes away, and the subvolumes stay. -/
structure Machine.Keeps (m : Machine) (request : List Part) (left : Tree) : Prop where
  within : ∀ q, m.tree.node q ≠ none → left.node q = none →
    ∃ e, named m.tree request = some e ∧ e <+: q
  subvolumes : ∀ l, m.inventory = .ok l → ∀ v ∈ l, m.tree.node v.path ≠ none →
    left.node v.path = m.tree.node v.path
  images : ∀ l, m.inventory = .ok l → ∀ v ∈ l, v.block →
    m.tree.node (v.path ++ [blockFileName]) ≠ none →
      left.node (v.path ++ [blockFileName]) = m.tree.node (v.path ++ [blockFileName])

def Machine.CreatesBelow (m : Machine) (left : Tree) : Prop :=
  ∀ x, left.node ["fs", x] ≠ none → m.tree.node ["fs", x] ≠ none

def Machine.Clear (m : Machine) (request : List Part) (target : Path) : Prop :=
  named m.tree request = some target ∧
    ∀ l, m.inventory = .ok l → ∀ v ∈ l, target <+: v.path → m.tree.node v.path = none

variable {texts : DestTexts}

theorem destination_ne_ok {m : Machine} {s : Session} {requested : String} {e : StatusCode × String}
    (h : destination m s texts requested = .error e) : e.1 ≠ .ok := by
  unfold destination at h
  split at h
  · cases h; nofun
  split_ifs at h
  · cases h; nofun
  · split at h
    · next status hstatus => cases h; exact safePathForSession_ne_ok hstatus
    · cases h

structure Machine.Takes (m : Machine) (s : Session) (path : String) (target : Path) : Prop where
  safe : safePathForSession m.tree s path = .ok target
  root : isStorageRootLive m.inventory target = false
  block : isInsideBlockSubvolume m.tree target = false
  opens : m.opens = true
  fault : m.fault = none

def sessionParts (s : Session) (path : String) : List Part := requestParts (rootedRequest s path)

section

variable {m : Machine} {s : Session} {path : String} {target : Path} {left : Tree}

section

variable (h : m.Takes s path target)
include h

theorem Machine.Takes.real : m.tree.Real target :=
  real_of_canonicalize (safePathForSession_eq_ok h.safe).1

theorem Machine.Takes.length : filesRoot <+: target ∧ 3 ≤ target.length := by
  have hroot := (safePathForSession_eq_ok h.safe).2
  refine ⟨hroot, ?_⟩
  have hlive := h.root
  unfold isStorageRootLive at hlive
  cases hinv : m.inventory with
  | error e =>
    rw [hinv] at hlive
    cases hlive
  | ok l =>
  rw [hinv] at hlive
  unfold isStorageRoot at hlive
  rw [Bool.or_eq_false_iff, if_pos hroot] at hlive
  have hlength : ¬ (target.drop 1).length ≤ 1 := by simpa using hlive.1
  rw [length_drop] at hlength
  omega

theorem Machine.Takes.ne_nil : target ≠ [] := by
  intro hnil
  have hlength := h.length.2
  rw [hnil] at hlength
  simp at hlength

theorem Machine.Takes.ne_image (p : Path) : target ≠ p ++ [blockFileName] := by
  rintro rfl
  obtain ⟨hroot, hlength⟩ := h.length
  rw [length_append, length_singleton] at hlength
  have hblock := h.block
  unfold isInsideBlockSubvolume at hblock
  rw [any_eq_false] at hblock
  refine hblock p (mem_inits _ _ |>.2 (prefix_append _ _)) ?_
  have hp : filesRoot <+: p := by
    rcases prefix_concat_iff.1 hroot with heq | hp
    · have hlen := congrArg List.length heq
      rw [length_append, filesRoot, length_singleton] at hlen
      omega
    · exact hp
  have hne : p ≠ filesRoot := by
    rintro rfl
    rw [filesRoot, length_singleton] at hlength
    omega
  have hexists : pathExists m.tree (p ++ [blockFileName]) = true := by
    rw [pathExists, canonicalize_names h.real]
    rfl
  simp [hexists, hne, isPrefixOf_iff_prefix.2 hp]

theorem keeps_iff (hgone : ∀ q, target <+: q → left.node q = none)
    (hkept : ∀ q, ¬ target <+: q → m.tree.node q ≠ none → left.node q = m.tree.node q) :
    m.Keeps (sessionParts s path) left ↔ m.Clear (sessionParts s path) target := by
  have hcanonical := (safePathForSession_eq_ok h.safe).1
  have hpresent : m.tree.node target ≠ none := (h.real target (prefix_refl _)).1
  constructor
  · intro hkeeps
    refine ⟨?_, fun l hl v hv hbelow => ?_⟩
    · obtain ⟨e, he, hlink⟩ := named_of_canonicalize hcanonical
      obtain ⟨e', he', hprefix⟩ := hkeeps.within target hpresent (hgone _ (prefix_refl _))
      obtain rfl : e = e' := Option.some.inj (he.symm.trans he')
      rcases hlink with rfl | ⟨text, hnode⟩
      · exact he
      · rw [m.tree.eq_of_link_prefix hnode hpresent hprefix] at he
        exact he
    by_contra hnode
    have hsame := hkeeps.subvolumes l hl v hv hnode
    rw [hgone _ hbelow] at hsame
    exact hnode hsame.symm
  · rintro ⟨hnamed, hclear⟩
    refine ⟨fun q hq hleft => ⟨target, hnamed, ?_⟩, fun l hl v hv hnode => ?_,
      fun l hl v hv _ hnode => ?_⟩
    · by_contra hbelow
      rw [hkept q hbelow hq] at hleft
      exact hq hleft
    · exact hkept _ (fun hbelow => hnode (hclear l hl v hv hbelow)) hnode
    refine hkept _ (fun hbelow => ?_) hnode
    rcases prefix_concat_iff.1 hbelow with heq | hbelow
    · exact h.ne_image v.path heq
    · have hdir := m.tree.parent _ _ hnode
      rw [hclear l hl v hv hbelow] at hdir
      cases hdir

end

/-! ## Delete and rename -/

theorem filesDelete_of_takes (hpath : path.isEmpty = false) (h : m.Takes s path target) :
    filesDelete m s path = ⟨.ok, none, removeAt m.tree target⟩ := by
  unfold filesDelete
  rw [hpath, h.safe]
  simp [h.root, h.block, h.opens, Machine.finish, Machine.finishWith, h.fault]

theorem fault_of_finishWith {refusal : IoError → StatusCode × String}
    (hrefusal : ∀ e, (refusal e).1 ≠ .ok) (h : (m.finishWith refusal left).status = .ok) :
    m.fault = none := by
  unfold Machine.finishWith at h
  split at h
  · exact absurd h (hrefusal _)
  · next hfault => exact hfault

theorem fault_of_finish (h : (m.finish left).status = .ok) : m.fault = none :=
  fault_of_finishWith (fun _ => by simp [ioRefusal]) h

theorem renameRefusal_ne_ok (e : IoError) : (renameRefusal e).1 ≠ .ok := by
  unfold renameRefusal
  split_ifs <;> nofun

variable {P : Answer → Prop}

theorem filesDelete_cases (hrefuse : ∀ status e, status ≠ .ok → P (m.refuse status e))
    (hfinish : path.isEmpty = false → ∀ target, safePathForSession m.tree s path = .ok target →
      isStorageRootLive m.inventory target = false → isInsideBlockSubvolume m.tree target = false →
        m.opens = true → P (m.finish (removeAt m.tree target))) : P (filesDelete m s path) := by
  unfold filesDelete
  split
  · exact hrefuse _ _ nofun
  next hpath =>
  split
  · next hsafe => exact hrefuse _ _ (safePathForSession_ne_ok hsafe)
  next target hsafe =>
  split_ifs with hroot hblock hopens
  · exact hrefuse _ _ nofun
  · exact hrefuse _ _ nofun
  · exact hfinish (eq_false_of_ne_true hpath) target hsafe (eq_false_of_ne_true hroot)
      (eq_false_of_ne_true hblock) hopens
  · exact hrefuse _ _ nofun

theorem takes_of_filesDelete (h : (filesDelete m s path).status = .ok) :
    path.isEmpty = false ∧ ∃ target, m.Takes s path target := by
  refine filesDelete_cases (P := fun a => a.status = .ok → _) (fun _ _ hne h => absurd h hne)
    (fun hpath target hsafe hroot hblock hopens h => ?_) h
  exact ⟨hpath, target, hsafe, hroot, hblock, hopens, fault_of_finish h⟩

theorem node_removeAt (h : target ≠ []) (q : Path) :
    (removeAt m.tree target).node q = if target <+: q then none else m.tree.node q := by
  rw [removeAt, dif_pos h]
  rfl

theorem removeAt_keeps_iff (h : m.Takes s path target) :
    m.Keeps (sessionParts s path) (removeAt m.tree target) ↔
      m.Clear (sessionParts s path) target := by
  refine keeps_iff h (fun q hq => ?_) fun q hq _ => ?_
  · rw [node_removeAt h.ne_nil, if_pos hq]
  · rw [node_removeAt h.ne_nil, if_neg hq]

structure Machine.Lands (m : Machine) (s : Session) (dst : String) (source parent : Path)
    (leaf : String) : Prop where
  dest : destination m s moveTexts dst = .ok (parent, leaf)
  block : isInsideBlockSubvolume m.tree parent = false
  ne : parent ++ [leaf] ≠ source
  room : m.tree.Room (parent ++ [leaf])
  apart : ¬ source <+: parent ++ [leaf]

variable {src dst leaf : String} {parent : Path}

theorem filesRename_of_takes (h : m.Takes s src target) (hl : m.Lands s dst target parent leaf) :
    filesRename m s src dst = ⟨.ok, none, moveAt m.tree target (parent ++ [leaf]) hl.room⟩ := by
  unfold filesRename renameTo
  rw [h.safe]
  simp [h.root, h.block, hl.dest, hl.block, hl.ne, h.opens, hl.room.dir_of_concat, hl.room.absent,
    hl.room, hl.apart, Machine.finishWith, h.fault]

theorem filesRename_cases
    (hrefuse : ∀ status e, status ≠ .ok → P (m.refuse status e)) (hsame : P ⟨.ok, none, m.tree⟩)
    (hfinish : ∀ source parent leaf, safePathForSession m.tree s src = .ok source →
      isStorageRootLive m.inventory source = false → isInsideBlockSubvolume m.tree source = false →
        m.opens = true → ∀ hl : m.Lands s dst source parent leaf,
          P (m.finishWith renameRefusal (moveAt m.tree source (parent ++ [leaf]) hl.room))) :
    P (filesRename m s src dst) := by
  unfold filesRename
  split
  · next hsafe => exact hrefuse _ _ (safePathForSession_ne_ok hsafe)
  next source hsafe =>
  split_ifs with hroot hblock
  · exact hrefuse _ _ nofun
  · exact hrefuse _ _ nofun
  unfold renameTo
  split
  · next hdest => exact hrefuse _ _ (destination_ne_ok hdest)
  next parent leaf hdest =>
  split_ifs with hinside heq hopens _ hroom
  · exact hrefuse _ _ nofun
  · exact hsame
  · exact hrefuse _ _ nofun
  · exact hrefuse _ _ nofun
  · exact hfinish source parent leaf hsafe (eq_false_of_ne_true hroot) (eq_false_of_ne_true hblock)
      (not_not.1 (not_or.1 hopens).1)
      ⟨hdest, eq_false_of_ne_true hinside, heq, hroom.1, hroom.2⟩
  · exact hrefuse _ _ nofun

theorem filesRename_ok (h : (filesRename m s src dst).status = .ok) :
    (filesRename m s src dst).tree = m.tree ∨
      ∃ target parent leaf, m.Takes s src target ∧ m.Lands s dst target parent leaf := by
  refine filesRename_cases (P := fun a => a.status = .ok → a.tree = m.tree ∨ _)
    (fun _ _ hne h => absurd h hne) (fun _ => .inl rfl)
    (fun source parent leaf hsafe hroot hblock hopens hl h => ?_) h
  exact .inr ⟨source, parent, leaf,
    ⟨hsafe, hroot, hblock, hopens, fault_of_finishWith renameRefusal_ne_ok h⟩, hl⟩

theorem node_moveAt (h : target ≠ []) (hroom : m.tree.Room (parent ++ [leaf])) (q : Path) :
    (moveAt m.tree target (parent ++ [leaf]) hroom).node q =
      if target <+: q then none
      else if parent ++ [leaf] <+: q then
        m.tree.node (target ++ q.drop (parent ++ [leaf]).length)
      else m.tree.node q := by
  rw [moveAt, dif_pos h]
  rfl

theorem moveAt_keeps_iff (h : m.Takes s src target) (hl : m.Lands s dst target parent leaf) :
    m.Keeps (sessionParts s src) (moveAt m.tree target (parent ++ [leaf]) hl.room) ↔
      m.Clear (sessionParts s src) target := by
  refine keeps_iff h (fun q hq => ?_) fun q hq hnode => ?_
  · rw [node_moveAt h.ne_nil, if_pos hq]
  rw [node_moveAt h.ne_nil, if_neg hq, if_neg]
  intro hbelow
  by_cases heq : parent ++ [leaf] = q
  · exact hnode (heq ▸ hl.room.absent)
  · have hdir := m.tree.dir_of_prefix hnode hbelow heq
    rw [hl.room.absent] at hdir
    cases hdir

/-! ## Creating -/

theorem safePath_of_destination (h : destination m s texts dst = .ok (parent, leaf)) :
    ∃ parentReq, safePathForSession m.tree s parentReq = .ok parent := by
  unfold destination at h
  split at h
  · cases h
  split_ifs at h
  split at h
  · cases h
  · next hsafe =>
    cases h
    exact ⟨_, hsafe⟩

theorem root_of_destination (h : destination m s texts dst = .ok (parent, leaf)) :
    filesRoot <+: parent := by
  obtain ⟨_, hsafe⟩ := safePath_of_destination h
  exact (safePathForSession_eq_ok hsafe).2

theorem createsBelow_iff (hroot : filesRoot <+: parent)
    (habsent : m.tree.node (parent ++ [leaf]) = none) (hnew : left.node (parent ++ [leaf]) ≠ none)
    (honly : ∀ q, left.node q ≠ none → m.tree.node q ≠ none ∨ parent ++ [leaf] <+: q) :
    m.CreatesBelow left ↔ parent ≠ filesRoot := by
  constructor
  · rintro h rfl
    exact h leaf hnew habsent
  intro hne x hx
  rcases honly _ hx with hx | hbelow
  · exact hx
  exfalso
  have hlength := hbelow.length_le
  rw [length_append] at hlength
  change parent.length + 1 ≤ 2 at hlength
  exact hne (hroot.eq_of_length_le (by rw [filesRoot, length_singleton]; omega)).symm

structure Machine.Makes (m : Machine) (s : Session) (path : String) (parent : Path)
    (leaf : String) : Prop where
  given : path.isEmpty = false
  dest : destination m s mkdirTexts path = .ok (parent, leaf)
  block : (isInsideBlockSubvolume m.tree (parent ++ [leaf]) ||
    isInsideBlockSubvolume m.tree parent) = false
  opens : m.opens = true
  room : m.tree.Room (parent ++ [leaf])
  fault : m.fault = none

theorem filesMkdir_of_makes (h : m.Makes s path parent leaf) :
    filesMkdir m s path = ⟨.ok, none, m.tree.insert (parent ++ [leaf]) .dir h.room⟩ := by
  unfold filesMkdir
  simp only [h.given, h.dest, h.block, Bool.false_eq_true, if_false]
  rw [if_neg, dif_pos h.room, Machine.finish, Machine.finishWith, h.fault]
  rintro (hopens | hdir)
  · exact hopens h.opens
  · exact hdir h.room.dir_of_concat

theorem filesMkdir_cases (hrefuse : ∀ status e, status ≠ .ok → P (m.refuse status e))
    (hfinish : path.isEmpty = false → ∀ parent leaf,
      destination m s mkdirTexts path = .ok (parent, leaf) →
        (isInsideBlockSubvolume m.tree (parent ++ [leaf]) ||
          isInsideBlockSubvolume m.tree parent) = false → m.opens = true →
          ∀ h : m.tree.Room (parent ++ [leaf]),
            P (m.finish (m.tree.insert (parent ++ [leaf]) .dir h))) : P (filesMkdir m s path) := by
  unfold filesMkdir
  split_ifs with hpath
  · exact hrefuse _ _ nofun
  split
  · next hdest => exact hrefuse _ _ (destination_ne_ok hdest)
  next parent leaf hdest =>
  split_ifs with hblock hopens hroom
  · exact hrefuse _ _ nofun
  · exact hrefuse _ _ nofun
  · exact hfinish (eq_false_of_ne_true hpath) parent leaf hdest (eq_false_of_ne_true hblock)
      (not_not.1 (not_or.1 hopens).1) hroom
  · exact hrefuse _ _ nofun

theorem makes_of_filesMkdir (h : (filesMkdir m s path).status = .ok) :
    ∃ parent leaf, m.Makes s path parent leaf := by
  refine filesMkdir_cases (P := fun a => a.status = .ok → _) (fun _ _ hne h => absurd h hne)
    (fun hpath parent leaf hdest hblock hopens hroom h => ?_) h
  exact ⟨parent, leaf, hpath, hdest, hblock, hopens, hroom, fault_of_finish h⟩

structure Machine.Copies (m : Machine) (s : Session) (src dst : String) (source parent : Path)
    (leaf : String) : Prop where
  safe : safePathForSession m.tree s src = .ok source
  length : ¬ (source.drop 1).length ≤ 1
  outside : isInsideBlockSubvolume m.tree source = false
  dest : destination m s moveTexts dst = .ok (parent, leaf)
  block : isInsideBlockSubvolume m.tree parent = false
  ne : parent ++ [leaf] ≠ source
  apart : ¬ source <+: parent ++ [leaf]
  absent : pathExists m.tree (parent ++ [leaf]) = false
  room : m.tree.Room (parent ++ [leaf])
  fault : m.fault = none

theorem filesCopy_of_copies (h : m.Copies s src dst target parent leaf) :
    filesCopy m s src dst = ⟨.ok, none, m.tree.graft target (parent ++ [leaf]) h.room⟩ := by
  unfold filesCopy copyTo
  simp only [h.safe, if_neg h.length, h.outside, h.dest, h.block, if_neg h.ne, if_neg h.apart,
    h.absent, Bool.false_eq_true, if_false, dif_pos h.room, Machine.finish, Machine.finishWith,
    h.fault]

theorem filesCopy_cases (hrefuse : ∀ status e, status ≠ .ok → P (m.refuse status e))
    (hfinish : ∀ source parent leaf (h : m.tree.Room (parent ++ [leaf])),
      (m.fault = none → m.Copies s src dst source parent leaf) →
        destination m s moveTexts dst = .ok (parent, leaf) →
        P (m.finish (m.tree.graft source (parent ++ [leaf]) h))) : P (filesCopy m s src dst) := by
  unfold filesCopy
  split
  · next hsafe => exact hrefuse _ _ (safePathForSession_ne_ok hsafe)
  next source hsafe =>
  split_ifs with hlength hsource
  · exact hrefuse _ _ nofun
  · exact hrefuse _ _ nofun
  unfold copyTo
  split
  · next hdest => exact hrefuse _ _ (destination_ne_ok hdest)
  next parent leaf hdest =>
  split_ifs with hblock hne happart habsent hroom
  · exact hrefuse _ _ nofun
  · exact hrefuse _ _ nofun
  · exact hrefuse _ _ nofun
  · exact hrefuse _ _ nofun
  · refine hfinish source parent leaf hroom (fun hfault => ?_) hdest
    exact ⟨hsafe, hlength, eq_false_of_ne_true hsource, hdest, eq_false_of_ne_true hblock, hne,
      happart, eq_false_of_ne_true habsent, hroom, hfault⟩
  · exact hrefuse _ _ nofun

theorem copies_of_filesCopy (h : (filesCopy m s src dst).status = .ok) :
    ∃ source parent leaf, m.Copies s src dst source parent leaf := by
  refine filesCopy_cases (P := fun a => a.status = .ok → _) (fun _ _ hne h => absurd h hne)
    (fun source parent leaf _ hcopies _ h => ?_) h
  exact ⟨source, parent, leaf, hcopies (fault_of_finish h)⟩

theorem mkdir_createsBelow_iff (h : m.Makes s path parent leaf) :
    m.CreatesBelow (m.tree.insert (parent ++ [leaf]) .dir h.room) ↔ parent ≠ filesRoot := by
  refine createsBelow_iff (root_of_destination h.dest) h.room.absent ?_ fun q hq => ?_
  · rw [Tree.node_insert, if_pos rfl]
    nofun
  rw [Tree.node_insert] at hq
  split_ifs at hq with heq
  · exact .inr (heq ▸ prefix_refl _)
  · exact .inl hq

theorem copy_createsBelow_iff (h : m.Copies s src dst target parent leaf) :
    m.CreatesBelow (m.tree.graft target (parent ++ [leaf]) h.room) ↔ parent ≠ filesRoot := by
  have hreal := real_of_canonicalize (safePathForSession_eq_ok h.safe).1
  refine createsBelow_iff (root_of_destination h.dest) h.room.absent ?_ fun q hq => ?_
  · rw [Tree.node_graft, if_pos (prefix_refl _), drop_length, append_nil]
    exact (hreal target (prefix_refl _)).1
  rw [Tree.node_graft] at hq
  split_ifs at hq with hbelow
  · exact .inr hbelow
  · exact .inl hq

theorem rename_createsBelow_iff (h : m.Takes s src target) (hl : m.Lands s dst target parent leaf) :
    m.CreatesBelow (moveAt m.tree target (parent ++ [leaf]) hl.room) ↔ parent ≠ filesRoot := by
  refine createsBelow_iff (root_of_destination hl.dest) hl.room.absent ?_ fun q hq => ?_
  · rw [node_moveAt h.ne_nil, if_neg hl.apart, if_pos (prefix_refl _), drop_length,
      append_nil]
    exact (h.real target (prefix_refl _)).1
  rw [node_moveAt h.ne_nil] at hq
  split_ifs at hq with htarget hbelow
  · exact absurd rfl hq
  · exact .inr hbelow
  · exact .inl hq

end

/-- **The file browser.** Requests keep to what they name just if they end in no link, meet no
subvolume and create nothing right in `/fs`. -/
theorem handlers_keep_iff (m : Machine) (s : Session) (path src dst : String) :
    (((filesDelete m s path).status = .ok →
        m.Keeps (sessionParts s path) (filesDelete m s path).tree) ↔
      (path.isEmpty = false → ∀ target, m.Takes s path target →
        m.Clear (sessionParts s path) target)) ∧
    (((filesRename m s src dst).status = .ok →
        m.Keeps (sessionParts s src) (filesRename m s src dst).tree) ↔
      ∀ target parent leaf, m.Takes s src target → m.Lands s dst target parent leaf →
        m.Clear (sessionParts s src) target) ∧
    (((filesMkdir m s path).status = .ok → m.CreatesBelow (filesMkdir m s path).tree) ↔
      ∀ parent leaf, m.Makes s path parent leaf → parent ≠ filesRoot) ∧
    (((filesRename m s src dst).status = .ok → m.CreatesBelow (filesRename m s src dst).tree) ↔
      ∀ target parent leaf, m.Takes s src target → m.Lands s dst target parent leaf →
        parent ≠ filesRoot) ∧
    (((filesCopy m s src dst).status = .ok → m.CreatesBelow (filesCopy m s src dst).tree) ↔
      ∀ source parent leaf, m.Copies s src dst source parent leaf → parent ≠ filesRoot) := by
  refine ⟨⟨fun h hpath target ht => ?_, fun h hok => ?_⟩, ⟨fun h target parent leaf ht hl => ?_,
    fun h hok => ?_⟩, ⟨fun h parent leaf hm => ?_, fun h hok => ?_⟩,
    ⟨fun h target parent leaf ht hl => ?_, fun h hok => ?_⟩,
    ⟨fun h source parent leaf hc => ?_, fun h hok => ?_⟩⟩
  · rw [filesDelete_of_takes hpath ht] at h
    exact (removeAt_keeps_iff ht).1 (h rfl)
  · obtain ⟨hpath, target, ht⟩ := takes_of_filesDelete hok
    rw [filesDelete_of_takes hpath ht]
    exact (removeAt_keeps_iff ht).2 (h hpath target ht)
  · rw [filesRename_of_takes ht hl] at h
    exact (moveAt_keeps_iff ht hl).1 (h rfl)
  · rcases filesRename_ok hok with htree | ⟨target, parent, leaf, ht, hl⟩
    · rw [htree]
      exact ⟨fun q hq hnone => absurd hnone hq, fun _ _ _ _ _ => rfl, fun _ _ _ _ _ _ => rfl⟩
    · rw [filesRename_of_takes ht hl]
      exact (moveAt_keeps_iff ht hl).2 (h target parent leaf ht hl)
  · rw [filesMkdir_of_makes hm] at h
    exact (mkdir_createsBelow_iff hm).1 (h rfl)
  · obtain ⟨parent, leaf, hm⟩ := makes_of_filesMkdir hok
    rw [filesMkdir_of_makes hm]
    exact (mkdir_createsBelow_iff hm).2 (h parent leaf hm)
  · rw [filesRename_of_takes ht hl] at h
    exact (rename_createsBelow_iff ht hl).1 (h rfl)
  · rcases filesRename_ok hok with htree | ⟨target, parent, leaf, ht, hl⟩
    · rw [htree]
      exact fun x hx => hx
    · rw [filesRename_of_takes ht hl]
      exact (rename_createsBelow_iff ht hl).2 (h target parent leaf ht hl)
  · rw [filesCopy_of_copies hc] at h
    exact (copy_createsBelow_iff hc).1 (h rfl)
  · obtain ⟨source, parent, leaf, hc⟩ := copies_of_filesCopy hok
    rw [filesCopy_of_copies hc]
    exact (copy_createsBelow_iff hc).2 (h source parent leaf hc)

def sampleMachine : Machine where
  tree := .ofEntries [(["fs"], .dir), (["fs", "tank"], .dir),
    (["fs", "tank", "data"], .file [1]), (["fs", "tank", "alias"], .link "data"),
    (["fs", "tank", "plain"], .dir), (["fs", "tank", "plain", "vol"], .dir)] (by decide)
  inventory := .ok [⟨["fs", "tank", "plain", "vol"], false⟩]
  opens := true
  fault := none

/-- Deleting a link deletes its target; deleting a directory deletes the subvolume in it; and a
directory can be made directly under `/fs`. -/
theorem handlers_overreach :
    ((filesDelete sampleMachine ⟨none, none⟩ "tank/alias").status = .ok ∧
      ¬ sampleMachine.Keeps (sessionParts ⟨none, none⟩ "tank/alias")
        (filesDelete sampleMachine ⟨none, none⟩ "tank/alias").tree) ∧
    ((filesDelete sampleMachine ⟨none, none⟩ "tank/plain").status = .ok ∧
      ¬ sampleMachine.Keeps (sessionParts ⟨none, none⟩ "tank/plain")
        (filesDelete sampleMachine ⟨none, none⟩ "tank/plain").tree) ∧
    (filesMkdir sampleMachine ⟨none, none⟩ "tank/../new").status = .ok ∧
      ¬ sampleMachine.CreatesBelow
        (filesMkdir sampleMachine ⟨none, none⟩ "tank/../new").tree := by
  refine ⟨⟨by decide +kernel, fun h => ?_⟩, ⟨by decide +kernel, fun h => ?_⟩, by decide +kernel,
    fun h => ?_⟩
  · obtain ⟨e, he, hprefix⟩ := h.within ["fs", "tank", "data"] (by decide +kernel)
      (by decide +kernel)
    obtain rfl : ["fs", "tank", "alias"] = e := Option.some.inj
      ((show some _ = named sampleMachine.tree _ by decide +kernel).trans he)
    exact absurd hprefix (by decide)
  · have hsame := h.subvolumes _ rfl _ mem_cons_self (by decide +kernel)
    exact absurd hsame (by decide +kernel)
  · exact h "new" (by decide +kernel) (by decide +kernel)

end Nasty.Files
