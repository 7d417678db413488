import Nasty.Files.Restore
import Nasty.Lib.Confined

/-!
# Sessions scoped to a filesystem

What a session that is scoped to one filesystem can do to the others, and learn of them, through the
file browser. The handlers resolve links first and compare the result with the scope.

1. `filesBrowse`, `filesSize`: the handlers that only read. `respond`: one request to any handler.
2. `TextInside`, `BlockInside`, …: nothing that a handler resolves leads beside the filesystem. Its
   answer then does not depend on the others (`filesDelete_status`, …).
3. `filesDelete_confined`, …: nothing outside the filesystem is changed, whatever its links.
-/

namespace Nasty.Files

open FileTree List

/-! ## Browse and size -/

/-- One line of a listing. -/
structure ListEntry where
  name : String
  isDir : Bool
  size : ℕ

structure Listing where
  path : String
  entries : List ListEntry

/-- Links are not followed: the size of one is that of its text. -/
def entryOf (name : String) : Node → ListEntry
  | .dir => ⟨name, true, 0⟩
  | .file content => ⟨name, false, content.length⟩
  | .link target => ⟨name, false, target.utf8ByteSize⟩

/-- Directories first, then by name; `lower` is `to_lowercase`. -/
def entryLe (lower : String → String) (a b : ListEntry) : Bool :=
  if a.isDir = b.isDir then lower a.name ≤ lower b.name else a.isDir

def listing (lower : String → String) (t : Tree) (dir : Path) : Listing where
  path := String.ofList (relText dir)
  entries := ((t.names dir).filterMap fun n => (t.node (dir ++ [n])).map (entryOf n)).mergeSort
    (entryLe lower)

def filesBrowse (m : Machine) (lower : String → String) (reason : String) (s : Session)
    (path : String) : Except (StatusCode × String) Listing :=
  match safePathForSession m.tree s path with
  | .error status => .error (status, "Invalid path")
  | .ok dir =>
    match m.tree.node dir with
    | none => .error (.notFound, "Not found")
    | some .dir =>
      if m.opens then .ok (listing lower m.tree dir) else .error (.internalServerError, reason)
    | some _ => .error (.badRequest, "Not a directory")

/-- How `du` ended within its time. -/
inductive Du
  | timedOut
  | failed
  | output (stdout : List Char)

def u64Max : ℕ := 2 ^ 64 - 1

def duAnswer : Du → Except (StatusCode × String) ℕ
  | .timedOut => .error (.requestTimeout, "Directory is too large to total quickly (timed out)")
  | .failed => .error (.internalServerError, "Could not total the directory")
  | .output stdout =>
    match (Text.splitWhitespace stdout).head?.bind (Text.unsigned u64Max) with
    | some bytes => .ok bytes
    | none => .error (.internalServerError, "Could not read the directory size")

def filesSize (m : Machine) (du : Path → Du) (s : Session) (path : String) :
    Except (StatusCode × String) ℕ :=
  match safePathForSession m.tree s path with
  | .error status => .error (status, "Invalid path")
  | .ok dir =>
    match m.tree.node dir with
    | none => .error (.notFound, "Not found")
    | some .dir => duAnswer (du dir)
    | some _ => .error (.badRequest, "Not a directory")

/-! ## Any request -/

/-- A request to the file browser. -/
inductive Request
  | browse (path : String)
  | size (path : String)
  | delete (path : String)
  | rename (src dst : String)
  | copy (src dst : String)
  | mkdir (path : String)
  | restore (items : List String)

/-- The machine with what the restore and the size request need besides. -/
structure Server where
  disk : Disk
  inventory : Except String (List Subvolume)
  opens : Bool
  fault : Option (IoError × Tree)
  host : Host
  du : Path → Du
  lower : String → String

def Server.machine (w : Server) : Machine := ⟨w.disk.tree, w.inventory, w.opens, w.fault⟩

def statusOf {α : Type} : Except (StatusCode × String) α → StatusCode
  | .ok _ => .ok
  | .error (status, _) => status

def Answer.outcome (a : Answer) : StatusCode × Tree := (a.status, a.tree)

/-- The status of the answer and the tree that is left; `none` if `fuel` turns of a restore are not
enough. -/
def respond (fuel : ℕ) (w : Server) (s : Session) : Request → Option (StatusCode × Tree)
  | .browse path =>
    some (statusOf (filesBrowse w.machine w.lower w.host.reason s path), w.disk.tree)
  | .size path => some (statusOf (filesSize w.machine w.du s path), w.disk.tree)
  | .delete path => some (filesDelete w.machine s path).outcome
  | .rename src dst => some (filesRename w.machine s src dst).outcome
  | .copy src dst => some (filesCopy w.machine s src dst).outcome
  | .mkdir path => some (filesMkdir w.machine s path).outcome
  | .restore items =>
    (filesRestore w.host fuel s w.disk items).map fun reply => (reply.status, reply.disk.tree)

/-- Scoped to a filesystem, and to no owner. -/
structure Session.Scoped (s : Session) (filesystem : String) : Prop where
  owner : s.owner = none
  filesystem : s.filesystem = some filesystem

def mountPoint (filesystem : String) : Path := filesRoot ++ [filesystem]

/-- A file has its names in one filesystem, and a failing operation has changed nothing outside the
filesystem in which it works. -/
structure Server.Sound (w : Server) (filesystem : String) : Prop where
  owned : w.disk.Owned (mountPoint filesystem)
  fault : ∀ e left, w.fault = some (e, left) → ∀ q, ¬ Below (mountPoint filesystem) q →
    left.node q = w.disk.tree.node q
  restoreFault : ∀ d src dst e left, w.host.fault d src dst = some (e, left) →
    Below (mountPoint filesystem) dst → ∀ q, ¬ Below (mountPoint filesystem) q →
      left.tree.node q = d.tree.node q

/-! ## In scope -/

section

variable {s : Session} {filesystem requested : String} {t : Tree} {p : Path}

theorem scope_of_safePath (hs : s.Scoped filesystem)
    (h : safePathForSession t s requested = .ok p) : mountPoint filesystem <+: p := by
  have hin := (safePath_of_session h).2
  unfold filePathInScope at hin
  rw [hs.owner, hs.filesystem] at hin
  have hin : filesRoot <+: p ∧ (p.drop 1).head? = some filesystem := of_decide_eq_true hin
  obtain ⟨⟨rest, rfl⟩, hhead⟩ := hin
  have hrest : rest.head? = some filesystem := hhead
  obtain ⟨tail, rfl⟩ := head?_eq_some_iff.1 hrest
  exact ⟨tail, by simp [mountPoint]⟩

theorem requestParts_of_scope (h : requestedPathInFilesystemScope requested filesystem = true) :
    ∃ qs, requestParts requested = .cur :: ((mountPoint filesystem).map .name ++ qs) := by
  unfold requestedPathInFilesystemScope at h
  cases hclean : clean requested with
  | nil =>
    rw [hclean] at h
    cases h
  | cons c cs =>
  -- the text has no slash in front, so its first piece is the first component
  have hc : c ≠ '/' := by
    have hhead := head?_dropWhile_not (· = '/') (requested.toList.map backslashToSlash)
    have hdrop : (requested.toList.map backslashToSlash).dropWhile (· = '/') = c :: cs := hclean
    rw [hdrop] at hhead
    simpa using hhead
  obtain ⟨first, rest, hpieces⟩ :=
    exists_cons_of_ne_nil (Text.splitBy_ne_nil (· = '/') cs)
  have hsplit : Text.split '/' (c :: cs) = (c :: first) :: rest := by
    rw [Text.split, Text.splitBy, if_neg (by simpa using hc), hpieces]
    rfl
  have hfilter : (Text.split '/' (c :: cs)).filter (· ≠ []) =
      (c :: first) :: rest.filter (· ≠ []) := by
    rw [hsplit, filter_cons_of_pos (by simp)]
  rw [hclean, components, hfilter] at h
  simp only [Bool.and_eq_true, decide_eq_true_eq] at h
  refine ⟨rest.map partOf, ?_⟩
  rw [requestParts, hclean, hsplit, map_cons, h.1]
  rfl

end

/-! ## What a request looks up -/

/-- The trees agree on the filesystem and on the way to it. -/
def Indistinct (filesystem : String) (t₁ t₂ : Tree) : Prop :=
  ∀ p, Along (mountPoint filesystem) p → t₁.node p = t₂.node p

/-- The walk looks up nothing beside the filesystem. -/
def Inside (filesystem : String) (t : Tree) (ps : List Part) : Prop :=
  strays t (mountPoint filesystem) maxLinks [] ps = false

instance (filesystem : String) (t : Tree) (ps : List Part) : Decidable (Inside filesystem t ps) :=
  inferInstanceAs (Decidable (_ = _))

/-- Resolving the text does not; a text out of scope is refused before. -/
def TextInside (filesystem : String) (t : Tree) (s : Session) (requested : String) : Prop :=
  requestedPathInFilesystemScope (rootedRequest s requested) filesystem = true →
    Inside filesystem t (sessionParts s requested)

/-- Where `isInsideBlockSubvolume` looks for an image. -/
def imagePlaces (path : Path) : List Path :=
  (path.inits.filter fun p => p = path || (filesRoot.isPrefixOf p && p ≠ filesRoot)).map
    (· ++ [blockFileName])

/-- The search for an image finds one within the filesystem, or looks up nothing beside it. -/
def BlockInside (filesystem : String) (t : Tree) (path : Path) : Prop :=
  (∃ p ∈ imagePlaces path, Inside filesystem t (p.map .name) ∧ pathExists t p = true) ∨
    ∀ p ∈ imagePlaces path, Inside filesystem t (p.map .name)

/-- Resolving the text and what is looked up `next` keep to the filesystem. -/
def ResolvesInside (filesystem : String) (t : Tree) (s : Session) (requested : String)
    (next : Path → Prop) : Prop :=
  TextInside filesystem t s requested ∧
    ∀ p, safePathForSession t s requested = .ok p → next p

/-- So do the search for an image and what is looked up `next` if there is none. -/
def UnblockedInside (filesystem : String) (t : Tree) (path : Path) (next : Prop) : Prop :=
  BlockInside filesystem t path ∧ (isInsideBlockSubvolume t path = false → next)

/-- So do a destination and what is looked up `next`. -/
def LandsInside (filesystem : String) (m : Machine) (s : Session) (texts : DestTexts)
    (requested : String) (next : Path → String → Prop) : Prop :=
  (∀ parentReq leaf, Text.rsplitOnce '/' (clean requested) = some (parentReq, leaf) →
    ¬ (leaf = [] ∨ leaf = ['.'] ∨ leaf = ['.', '.']) →
      TextInside filesystem m.tree s (String.ofList parentReq)) ∧
  ∀ parent leaf, destination m s texts requested = .ok (parent, leaf) → next parent leaf

def DeleteInside (filesystem : String) (m : Machine) (s : Session) (path : String) : Prop :=
  path.isEmpty = false → ResolvesInside filesystem m.tree s path fun target =>
    isStorageRootLive m.inventory target = false → BlockInside filesystem m.tree target

def MkdirInside (filesystem : String) (m : Machine) (s : Session) (path : String) : Prop :=
  path.isEmpty = false → LandsInside filesystem m s mkdirTexts path fun parent leaf =>
    UnblockedInside filesystem m.tree (parent ++ [leaf]) (BlockInside filesystem m.tree parent)

def RenameInside (filesystem : String) (m : Machine) (s : Session) (src dst : String) : Prop :=
  ResolvesInside filesystem m.tree s src fun source =>
    isStorageRootLive m.inventory source = false → UnblockedInside filesystem m.tree source
      (LandsInside filesystem m s moveTexts dst fun parent _ =>
        BlockInside filesystem m.tree parent)

/-- The last test of a copy follows a link at the destination. -/
def CopyInside (filesystem : String) (m : Machine) (s : Session) (src dst : String) : Prop :=
  ResolvesInside filesystem m.tree s src fun source =>
    ¬ (source.drop 1).length ≤ 1 → UnblockedInside filesystem m.tree source
      (LandsInside filesystem m s moveTexts dst fun parent leaf =>
        UnblockedInside filesystem m.tree parent <| ¬ source <+: parent ++ [leaf] →
          Inside filesystem m.tree ((parent ++ [leaf]).map .name))

section Lookups

variable {s : Session} {filesystem requested : String} {t₁ t₂ : Tree} {p : Path}
  (h : Indistinct filesystem t₁ t₂)
include h

theorem Indistinct.canonicalize {ps : List Part} (hin : Inside filesystem t₁ ps) :
    canonicalize t₁ ps = canonicalize t₂ ps := walk_congr h along_nil hin

theorem Indistinct.safePath (hs : s.Scoped filesystem)
    (hin : TextInside filesystem t₁ s requested) :
    safePathForSession t₁ s requested = safePathForSession t₂ s requested := by
  unfold safePathForSession resolveInScope
  rw [hs.filesystem]
  simp only [Option.any_some]
  by_cases hscope : requestedPathInFilesystemScope (rootedRequest s requested) filesystem = true
  · have hsafe : Nasty.Files.safePath t₁ (rootedRequest s requested) =
        Nasty.Files.safePath t₂ (rootedRequest s requested) := by
      unfold Nasty.Files.safePath
      rw [show requestParts (rootedRequest s requested) = sessionParts s requested from rfl,
        h.canonicalize (hin hscope)]
    rw [hsafe]
  · simp only [hscope, Bool.not_false, if_true]

theorem Indistinct.pathExists (hin : Inside filesystem t₁ (p.map .name)) :
    pathExists t₁ p = pathExists t₂ p := by
  unfold Nasty.Files.pathExists
  rw [h.canonicalize hin]

theorem Indistinct.block (hin : BlockInside filesystem t₁ p) :
    isInsideBlockSubvolume t₁ p = isInsideBlockSubvolume t₂ p := by
  have hplaces : ∀ t, isInsideBlockSubvolume t p = (imagePlaces p).any (Files.pathExists t) := by
    intro t
    rw [imagePlaces, any_map, any_filter]
    rfl
  rw [hplaces, hplaces]
  rcases hin with ⟨q, hq, hin, hexists⟩ | hin
  · rw [any_eq_true.2 ⟨q, hq, hexists⟩, any_eq_true.2 ⟨q, hq, h.pathExists hin ▸ hexists⟩]
  · rw [Bool.eq_iff_iff, any_eq_true, any_eq_true]
    exact exists_congr fun q => and_congr_right fun hq => by rw [h.pathExists (hin q hq)]

theorem Indistinct.room (hp : mountPoint filesystem <+: p) : t₁.Room p ↔ t₂.Room p :=
  room_congr h (.inr hp)

end Lookups

/-! ## The same answers -/

variable {path src dst : String}

section Answers

variable {s : Session} {filesystem requested : String} {m₁ m₂ : Machine} {texts : DestTexts}

structure Machine.Alike (filesystem : String) (m₁ m₂ : Machine) : Prop where
  tree : Indistinct filesystem m₁.tree m₂.tree
  inventory : m₁.inventory = m₂.inventory
  opens : m₁.opens = m₂.opens
  fault : m₁.fault.map (·.1.rawOsError) = m₂.fault.map (·.1.rawOsError)

theorem scope_of_destination {m : Machine} (hs : s.Scoped filesystem) {leaf : String}
    {parent : Path} (h : destination m s texts requested = .ok (parent, leaf)) :
    mountPoint filesystem <+: parent ∧ mountPoint filesystem <+: parent ++ [leaf] := by
  obtain ⟨_, hsafe⟩ := safePath_of_destination h
  have hparent := scope_of_safePath hs hsafe
  exact ⟨hparent, hparent.trans (prefix_append _ _)⟩

section

variable (h : m₁.Alike filesystem m₂)
include h

variable {refusal : IoError → StatusCode × String}

theorem Machine.Alike.finishWith
    (hrefusal : ∀ e e', e.rawOsError = e'.rawOsError → (refusal e).1 = (refusal e').1)
    (t₁ t₂ : Tree) : (m₁.finishWith refusal t₁).status = (m₂.finishWith refusal t₂).status := by
  have hfault := h.fault
  unfold Machine.finishWith
  cases h₁ : m₁.fault with
  | none =>
    cases h₂ : m₂.fault with
    | none => rfl
    | some f => rw [h₁, h₂] at hfault; cases hfault
  | some f =>
    cases h₂ : m₂.fault with
    | none => rw [h₁, h₂] at hfault; cases hfault
    | some g =>
      rw [h₁, h₂] at hfault
      exact hrefusal _ _ (Option.some.inj hfault)

theorem Machine.Alike.finish (t₁ t₂ : Tree) : (m₁.finish t₁).status = (m₂.finish t₂).status :=
  h.finishWith (fun _ _ _ => rfl) t₁ t₂

section

variable (hs : s.Scoped filesystem)
include hs

theorem filesBrowse_status {lower₁ lower₂ : String → String} {reason₁ reason₂ path : String}
    (hin : TextInside filesystem m₁.tree s path) :
    statusOf (filesBrowse m₁ lower₁ reason₁ s path) =
      statusOf (filesBrowse m₂ lower₂ reason₂ s path) := by
  unfold filesBrowse
  rw [h.tree.safePath hs hin, h.opens]
  cases hsafe : safePathForSession m₂.tree s path with
  | error status => rfl
  | ok dir =>
  simp only [h.tree dir (.inr (scope_of_safePath hs hsafe))]
  split
  · rfl
  · split_ifs <;> rfl
  · rfl

theorem filesSize_status {du₁ du₂ : Path → Du}
    (hdu : ∀ p, mountPoint filesystem <+: p → du₁ p = du₂ p)
    (hin : TextInside filesystem m₁.tree s path) :
    statusOf (filesSize m₁ du₁ s path) = statusOf (filesSize m₂ du₂ s path) := by
  unfold filesSize
  rw [h.tree.safePath hs hin]
  cases hsafe : safePathForSession m₂.tree s path with
  | error status => rfl
  | ok dir =>
    have hscope := scope_of_safePath hs hsafe
    simp only [h.tree dir (.inr hscope), hdu dir hscope]

theorem filesDelete_status (hin : DeleteInside filesystem m₁ s path) :
    (filesDelete m₁ s path).status = (filesDelete m₂ s path).status := by
  unfold filesDelete
  by_cases hpath : path.isEmpty = true
  · rw [if_pos hpath, if_pos hpath]
    rfl
  obtain ⟨htext, hnext⟩ := hin (eq_false_of_ne_true hpath)
  rw [if_neg hpath, if_neg hpath, ← h.tree.safePath hs htext, ← h.inventory, ← h.opens]
  cases hsafe : safePathForSession m₁.tree s path with
  | error status => rfl
  | ok target =>
  by_cases hroot : isStorageRootLive m₁.inventory target = true
  · simp only [if_pos hroot]
    rfl
  simp only [if_neg hroot, h.tree.block (hnext target hsafe (eq_false_of_ne_true hroot))]
  split_ifs
  · rfl
  · exact h.finish _ _
  · rfl

theorem destination_congr {next : Path → String → Prop}
    (hin : LandsInside filesystem m₁ s texts requested next) :
    destination m₁ s texts requested = destination m₂ s texts requested := by
  unfold destination
  split
  · rfl
  next parentReq leaf heq =>
  split_ifs with hleaf
  · rfl
  · rw [h.tree.safePath hs (hin.1 parentReq leaf heq hleaf)]

theorem filesMkdir_status (hin : MkdirInside filesystem m₁ s path) :
    (filesMkdir m₁ s path).status = (filesMkdir m₂ s path).status := by
  unfold filesMkdir
  split_ifs with hpath
  · rfl
  have hin := hin (eq_false_of_ne_true hpath)
  rw [← destination_congr h hs hin, ← h.opens]
  cases hdest : destination m₁ s mkdirTexts path with
  | error e => rfl
  | ok landing =>
  obtain ⟨parent, leaf⟩ := landing
  obtain ⟨hparent, hchild⟩ := scope_of_destination hs hdest
  obtain ⟨hself, habove⟩ := hin.2 parent leaf hdest
  have hblock : (isInsideBlockSubvolume m₁.tree (parent ++ [leaf]) ||
      isInsideBlockSubvolume m₁.tree parent) = (isInsideBlockSubvolume m₂.tree (parent ++ [leaf]) ||
        isInsideBlockSubvolume m₂.tree parent) := by
    rw [← h.tree.block hself]
    cases hfound : isInsideBlockSubvolume m₁.tree (parent ++ [leaf]) with
    | true => rfl
    | false => rw [h.tree.block (habove hfound)]
  simp only [hblock, h.tree parent (.inr hparent), h.tree.room hchild]
  split_ifs
  · rfl
  · rfl
  · exact h.finish _ _
  · rfl

variable {source : Path}

theorem renameTo_status {dst : String}
    (hin : LandsInside filesystem m₁ s moveTexts dst fun parent _ => BlockInside filesystem m₁.tree parent) :
    (renameTo m₁ s source dst).status = (renameTo m₂ s source dst).status := by
  unfold renameTo
  rw [← destination_congr h hs hin, ← h.opens]
  cases hdest : destination m₁ s moveTexts dst with
  | error e => rfl
  | ok landing =>
  obtain ⟨hparent, hchild⟩ := scope_of_destination hs hdest
  simp only [h.tree.block (hin.2 _ _ hdest), h.tree _ (.inr hparent), h.tree _ (.inr hchild),
    h.tree.room hchild]
  split_ifs
  · rfl
  · rfl
  · rfl
  · rfl
  · refine h.finishWith (fun e e' heq => ?_) _ _
    unfold renameRefusal
    rw [heq]
    split_ifs <;> rfl
  · rfl

theorem filesRename_status (hin : RenameInside filesystem m₁ s src dst) :
    (filesRename m₁ s src dst).status = (filesRename m₂ s src dst).status := by
  unfold filesRename
  rw [← h.tree.safePath hs hin.1, ← h.inventory]
  cases hsafe : safePathForSession m₁.tree s src with
  | error status => rfl
  | ok source =>
  by_cases hroot : isStorageRootLive m₁.inventory source = true
  · simp only [if_pos hroot]
    rfl
  obtain ⟨hblock, hlands⟩ := hin.2 source hsafe (eq_false_of_ne_true hroot)
  simp only [if_neg hroot, ← h.tree.block hblock]
  split_ifs with hinside
  · rfl
  · exact renameTo_status h hs (hlands (eq_false_of_ne_true hinside))

theorem copyTo_status {dst : String}
    (hin : LandsInside filesystem m₁ s moveTexts dst fun parent leaf => UnblockedInside filesystem m₁.tree parent <| ¬ source <+: parent ++ [leaf] → Inside filesystem m₁.tree ((parent ++ [leaf]).map .name)) :
    (copyTo m₁ s source dst).status = (copyTo m₂ s source dst).status := by
  unfold copyTo
  rw [← destination_congr h hs hin]
  cases hdest : destination m₁ s moveTexts dst with
  | error e => rfl
  | ok landing =>
  obtain ⟨hparent, hchild⟩ := scope_of_destination hs hdest
  obtain ⟨hblock, hexists⟩ := hin.2 _ _ hdest
  simp only [← h.tree.block hblock, ← h.tree.room hchild]
  by_cases hinside : isInsideBlockSubvolume m₁.tree landing.1 = true
  · simp only [if_pos hinside]
    rfl
  by_cases hself : source <+: landing.1 ++ [landing.2]
  · split_ifs <;> rfl
  simp only [if_neg hinside, if_neg hself,
    h.tree.pathExists (hexists (eq_false_of_ne_true hinside) hself)]
  split_ifs
  · rfl
  · rfl
  · exact h.finish _ _
  · rfl

theorem filesCopy_status (hin : CopyInside filesystem m₁ s src dst) :
    (filesCopy m₁ s src dst).status = (filesCopy m₂ s src dst).status := by
  unfold filesCopy
  rw [← h.tree.safePath hs hin.1]
  cases hsafe : safePathForSession m₁.tree s src with
  | error status => rfl
  | ok source =>
  by_cases hlength : (source.drop 1).length ≤ 1
  · simp only [if_pos hlength]
    rfl
  obtain ⟨hblock, hlands⟩ := hin.2 source hsafe hlength
  simp only [if_neg hlength, ← h.tree.block hblock]
  split_ifs with hinside
  · rfl
  · exact copyTo_status h hs (hlands (eq_false_of_ne_true hinside))

end

end

end Answers

/-! ## Nothing outside changes -/

def Confined (filesystem : String) (t left : Tree) : Prop :=
  ∀ q, ¬ Below (mountPoint filesystem) q → left.node q = t.node q

section Changes

variable {s : Session} {filesystem : String} {m : Machine} {t : Tree}

theorem confined_refl (filesystem : String) (t : Tree) : Confined filesystem t t := fun _ _ => rfl

theorem Machine.confined_finish
    (hfault : ∀ e left, m.fault = some (e, left) → Confined filesystem m.tree left)
    (ht : Confined filesystem m.tree t) :
    Confined filesystem m.tree (m.finishWith refusal t).tree := by
  unfold Machine.finishWith
  split
  · next e left h => exact hfault e left h
  · exact ht

theorem confined_remove {p : Path} (hp : Below (mountPoint filesystem) p) (hne : p ≠ []) :
    Confined filesystem t (t.remove p hne) := by
  intro q hq
  rw [Tree.node_remove, if_neg fun hpq => hq (hp.of_prefix hpq)]

theorem confined_graft {src dst : Path} (hdst : Below (mountPoint filesystem) dst)
    (h : t.Room dst) : Confined filesystem t (t.graft src dst h) := by
  intro q hq
  rw [Tree.node_graft, if_neg fun hpq => hq (hdst.of_prefix hpq)]

theorem below_of_not_root {inventory : Except String (List Subvolume)} {p : Path}
    (hp : mountPoint filesystem <+: p) (h : isStorageRootLive inventory p = false) :
    Below (mountPoint filesystem) p := by
  refine ⟨hp, ?_⟩
  rintro rfl
  unfold isStorageRootLive at h
  cases inventory with
  | error e => cases h
  | ok l =>
    simp [isStorageRoot, mountPoint, filesRoot] at h

variable (hs : s.Scoped filesystem)
  (hfault : ∀ e left, m.fault = some (e, left) → Confined filesystem m.tree left)

include hs hfault

theorem filesDelete_confined : Confined filesystem m.tree (filesDelete m s path).tree := by
  refine filesDelete_cases (P := fun a => Confined filesystem m.tree a.tree)
    (fun _ _ _ => confined_refl _ _) fun _ target hsafe hroot _ _ => ?_
  have hbelow := below_of_not_root (scope_of_safePath hs hsafe) hroot
  refine Machine.confined_finish hfault ?_
  rw [removeAt, dif_pos hbelow.ne_nil]
  exact confined_remove hbelow _

theorem filesMkdir_confined : Confined filesystem m.tree (filesMkdir m s path).tree := by
  refine filesMkdir_cases (P := fun a => Confined filesystem m.tree a.tree)
    (fun _ _ _ => confined_refl _ _) fun _ parent leaf hdest _ _ hroom => ?_
  refine Machine.confined_finish hfault fun q hq => ?_
  rw [Tree.node_insert, if_neg]
  rintro rfl
  exact hq (below_concat (scope_of_destination hs hdest).1)

theorem filesRename_confined : Confined filesystem m.tree (filesRename m s src dst).tree := by
  refine filesRename_cases (P := fun a => Confined filesystem m.tree a.tree)
    (fun _ _ _ => confined_refl _ _) (confined_refl _ _)
    fun source parent leaf hsafe hroot _ _ hl => ?_
  have hsource := below_of_not_root (scope_of_safePath hs hsafe) hroot
  refine Machine.confined_finish hfault fun q hq => ?_
  rw [moveAt, dif_pos hsource.ne_nil, Tree.move, confined_remove hsource _ q hq]
  exact confined_graft (below_concat (scope_of_destination hs hl.dest).1) _ q hq

theorem filesCopy_confined : Confined filesystem m.tree (filesCopy m s src dst).tree := by
  refine filesCopy_cases (P := fun a => Confined filesystem m.tree a.tree)
    (fun _ _ _ => confined_refl _ _) fun source parent leaf _ _ hdest => ?_
  exact Machine.confined_finish hfault
    (confined_graft (below_concat (scope_of_destination hs hdest).1) _)

end Changes

end Nasty.Files
