import Nasty.Files.Handlers
import Nasty.Lib.Disk

/-!
# Restoring from a snapshot

An item of a snapshot is put back over the live subvolume. The live place is derived from the text
of the item's resolved path; directories are merged, everything else is replaced.

1. `restoreLeaf`, `restoreLoop`: one file or link, and the stack of directories still to do.
2. `deriveRestoreDest`, `filesRestore`: the handler.
3. `Restored`: what is at the live place afterwards. `restoreLoop_dir` reaches it for a directory of
   any depth, with whatever is below it on the stack left to do.
4. `restoreTo_spec`: an item of either kind.
-/

namespace Nasty.Files

open FileTree List Disk

/-! ## One entry -/

def display (p : Path) : String := "/" ++ String.intercalate "/" p

abbrev Outcome := Except (String × Disk) Disk

/-- `pin_parent` succeeds: no link is above an entry of a tree, and `/` cannot be pinned. -/
def pinsParent (t : Tree) (p : Path) : Prop := p.dropLast ≠ [] ∧ t.node p.dropLast = some .dir

instance (t : Tree) (p : Path) : Decidable (pinsParent t p) := inferInstanceAs (Decidable (_ ∧ _))

def removeExisting (reason : String) (d : Disk) (p : Path) : Outcome :=
  if pinsParent d.tree p then
    if h : p ≠ [] then .ok (d.erase p h) else .error ("rm " ++ display p ++ ": " ++ reason, d)
  else .error ("rm " ++ display p ++ ": " ++ reason, d)

def createAt (what reason : String) (d : Disk) (p : Path) (n : Node) : Outcome :=
  if h : d.tree.Room p then .ok (d.create p n h) else .error (what ++ ": " ++ reason, d)

def copySymlink (reason : String) (d : Disk) (src dst : Path) (target : String) : Outcome :=
  if pinsParent d.tree src ∧ pinsParent d.tree dst then
    createAt ("symlink " ++ display src ++ " -> " ++ display dst) reason d dst (.link target)
  else .error ("symlink " ++ display src ++ " -> " ++ display dst ++ ": " ++ reason, d)

/-- `copy_regular_file` with `replace`: overwritten in place, and cut before anything is read. -/
def copyRegularFile (reason : String) (d : Disk) (src dst : Path) (content : List UInt8) :
    Outcome :=
  if isFile (d.tree.node dst) then
    .ok (d.write dst (if d.inode src = d.inode dst then [] else content))
  else createAt ("copy " ++ display src ++ " -> " ++ display dst) reason d dst (.file content)

def copyFile (reason : String) (d : Disk) (src dst : Path) : Outcome :=
  match d.tree.node src with
  | some (.file content) =>
    if pinsParent d.tree src ∧ pinsParent d.tree dst then copyRegularFile reason d src dst content
    else .error ("copy " ++ display src ++ " -> " ++ display dst ++ ": " ++ reason, d)
  | _ => .error ("copy " ++ display src ++ " -> " ++ display dst ++ ": " ++ reason, d)

def clearForFile (reason : String) (d : Disk) (dst : Path) : Outcome :=
  match d.tree.node dst with
  | none | some (.file _) => .ok d
  | some _ => removeExisting reason d dst

def restoreLeaf (reason : String) (d : Disk) (src dst : Path) : Outcome :=
  match d.tree.node src with
  | some (.link target) =>
    match removeExisting reason d dst with
    | .error e => .error e
    | .ok d => copySymlink reason d src dst target
  | _ =>
    match clearForFile reason d dst with
    | .error e => .error e
    | .ok d => copyFile reason d src dst

/-! ## The stack of directories -/

def placeDir (reason : String) (d : Disk) (dst : Path) : Outcome :=
  if pinsParent d.tree dst then
    match d.tree.node dst with
    | some .dir => .ok d
    | some _ =>
      match removeExisting reason d dst with
      | .error e => .error e
      | .ok d => createAt ("mkdir " ++ display dst) reason d dst .dir
    | none => createAt ("mkdir " ++ display dst) reason d dst .dir
  else .error ("mkdir " ++ display dst ++ ": " ++ reason, d)

abbrev Stack := List (Path × Path)

def restoreEntries (reason : String) (src dst : Path) :
    List String → Disk → Stack → Except (String × Disk) (Disk × Stack)
  | [], d, stack => .ok (d, stack)
  | n :: names, d, stack =>
    match d.tree.node (src ++ [n]) with
    | none => .error ("metadata " ++ display (src ++ [n]) ++ ": " ++ reason, d)
    | some .dir => restoreEntries reason src dst names d ((src ++ [n], dst ++ [n]) :: stack)
    | some _ =>
      match restoreLeaf reason d (src ++ [n]) (dst ++ [n]) with
      | .error e => .error e
      | .ok d => restoreEntries reason src dst names d stack

def restoreTurn (reason : String) (src dst : Path) (d : Disk) (stack : Stack) :
    Except (String × Disk) (Disk × Stack) :=
  match placeDir reason d dst with
  | .error e => .error e
  | .ok d =>
    if d.tree.node src = some .dir then restoreEntries reason src dst (d.tree.names src) d stack
    else .error ("open " ++ display src ++ ": " ++ reason, d)

/-- `none` if `fuel` turns are not enough. -/
def restoreLoop (reason : String) : ℕ → Stack → Disk → Option Outcome
  | _, [], d => some (.ok d)
  | 0, _ :: _, _ => none
  | fuel + 1, (src, dst) :: stack, d =>
    match restoreTurn reason src dst d stack with
    | .error e => some (.error e)
    | .ok (d, stack) => restoreLoop reason fuel stack d

/-! ## The handler -/

/-- The live path for the path of an item in a snapshot, both below the root of all files. -/
def deriveRestoreDest (rel : List Char) : Except String (List Char) :=
  match Text.split '/' (dropSlashes rel) with
  | filesystem :: snapshot :: rest =>
    if (filesystem :: snapshot :: rest).any fun c => c = [] ∨ c = ['.'] ∨ c = ['.', '.'] then
      .error "invalid path component"
    else
      match Text.splitOnce '@' snapshot with
      | none => .error "source is not inside a snapshot"
      | some (subvol, _) =>
        if subvol = [] then .error "invalid snapshot path"
        else .ok (Text.join ['/'] (filesystem :: subvol :: rest))
  | _ => .error "not a snapshot path (expected <filesystem>/<subvol>@<snap>/…)"

def restoreDest (t : Tree) (s : Session) (src : Path) : Except (StatusCode × String) Path :=
  match deriveRestoreDest (relText src) with
  | .error e => .error (.badRequest, e)
  | .ok liveRel =>
    match Text.rsplitOnce '/' liveRel with
    | none => .error (.badRequest, "invalid destination")
    | some (parentRel, leaf) =>
      match safePathForSession t s (String.ofList parentRel) with
      | .error _ => .error (.conflict, "the live location for '" ++ String.ofList liveRel ++
          "' no longer exists — clone the snapshot instead")
      | .ok parent =>
        if isInsideBlockSubvolume t parent then
          .error (.forbidden, "cannot restore into block subvolume contents")
        else if filesRoot <+: parent ++ [String.ofList leaf] then
          .ok (parent ++ [String.ofList leaf])
        else .error (.forbidden, "invalid destination path")

structure Host where
  /-- What the system says of an operation that it refuses. -/
  reason : String
  /-- An I/O error while one path is restored to another, and the disk that it leaves. -/
  fault : Disk → Path → Path → Option (String × Disk)

def restoreTo (host : Host) (fuel : ℕ) (d : Disk) (src dst : Path) : Option Outcome :=
  match host.fault d src dst with
  | some failure => some (.error failure)
  | none =>
    match d.tree.node src with
    | none => some (.error ("stat source: " ++ host.reason, d))
    | some .dir => restoreLoop host.reason fuel [(src, dst)] d
    | some _ => some (restoreLeaf host.reason d src dst)

structure Reply where
  status : StatusCode
  error : Option String
  restored : ℕ
  disk : Disk

def restoreItem (host : Host) (fuel : ℕ) (s : Session) (d : Disk) (item : String) :
    Option (Except (StatusCode × String × Disk) Disk) :=
  match safePathForSession d.tree s item with
  | .error status => some (.error (status, "invalid source path: " ++ item, d))
  | .ok src =>
    if isInsideBlockSubvolume d.tree src then
      some (.error (.forbidden,
        "cannot restore block subvolume contents — manage via the Subvolumes page", d))
    else
      match restoreDest d.tree s src with
      | .error (status, e) => some (.error (status, e, d))
      | .ok dst =>
        (restoreTo host fuel d src dst).map fun
          | .error (e, left) => .error (.internalServerError, e, left)
          | .ok d => .ok d

def restoreItems (host : Host) (fuel : ℕ) (s : Session) : ℕ → Disk → List String → Option Reply
  | restored, d, [] => some ⟨.ok, none, restored, d⟩
  | restored, d, item :: items =>
    match restoreItem host fuel s d item with
    | none => none
    | some (.error (status, e, left)) => some ⟨status, some e, restored, left⟩
    | some (.ok d) => restoreItems host fuel s (restored + 1) d items

def filesRestore (host : Host) (fuel : ℕ) (s : Session) (d : Disk) (items : List String) :
    Option Reply :=
  if items = [] then some ⟨.badRequest, some "no items to restore", 0, d⟩
  else restoreItems host fuel s 0 d items

/-! ## What is left at the live place -/

def isLeaf : Option Node → Bool
  | some (.file _) | some (.link _) => true
  | _ => false

theorem isLeaf_of {node : Option Node} (hnone : node ≠ none) (hdir : node ≠ some .dir) :
    isLeaf node = true := by
  cases node with
  | none => exact absurd rfl hnone
  | some n =>
    cases n with
    | dir => exact absurd rfl hdir
    | file _ | link _ => rfl

/-- What is at `src` is at `dst`; what else was below `dst` stays unless it had to make way. -/
structure Restored (t left : Tree) (src dst : Path) : Prop where
  same : ∀ r n, t.node (src ++ r) = some n → left.node (dst ++ r) = some n
  kept : ∀ r, t.node (src ++ r) = none → (∀ q, q <+: r → isLeaf (t.node (src ++ q)) = false) →
    left.node (dst ++ r) = t.node (dst ++ r)
  outside : ∀ q, ¬ dst <+: q → left.node q = t.node q

def Apart (p q : Path) : Prop := ¬ p <+: q ∧ ¬ q <+: p

variable {p q : Path}

theorem Apart.append (h : Apart p q) (r s : Path) : Apart (p ++ r) (q ++ s) := by
  constructor
  · intro hpq
    rcases prefix_or_prefix_of_prefix ((prefix_append p r).trans hpq)
      (prefix_append q s) with hp | hq
    · exact h.1 hp
    · exact h.2 hq
  intro hqp
  rcases prefix_or_prefix_of_prefix ((prefix_append q s).trans hqp)
    (prefix_append p r) with hq | hp
  · exact h.2 hq
  · exact h.1 hp

/-! ## One entry, restored -/

section

variable {reason : String} {d : Disk} {onto : Path → Prop} {src dst : Path}

theorem pinsParent.ne_nil {t : Tree} (h : pinsParent t p) : p ≠ [] := by
  rintro rfl
  exact h.1 rfl

theorem removeExisting_of_pins (h : pinsParent d.tree dst) :
    removeExisting reason d dst = .ok (d.erase dst h.ne_nil) := by
  rw [removeExisting, if_pos h, dif_pos h.ne_nil]

theorem not_prefix_dropLast (h : p ≠ []) : ¬ p <+: p.dropLast := by
  intro hp
  have hlength := hp.length_le
  have hpos := length_pos_iff.2 h
  rw [length_dropLast] at hlength
  omega

theorem room_erase (h : pinsParent d.tree dst) : (d.erase dst h.ne_nil).tree.Room dst where
  ne_root := h.ne_nil
  dir := by
    rw [node_erase, if_neg (not_prefix_dropLast h.ne_nil)]
    exact h.2
  absent := by rw [node_erase, if_pos (prefix_refl _)]

theorem room_of_absent (h : pinsParent d.tree dst) (hnone : d.tree.node dst = none) :
    d.tree.Room dst := ⟨h.ne_nil, h.2, hnone⟩

theorem node_below {t : Tree} (h : t.node p ≠ some .dir) (hpq : p <+: q) (hne : p ≠ q) :
    t.node q = none := by
  by_contra hq
  exact h (t.dir_of_prefix hq hpq hne)

theorem restored_of_leaf {t left : Tree} {n : Node} (hn : isLeaf (some n) = true)
    (hsrc : t.node src = some n) (hdst : left.node dst = some n)
    (houtside : ∀ q, ¬ dst <+: q → left.node q = t.node q) : Restored t left src dst where
  same r m hr := by
    by_cases hnil : r = []
    · subst hnil
      rw [append_nil] at hr ⊢
      rw [hdst, ← hsrc, hr]
    have hbelow : t.node (src ++ r) = none := by
      refine node_below ?_ (prefix_append _ _) (by simpa using hnil)
      rw [hsrc]
      rintro ⟨⟩
      cases hn
    rw [hbelow] at hr
    cases hr
  kept r _ hleaf := by
    have := hleaf [] nil_prefix
    rw [append_nil, hsrc, hn] at this
    cases this
  outside := houtside

theorem pinsParent.erase (hp : pinsParent d.tree p) (hdst : dst ≠ [])
    (hbelow : ¬ dst <+: p.dropLast) : pinsParent (d.erase dst hdst).tree p := by
  refine ⟨hp.1, ?_⟩
  rw [node_erase, if_neg hbelow]
  exact hp.2

theorem Apart.not_prefix_dropLast (h : Apart src dst) : ¬ dst <+: src.dropLast :=
  fun hdst => h.2 (hdst.trans ( dropLast_prefix _))

theorem restored_of_create_erase {n : Node} (hn : isLeaf (some n) = true)
    (hsrc : d.tree.node src = some n) (h : pinsParent d.tree dst) :
    Restored d.tree ((d.erase dst h.ne_nil).create dst n (room_erase h)).tree src dst := by
  refine restored_of_leaf hn hsrc ?_ fun q hq => ?_
  · rw [node_create, if_pos rfl]
  · have hne : q ≠ dst := fun heq => hq (heq ▸ prefix_refl _)
    rw [node_create, if_neg hne, node_erase, if_neg hq]

def RestoresLeaf (reason : String) (onto : Path → Prop) (d : Disk) (src dst : Path) : Prop :=
  ∃ d', restoreLeaf reason d src dst = .ok d' ∧ Restored d.tree d'.tree src dst ∧ d'.Sole onto

theorem restoreLeaf_link {target : String} (hsrc : d.tree.node src = some (.link target))
    (hs : pinsParent d.tree src) (hd : pinsParent d.tree dst) (hapart : Apart src dst)
    (hsole : d.Sole onto) :
    RestoresLeaf reason onto d src dst := by
  refine ⟨_, ?_, restored_of_create_erase rfl hsrc hd, (hsole.erase hd.ne_nil).create _⟩
  have hs' := hs.erase hd.ne_nil hapart.not_prefix_dropLast
  have hd' := hd.erase hd.ne_nil (not_prefix_dropLast hd.ne_nil)
  unfold restoreLeaf
  simp only [hsrc, removeExisting_of_pins hd]
  rw [copySymlink, if_pos ⟨hs', hd'⟩, createAt, dif_pos (room_erase hd)]

variable {content : List UInt8}

section

variable (hsrc : d.tree.node src = some (.file content))
include hsrc

theorem restored_of_write (hdst : isFile (d.tree.node dst) = true) (honto : onto dst)
    (hsole : d.Sole onto) : Restored d.tree (d.write dst content).tree src dst := by
  refine restored_of_leaf rfl hsrc ?_ fun q hq => ?_
  · rw [hsole.node_write honto hdst, if_pos rfl]
  · have hne : q ≠ dst := fun heq => hq (heq ▸ prefix_refl _)
    rw [hsole.node_write honto hdst, if_neg hne]

section

variable (hs : pinsParent d.tree src)
include hs

section

variable (hd : pinsParent d.tree dst)
include hd

theorem copyFile_write
    (hdst : isFile (d.tree.node dst) = true) (hapart : Apart src dst) (honto : onto dst)
    (hsole : d.Sole onto) : copyFile reason d src dst = .ok (d.write dst content) := by
  have hinode : d.inode src ≠ d.inode dst := by
    intro heq
    have hsame := hsole dst src honto hdst (by rw [hsrc]; rfl) heq.symm
    exact hapart.1 (hsame ▸ prefix_refl _)
  unfold copyFile
  simp only [hsrc]
  rw [if_pos ⟨hs, hd⟩, copyRegularFile, if_pos hdst, if_neg hinode]

theorem copyFile_create (hroom : d.tree.Room dst) :
    copyFile reason d src dst = .ok (d.create dst (.file content) hroom) := by
  have hfile : ¬ isFile (d.tree.node dst) = true := by
    rw [hroom.absent]
    nofun
  unfold copyFile
  simp only [hsrc]
  rw [if_pos ⟨hs, hd⟩, copyRegularFile, if_neg hfile, createAt, dif_pos hroom]

theorem restoreLeaf_replace (hapart : Apart src dst) (hsole : d.Sole onto)
    (hclear : clearForFile reason d dst = removeExisting reason d dst) :
    RestoresLeaf reason onto d src dst := by
  refine ⟨_, ?_, restored_of_create_erase rfl hsrc hd, (hsole.erase hd.ne_nil).create _⟩
  have hs' := hs.erase hd.ne_nil hapart.not_prefix_dropLast
  have hd' := hd.erase hd.ne_nil (not_prefix_dropLast hd.ne_nil)
  have hsrc' : (d.erase dst hd.ne_nil).tree.node src = some (.file content) := by
    rw [node_erase, if_neg hapart.2, hsrc]
  unfold restoreLeaf
  simp only [hsrc, hclear, removeExisting_of_pins hd]
  exact copyFile_create hsrc' hs' hd' (room_erase hd)

theorem restoreLeaf_file (hapart : Apart src dst) (honto : onto dst) (hsole : d.Sole onto) :
    RestoresLeaf reason onto d src dst := by
  cases hdst : d.tree.node dst with
  | none =>
    have hroom := room_of_absent hd hdst
    refine ⟨d.create dst (.file content) hroom, ?_, ?_, hsole.create hroom⟩
    · unfold restoreLeaf clearForFile
      simp only [hsrc, hdst]
      exact copyFile_create hsrc hs hd hroom
    · refine restored_of_leaf rfl hsrc (by rw [node_create, if_pos rfl]) fun q hq => ?_
      rw [node_create, if_neg fun heq : q = dst => hq (heq ▸ prefix_refl _)]
  | some n =>
  cases n with
  | file old =>
    have hfile : isFile (d.tree.node dst) = true := by rw [hdst]; rfl
    refine ⟨d.write dst content, ?_, restored_of_write hsrc hfile honto hsole, hsole.write⟩
    unfold restoreLeaf clearForFile
    simp only [hsrc, hdst]
    exact copyFile_write hsrc hs hd hfile hapart honto hsole
  | dir => exact restoreLeaf_replace hsrc hs hd hapart hsole (by rw [clearForFile, hdst])
  | link target =>
    exact restoreLeaf_replace hsrc hs hd hapart hsole (by rw [clearForFile, hdst])

end

end

end

/-- **One leaf.** -/
theorem restoreLeaf_spec (reason : String) (hleaf : isLeaf (d.tree.node src) = true)
    (hs : pinsParent d.tree src) (hd : pinsParent d.tree dst) (hapart : Apart src dst)
    (honto : isFile (d.tree.node src) = true → onto dst) (hsole : d.Sole onto) :
    RestoresLeaf reason onto d src dst := by
  cases hsrc : d.tree.node src with
  | none =>
    rw [hsrc] at hleaf
    cases hleaf
  | some n =>
  cases n with
  | dir =>
    rw [hsrc] at hleaf
    cases hleaf
  | file content => exact restoreLeaf_file hsrc hs hd hapart (honto (by rw [hsrc]; rfl)) hsole
  | link target => exact restoreLeaf_link hsrc hs hd hapart hsole

theorem placeDir_spec (reason : String) (hd : pinsParent d.tree dst) (hsole : d.Sole onto) :
    ∃ d', placeDir reason d dst = .ok d' ∧ d'.tree.node dst = some .dir ∧
      (∀ q, q ≠ dst → d'.tree.node q = d.tree.node q) ∧ d'.Sole onto := by
  have hreplace : d.tree.node dst ≠ some .dir → ∀ q, q ≠ dst →
      ((d.erase dst hd.ne_nil).create dst .dir (room_erase hd)).tree.node q = d.tree.node q := by
    intro hdir q hq
    rw [node_create, if_neg hq, node_erase]
    split_ifs with hbelow
    · exact (node_below hdir hbelow hq.symm).symm
    · rfl
  have hok : ∀ n, n ≠ Node.dir → d.tree.node dst = some n → placeDir reason d dst =
      .ok ((d.erase dst hd.ne_nil).create dst .dir (room_erase hd)) := by
    intro n hn hdst
    rw [placeDir, if_pos hd, hdst]
    cases n with
    | dir => exact absurd rfl hn
    | file _ | link _ => simp only [removeExisting_of_pins hd, createAt, dif_pos (room_erase hd)]
  cases hdst : d.tree.node dst with
  | none =>
    have hroom := room_of_absent hd hdst
    refine ⟨d.create dst .dir hroom, ?_, by rw [node_create, if_pos rfl], fun q hq => ?_,
      hsole.create hroom⟩
    · rw [placeDir, if_pos hd, hdst]
      simp only [createAt, dif_pos hroom]
    · rw [node_create, if_neg hq]
  | some n =>
  by_cases hn : n = .dir
  · subst hn
    exact ⟨d, by rw [placeDir, if_pos hd, hdst], hdst, fun _ _ => rfl, hsole⟩
  have hdir : d.tree.node dst ≠ some .dir := by
    rw [hdst]
    exact fun heq => hn (Option.some.inj heq)
  exact ⟨_, hok n hn hdst, by rw [node_create, if_pos rfl], hreplace hdir,
    (hsole.erase hd.ne_nil).create _⟩

end

/-! ## The entries of one directory -/

/-- The entries of `src` that `names` holds of are restored into `dst`, and the others are not
touched. -/
structure Done (t left : Tree) (src dst : Path) (names : String → Prop) : Prop where
  same : ∀ n, names n → ∀ r m, t.node (src ++ [n] ++ r) = some m →
    left.node (dst ++ [n] ++ r) = some m
  kept : ∀ n, names n → ∀ r, t.node (src ++ [n] ++ r) = none →
    (∀ q, q <+: r → isLeaf (t.node (src ++ [n] ++ q)) = false) →
      left.node (dst ++ [n] ++ r) = t.node (dst ++ [n] ++ r)
  outside : ∀ q, (∀ n, names n → ¬ dst ++ [n] <+: q) → left.node q = t.node q

theorem eq_of_entry_below {r : Path} {m n : String} (h : p ++ [m] <+: p ++ [n] ++ r) : m = n := by
  rw [append_assoc, prefix_append_right_inj] at h
  exact (cons_prefix_cons.1 h).1

section Directory

variable {reason : String} {t left mid : Tree} {onto : Path → Prop} {src dst : Path}
  {names names' : String → Prop} {n : String}

theorem Apart.ne_nil (h : Apart src dst) : src ≠ [] ∧ dst ≠ [] := by
  constructor <;> rintro rfl
  · exact h.1 nil_prefix
  · exact h.2 nil_prefix

theorem Done.start (t : Tree) (src dst : Path) : Done t t src dst fun _ => False where
  same _ h := h.elim
  kept _ h := h.elim
  outside _ _ := rfl

section

variable (h : Done t left src dst names)
include h

theorem Done.congr (hiff : ∀ n, names n ↔ names' n) : Done t left src dst names' := by
  obtain rfl : names = names' := funext fun n => propext (hiff n)
  exact h

theorem Done.source (hapart : Apart src dst) (r : Path) :
    left.node (src ++ r) = t.node (src ++ r) := by
  refine h.outside _ fun n _ hbelow => ?_
  exact (hapart.append r [n]).2 hbelow

theorem Done.into : left.node dst = t.node dst := by
  refine h.outside _ fun n _ hbelow => ?_
  have hlength := hbelow.length_le
  rw [length_append, length_singleton] at hlength
  omega

end

theorem Done.step (h : Done t mid src dst names) (hapart : Apart src dst) (hfresh : ¬ names n)
    (hstep : Restored mid left (src ++ [n]) (dst ++ [n])) :
    Done t left src dst fun m => names m ∨ m = n := by
  have hother : ∀ m, names m → ∀ r, left.node (dst ++ [m] ++ r) = mid.node (dst ++ [m] ++ r) := by
    intro m hm r
    refine hstep.outside _ fun hbelow => hfresh ?_
    rw [eq_of_entry_below hbelow]
    exact hm
  have hsource : ∀ r, mid.node (src ++ [n] ++ r) = t.node (src ++ [n] ++ r) := by
    intro r
    rw [append_assoc]
    exact h.source hapart _
  have hplace : ∀ r, mid.node (dst ++ [n] ++ r) = t.node (dst ++ [n] ++ r) := by
    intro r
    refine h.outside _ fun m hm hbelow => hfresh ?_
    rw [← eq_of_entry_below hbelow]
    exact hm
  refine ⟨fun m hm r node hnode => ?_, fun m hm r hnone hleaf => ?_, fun q hq => ?_⟩
  · rcases hm with hm | rfl
    · rw [hother m hm]
      exact h.same m hm r node hnode
    · exact hstep.same r node (by rw [hsource, hnode])
  · rcases hm with hm | rfl
    · rw [hother m hm]
      exact h.kept m hm r hnone hleaf
    rw [← hplace]
    refine hstep.kept r (by rw [hsource, hnone]) fun q hq => ?_
    rw [hsource]
    exact hleaf q hq
  · rw [hstep.outside q (hq n (.inr rfl))]
    exact h.outside q fun m hm => hq m (.inl hm)

theorem restored_of_done {t₁ : Tree} (hdir : t.node src = some .dir)
    (hplace : t₁.node dst = some .dir) (hsame : ∀ q, q ≠ dst → t₁.node q = t.node q)
    (hapart : Apart src dst) (h : Done t₁ left src dst (· ∈ t₁.names src)) :
    Restored t left src dst := by
  have hsource : ∀ r, t₁.node (src ++ r) = t.node (src ++ r) := by
    intro r
    refine hsame _ fun heq => hapart.1 ?_
    rw [← heq]
    exact prefix_append _ _
  have hbelow : ∀ n r, t₁.node (dst ++ [n] ++ r) = t.node (dst ++ [n] ++ r) := by
    intro n r
    refine hsame _ fun heq => ?_
    have hlength := congrArg List.length heq
    simp only [length_append, length_singleton] at hlength
    omega
  have hcons : ∀ (p r : Path) (n : String), p ++ n :: r = p ++ [n] ++ r := by simp
  refine ⟨fun r m hr => ?_, fun r hnone hleaf => ?_, fun q hq => ?_⟩
  · cases r with
    | nil =>
      rw [append_nil] at hr ⊢
      rw [h.into, hplace, ← hdir, hr]
    | cons n r =>
    rw [← hsource, hcons] at hr
    rw [hcons]
    refine h.same n (Tree.mem_names.2 fun hnone => ?_) r m hr
    rw [node_below (by rw [hnone]; nofun) (prefix_append (src ++ [n]) r)] at hr
    · cases hr
    · intro heq
      rw [← heq, hnone] at hr
      cases hr
  · cases r with
    | nil =>
      rw [append_nil, hdir] at hnone
      cases hnone
    | cons n r =>
    rw [hcons, ← hbelow]
    by_cases hn : n ∈ t₁.names src
    · refine h.kept n hn r (by rw [← hcons, hsource, hnone]) fun q hq => ?_
      rw [← hcons, hsource]
      exact hleaf (n :: q) (cons_prefix_cons.2 ⟨rfl, hq⟩)
    · refine h.outside _ fun m hm hprefix => hn ?_
      rw [← eq_of_entry_below hprefix]
      exact hm
  · rw [h.outside q fun n _ hprefix => hq ((prefix_append dst [n]).trans hprefix)]
    exact hsame q fun heq => hq (heq ▸ prefix_refl _)

/-- Both directories are there, and `onto` holds of the places that get a file. -/
structure Merging (t : Tree) (onto : Path → Prop) (src dst : Path) : Prop where
  source : t.node src = some .dir
  into : t.node dst = some .dir
  apart : Apart src dst
  onto : ∀ r, isFile (t.node (src ++ r)) = true → onto (dst ++ r)

variable {d : Disk}

theorem Merging.pins (h : Merging t onto src dst) (hdone : Done t d.tree src dst names)
    (n : String) : pinsParent d.tree (src ++ [n]) ∧ pinsParent d.tree (dst ++ [n]) := by
  have hsource := hdone.source h.apart []
  rw [append_nil, h.source] at hsource
  constructor
  · exact ⟨by rw [dropLast_concat]; exact h.apart.ne_nil.1, by rwa [dropLast_concat]⟩
  · refine ⟨by rw [dropLast_concat]; exact h.apart.ne_nil.2, ?_⟩
    rw [dropLast_concat, hdone.into, h.into]

def subdirs (t : Tree) (src : Path) (l : List String) : List String :=
  (l.filter fun n => t.node (src ++ [n]) = some .dir).reverse

def pairs (src dst : Path) (l : List String) : Stack := l.map fun n => (src ++ [n], dst ++ [n])

theorem restoreEntries_spec (reason : String) (h : Merging t onto src dst) (l : List String)
    (hl : l.Nodup) (hpresent : ∀ n ∈ l, t.node (src ++ [n]) ≠ none) (hfresh : ∀ n ∈ l, ¬ names n)
    (hdone : Done t d.tree src dst names) (hsole : d.Sole onto) :
    ∃ d', (∀ stack, restoreEntries reason src dst l d stack =
        .ok (d', pairs src dst (subdirs t src l) ++ stack)) ∧
      Done t d'.tree src dst
        (fun n => names n ∨ n ∈ l ∧ t.node (src ++ [n]) ≠ some .dir) ∧ d'.Sole onto := by
  induction l generalizing d names with
  | nil => exact ⟨d, fun _ => rfl, hdone.congr fun n => by simp, hsole⟩
  | cons n l ih =>
  obtain ⟨hnl, hl⟩ := nodup_cons.1 hl
  have hrest : ∀ m ∈ l, t.node (src ++ [m]) ≠ none :=
    fun m hm => hpresent m (mem_cons_of_mem _ hm)
  have hsrc : d.tree.node (src ++ [n]) = t.node (src ++ [n]) := hdone.source h.apart [n]
  by_cases hdir : t.node (src ++ [n]) = some .dir
  · obtain ⟨d', hok, hdone', hsole'⟩ := ih hl hrest
      (fun m hm => hfresh m (mem_cons_of_mem _ hm)) hdone hsole
    refine ⟨d', fun stack => ?_, hdone'.congr fun m => ?_, hsole'⟩
    · rw [restoreEntries, hsrc]
      simp only [hok]
      simp [pairs, subdirs, hdir]
    · by_cases hm : m = n
      · simp [hm, hdir]
      · simp [hm]
  · have hleaf : isLeaf (d.tree.node (src ++ [n])) = true := by
      rw [hsrc]
      exact isLeaf_of (hpresent n mem_cons_self) hdir
    obtain ⟨hs, hd⟩ := h.pins hdone n
    obtain ⟨d₁, hok₁, hstep, hsole₁⟩ := restoreLeaf_spec reason hleaf hs hd
      (h.apart.append [n] [n]) (fun hfile => h.onto [n] (hsrc ▸ hfile)) hsole
    have hdone₁ := hdone.step h.apart (hfresh n mem_cons_self) hstep
    obtain ⟨d', hok, hdone', hsole'⟩ := ih hl hrest
      (fun m hm => by
        rintro (hold | rfl)
        · exact hfresh m (mem_cons_of_mem _ hm) hold
        · exact hnl hm) hdone₁ hsole₁
    refine ⟨d', fun stack => ?_, hdone'.congr fun m => ?_, hsole'⟩
    · rw [restoreEntries]
      split
      · next hnone => exact absurd (hsrc.symm.trans hnone) (hpresent n mem_cons_self)
      · next hnode => exact absurd (hsrc.symm.trans hnode) hdir
      · simp only [hok₁, hok]
        simp [subdirs, hdir]
    · by_cases hm : m = n
      · simp [hm, hdir]
      · simp [hm]

end Directory

/-! ## The whole loop -/

/-- A directory of depth below `k` is popped and restored, and the loop goes on below it. -/
def Reaches (reason : String) (onto : Path → Prop) (k : ℕ) : Prop :=
  ∀ (d : Disk) (src dst : Path), d.tree.node src = some .dir →
    (∀ r, d.tree.node (src ++ r) ≠ none → r.length < k) → pinsParent d.tree dst →
    Apart src dst → (∀ r, isFile (d.tree.node (src ++ r)) = true → onto (dst ++ r)) →
    d.Sole onto →
    ∃ d' turns, Restored d.tree d'.tree src dst ∧ d'.Sole onto ∧
      ∀ fuel stack, restoreLoop reason (turns + fuel) ((src, dst) :: stack) d =
        restoreLoop reason fuel stack d'

section Loop

variable {reason : String} {t : Tree} {onto : Path → Prop} {src dst : Path}
  {names : String → Prop} {k : ℕ}

theorem restoreLoop_pairs (hreach : Reaches reason onto k) (h : Merging t onto src dst)
    (hdepth : ∀ r, t.node (src ++ r) ≠ none → r.length < k + 1) (l : List String) (hl : l.Nodup)
    (hdirs : ∀ n ∈ l, t.node (src ++ [n]) = some .dir) (hfresh : ∀ n ∈ l, ¬ names n)
    (hdone : Done t d.tree src dst names) (hsole : d.Sole onto) :
    ∃ d' turns, Done t d'.tree src dst (fun n => names n ∨ n ∈ l) ∧ d'.Sole onto ∧
      ∀ fuel stack, restoreLoop reason (turns + fuel) (pairs src dst l ++ stack) d =
        restoreLoop reason fuel stack d' := by
  induction l generalizing d names with
  | nil =>
    refine ⟨d, 0, hdone.congr fun n => by simp, hsole, fun fuel stack => ?_⟩
    rw [Nat.zero_add]
    rfl
  | cons n l ih =>
  obtain ⟨hnl, hl⟩ := nodup_cons.1 hl
  have hsrc : ∀ r, d.tree.node (src ++ [n] ++ r) = t.node (src ++ ([n] ++ r)) := by
    intro r
    rw [append_assoc]
    exact hdone.source h.apart _
  have hdir : d.tree.node (src ++ [n]) = some .dir := by
    rw [hdone.source h.apart]
    exact hdirs n mem_cons_self
  have hshallow : ∀ r, d.tree.node (src ++ [n] ++ r) ≠ none → r.length < k := by
    intro r hr
    rw [hsrc] at hr
    have := hdepth _ hr
    rw [length_append, length_singleton] at this
    omega
  obtain ⟨d₁, turns₁, hstep, hsole₁, hloop₁⟩ := hreach d (src ++ [n]) (dst ++ [n]) hdir hshallow
    (h.pins hdone n).2 (h.apart.append [n] [n])
    (fun r hfile => by rw [append_assoc]; exact h.onto _ (hsrc r ▸ hfile)) hsole
  have hdone₁ := hdone.step h.apart (hfresh n mem_cons_self) hstep
  obtain ⟨d', turns, hdone', hsole', hloop⟩ := ih hl
    (fun m hm => hdirs m (mem_cons_of_mem _ hm))
    (fun m hm => by
      rintro (hold | rfl)
      · exact hfresh m (mem_cons_of_mem _ hm) hold
      · exact hnl hm) hdone₁ hsole₁
  refine ⟨d', turns₁ + turns, hdone'.congr fun m => ?_, hsole', fun fuel stack => ?_⟩
  · rw [mem_cons, or_assoc]
  · rw [Nat.add_assoc]
    change restoreLoop reason _ ((src ++ [n], dst ++ [n]) :: (pairs src dst l ++ stack)) d = _
    rw [hloop₁, hloop]

/-- **A directory of any depth is restored.** The induction is on the depth, with the stack below
the directory arbitrary. -/
theorem restoreLoop_dir (reason : String) (onto : Path → Prop) (k : ℕ) : Reaches reason onto k := by
  induction k with
  | zero =>
    intro d src dst hdir hdepth
    have := hdepth [] (by rw [append_nil, hdir]; nofun)
    omega
  | succ k ih =>
  intro d src dst hdir hdepth hpin hapart honto hsole
  obtain ⟨d₁, hplace, hdst, hsame, hsole₁⟩ := placeDir_spec reason hpin hsole
  have hsource : ∀ r, d₁.tree.node (src ++ r) = d.tree.node (src ++ r) := by
    intro r
    refine hsame _ fun heq => hapart.1 ?_
    rw [← heq]
    exact prefix_append _ _
  have hsrc : d₁.tree.node src = some .dir := by
    have := hsource []
    rwa [append_nil, hdir] at this
  have hmerge : Merging d₁.tree onto src dst :=
    ⟨hsrc, hdst, hapart, fun r hfile => honto r (hsource r ▸ hfile)⟩
  obtain ⟨d₂, hentries, hdone₂, hsole₂⟩ := restoreEntries_spec reason hmerge
    (d₁.tree.names src) (d₁.tree.nodup_names src) (fun n => Tree.mem_names.1) (fun _ _ => id)
    (Done.start d₁.tree src dst) hsole₁
  obtain ⟨d', turns, hdone', hsole', hloop⟩ := restoreLoop_pairs ih hmerge
    (fun r hr => hdepth r (by rwa [← hsource]))
    (subdirs d₁.tree src (d₁.tree.names src))
    (nodup_reverse.2 ((d₁.tree.nodup_names src).filter _))
    (fun n hn => by simpa using (mem_filter.1 (mem_reverse.1 hn)).2)
    (fun n hn => by
      rintro (hfalse | ⟨-, hno⟩)
      · exact hfalse
      · exact hno (by simpa using (mem_filter.1 (mem_reverse.1 hn)).2))
    hdone₂ hsole₂
  refine ⟨d', turns + 1, ?_, hsole', fun fuel stack => ?_⟩
  · refine restored_of_done hdir hdst hsame hapart (hdone'.congr fun n => ?_)
    simp only [subdirs, mem_reverse, mem_filter, decide_eq_true_eq]
    tauto
  have hturn : restoreTurn reason src dst d stack =
      .ok (d₂, pairs src dst (subdirs d₁.tree src (d₁.tree.names src)) ++ stack) := by
    unfold restoreTurn
    simp only [hplace]
    rw [if_pos hsrc, hentries]
  rw [Nat.add_right_comm, restoreLoop, hturn]
  exact hloop fuel stack

theorem restoreLoop_nil (reason : String) (fuel : ℕ) (d : Disk) :
    restoreLoop reason fuel [] d = some (.ok d) := by
  cases fuel <;> rfl

/-- Where the item has a file: a file that is there is overwritten in place. -/
def Overwritten (t : Tree) (src dst p : Path) : Prop :=
  dst <+: p ∧ isFile (t.node (src ++ p.drop dst.length)) = true

instance (t : Tree) (src dst p : Path) : Decidable (Overwritten t src dst p) :=
  inferInstanceAs (Decidable (_ ∧ _))

theorem overwritten_append {r : Path} (h : isFile (t.node (src ++ r)) = true) :
    Overwritten t src dst (dst ++ r) := ⟨prefix_append _ _, by rwa [drop_left]⟩

/-- **One item is restored**, given enough turns. -/
theorem restoreTo_spec {host : Host} (hio : host.fault d src dst = none)
    (hpresent : d.tree.node src ≠ none) (hsrc : pinsParent d.tree src)
    (hdst : pinsParent d.tree dst) (hapart : Apart src dst)
    (hsole : d.Sole (Overwritten d.tree src dst)) :
    ∃ enough left, Restored d.tree left.tree src dst ∧
      ∀ fuel, enough ≤ fuel → restoreTo host fuel d src dst = some (.ok left) := by
  by_cases hdir : d.tree.node src = some .dir
  · obtain ⟨left, turns, hrestored, -, hloop⟩ := restoreLoop_dir host.reason _
      (d.tree.paths.flatten.length + 1) d src dst hdir
      (fun r hr => by
        have := d.tree.length_lt hr
        rw [length_append] at this
        omega) hdst hapart (fun _ => overwritten_append) hsole
    refine ⟨turns, left, hrestored, fun fuel hfuel => ?_⟩
    obtain ⟨more, rfl⟩ := Nat.exists_eq_add_of_le hfuel
    rw [restoreTo, hio, hdir]
    exact (hloop more []).trans (restoreLoop_nil host.reason more left)
  · obtain ⟨left, hok, hrestored, -⟩ := restoreLeaf_spec host.reason (isLeaf_of hpresent hdir)
      hsrc hdst hapart (fun hfile => ⟨prefix_refl _, by simpa using hfile⟩) hsole
    refine ⟨0, left, hrestored, fun fuel _ => ?_⟩
    simp only [restoreTo, hio]
    split
    · next hnone => exact absurd hnone hpresent
    · next hnode => exact absurd hnode hdir
    · rw [hok]

end Loop

end Nasty.Files
