import Mathlib.Algebra.GroupWithZero.Nat
import Nasty.Guest.Records
import Nasty.Guest.ZipNames

/-!
# Guest archives

`prepareArchive` opens the roots of a share and names them; `writeShareZip` walks each root with
an explicit stack and writes one entry for every regular file that it can open. The walk may be
cut short at any step: by a limit, by an I/O error, or by a client that goes away.

The names are first listed for a whole tree, as lists of components (`Node.paths`), where they
are distinct because the names in a directory are. The walk writes some of these entries, each
at most once (`walk_sublist`).
-/

namespace Nasty.Guest

open List

/-! ## Trees -/

mutual

/-- What is neither a regular file nor a directory, or cannot be opened, is `special`. -/
inductive Node
  | file (size : ℕ)
  | directory (entries : Entries)
  | special

/-- The entries that `entry_names` lists: those of the directory without `.` and `..`. -/
inductive Entries
  | nil
  | cons (name : ByteArray) (node : Node) (rest : Entries)

end

def Entries.names : Entries → List ByteArray
  | .nil => []
  | .cons name _ rest => name :: rest.names

def Entries.length : Entries → ℕ
  | .nil => 0
  | .cons _ _ rest => rest.length + 1

mutual

def Node.WellFormed : Node → Prop
  | .directory entries => entries.WellFormed
  | .file _ | .special => True

def Entries.WellFormed : Entries → Prop
  | .nil => True
  | .cons name node rest =>
    name ≠ ByteArray.empty ∧ name ∉ rest.names ∧ node.WellFormed ∧ rest.WellFormed

end

structure Filesystem where
  openRootBeneath : String → Option Node
  wellFormed : ∀ path node, openRootBeneath path = some node → node.WellFormed

/-! ## Preparing -/

structure PreparedArchiveRoot where
  node : Node
  name : String

/-- `Path::file_name`: the last component, unless that is `..`. -/
def fileName (path : String) : Option String :=
  match ((path.toList.splitOn '/').filter fun c => c ≠ [] ∧ c ≠ ['.']).getLast? with
  | some last => if last = ['.', '.'] then none else some (String.ofList last)
  | none => none

def prepareRoots (fs : Filesystem) (rootNames : List String) :
    List String → Option (List PreparedArchiveRoot)
  | [] => some []
  | path :: paths => do
    let name :=
      uniqueZipRootName (safeZipComponent ((fileName path).getD "share").toUTF8) rootNames
    let node ← fs.openRootBeneath path
    let roots ← prepareRoots fs (name :: rootNames) paths
    return ⟨node, name⟩ :: roots

/-- `permits`: how many more archives may be streamed. -/
def prepareArchive (fs : Filesystem) (permits : ℕ) (share : GuestShare) :
    Option (List PreparedArchiveRoot) :=
  if permits = 0 then none
  else if share.paths = [] ∨ share.paths.length > maxShareRoots then none
  else prepareRoots fs [] share.paths

/-! ## Writing -/

def maxArchiveEntries : ℕ := 50000
def maxArchiveDirectoryEntries : ℕ := 25000
def maxArchiveDepth : ℕ := 64
def maxArchivePathBytes : ℕ := 65535
def maxArchiveTotalPathBytes : ℕ := 16 * 1024 * 1024
def maxArchiveUncompressedBytes : ℕ := 16 * 1024 * 1024 * 1024 * 1024

inductive ArchiveError
  | limit (message : String)
  | io

inductive Ending
  | cancelled
  | failed (error : ArchiveError)

/-- What happens around one step of the writer: an I/O error comes before or after the entry is
begun. -/
inductive Signal
  | go
  | cancelled
  | fault (begun : Bool)
  deriving DecidableEq

inductive ArchiveWork
  | node (node : Node) (name : String) (depth : ℕ)
  | directory (entries : Entries) (path : String) (depth : ℕ)

structure Zip where
  entryCount : ℕ
  totalPathBytes : ℕ
  totalSize : ℕ
  /-- The names of the entries begun so far. -/
  entries : List String
  ticks : ℕ

def Zip.empty : Zip := ⟨0, 0, 0, [], 0⟩

def Zip.tick (z : Zip) : Zip := { z with ticks := z.ticks + 1 }

def limit (z : Zip) (message : String) {α : Type} : Zip × Except Ending α :=
  (z, .error (.failed (.limit message)))

def writeFile (signal : Signal) (z : Zip) (size : ℕ) (name : String) (stack : List ArchiveWork) :
    Zip × Except Ending (List ArchiveWork) :=
  if signal = .fault false then (z, .error (.failed .io))
  else if z.totalPathBytes + name.utf8ByteSize > maxArchiveTotalPathBytes then
    limit z "archive path metadata limit exceeded"
  else if z.totalSize + size > maxArchiveUncompressedBytes then
    limit z "archive byte limit exceeded"
  else
    ({ z with
        totalPathBytes := z.totalPathBytes + name.utf8ByteSize
        totalSize := z.totalSize + size
        entries := z.entries ++ [name] },
      if signal = .go then .ok stack else .error (.failed .io))

def listDirectory (signal : Signal) (z : Zip) (entries : Entries) (name : String) (depth : ℕ)
    (stack : List ArchiveWork) : Zip × Except Ending (List ArchiveWork) :=
  if signal ≠ .go then (z, .error (.failed .io))
  else if entries.length > min (maxArchiveEntries - z.entryCount) maxArchiveDirectoryEntries then
    limit z "directory exceeds archive entry limit"
  else
    ({ z with entryCount := z.entryCount + entries.length },
      .ok (.directory entries name depth :: stack))

/-- `open_child`: an error here skips the entry. -/
def openChild (signal : Signal) : Node → Option Node
  | .special => none
  | node => if signal = .go then some node else none

def visitChild (signal : Signal) (z : Zip) (childName : ByteArray) (child : Node)
    (entries : Entries) (path : String) (depth : ℕ) (stack : List ArchiveWork) :
    Zip × Except Ending (List ArchiveWork) :=
  if depth + 1 > maxArchiveDepth then limit z "archive depth limit exceeded"
  else
    let archiveName := path ++ "/" ++ safeZipComponent childName
    if archiveName.utf8ByteSize > maxArchivePathBytes then
      limit z "archive path length limit exceeded"
    else
      let stack := .directory entries path depth :: stack
      match openChild signal child with
      | some node => (z, .ok (.node node archiveName (depth + 1) :: stack))
      | none => (z, .ok stack)

def step (signal : Signal) (z : Zip) (work : ArchiveWork) (stack : List ArchiveWork) :
    Zip × Except Ending (List ArchiveWork) :=
  if signal = .cancelled then (z, .error .cancelled)
  else match work with
    | .node (.file size) name _ => writeFile signal z size name stack
    | .node (.directory entries) name depth => listDirectory signal z entries name depth stack
    -- not reached: only what was opened is put on the stack
    | .node .special _ _ => (z, .ok stack)
    | .directory .nil _ _ => (z, .ok stack)
    | .directory (.cons name child rest) path depth =>
      visitChild signal z name child rest path depth stack

mutual

def Node.weight : Node → ℕ
  | .directory entries => entries.weight + 1
  | .file _ | .special => 1

def Entries.weight : Entries → ℕ
  | .nil => 1
  | .cons _ node rest => node.weight + rest.weight + 1

end

def ArchiveWork.weight : ArchiveWork → ℕ
  | .node n _ _ => n.weight
  | .directory entries _ _ => entries.weight

def weight (stack : List ArchiveWork) : ℕ := (stack.map ArchiveWork.weight).sum

inductive Turn (signal : Signal) (entries : List String) (stack : List ArchiveWork) :
    ArchiveWork → List String → List ArchiveWork → Prop
  | file (size name depth) :
    Turn signal entries stack (.node (.file size) name depth) (entries ++ [name]) stack
  | list (children name depth) :
    Turn signal entries stack (.node (.directory children) name depth) entries
      (.directory children name depth :: stack)
  | special (name depth) : Turn signal entries stack (.node .special name depth) entries stack
  | finish (path depth) : Turn signal entries stack (.directory .nil path depth) entries stack
  | skip (name child rest path depth) (unopened : openChild signal child = none) :
    Turn signal entries stack (.directory (.cons name child rest) path depth) entries
      (.directory rest path depth :: stack)
  | visit (name child rest path depth) :
    Turn signal entries stack (.directory (.cons name child rest) path depth) entries
      (.node child (path ++ "/" ++ safeZipComponent name) (depth + 1) ::
        .directory rest path depth :: stack)

variable {signal : Signal} {z z' : Zip} {work : ArchiveWork} {stack stack' : List ArchiveWork}

theorem openChild_eq_some {child node : Node} (h : openChild signal child = some node) :
    node = child := by
  unfold openChild at h
  split at h
  · cases h
  · split_ifs at h
    exact (Option.some.inj h).symm

theorem turn_of_step (h : step signal z work stack = (z', .ok stack')) :
    Turn signal z.entries stack work z'.entries stack' := by
  unfold step at h
  split_ifs at h
  · cases h
  split at h
  · unfold writeFile limit at h
    split_ifs at h <;> cases h
    exact .file ..
  · unfold listDirectory limit at h
    split_ifs at h <;> cases h
    exact .list ..
  · cases h
    exact .special ..
  · cases h
    exact .finish ..
  unfold visitChild limit at h
  dsimp only at h
  split_ifs at h <;> try cases h
  split at h
  · rename_i hopen
    cases openChild_eq_some hopen
    cases h
    exact .visit ..
  · rename_i hopen
    cases h
    exact .skip _ _ _ _ _ hopen

theorem entries_of_step {ending : Ending} (h : step signal z work stack = (z', .error ending)) :
    z'.entries = z.entries ∨
      ∃ size name depth, work = .node (.file size) name depth ∧
        z'.entries = z.entries ++ [name] := by
  unfold step at h
  split_ifs at h
  · cases h
    exact .inl rfl
  split at h
  · unfold writeFile limit at h
    split_ifs at h <;> cases h
    all_goals first | exact .inl rfl | exact .inr ⟨_, _, _, rfl, rfl⟩
  · unfold listDirectory limit at h
    split_ifs at h <;> cases h <;> exact .inl rfl
  · cases h
  · cases h
  unfold visitChild limit at h
  dsimp only at h
  split_ifs at h
  · cases h
    exact .inl rfl
  · cases h
    exact .inl rfl
  · split at h <;> cases h

theorem weight_step (h : step signal z work stack = (z', .ok stack')) :
    weight stack' < weight (work :: stack) := by
  have hturn := turn_of_step h
  generalize z'.entries = entries' at hturn
  cases hturn <;>
    simp only [weight, map_cons, sum_cons, ArchiveWork.weight, Node.weight,
      Entries.weight] <;> omega

def walk (signals : ℕ → Signal) (z : Zip) (stack : List ArchiveWork) : Zip × Option Ending :=
  match stack with
  | [] => (z, none)
  | work :: stack =>
    match _hstep : step (signals z.ticks) z.tick work stack with
    | (z', .ok stack') => walk signals z' stack'
    | (z', .error ending) => (z', some ending)
termination_by weight stack
decreasing_by exact weight_step _hstep

def writeShareZip (signals : ℕ → Signal) (z : Zip) :
    List PreparedArchiveRoot → Zip × Option Ending
  | [] => (z, none)
  | root :: roots =>
    if signals z.ticks = .cancelled then (z.tick, some .cancelled)
    else if z.entryCount + 1 > maxArchiveEntries then
      (z.tick, some (.failed (.limit "archive entry limit exceeded")))
    else if root.name.utf8ByteSize > maxArchivePathBytes then
      (z.tick, some (.failed (.limit "archive path length limit exceeded")))
    else
      match walk signals { z.tick with entryCount := z.entryCount + 1 }
          [.node root.node root.name 0] with
      | (z', none) => writeShareZip signals z' roots
      | (z', some ending) => (z', some ending)

/-! ## The entries of a tree -/

def zipPath (path : List String) : String := "/".intercalate path

mutual

def Node.paths : Node → List String → List (List String)
  | .file _, path => [path]
  | .directory entries, path => entries.paths path
  | .special, _ => []

def Entries.paths : Entries → List String → List (List String)
  | .nil, _ => []
  | .cons name node rest, path =>
    node.paths (path ++ [safeZipComponent name]) ++ rest.paths path

end

mutual

theorem Node.isPrefix_of_mem : ∀ (n : Node) {path q : List String}, q ∈ n.paths path → path <+: q
  | .file _, _, _, h => by
    cases mem_singleton.1 h
    exact prefix_rfl
  | .special, _, _, h => by cases h
  | .directory entries, _, _, h => by
    obtain ⟨name, -, hname⟩ := entries.isPrefix_of_mem h
    exact (prefix_append _ _).trans hname

theorem Entries.isPrefix_of_mem : ∀ (es : Entries) {path q : List String}, q ∈ es.paths path →
    ∃ name ∈ es.names, path ++ [safeZipComponent name] <+: q
  | .nil, _, _, h => by cases h
  | .cons name node rest, _, _, h => by
    rcases mem_append.1 h with h | h
    · exact ⟨name, mem_cons_self, node.isPrefix_of_mem h⟩
    · obtain ⟨name', hmem, hpre⟩ := rest.isPrefix_of_mem h
      exact ⟨name', mem_cons_of_mem _ hmem, hpre⟩

end

theorem Entries.WellFormed.ne_empty : ∀ {es : Entries}, es.WellFormed →
    ∀ name ∈ es.names, name ≠ ByteArray.empty
  | .cons name _ rest, ⟨hne, _, _, hrest⟩, name', hmem => by
    rcases mem_cons.1 hmem with rfl | hmem
    · exact hne
    · exact hrest.ne_empty name' hmem

mutual

theorem Node.nodup_paths : ∀ (n : Node) (path : List String), n.WellFormed → (n.paths path).Nodup
  | .file _, _, _ => nodup_singleton _
  | .special, _, _ => nodup_nil
  | .directory entries, path, h => entries.nodup_paths path h

/-- What lies below one entry starts with its component, which no other entry has. -/
theorem Entries.nodup_paths : ∀ (es : Entries) (path : List String), es.WellFormed →
    (es.paths path).Nodup
  | .nil, _, _ => nodup_nil
  | .cons name node rest, path, ⟨hne, hfresh, hnode, hrest⟩ => by
    refine nodup_append.2 ⟨node.nodup_paths _ hnode, rest.nodup_paths path hrest, ?_⟩
    rintro q hq _ hq' rfl
    have hpre := node.isPrefix_of_mem hq
    obtain ⟨name', hmem, hpre'⟩ := rest.isPrefix_of_mem hq'
    have heq : path ++ [safeZipComponent name] = path ++ [safeZipComponent name'] :=
      (prefix_of_prefix_length_le hpre hpre' (by simp)).eq_of_length (by simp)
    rw [append_cancel_left_eq, singleton_inj] at heq
    cases safeZipComponent_inj hne (hrest.ne_empty name' hmem) heq
    exact hfresh hmem

end

mutual

theorem Node.safe_paths : ∀ (n : Node) {path q : List String},
    (∀ c ∈ path, SafeComponent c.toList) → q ∈ n.paths path → ∀ c ∈ q, SafeComponent c.toList
  | .file _, _, _, hpath, h => by
    cases mem_singleton.1 h
    exact hpath
  | .special, _, _, _, h => by cases h
  | .directory entries, _, _, hpath, h => entries.safe_paths hpath h

theorem Entries.safe_paths : ∀ (es : Entries) {path q : List String},
    (∀ c ∈ path, SafeComponent c.toList) → q ∈ es.paths path → ∀ c ∈ q, SafeComponent c.toList
  | .nil, _, _, _, h => by cases h
  | .cons name node rest, _, _, hpath, h => by
    rcases mem_append.1 h with h | h
    · exact node.safe_paths (forall_mem_append.2
        ⟨hpath, forall_mem_singleton.2 (safeComponent_safeZipComponent name)⟩) h
    · exact rest.safe_paths hpath h

end

theorem zipPath_concat {path : List String} (h : path ≠ []) (c : String) :
    zipPath (path ++ [c]) = zipPath path ++ "/" ++ c := by
  rw [zipPath, String.intercalate_append_of_ne_nil h (by simp)]
  rfl

theorem splitOn_zipPath {path : List String} (hne : path ≠ [])
    (h : ∀ c ∈ path, SafeComponent c.toList) :
    (zipPath path).toList.splitOn '/' = path.map String.toList := by
  rw [zipPath, String.toList_intercalate]
  refine splitOn_intercalate '/' (fun piece hpiece hmem => ?_) (by simpa using hne)
  obtain ⟨c, hc, rfl⟩ := mem_map.1 hpiece
  exact ((h c hc).plain '/' hmem).1 rfl

theorem zipPath_inj {p q : List String} (hp : p ≠ []) (hq : q ≠ [])
    (hps : ∀ c ∈ p, SafeComponent c.toList) (hqs : ∀ c ∈ q, SafeComponent c.toList)
    (h : zipPath p = zipPath q) : p = q := by
  have hsplit := congrArg (fun name : String => name.toList.splitOn '/') h
  simp only [splitOn_zipPath hp hps, splitOn_zipPath hq hqs] at hsplit
  exact map_injective_iff.2 (fun _ _ => String.toList_injective) hsplit

/-! ## What the walk writes -/

mutual

def Node.entryNames : Node → String → List String
  | .file _, name => [name]
  | .directory entries, name => entries.entryNames name
  | .special, _ => []

def Entries.entryNames : Entries → String → List String
  | .nil, _ => []
  | .cons name node rest, path =>
    node.entryNames (path ++ "/" ++ safeZipComponent name) ++ rest.entryNames path

end

mutual

theorem Node.entryNames_eq : ∀ (n : Node) {path : List String}, path ≠ [] →
    n.entryNames (zipPath path) = (n.paths path).map zipPath
  | .file _, _, _ => rfl
  | .special, _, _ => rfl
  | .directory entries, _, h => entries.entryNames_eq h

theorem Entries.entryNames_eq : ∀ (es : Entries) {path : List String}, path ≠ [] →
    es.entryNames (zipPath path) = (es.paths path).map zipPath
  | .nil, _, _ => rfl
  | .cons name node rest, path, h => by
    rw [Entries.entryNames, Entries.paths, map_append, ← zipPath_concat h,
      node.entryNames_eq (by simp), rest.entryNames_eq h]

end

def ArchiveWork.entryNames : ArchiveWork → List String
  | .node n name _ => n.entryNames name
  | .directory entries path _ => entries.entryNames path

def pending (stack : List ArchiveWork) : List String := stack.flatMap ArchiveWork.entryNames

theorem Turn.sublist {entries entries' : List String}
    (h : Turn signal entries stack work entries' stack') :
    (entries' ++ pending stack').Sublist (entries ++ pending (work :: stack)) := by
  cases h <;> simp [pending, ArchiveWork.entryNames, Node.entryNames, Entries.entryNames]

theorem step_sublist {ending : Ending} (h : step signal z work stack = (z', .error ending)) :
    z'.entries.Sublist (z.entries ++ pending (work :: stack)) := by
  rcases entries_of_step h with heq | ⟨size, name, depth, rfl, heq⟩
  · rw [heq]
    exact sublist_append_left _ _
  · rw [heq]
    simp [pending, ArchiveWork.entryNames, Node.entryNames]

theorem walk_sublist (signals : ℕ → Signal) (z : Zip) (stack : List ArchiveWork) :
    (walk signals z stack).1.entries.Sublist (z.entries ++ pending stack) := by
  fun_induction walk signals z stack with
  | case1 z => exact sublist_append_left _ _
  | case2 z work stack z' stack' hstep ih => exact ih.trans (turn_of_step hstep).sublist
  | case3 z work stack z' ending hstep =>
    have hsub := step_sublist hstep
    exact hsub

def rootNames (roots : List PreparedArchiveRoot) : List String :=
  roots.flatMap fun root => root.node.entryNames root.name

theorem writeShareZip_sublist (signals : ℕ → Signal) (z : Zip) (roots : List PreparedArchiveRoot) :
    (writeShareZip signals z roots).1.entries.Sublist (z.entries ++ rootNames roots) := by
  have hroot : ∀ (z : Zip) (root : PreparedArchiveRoot),
      (walk signals { z.tick with entryCount := z.entryCount + 1 }
        [.node root.node root.name 0]).1.entries.Sublist
        (z.entries ++ root.node.entryNames root.name) := by
    intro z root
    simpa [pending, ArchiveWork.entryNames, Zip.tick] using
      walk_sublist signals { z.tick with entryCount := z.entryCount + 1 }
        [.node root.node root.name 0]
  fun_induction writeShareZip signals z roots with
  | case1 z => exact sublist_append_left _ _
  | case5 z root roots hcancelled hentries hpath z' hwalk ih =>
    have hsub := hroot z root
    rw [hwalk] at hsub
    rw [rootNames, flatMap_cons, ← append_assoc]
    exact ih.trans (hsub.append_right _)
  | case6 z root roots hcancelled hentries hpath z' ending hwalk =>
    have hsub := hroot z root
    rw [hwalk] at hsub
    rw [rootNames, flatMap_cons, ← append_assoc]
    exact hsub.trans (sublist_append_left _ _)
  | _ => exact sublist_append_left _ _

/-! ## The names of an archive -/

structure Prepared (used : List String) (roots : List PreparedArchiveRoot) : Prop where
  distinct : (roots.map (·.name)).Nodup
  unused : ∀ root ∈ roots, root.name ∉ used
  safe : ∀ root ∈ roots, SafeComponent root.name.toList
  wellFormed : ∀ root ∈ roots, root.node.WellFormed

variable {roots : List PreparedArchiveRoot}

theorem prepared_of_prepareRoots {fs : Filesystem} {used paths : List String}
    (h : prepareRoots fs used paths = some roots) : Prepared used roots := by
  induction paths generalizing used roots with
  | nil =>
    cases h
    exact ⟨nodup_nil, nofun, nofun, nofun⟩
  | cons path paths ih =>
  simp only [prepareRoots, Option.bind_eq_bind, Option.bind_eq_some_iff] at h
  obtain ⟨node, hnode, roots', hroots', heq⟩ := h
  cases heq
  obtain ⟨hdistinct, hunused, hsafe, hformed⟩ := ih hroots'
  refine ⟨?_, ?_, ?_, ?_⟩
  · refine nodup_cons.2 ⟨fun hmem => ?_, hdistinct⟩
    obtain ⟨root, hroot, hname⟩ := mem_map.1 hmem
    exact hunused root hroot (hname ▸ mem_cons_self)
  · refine forall_mem_cons.2 ⟨(uniqueZipRootName_cases _ used).1, fun root hroot hmem => ?_⟩
    exact hunused root hroot (mem_cons_of_mem _ hmem)
  · exact forall_mem_cons.2
      ⟨safeComponent_uniqueZipRootName (safeComponent_safeZipComponent _) used, hsafe⟩
  · exact forall_mem_cons.2 ⟨fs.wellFormed path node hnode, hformed⟩

def rootPaths (roots : List PreparedArchiveRoot) : List (List String) :=
  roots.flatMap fun root => root.node.paths [root.name]

theorem rootNames_eq (roots : List PreparedArchiveRoot) :
    rootNames roots = (rootPaths roots).map zipPath := by
  simp only [rootNames, rootPaths, map_flatMap]
  congr 1
  funext root
  rw [← root.node.entryNames_eq (by simp), zipPath, String.intercalate_singleton]

variable {used : List String}

theorem Prepared.safe_paths (h : Prepared used roots) {q : List String} (hq : q ∈ rootPaths roots) :
    q ≠ [] ∧ ∀ c ∈ q, SafeComponent c.toList := by
  obtain ⟨root, hroot, hq⟩ := mem_flatMap.1 hq
  refine ⟨fun hnil => ?_, root.node.safe_paths (fun c hc => ?_) hq⟩
  · have hpre := root.node.isPrefix_of_mem hq
    rw [hnil] at hpre
    cases prefix_nil.1 hpre
  · rw [mem_singleton.1 hc]
    exact h.safe root hroot

/-- Below one root the paths differ; below two roots they start with different names. -/
theorem Prepared.nodup_paths (h : Prepared used roots) : (rootPaths roots).Nodup := by
  refine nodup_flatMap.2
    ⟨fun root hroot => root.node.nodup_paths _ (h.wellFormed root hroot), ?_⟩
  refine (pairwise_map.1 h.distinct).imp fun {r r'} hne q hq hq' => ?_
  have hpre := prefix_of_prefix_length_le (r.node.isPrefix_of_mem hq)
    (r'.node.isPrefix_of_mem hq') (by simp)
  exact hne (singleton_inj.1 (hpre.eq_of_length (by simp)))

theorem Prepared.nodup_names (h : Prepared used roots) : (rootNames roots).Nodup := by
  rw [rootNames_eq]
  refine List.Nodup.map_on (fun p hp q hq heq => ?_) h.nodup_paths
  obtain ⟨hpne, hps⟩ := h.safe_paths hp
  obtain ⟨hqne, hqs⟩ := h.safe_paths hq
  exact zipPath_inj hpne hqne hps hqs heq

/-- **Archive names.** The entries of an archive have different names, and each name is a
relative path of safe components. -/
theorem archive_names_safe {fs : Filesystem} {permits : ℕ} {share : GuestShare}
    {roots : List PreparedArchiveRoot} (h : prepareArchive fs permits share = some roots)
    (signals : ℕ → Signal) :
    (writeShareZip signals Zip.empty roots).1.entries.Nodup ∧
    (∀ name ∈ (writeShareZip signals Zip.empty roots).1.entries,
      name.toList.head? ≠ some '/' ∧ ∀ c ∈ name.toList.splitOn '/', SafeComponent c) ∧
    ∀ a b : ByteArray, a ≠ ByteArray.empty → b ≠ ByteArray.empty →
      safeZipComponent a = safeZipComponent b → a = b := by
  have hprepared : Prepared [] roots := by
    unfold prepareArchive at h
    split_ifs at h
    exact prepared_of_prepareRoots h
  have hsub : (writeShareZip signals Zip.empty roots).1.entries.Sublist (rootNames roots) :=
    writeShareZip_sublist signals Zip.empty roots
  refine ⟨hsub.nodup hprepared.nodup_names, fun name hname => ?_,
    fun a b => safeZipComponent_inj⟩
  have hmem := hsub.subset hname
  rw [rootNames_eq] at hmem
  obtain ⟨q, hq, rfl⟩ := mem_map.1 hmem
  obtain ⟨hne, hsafe⟩ := hprepared.safe_paths hq
  have hcomponents : ∀ c ∈ (zipPath q).toList.splitOn '/', SafeComponent c := by
    rw [splitOn_zipPath hne hsafe]
    exact forall_mem_map.2 hsafe
  refine ⟨fun hhead => ?_, hcomponents⟩
  -- a leading separator would make the first component empty
  obtain ⟨rest, hrest⟩ := head?_eq_some_iff.1 hhead
  rw [hrest] at hcomponents
  exact (hcomponents [] mem_cons_self).ne_nil rfl

/-- A text and bytes that look like its name, in two roots of the same name. -/
def rawTree : Node :=
  .directory (.cons "__nasty_raw_FF".toUTF8 (.file 1) (.cons ⟨#[0xFF]⟩ (.file 2) .nil))

def rawFiles : Filesystem where
  openRootBeneath path :=
    if path = "/fs/one/docs" ∨ path = "/fs/two/docs" then some rawTree else none
  wellFormed path node h := by
    split_ifs at h
    cases h
    have hsize : ∀ {a b : ByteArray}, a.size ≠ b.size → a ≠ b := fun hne heq => hne (heq ▸ rfl)
    simp only [rawTree, Node.WellFormed, Entries.WellFormed, Entries.names, mem_singleton,
      not_mem_nil, not_false_eq_true, true_and, and_true]
    exact ⟨hsize (by decide +kernel), hsize (by decide +kernel), hsize (by decide +kernel)⟩

def docsShare : GuestShare where
  id := "b"
  tokenHash := ""
  paths := ["/fs/one/docs", "/fs/two/docs"]
  createdBy := "admin"
  createdAt := 0
  expiresAt := none
  passwordHash := none
  maxDownloads := none
  downloads := 0
  views := 0
  revoked := false
  hidden := false
  note := none

theorem prepareArchive_docs : (prepareArchive rawFiles 4 docsShare).isSome := by decide +kernel

theorem archive_names_safe_docs :
    ∃ roots, prepareArchive rawFiles 4 docsShare = some roots ∧
      (writeShareZip (fun _ => .go) Zip.empty roots).1.entries =
        ["docs/%5F_nasty_raw_FF", "docs/__nasty_raw_FF", "docs (2)/%5F_nasty_raw_FF",
          "docs (2)/__nasty_raw_FF"] ∧
      (writeShareZip (fun _ => .go) Zip.empty roots).1.entries.Nodup := by
  refine ⟨(prepareArchive rawFiles 4 docsShare).get prepareArchive_docs,
    (Option.some_get _).symm, by decide +kernel, ?_⟩
  exact (archive_names_safe (Option.some_get prepareArchive_docs).symm fun _ => .go).1

end Nasty.Guest
