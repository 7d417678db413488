import Nasty.Files.Restore
import Nasty.Subvolumes.Commands

/-!
# Items of a snapshot

What the restore request is for: an item of a snapshot is put back at the same place of the live
subvolume, and nothing else changes.

1. `Exact`: the request is answered OK and does just that.
2. `deriveRestoreDest_of_slash`, `restoreDest_flat`: the live place is found for the snapshots of
   subvolumes directly below their filesystem, and for no others.
3. `restore_exact_iff`: with no links, images or second names in the way, exactly those subvolumes
   are restored.
-/

namespace Nasty.Files

open FileTree List Text

open Nasty.Subvolumes (Name validateSubvolumeName validateComponent validateExistingSnapshotName
  snapName)

def nameParts (name : Name) : Path := (split '/' name).map String.ofList

def subvolPath (filesystem : String) (name : Name) : Path := "fs" :: filesystem :: nameParts name

def snapPath (filesystem : String) (subvol snap : Name) : Path :=
  subvolPath filesystem (snapName subvol snap)

/-- `item` is in the snapshot of a subvolume that the session sees, and its live parent exists. -/
structure Item (d : Disk) (s : Session) (filesystem : String) (subvol snap : Name)
    (item : Path) : Prop where
  subvolume : validateSubvolumeName subvol = .ok ()
  snapshot : validateExistingSnapshotName subvol snap = .ok ()
  names : ∀ n ∈ filesystem :: item, FileName n
  sees : s.Sees filesystem
  present : d.tree.node (snapPath filesystem subvol snap ++ item) ≠ none
  parent : pathExists d.tree (subvolPath filesystem subvol ++ item).dropLast = true

/-- No links or images in the way, no backslash in a name, one name for each overwritten file. -/
structure Plain (d : Disk) (filesystem : String) (subvol snap : Name) (item : Path) : Prop where
  link : ∀ target, d.tree.node (snapPath filesystem subvol snap ++ item) ≠ some (.link target)
  parent : d.tree.node (subvolPath filesystem subvol ++ item).dropLast = some .dir
  writable : ∀ n ∈ filesystem :: nameParts (snapName subvol snap) ++ item, '\\' ∉ n.toList
  source : isInsideBlockSubvolume d.tree (snapPath filesystem subvol snap ++ item) = false
  dest : isInsideBlockSubvolume d.tree (subvolPath filesystem subvol ++ item).dropLast = false
  sole : d.Sole (Overwritten d.tree (snapPath filesystem subvol snap ++ item)
    (subvolPath filesystem subvol ++ item))

/-- `p` is the place of an entry of the item, or below a directory that made way for one. -/
def Affected (t : Tree) (src dst p : Path) : Prop :=
  (∃ q, p = dst ++ q ∧ t.node (src ++ q) ≠ none) ∨
    ∃ q, dst ++ q <+: p ∧ dst ++ q ≠ p ∧ isLeaf (t.node (src ++ q)) = true ∧
      t.node (dst ++ q) = some .dir

/-- The request is answered OK, with the item at its live place and nothing else changed. -/
def Exact (host : Host) (s : Session) (d : Disk) (filesystem : String) (subvol snap : Name)
    (item : Path) : Prop :=
  ∃ enough, ∀ fuel, enough ≤ fuel → ∃ left,
    filesRestore host fuel s d
      [String.ofList (relText (snapPath filesystem subvol snap ++ item))] =
        some ⟨.ok, none, 1, left⟩ ∧
    (∀ q n, d.tree.node (snapPath filesystem subvol snap ++ item ++ q) = some n →
      left.tree.node (subvolPath filesystem subvol ++ item ++ q) = some n) ∧
    ∀ p, ¬ Affected d.tree (snapPath filesystem subvol snap ++ item)
      (subvolPath filesystem subvol ++ item) p → left.tree.node p = d.tree.node p

theorem Restored.unaffected {t left : Tree} {src dst p : Path} (h : Restored t left src dst)
    (hp : ¬ Affected t src dst p) : left.node p = t.node p := by
  by_cases hbelow : dst <+: p
  · obtain ⟨q, rfl⟩ := hbelow
    have hnone : t.node (src ++ q) = none := by
      by_contra hsome
      exact hp (.inl ⟨q, rfl, hsome⟩)
    by_cases hleaf : ∃ r, r <+: q ∧ isLeaf (t.node (src ++ r)) = true
    · obtain ⟨r, hr, hleaf⟩ := hleaf
      have hbelow : dst ++ r <+: dst ++ q := (prefix_append_right_inj dst).2 hr
      have hne : dst ++ r ≠ dst ++ q := by
        intro heq
        rw [append_cancel_left heq, hnone] at hleaf
        cases hleaf
      have hdir : t.node (dst ++ r) ≠ some .dir :=
        fun hdir => hp (.inr ⟨r, hbelow, hne, hleaf, hdir⟩)
      have hleft : left.node (dst ++ r) ≠ some .dir := by
        cases hnode : t.node (src ++ r) with
        | none =>
          rw [hnode] at hleaf
          cases hleaf
        | some n =>
        rw [h.same r n hnode]
        rintro ⟨⟩
        rw [hnode] at hleaf
        cases hleaf
      rw [node_below hdir hbelow hne, node_below hleft hbelow hne]
    · refine h.kept q hnone fun r hr => ?_
      by_contra hyes
      exact hleaf ⟨r, hr, by simpa using hyes⟩
  · exact h.outside p hbelow

/-! ## Names -/

section

variable {subvol snap : Name} {c : List Char}

theorem validateComponent_eq_ok (h : validateComponent c = .ok ()) :
    c ≠ [] ∧ c ≠ ['.', '.'] ∧ c ≠ ['.'] ∧ '@' ∉ c := by
  unfold validateComponent at h
  simp only [Except.seq_eq_ok, Except.refuse_eq_ok] at h
  obtain ⟨hnil, hdots, hat, -⟩ := h
  rw [not_or] at hdots
  exact ⟨hnil, hdots.1, hdots.2, hat⟩

theorem component_of_validate (h : validateSubvolumeName subvol = .ok ())
    (hc : c ∈ split '/' subvol) : c ≠ [] ∧ c ≠ ['.', '.'] ∧ c ≠ ['.'] ∧ '@' ∉ c := by
  unfold validateSubvolumeName at h
  simp only [Except.seq_eq_ok, Except.checkAll_eq_ok] at h
  exact validateComponent_eq_ok (h.2.2.2.2 c hc)

theorem slash_of_mem_split (hc : c ∈ split '/' subvol) : '/' ∉ c := by
  intro hslash
  have := not_sep_of_mem_splitBy hc '/' hslash
  simp at this

theorem slash_of_snapshot (h : validateExistingSnapshotName subvol snap = .ok ()) : '/' ∉ snap := by
  unfold validateExistingSnapshotName at h
  simp only [Except.seq_eq_ok, Except.refuse_eq_ok] at h
  exact h.2.2.1

theorem split_snapName (subvol : Name) (h : '/' ∉ snap) :
    ∃ init last, split '/' subvol = init ++ [last] ∧
      split '/' (snapName subvol snap) = init ++ [last ++ '@' :: snap] := by
  refine splitBy_append_right (fun c hc => ?_) subvol
  rcases mem_cons.1 hc with rfl | hc
  · rfl
  · exact decide_eq_false fun heq => h (heq ▸ hc)

theorem fileName_snapshot (hsubvol : validateSubvolumeName subvol = .ok ())
    (hsnap : validateExistingSnapshotName subvol snap = .ok ()) {n : String}
    (hn : n ∈ nameParts (snapName subvol snap)) : FileName n := by
  obtain ⟨c, hc, rfl⟩ := mem_map.1 hn
  have hslash := slash_of_mem_split hc
  obtain ⟨init, last, hsplit, hsplit'⟩ := split_snapName subvol (slash_of_snapshot hsnap)
  rw [hsplit'] at hc
  rcases mem_append.1 hc with hc | hc
  · have hvalid := component_of_validate hsubvol (hsplit ▸ mem_append_left _ hc)
    refine ⟨?_, ?_, ?_, ?_⟩ <;> rw [String.toList_ofList]
    · exact hvalid.1
    · exact hvalid.2.2.1
    · exact hvalid.2.1
    · exact hslash
  · -- the last component holds the `@`
    obtain rfl := mem_singleton.1 hc
    have hat : '@' ∈ last ++ '@' :: snap := by simp
    refine ⟨?_, ?_, ?_, ?_⟩ <;> rw [String.toList_ofList]
    · simp
    · intro heq
      rw [heq] at hat
      simp at hat
    · intro heq
      rw [heq] at hat
      simp at hat
    · exact hslash

end

/-! ## The live place -/

section

variable {d : Disk} {s : Session} {host : Host} {filesystem : String} {subvol snap : Name}
  {item : Path}

theorem nameParts_of_slash (h : '/' ∉ subvol) : nameParts subvol = [String.ofList subvol] := by
  rw [nameParts, split_of_not_mem h]
  rfl

theorem Item.fileName (h : Item d s filesystem subvol snap item) :
    ∀ n ∈ filesystem :: (nameParts (snapName subvol snap) ++ item), FileName n := by
  intro n hn
  rcases mem_cons.1 hn with rfl | hn
  · exact h.names _ mem_cons_self
  · rcases mem_append.1 hn with hn | hn
    · exact fileName_snapshot h.subvolume h.snapshot hn
    · exact h.names n (mem_cons_of_mem _ hn)

theorem Item.safe (h : Item d s filesystem subvol snap item)
    (hplain : Plain d filesystem subvol snap item) :
    safePathForSession d.tree s
      (String.ofList (relText (snapPath filesystem subvol snap ++ item))) =
        .ok (snapPath filesystem subvol snap ++ item) :=
  safePathForSession_names h.sees (fun n hn => ⟨h.fileName n hn, hplain.writable n hn⟩)
    (d.tree.real_of_node h.present hplain.link)

theorem bad_component (names : List String) (h : ∀ n ∈ names, FileName n) :
    ((names.map String.toList).any fun c => c = [] ∨ c = ['.'] ∨ c = ['.', '.']) = false := by
  rw [any_eq_false]
  intro c hc
  obtain ⟨n, hn, rfl⟩ := mem_map.1 hc
  have hname := h n hn
  simp [hname.ne_nil, hname.ne_dot, hname.ne_dots]

theorem split_relText {names : List String} (hne : names ≠ []) (h : ∀ n ∈ names, FileName n) :
    split '/' (dropSlashes (relText ("fs" :: names))) = names.map String.toList := by
  change split '/' (dropSlashes (join ['/'] (names.map String.toList))) = _
  rw [dropSlashes_names hne h, split_names hne h]

section

variable (h : Item d s filesystem subvol snap item)
include h

/-- A snapshot of a nested subvolume is not recognised: its first component has no `@`. -/
theorem deriveRestoreDest_of_slash (hslash : '/' ∈ subvol) :
    deriveRestoreDest (relText (snapPath filesystem subvol snap ++ item)) =
      .error "source is not inside a snapshot" := by
  obtain ⟨init, last, hsplit, hsplit'⟩ := split_snapName subvol (slash_of_snapshot h.snapshot)
  have hinit : init ≠ [] := by
    rintro rfl
    have hjoin := join_split '/' subvol
    rw [hsplit, nil_append, join, intercalate_singleton] at hjoin
    have hlast : last ∈ split '/' subvol := by rw [hsplit]; simp
    exact slash_of_mem_split hlast (hjoin ▸ hslash)
  obtain ⟨first, init, rfl⟩ := exists_cons_of_ne_nil hinit
  have hfirst : '@' ∉ first :=
    (component_of_validate h.subvolume (hsplit ▸ mem_cons_self)).2.2.2
  have hparts : nameParts (snapName subvol snap) =
      String.ofList first :: (init ++ [last ++ '@' :: snap]).map String.ofList := by
    rw [nameParts, hsplit']
    rfl
  have hnames := h.fileName
  have hcomps := split_relText (cons_ne_nil _ _) hnames
  have hbad := bad_component _ hnames
  unfold deriveRestoreDest
  change split '/' (dropSlashes (relText (snapPath filesystem subvol snap ++ item))) = _
    at hcomps
  rw [hparts] at hcomps hbad
  rw [hcomps]
  simp only [cons_append, map_cons] at hbad ⊢
  rw [hbad, String.toList_ofList, splitOnce_eq_none.2 hfirst]
  rfl

theorem Item.flat (hslash : '/' ∉ subvol) :
    (subvol ≠ [] ∧ subvol ≠ ['.', '.'] ∧ subvol ≠ ['.'] ∧ '@' ∉ subvol) ∧
      '/' ∉ snapName subvol snap := by
  refine ⟨component_of_validate h.subvolume (split_of_not_mem hslash ▸ mem_cons_self), ?_⟩
  have := slash_of_snapshot h.snapshot
  simp [snapName, hslash, this]

theorem deriveRestoreDest_flat (hslash : '/' ∉ subvol) :
    deriveRestoreDest (relText (snapPath filesystem subvol snap ++ item)) =
      .ok (relText (subvolPath filesystem subvol ++ item)) := by
  obtain ⟨hvalid, hsnap⟩ := h.flat hslash
  have hnames := h.fileName
  have hcomps := split_relText (cons_ne_nil _ _) hnames
  have hbad := bad_component _ hnames
  change split '/' (dropSlashes (relText (snapPath filesystem subvol snap ++ item))) = _
    at hcomps
  rw [nameParts_of_slash hsnap] at hcomps hbad
  unfold deriveRestoreDest
  rw [hcomps]
  simp only [cons_append, map_cons] at hbad ⊢
  rw [hbad, String.toList_ofList, snapName, splitOnce_append hvalid.2.2.2]
  simp only [if_neg hvalid.1]
  unfold relText subvolPath
  rw [nameParts_of_slash hslash]
  simp

theorem restoreDest_flat (hplain : Plain d filesystem subvol snap item) (hslash : '/' ∉ subvol) :
    restoreDest d.tree s (snapPath filesystem subvol snap ++ item) =
      .ok (subvolPath filesystem subvol ++ item) := by
  have hpath : subvolPath filesystem subvol ++ item =
      "fs" :: filesystem :: (String.ofList subvol :: item) := by
    rw [subvolPath, nameParts_of_slash hslash]
    rfl
  -- all but the last name, and the last name
  obtain ⟨rest, leaf, hrest⟩ : ∃ rest leaf, String.ofList subvol :: item = rest ++ [leaf] :=
    ⟨_, _, (dropLast_append_getLast (cons_ne_nil _ _)).symm⟩
  obtain ⟨hvalid, hsnap⟩ := h.flat hslash
  have hwritable : ∀ n ∈ filesystem :: (rest ++ [leaf]), Writable n := by
    intro n hn
    rw [← hrest] at hn
    have hback := hplain.writable
    rw [nameParts_of_slash hsnap] at hback
    rcases mem_cons.1 hn with rfl | hn
    · exact ⟨h.names _ mem_cons_self, hback _ (by simp)⟩
    rcases mem_cons.1 hn with rfl | hn
    · refine ⟨⟨?_, ?_, ?_, ?_⟩, ?_⟩ <;> rw [String.toList_ofList]
      · exact hvalid.1
      · exact hvalid.2.2.1
      · exact hvalid.2.1
      · exact hslash
      · have := hback (String.ofList (snapName subvol snap)) (by simp)
        rw [String.toList_ofList] at this
        exact fun hmem => this (mem_append_left _ hmem)
    · exact ⟨h.names n (mem_cons_of_mem _ hn), hback n (by simp [hn])⟩
  have hparent : (subvolPath filesystem subvol ++ item).dropLast = "fs" :: filesystem :: rest := by
    rw [hpath, hrest, ← cons_append, ← cons_append, dropLast_concat]
  have hnode := hplain.parent
  have hdest := hplain.dest
  rw [hparent] at hnode hdest
  have hreal : d.tree.Real ("fs" :: filesystem :: rest) :=
    d.tree.real_of_node (by rw [hnode]; nofun) (by rw [hnode]; nofun)
  have hsafe := safePathForSession_names h.sees (fun n hn => hwritable n (by
    rcases mem_cons.1 hn with rfl | hn
    · exact mem_cons_self
    · simp [hn])) hreal
  have htext : relText ("fs" :: filesystem :: (rest ++ [leaf])) =
      relText ("fs" :: filesystem :: rest) ++ '/' :: leaf.toList := by
    unfold relText
    rw [drop_one, drop_one, tail_cons, tail_cons, ← cons_append,
      map_append, map_singleton, join_concat (by simp)]
  have hleaf : '/' ∉ leaf.toList := (hwritable leaf (by simp)).1.slash
  unfold restoreDest
  rw [deriveRestoreDest_flat h hslash, hpath, hrest, htext]
  simp only [rsplitOnce_append hleaf, hsafe, hdest, Bool.false_eq_true, if_false]
  rw [if_pos ⟨filesystem :: (rest ++ [leaf]), by simp [filesRoot]⟩]
  simp

end

/-! ## The request -/

theorem apart_of_ne {p q r : Path} {m n : String} (h : m ≠ n) :
    Apart (p ++ m :: q) (p ++ n :: r) := by
  constructor <;> rw [prefix_append_right_inj, cons_prefix_cons] <;> rintro ⟨heq, -⟩
  · exact h heq
  · exact h heq.symm

theorem filesRestore_of_slash (h : Item d s filesystem subvol snap item)
    (hplain : Plain d filesystem subvol snap item) (hslash : '/' ∈ subvol) (fuel : ℕ) :
    filesRestore host fuel s d
      [String.ofList (relText (snapPath filesystem subvol snap ++ item))] =
        some ⟨.badRequest, some "source is not inside a snapshot", 0, d⟩ := by
  rw [filesRestore, if_neg (cons_ne_nil _ _), restoreItems, restoreItem, h.safe hplain]
  simp only [hplain.source, restoreDest, deriveRestoreDest_of_slash h hslash, Bool.false_eq_true,
    if_false]

theorem exact_of_flat (hio : ∀ d p q, host.fault d p q = none)
    (h : Item d s filesystem subvol snap item) (hplain : Plain d filesystem subvol snap item)
    (hslash : '/' ∉ subvol) : Exact host s d filesystem subvol snap item := by
  have hsnap := (h.flat hslash).2
  have hapart : Apart (snapPath filesystem subvol snap ++ item)
      (subvolPath filesystem subvol ++ item) := by
    rw [snapPath, subvolPath, subvolPath, nameParts_of_slash hslash, nameParts_of_slash hsnap]
    refine apart_of_ne (p := ["fs", filesystem]) fun heq => ?_
    have hlength := congrArg List.length (String.ofList_injective heq)
    rw [snapName, length_append, length_cons] at hlength
    omega
  have hpins : ∀ p, p.dropLast ≠ [] → d.tree.node p.dropLast = some .dir → pinsParent d.tree p :=
    fun p hne hdir => ⟨hne, hdir⟩
  have hlong : ∀ name, (subvolPath filesystem name ++ item).dropLast ≠ [] := by
    intro name hnil
    have hlength := congrArg List.length hnil
    rw [length_dropLast, length_append, subvolPath, length_cons, length_cons,
      length_nil] at hlength
    omega
  have hsrc : pinsParent d.tree (snapPath filesystem subvol snap ++ item) := by
    refine hpins _ (hlong _) (d.tree.dir_of_prefix h.present ( dropLast_prefix _) fun heq => ?_)
    exact not_prefix_dropLast hapart.ne_nil.1 ⟨[], by rw [append_nil, heq]⟩
  obtain ⟨enough, left, hrestored, hto⟩ := restoreTo_spec (hio _ _ _) h.present hsrc
    (hpins _ (hlong _) hplain.parent) hapart hplain.sole
  refine ⟨enough, fun fuel hfuel => ⟨left, ?_, fun q n => hrestored.same q n,
    fun p hp => hrestored.unaffected hp⟩⟩
  rw [filesRestore, restoreItems, restoreItem, h.safe hplain]
  simp only [hplain.source, restoreDest_flat h hplain hslash, hto fuel hfuel]
  rfl

/-- **Restoring an item.** Where nothing else is in the way, it is put back exactly when its
subvolume lies directly below the filesystem. -/
theorem restore_exact_iff (hio : ∀ d p q, host.fault d p q = none)
    (h : Item d s filesystem subvol snap item) (hplain : Plain d filesystem subvol snap item) :
    Exact host s d filesystem subvol snap item ↔ '/' ∉ subvol := by
  constructor
  · rintro ⟨enough, hexact⟩ hslash
    obtain ⟨left, hreply, -⟩ := hexact enough le_rfl
    rw [filesRestore_of_slash h hplain hslash] at hreply
    cases hreply
  · exact exact_of_flat hio h hplain

end

/-- The live `docs/d/g` is not in the snapshot and has a second name beside the subvolume. -/
def nestedTree : Tree :=
  Tree.ofEntries [(["fs"], .dir), (["fs", "tank"], .dir), (["fs", "tank", "g"], .file [2]),
    (["fs", "tank", "docs"], .dir), (["fs", "tank", "docs", "d"], .dir),
    (["fs", "tank", "docs", "d", "f"], .file [0]), (["fs", "tank", "docs", "d", "g"], .file [2]),
    (["fs", "tank", "docs@t"], .dir), (["fs", "tank", "docs@t", "d"], .dir),
    (["fs", "tank", "docs@t", "d", "f"], .file [1]),
    (["fs", "tank", "a"], .dir), (["fs", "tank", "a", "b"], .dir),
    (["fs", "tank", "a", "b@t"], .dir), (["fs", "tank", "a", "b@t", "d"], .dir)] (by decide)

def nestedDisk : Disk where
  tree := nestedTree
  inode p := nestedTree.paths.idxOf
    (if p = ["fs", "tank", "g"] then ["fs", "tank", "docs", "d", "g"] else p)
  next := nestedTree.paths.length + 1
  bound _ := Nat.lt_succ_of_le idxOf_le_length

def quietHost : Host := ⟨"", fun _ _ _ => none⟩

def admin : Session := ⟨none, none⟩

theorem item_plain {subvolume : Name} (h : subvolume = "docs".toList ∨ subvolume = "a/b".toList) :
    Item nestedDisk admin "tank" subvolume "t".toList ["d"] ∧
      Plain nestedDisk "tank" subvolume "t".toList ["d"] := by
  have hdir : nestedDisk.tree.node (snapPath "tank" subvolume "t".toList ++ ["d"]) =
      some .dir := by obtain rfl | rfl := h <;> decide
  obtain rfl | rfl := h
  all_goals
    exact ⟨⟨by decide, by decide, by decide, ⟨rfl, .inl rfl⟩, by decide, by decide⟩,
      by rw [hdir]; nofun, by decide, by decide, by decide, by decide, by decide⟩

theorem restore_exact_docs :
    Item nestedDisk admin "tank" "docs".toList "t".toList ["d"] ∧
      Plain nestedDisk "tank" "docs".toList "t".toList ["d"] ∧
      (Exact quietHost admin nestedDisk "tank" "docs".toList "t".toList ["d"] ↔
        '/' ∉ "docs".toList) := by
  obtain ⟨hitem, hplain⟩ := item_plain (.inl rfl)
  exact ⟨hitem, hplain, restore_exact_iff (fun _ _ _ => rfl) hitem hplain⟩

/-- A directory of a nested subvolume, with nothing in the way, is refused. -/
theorem nested_item_refused :
    Item nestedDisk admin "tank" "a/b".toList "t".toList ["d"] ∧
      Plain nestedDisk "tank" "a/b".toList "t".toList ["d"] ∧
      ¬ Exact quietHost admin nestedDisk "tank" "a/b".toList "t".toList ["d"] := by
  obtain ⟨hitem, hplain⟩ := item_plain (.inr rfl)
  refine ⟨hitem, hplain, ?_⟩
  rintro ⟨enough, hexact⟩
  obtain ⟨left, hreply, -⟩ := hexact enough le_rfl
  rw [filesRestore_of_slash hitem hplain (by decide)] at hreply
  cases hreply

end Nasty.Files
