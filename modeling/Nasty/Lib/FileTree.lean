import Mathlib.Data.List.Dedup
import Mathlib.Data.List.Infix
import Nasty.Lib.Text

/-!
# File trees

Directories, files and symbolic links, kept as a map from paths to nodes. A path is the list of
names from the root.

1. `walk` resolves a text as the kernel does: links are followed, `..` goes up, and a walk over too
   many links fails.
2. `canonicalize` follows a link at the end of the text as well; `named` is the entry itself.
3. `remove`, `move`, `insert`: what they change, as lemmas about the nodes.
-/

namespace FileTree

open List

abbrev Path := List String

inductive Node
  | dir
  | file (content : List UInt8)
  | link (target : String)
  deriving DecidableEq

/-- Only directories have entries, and there are finitely many. -/
structure Tree where
  node : Path → Option Node
  /-- Every path that is there, and maybe others. -/
  paths : List Path
  root : node [] = some .dir
  parent : ∀ p n, node (p ++ [n]) ≠ none → node p = some .dir
  finite : ∀ p, node p ≠ none → p ∈ paths

inductive Part
  | cur
  | up
  | name (n : String)
  deriving DecidableEq

def partOf (cs : List Char) : Part :=
  if cs = [] ∨ cs = ['.'] then .cur else if cs = ['.', '.'] then .up else .name (String.ofList cs)

def parts (text : String) : List Part := (Text.split '/' text.toList).map partOf

def isAbsolute (text : String) : Bool := text.toList.head? = some '/'

/-! ## Resolving -/

/-- Walk over `parts`; `follow` goes on from a link in `cur` with the parts that are left. -/
def walkWith (t : Tree) (follow : Path → String → List Part → Option Path) :
    Path → List Part → Option Path
  | cur, [] => some cur
  | cur, .cur :: rest => if t.node cur = some .dir then walkWith t follow cur rest else none
  | cur, .up :: rest =>
    if t.node cur = some .dir then walkWith t follow cur.dropLast rest else none
  | cur, .name n :: rest =>
    match t.node (cur ++ [n]) with
    | none => none
    | some (.link target) => follow cur target rest
    | some _ => walkWith t follow (cur ++ [n]) rest

/-- Where the text of a link in `cur` starts. -/
def linkStart (cur : Path) (target : String) : Path := if isAbsolute target then [] else cur

def walk (t : Tree) : ℕ → Path → List Part → Option Path
  | 0 => walkWith t fun _ _ _ => none
  | n + 1 => walkWith t fun cur target rest =>
      walk t n (linkStart cur target) (parts target ++ rest)

def maxLinks : ℕ := 40

def canonicalize (t : Tree) (ps : List Part) : Option Path := walk t maxLinks [] ps

/-- The directory entry that the parts name: a link at the end is not followed. -/
def named (t : Tree) (ps : List Part) : Option Path :=
  match ps.getLast? with
  | some (.name n) => (canonicalize t ps.dropLast).map (· ++ [n])
  | _ => canonicalize t ps

section Walk

variable {t : Tree} {follow : Path → String → List Part → Option Path} {cur p : Path}
  {ps rest : List Part} {n : ℕ} {m : String} {J : Path → Prop}

/-- What every step of a walk keeps and every followed link has, its end has. -/
theorem walkWith_inv (hup : ∀ p, J p → J p.dropLast)
    (hname : ∀ p n, J p → t.node (p ++ [n]) ≠ none → (∀ target, t.node (p ++ [n]) ≠ some (.link target)) → J (p ++ [n]))
    (hfollow : ∀ cur target rest p, J cur → follow cur target rest = some p → J p) (hcur : J cur)
    (h : walkWith t follow cur ps = some p) : J p := by
  induction ps generalizing cur with
  | nil =>
    cases h
    exact hcur
  | cons part ps ih =>
  cases part with
  | cur =>
    unfold walkWith at h
    split_ifs at h
    exact ih hcur h
  | up =>
    unfold walkWith at h
    split_ifs at h
    exact ih (hup cur hcur) h
  | name n =>
  unfold walkWith at h
  split at h
  · cases h
  · exact hfollow _ _ _ _ hcur h
  · next node hlink hnode =>
    exact ih (hname cur n hcur (by rw [hnode]; nofun) fun target htarget =>
      hlink target (Option.some.inj (hnode.symm.trans htarget))) h

theorem walk_inv (hroot : J []) (hup : ∀ p, J p → J p.dropLast)
    (hname : ∀ p n, J p → t.node (p ++ [n]) ≠ none → (∀ target, t.node (p ++ [n]) ≠ some (.link target)) → J (p ++ [n]))
    (hcur : J cur) (h : walk t n cur ps = some p) : J p := by
  induction n generalizing cur ps p with
  | zero => exact walkWith_inv hup hname (fun _ _ _ _ _ h => by cases h) hcur h
  | succ n ih =>
  refine walkWith_inv hup hname (fun cur target rest p hcur h => ?_) hcur h
  refine ih ?_ h
  unfold linkStart
  split_ifs
  · exact hroot
  · exact hcur

/-- Directories and files that exist, with every directory above them. -/
def Tree.Real (t : Tree) (p : Path) : Prop :=
  ∀ q, q <+: p → t.node q ≠ none ∧ ∀ target, t.node q ≠ some (.link target)

theorem real_root (t : Tree) : t.Real [] := by
  intro q hq
  obtain rfl := prefix_nil.1 hq
  rw [t.root]
  exact ⟨nofun, nofun⟩

theorem Tree.Real.of_prefix {q : Path} (h : t.Real p) (hq : q <+: p) : t.Real q :=
  fun r hr => h r (hr.trans hq)

theorem Tree.Real.concat (h : t.Real p) (hn : t.node (p ++ [m]) ≠ none)
    (hlink : ∀ target, t.node (p ++ [m]) ≠ some (.link target)) : t.Real (p ++ [m]) := by
  intro q hq
  rcases prefix_concat_iff.1 hq with rfl | hq
  · exact ⟨hn, hlink⟩
  · exact h q hq

theorem real_of_walk (hcur : t.Real cur) (h : walk t n cur ps = some p) : t.Real p :=
  walk_inv (real_root t) (fun _ hp => hp.of_prefix ( dropLast_prefix _))
    (fun _ _ hp => hp.concat) hcur h

theorem real_of_canonicalize (h : canonicalize t ps = some p) : t.Real p :=
  real_of_walk (real_root t) h

theorem walkWith_names (h : t.Real (cur ++ p)) (rest : List Part) :
    walkWith t follow cur (p.map .name ++ rest) = walkWith t follow (cur ++ p) rest := by
  induction p generalizing cur with
  | nil => rw [append_nil]; rfl
  | cons n p ih =>
  have happend : cur ++ n :: p = cur ++ [n] ++ p := by simp
  rw [happend] at h ⊢
  have hn := h (cur ++ [n]) (prefix_append _ _)
  rw [map_cons, cons_append, walkWith]
  split
  · next hnone => exact absurd hnone hn.1
  · next target htarget => exact absurd htarget (hn.2 target)
  · exact ih h

theorem canonicalize_names (h : t.Real p) : canonicalize t (p.map .name) = some p := by
  have hwalk : canonicalize t (p.map .name ++ []) = some p := walkWith_names h []
  rwa [append_nil] at hwalk

/-- Where the parts before a last name lead; what that name is, unless it is a link, is the end. -/
theorem walkWith_concat
    (hfollow : ∀ cur target rest p, follow cur target (rest ++ [.name m]) = some p →
      ∃ d, follow cur target rest = some d ∧ t.node (d ++ [m]) ≠ none ∧
        ((∀ target, t.node (d ++ [m]) ≠ some (.link target)) → p = d ++ [m]))
    (h : walkWith t follow cur (ps ++ [.name m]) = some p) :
    ∃ d, walkWith t follow cur ps = some d ∧ t.node (d ++ [m]) ≠ none ∧
      ((∀ target, t.node (d ++ [m]) ≠ some (.link target)) → p = d ++ [m]) := by
  induction ps generalizing cur with
  | nil =>
    refine ⟨cur, rfl, ?_⟩
    rw [nil_append] at h
    unfold walkWith at h
    split at h
    · cases h
    · next target htarget => exact ⟨by rw [htarget]; nofun, fun hno => absurd htarget (hno target)⟩
    · next node hlink hnode => exact ⟨by rw [hnode]; nofun, fun _ => (Option.some.inj h).symm⟩
  | cons part ps ih =>
  rw [cons_append] at h
  cases part with
  | cur | up =>
    unfold walkWith at h ⊢
    split_ifs at h ⊢
    exact ih h
  | name n =>
  unfold walkWith at h ⊢
  split at h
  · cases h
  · exact hfollow _ _ _ _ h
  · exact ih h

theorem walk_concat (h : walk t n cur (ps ++ [.name m]) = some p) :
    ∃ d, walk t n cur ps = some d ∧ t.node (d ++ [m]) ≠ none ∧
      ((∀ target, t.node (d ++ [m]) ≠ some (.link target)) → p = d ++ [m]) := by
  induction n generalizing cur ps p with
  | zero => exact walkWith_concat (fun _ _ _ _ h => by cases h) h
  | succ n ih =>
    refine walkWith_concat (fun cur target rest p h => ?_) h
    rw [← append_assoc] at h
    exact ih h

/-- What is named is the end of the walk, or a link. -/
theorem named_of_canonicalize (h : canonicalize t ps = some p) :
    ∃ e, named t ps = some e ∧ (e = p ∨ ∃ target, t.node e = some (.link target)) := by
  unfold named
  split
  · next m hlast =>
    have hps : ps = ps.dropLast ++ [.name m] := (dropLast_append_getLast? _ hlast).symm
    rw [hps] at h
    obtain ⟨d, hd, -, hend⟩ := walk_concat h
    refine ⟨d ++ [m], by rw [canonicalize, hd]; rfl, ?_⟩
    by_cases hlink : ∃ target, t.node (d ++ [m]) = some (.link target)
    · exact .inr hlink
    · exact .inl (hend fun target htarget => hlink ⟨target, htarget⟩).symm
  · exact ⟨p, h, .inl rfl⟩

end Walk

/-! ## Nodes above and below -/

section

variable {t : Tree} {p q : Path}

theorem Tree.dir_of_prefix (h : t.node q ≠ none) (hpq : p <+: q) (hne : p ≠ q) :
    t.node p = some .dir := by
  induction q using List.reverseRecOn with
  | nil => exact absurd (prefix_nil.1 hpq) hne
  | append_singleton q n ih =>
  have hq := t.parent q n h
  rcases prefix_concat_iff.1 hpq with rfl | hpq
  · exact absurd rfl hne
  · by_cases hp : p = q
    · rw [hp, hq]
    · exact ih (by rw [hq]; nofun) hpq hp

theorem Tree.real_of_node (h : t.node p ≠ none) (hlink : ∀ target, t.node p ≠ some (.link target)) :
    t.Real p := by
  intro q hq
  by_cases heq : q = p
  · rw [heq]
    exact ⟨h, hlink⟩
  · rw [t.dir_of_prefix h hq heq]
    exact ⟨nofun, nofun⟩

theorem Tree.length_lt (h : t.node p ≠ none) : p.length < t.paths.flatten.length + 1 :=
  Nat.lt_succ_of_le (sublist_flatten_of_mem (t.finite p h)).length_le

theorem Tree.eq_of_link_prefix {target : String} (hp : t.node p = some (.link target))
    (hq : t.node q ≠ none) (hpq : p <+: q) : p = q := by
  by_contra hne
  rw [t.dir_of_prefix hq hpq hne] at hp
  cases hp

def Tree.names (t : Tree) (p : Path) : List String :=
  (t.paths.filterMap fun q =>
    if (t.node q).isSome ∧ q.dropLast = p then q.getLast? else none).dedup

theorem Tree.mem_names {n : String} : n ∈ t.names p ↔ t.node (p ++ [n]) ≠ none := by
  unfold Tree.names
  rw [mem_dedup, mem_filterMap]
  constructor
  · rintro ⟨q, -, hq⟩
    split_ifs at hq with hif
    have hqn : q.dropLast ++ [n] = q := dropLast_append_getLast? _ hq
    rw [← hif.2, hqn]
    exact Option.isSome_iff_ne_none.1 hif.1
  intro h
  refine ⟨p ++ [n], t.finite _ h, ?_⟩
  rw [if_pos ⟨Option.isSome_iff_ne_none.2 h, dropLast_concat⟩]
  exact getLast?_concat

theorem Tree.nodup_names (t : Tree) (p : Path) : (t.names p).Nodup := nodup_dedup _

end

/-! ## Changes -/

def Tree.remove (t : Tree) (p : Path) (hp : p ≠ []) : Tree where
  node q := if p <+: q then none else t.node q
  paths := t.paths
  root := by
    rw [if_neg fun h => hp (prefix_nil.1 h)]
    exact t.root
  finite q h := by
    split_ifs at h
    · exact absurd rfl h
    · exact t.finite q h
  parent q n h := by
    split_ifs at h with hpn
    · exact absurd rfl h
    · rw [if_neg fun hpq => hpn (hpq.trans (prefix_append q [n]))]
      exact t.parent q n h

theorem Tree.node_remove (t : Tree) (p : Path) (hp : p ≠ []) (q : Path) :
    (t.remove p hp).node q = if p <+: q then none else t.node q := rfl

/-- There is a directory for a new entry at `p`. -/
structure Tree.Room (t : Tree) (p : Path) : Prop where
  ne_root : p ≠ []
  dir : t.node p.dropLast = some .dir
  absent : t.node p = none

instance (t : Tree) (p : Path) : Decidable (t.Room p) :=
  decidable_of_iff (p ≠ [] ∧ t.node p.dropLast = some .dir ∧ t.node p = none)
    ⟨fun ⟨h, h', h''⟩ => ⟨h, h', h''⟩, fun ⟨h, h', h''⟩ => ⟨h, h', h''⟩⟩

theorem Tree.Room.dir_of_concat {t : Tree} {p : Path} {n : String} (h : t.Room (p ++ [n])) :
    t.node p = some .dir := by
  have hdir := h.dir
  rwa [dropLast_concat] at hdir

def Tree.graft (t : Tree) (src dst : Path) (h : t.Room dst) : Tree where
  node q := if dst <+: q then t.node (src ++ q.drop dst.length) else t.node q
  paths := t.paths ++ (t.paths.filter (src <+: ·)).map fun q => dst ++ q.drop src.length
  finite q hq := by
    split_ifs at hq with hd
    · obtain ⟨r, rfl⟩ := hd
      rw [drop_left] at hq
      refine mem_append_right _ (mem_map.2 ⟨src ++ r, ?_, by rw [drop_left]⟩)
      exact mem_filter.2 ⟨t.finite _ hq, by simp⟩
    · exact mem_append_left _ (t.finite q hq)
  root := by
    rw [if_neg fun hd => h.ne_root (prefix_nil.1 hd)]
    exact t.root
  parent q n hn := by
    by_cases hd : dst <+: q
    · have hqn := hd.trans (prefix_append q [n])
      rw [if_pos hqn, drop_append_of_le_length hd.length_le, ← append_assoc] at hn
      rw [if_pos hd]
      exact t.parent _ n hn
    rw [if_neg hd]
    split_ifs at hn with hqn
    · -- the new entry itself, in a directory that was there
      rcases prefix_concat_iff.1 hqn with hdst | hdst
      · have hdir := h.dir
        rwa [hdst, dropLast_concat] at hdir
      · exact absurd hdst hd
    · exact t.parent q n hn

theorem Tree.node_graft (t : Tree) (src dst : Path) (h : t.Room dst) (q : Path) :
    (t.graft src dst h).node q =
      if dst <+: q then t.node (src ++ q.drop dst.length) else t.node q := rfl

def Tree.insert (t : Tree) (p : Path) (n : Node) (h : t.Room p) : Tree where
  node q := if q = p then some n else t.node q
  paths := p :: t.paths
  root := by
    rw [if_neg fun hp => h.ne_root hp.symm]
    exact t.root
  parent q m hm := by
    have hq : q ≠ p := by
      rintro rfl
      rw [if_neg (by simp)] at hm
      have hdir := t.parent q m hm
      rw [h.absent] at hdir
      cases hdir
    rw [if_neg hq]
    by_cases hqm : q ++ [m] = p
    · have hdir := h.dir
      rwa [← hqm, dropLast_concat] at hdir
    · rw [if_neg hqm] at hm
      exact t.parent q m hm
  finite q hq := by
    split_ifs at hq with heq
    · exact heq ▸ mem_cons_self
    · exact mem_cons_of_mem _ (t.finite q hq)

theorem Tree.node_insert (t : Tree) (p : Path) (n : Node) (h : t.Room p) (q : Path) :
    (t.insert p n h).node q = if q = p then some n else t.node q := rfl

/-- With what is at or below `src` at `dst` instead. -/
def Tree.move (t : Tree) (src dst : Path) (h : t.Room dst) (hsrc : src ≠ []) : Tree :=
  (t.graft src dst h).remove src hsrc

/-! ## Trees by their entries -/

def nodeOf (entries : List (Path × Node)) (p : Path) : Option Node :=
  if p = [] then some .dir else entries.lookup p

def Tree.ofEntries (entries : List (Path × Node))
    (h : ∀ e ∈ entries, nodeOf entries e.1.dropLast = some .dir) : Tree where
  node := nodeOf entries
  paths := [] :: entries.map Prod.fst
  root := rfl
  finite p hp := by
    unfold nodeOf at hp
    split_ifs at hp with hnil
    · exact hnil ▸ mem_cons_self
    obtain ⟨node, hnode⟩ := Option.ne_none_iff_exists'.1 hp
    obtain ⟨l₁, l₂, hl, -⟩ := lookup_eq_some_iff.1 hnode
    refine mem_cons_of_mem _ (mem_map.2 ⟨(p, node), ?_, rfl⟩)
    rw [hl]
    exact mem_append_right _ mem_cons_self
  parent p n hn := by
    have hne : p ++ [n] ≠ [] := append_ne_nil_of_right_ne_nil _ (cons_ne_nil _ _)
    rw [nodeOf, if_neg hne] at hn
    obtain ⟨node, hnode⟩ := Option.ne_none_iff_exists'.1 hn
    obtain ⟨l₁, l₂, hl, -⟩ := lookup_eq_some_iff.1 hnode
    have hmem : (p ++ [n], node) ∈ entries := by
      rw [hl]
      exact mem_append_right _ mem_cons_self
    have hdir := h _ hmem
    rwa [dropLast_concat] at hdir

end FileTree
