import Nasty.Lib.Disk

/-!
# Walks that stay with a directory

Two trees that agree on a directory `root`, on what is below it and on what is above it may differ
beside it. A walk sees a difference only where it looks up a name beside `root`.

1. `strays`: whether a walk looks beside `root`. A walk that does not leads to the same place in
   both trees (`walk_congr`).
2. `Disk.Alike`: disks that agree on `root`. Changes below `root` keep them alike, and change
   nothing else (`Disk.Step`).
-/

namespace FileTree

open List Function Disk

/-! ## Straying -/

/-- Above, at or below `root`. -/
def Along (root p : Path) : Prop := p <+: root ∨ root <+: p

instance (root p : Path) : Decidable (Along root p) := inferInstanceAs (Decidable (_ ∨ _))

/-- Whether a walk looks beside `root`; `follow` says so of the links on it. -/
def straysWith (t : Tree) (root : Path) (follow : Path → String → List Part → Bool) :
    Path → List Part → Bool
  | _, [] => false
  | cur, .cur :: rest =>
    if t.node cur = some .dir then straysWith t root follow cur rest else false
  | cur, .up :: rest =>
    if t.node cur = some .dir then straysWith t root follow cur.dropLast rest else false
  | cur, .name n :: rest =>
    if Along root (cur ++ [n]) then
      match t.node (cur ++ [n]) with
      | none => false
      | some (.link target) => follow cur target rest
      | some _ => straysWith t root follow (cur ++ [n]) rest
    else true

/-- Whether a walk over at most `n` links looks beside `root`. -/
def strays (t : Tree) (root : Path) : ℕ → Path → List Part → Bool
  | 0 => straysWith t root fun _ _ _ => false
  | n + 1 => straysWith t root fun cur target rest =>
      strays t root n (linkStart cur target) (parts target ++ rest)

section Straying

variable {t₁ t₂ : Tree} {root cur : Path} {ps : List Part} {n : ℕ}
  {follow₁ follow₂ : Path → String → List Part → Option Path}
  {stray : Path → String → List Part → Bool}

theorem Along.dropLast (h : Along root cur) : Along root cur.dropLast := by
  rcases h with h | h
  · exact .inl (( dropLast_prefix _).trans h)
  by_cases heq : root = cur
  · exact .inl (heq ▸ dropLast_prefix _)
  by_cases hnil : cur = []
  · rw [hnil]
    exact .inl nil_prefix
  rw [← dropLast_append_getLast hnil] at h heq
  rcases prefix_concat_iff.1 h with h | h
  · exact absurd h heq
  · exact .inr h

theorem along_nil : Along root [] := .inl nil_prefix

theorem Along.linkStart {target : String} (h : Along root cur) :
    Along root (linkStart cur target) := by
  unfold FileTree.linkStart
  split_ifs
  · exact along_nil
  · exact h

section

variable (hagree : ∀ p, Along root p → t₁.node p = t₂.node p)
include hagree

theorem walkWith_congr
    (hfollow : ∀ cur target rest, Along root cur → stray cur target rest = false → follow₁ cur target rest = follow₂ cur target rest)
    (hcur : Along root cur) (h : straysWith t₁ root stray cur ps = false) :
    walkWith t₁ follow₁ cur ps = walkWith t₂ follow₂ cur ps := by
  induction ps generalizing cur with
  | nil => rfl
  | cons part ps ih =>
  cases part with
  | cur =>
    simp only [walkWith, straysWith, ← hagree cur hcur] at h ⊢
    split_ifs at h ⊢
    · exact ih hcur h
    · rfl
  | up =>
    simp only [walkWith, straysWith, ← hagree cur hcur] at h ⊢
    split_ifs at h ⊢
    · exact ih hcur.dropLast h
    · rfl
  | name m =>
    simp only [walkWith, straysWith] at h ⊢
    split_ifs at h with hname
    rw [← hagree _ hname]
    generalize t₁.node (cur ++ [m]) = node at h ⊢
    rcases node with _ | _ | _ | target
    · rfl
    · exact ih hname h
    · exact ih hname h
    · exact hfollow _ _ _ hcur h

/-- A walk that looks nowhere else leads to the same place. -/
theorem walk_congr (hcur : Along root cur) (h : strays t₁ root n cur ps = false) :
    walk t₁ n cur ps = walk t₂ n cur ps := by
  induction n generalizing cur ps with
  | zero => exact walkWith_congr hagree (fun _ _ _ _ _ => rfl) hcur h
  | succ n ih =>
    exact walkWith_congr hagree (fun _ _ _ hcur h => ih hcur.linkStart h) hcur h

theorem room_congr {p : Path} (hp : Along root p) : t₁.Room p ↔ t₂.Room p := by
  have hself := hagree p hp
  have hparent := hagree _ hp.dropLast
  constructor <;> rintro ⟨hne, hdir, hnone⟩
  · exact ⟨hne, hparent ▸ hdir, hself ▸ hnone⟩
  · exact ⟨hne, hparent.trans hdir, hself.trans hnone⟩

end

end Straying

/-! ## Changes below `root` -/

/-- Strictly below `root`. -/
def Below (root p : Path) : Prop := root <+: p ∧ root ≠ p

instance (root p : Path) : Decidable (Below root p) := inferInstanceAs (Decidable (_ ∧ _))

namespace Disk

/-- No file has names both below `root` and elsewhere. -/
def Owned (d : Disk) (root : Path) : Prop :=
  ∀ p q, Below root p → ¬ Below root q → isFile (d.tree.node p) → isFile (d.tree.node q) →
    d.inode p ≠ d.inode q

/-- The disks agree on `root`, and on what is above and below it. -/
structure Alike (root : Path) (d₁ d₂ : Disk) : Prop where
  node : ∀ p, Along root p → d₁.tree.node p = d₂.tree.node p
  /-- The entries are listed in the same order. -/
  paths : d₁.tree.paths.filter (root <+: ·) = d₂.tree.paths.filter (root <+: ·)
  inode : ∀ p q, Below root p → Below root q →
    (d₁.inode p = d₁.inode q ↔ d₂.inode p = d₂.inode q)

/-- Only what is below `root` has changed. -/
structure Step (root : Path) (d e : Disk) : Prop where
  outside : ∀ q, ¬ Below root q → e.tree.node q = d.tree.node q
  owned : d.Owned root → e.Owned root

end Disk

section Changes

variable {root p : Path} {d d₁ d₂ e f : Disk} {n : Node} {content : List UInt8}

theorem Below.along (h : Below root p) : Along root p := .inr h.1

theorem Below.ne_nil (h : Below root p) : p ≠ [] := by
  rintro rfl
  exact h.2 (prefix_nil.1 h.1)

theorem Below.append (h : Below root p) (r : Path) : Below root (p ++ r) := by
  refine ⟨h.1.trans (prefix_append _ _), fun heq => h.2 (h.1.eq_of_length_le ?_)⟩
  rw [heq, length_append]
  omega

theorem below_concat {m : String} (h : root <+: p) : Below root (p ++ [m]) := by
  refine ⟨h.trans (prefix_append _ _), fun heq => ?_⟩
  have hlength := h.length_le
  rw [heq, length_append, length_singleton] at hlength
  omega

theorem Below.of_prefix {q : Path} (h : Below root p) (hpq : p <+: q) : Below root q := by
  obtain ⟨r, rfl⟩ := hpq
  exact h.append r

theorem Disk.Step.refl (root : Path) (d : Disk) : d.Step root d where
  outside _ _ := rfl
  owned := id

theorem Disk.Step.trans (h : d.Step root e) (h' : e.Step root f) : d.Step root f where
  outside q hq := (h'.outside q hq).trans (h.outside q hq)
  owned := h'.owned ∘ h.owned

theorem Disk.Owned.create (hd : d.Owned root) (hp : Below root p) (h : d.tree.Room p) :
    (d.create p n h).Owned root := by
  intro q r hq hr hqfile hrfile heq
  rw [node_create] at hqfile hrfile
  have hrp : r ≠ p := by
    rintro rfl
    exact hr hp
  change update d.inode p d.next q = update d.inode p d.next r at heq
  rw [update_of_ne hrp] at heq
  rw [if_neg hrp] at hrfile
  by_cases hqp : q = p
  · rw [hqp, update_self] at heq
    have := d.bound r
    omega
  · rw [update_of_ne hqp] at heq
    rw [if_neg hqp] at hqfile
    exact hd q r hq hr hqfile hrfile heq

theorem Disk.Step.create (hd : d.Step root e) (hp : Below root p) (h : e.tree.Room p) :
    d.Step root (e.create p n h) where
  outside q hq := by
    rw [node_create, if_neg, hd.outside q hq]
    rintro rfl
    exact hq hp
  owned ho := (hd.owned ho).create hp h

theorem Disk.Step.erase (hp : Below root p) : d.Step root (d.erase p hp.ne_nil) where
  outside q hq := by
    rw [node_erase, if_neg fun hpq => hq (hp.of_prefix hpq)]
  owned hd q r hq hr hqfile hrfile := by
    rw [node_erase] at hqfile hrfile
    split_ifs at hqfile hrfile
    · cases hqfile
    · cases hqfile
    · cases hrfile
    · exact hd q r hq hr hqfile hrfile

theorem Disk.Step.write (hd : d.Owned root) (hp : Below root p)
    (hfile : isFile (d.tree.node p) = true) : d.Step root (d.write p content) where
  outside q hq := by
    rw [node_write, if_neg]
    intro h
    rw [Bool.and_eq_true, decide_eq_true_eq] at h
    exact hd p q hp hq hfile h.1 h.2.symm
  owned hd q r hq hr hqfile hrfile := by
    rw [isFile_write] at hqfile hrfile
    exact hd q r hq hr hqfile hrfile

/-! ## Alike -/

theorem Disk.Alike.create (h : Alike root d₁ d₂) (hp : Below root p) (h₁ : d₁.tree.Room p)
    (h₂ : d₂.tree.Room p) : Alike root (d₁.create p n h₁) (d₂.create p n h₂) where
  node q hq := by rw [node_create, node_create, h.node q hq]
  paths := by
    change (p :: d₁.tree.paths).filter _ = (p :: d₂.tree.paths).filter _
    rw [filter_cons_of_pos (by simpa using hp.1), h.paths,
      filter_cons_of_pos (by simpa using hp.1)]
  inode q r hq hr := by
    have hnew : ∀ (d : Disk) (x y : Path), y ≠ p → x = p →
        update d.inode p d.next x ≠ update d.inode p d.next y := by
      intro d x y hy hx
      rw [hx, update_self, update_of_ne hy]
      have := d.bound y
      omega
    change update d₁.inode p d₁.next q = update d₁.inode p d₁.next r ↔
      update d₂.inode p d₂.next q = update d₂.inode p d₂.next r
    by_cases hqp : q = p
    · by_cases hrp : r = p
      · rw [hqp, hrp]
        exact ⟨fun _ => rfl, fun _ => rfl⟩
      · exact ⟨fun heq => absurd heq (hnew d₁ q r hrp hqp),
          fun heq => absurd heq (hnew d₂ q r hrp hqp)⟩
    by_cases hrp : r = p
    · exact ⟨fun heq => absurd heq.symm (hnew d₁ r q hqp hrp),
        fun heq => absurd heq.symm (hnew d₂ r q hqp hrp)⟩
    · rw [update_of_ne hqp, update_of_ne hrp, update_of_ne hqp,
        update_of_ne hrp]
      exact h.inode q r hq hr

theorem Disk.Alike.erase (h : Alike root d₁ d₂) (hp : p ≠ []) :
    Alike root (d₁.erase p hp) (d₂.erase p hp) where
  node q hq := by rw [node_erase, node_erase, h.node q hq]
  paths := h.paths
  inode := h.inode

theorem Disk.Alike.write (h : Alike root d₁ d₂) (ho₁ : d₁.Owned root) (ho₂ : d₂.Owned root)
    (hp : Below root p) (hfile : isFile (d₁.tree.node p) = true) :
    Alike root (d₁.write p content) (d₂.write p content) where
  node q hq := by
    have hfile₂ : isFile (d₂.tree.node p) = true := h.node p hp.along ▸ hfile
    by_cases hbelow : Below root q
    · rw [node_write, node_write, ← h.node q hq]
      simp only [h.inode q p hbelow hp]
    · rw [(Disk.Step.write ho₁ hp hfile).outside q hbelow,
        (Disk.Step.write ho₂ hp hfile₂).outside q hbelow, h.node q hq]
  paths := h.paths
  inode := h.inode

/-- Disks that are alike, each with all names of its files on one side of `root`. -/
structure Disk.Twins (root : Path) (d₁ d₂ : Disk) : Prop where
  alike : Alike root d₁ d₂
  left : d₁.Owned root
  right : d₂.Owned root

theorem Disk.Twins.self (h : d.Owned root) : Twins root d d :=
  ⟨⟨fun _ _ => rfl, rfl, fun _ _ _ _ => Iff.rfl⟩, h, h⟩

theorem Disk.Twins.create (h : Twins root d₁ d₂) (hp : Below root p) (h₁ : d₁.tree.Room p)
    (h₂ : d₂.tree.Room p) : Twins root (d₁.create p n h₁) (d₂.create p n h₂) where
  alike := h.alike.create hp h₁ h₂
  left := Owned.create h.left hp h₁
  right := Owned.create h.right hp h₂

theorem Disk.Twins.erase (h : Twins root d₁ d₂) (hp : Below root p) :
    Twins root (d₁.erase p hp.ne_nil) (d₂.erase p hp.ne_nil) where
  alike := h.alike.erase hp.ne_nil
  left := (Disk.Step.erase hp).owned h.left
  right := (Disk.Step.erase hp).owned h.right

theorem Disk.Twins.write (h : Twins root d₁ d₂) (hp : Below root p)
    (hfile : isFile (d₁.tree.node p) = true) :
    Twins root (d₁.write p content) (d₂.write p content) where
  alike := h.alike.write h.left h.right hp hfile
  left := (Disk.Step.write h.left hp hfile).owned h.left
  right := (Disk.Step.write h.right hp (h.alike.node p hp.along ▸ hfile)).owned h.right

theorem Disk.Alike.names (h : Alike root d₁ d₂) (hp : root <+: p) :
    d₁.tree.names p = d₂.tree.names p := by
  have hfilter : ∀ d : Disk,
      d.tree.paths.filterMap (fun q =>
        if (d.tree.node q).isSome ∧ q.dropLast = p then q.getLast? else none) =
      (d.tree.paths.filter (root <+: ·)).filterMap (fun q =>
        if (d.tree.node q).isSome ∧ q.dropLast = p then q.getLast? else none) := by
    intro d
    rw [filterMap_filter]
    refine filterMap_congr fun q _ => ?_
    by_cases hq : root <+: q
    · simp only [hq, decide_true, if_true]
    simp only [hq]
    refine if_neg fun hlisted => hq ?_
    rw [← hlisted.2] at hp
    exact hp.trans ( dropLast_prefix q)
  unfold Tree.names
  rw [hfilter d₁, hfilter d₂, h.paths]
  congr 1
  refine filterMap_congr fun q hq => ?_
  have hbelow : root <+: q := by simpa using (mem_filter.1 hq).2
  rw [h.node q (.inr hbelow)]

end Changes

end FileTree
