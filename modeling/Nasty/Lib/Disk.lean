import Nasty.Lib.FileTree

/-!
# Files with several names

A tree together with the identity of the file behind each name. A file that is written in place
changes under all of its names; a new entry is a new file.

1. `create`, `erase`, `write`: what they change, as lemmas about the nodes.
2. `Sole`: each of the chosen files has one name. The three changes keep it.
-/

namespace FileTree

open Function

structure Disk where
  tree : Tree
  /-- Names with the same number are names of one file. -/
  inode : Path → ℕ
  next : ℕ
  bound : ∀ p, inode p < next

def isFile : Option Node → Bool
  | some (.file _) => true
  | _ => false

/-- With another content in the files that `chosen` holds of. -/
def Tree.rewrite (t : Tree) (chosen : Path → Bool) (content : List UInt8) : Tree where
  node q := if isFile (t.node q) && chosen q then some (.file content) else t.node q
  paths := t.paths
  root := by
    rw [t.root]
    rfl
  parent q n h := by
    have hn : t.node (q ++ [n]) ≠ none := by
      intro hnone
      rw [hnone] at h
      exact h rfl
    rw [t.parent q n hn]
    rfl
  finite q h := by
    refine t.finite q fun hnone => ?_
    rw [hnone] at h
    exact h rfl

namespace Disk

def create (d : Disk) (p : Path) (n : Node) (h : d.tree.Room p) : Disk where
  tree := d.tree.insert p n h
  inode := update d.inode p d.next
  next := d.next + 1
  bound q := by
    by_cases hq : q = p
    · rw [hq, update_self]
      omega
    · rw [update_of_ne hq]
      have := d.bound q
      omega

def erase (d : Disk) (p : Path) (hp : p ≠ []) : Disk := { d with tree := d.tree.remove p hp }

/-- With another content in the file at `p`, under all of its names. -/
def write (d : Disk) (p : Path) (content : List UInt8) : Disk :=
  { d with tree := d.tree.rewrite (fun q => d.inode q = d.inode p) content }

/-- The files at places that `chosen` holds of have no other names. -/
def Sole (d : Disk) (chosen : Path → Prop) : Prop :=
  ∀ p q, chosen p → isFile (d.tree.node p) → isFile (d.tree.node q) →
    d.inode p = d.inode q → p = q

variable {d : Disk} {chosen : Path → Prop} {p : Path} {n : Node} {content : List UInt8}

theorem mem_paths_of_isFile {t : Tree} (h : isFile (t.node p) = true) : p ∈ t.paths := by
  refine t.finite p fun hnone => ?_
  rw [hnone] at h
  cases h

instance (d : Disk) (chosen : Path → Prop) [DecidablePred chosen] : Decidable (d.Sole chosen) :=
  decidable_of_iff (∀ p ∈ d.tree.paths, ∀ q ∈ d.tree.paths, chosen p → isFile (d.tree.node p) →
      isFile (d.tree.node q) → d.inode p = d.inode q → p = q)
    ⟨fun h p q hchosen hp hq =>
      h p (mem_paths_of_isFile hp) q (mem_paths_of_isFile hq) hchosen hp hq, fun h p _ q _ => h p q⟩

theorem node_create (h : d.tree.Room p) (q : Path) :
    (d.create p n h).tree.node q = if q = p then some n else d.tree.node q := rfl

theorem node_erase (hp : p ≠ []) (q : Path) :
    (d.erase p hp).tree.node q = if p <+: q then none else d.tree.node q := rfl

theorem node_write (q : Path) :
    (d.write p content).tree.node q =
      if isFile (d.tree.node q) && decide (d.inode q = d.inode p) then some (.file content)
      else d.tree.node q := rfl

theorem isFile_write (q : Path) :
    isFile ((d.write p content).tree.node q) = isFile (d.tree.node q) := by
  rw [node_write]
  split_ifs with h
  · exact (Bool.and_eq_true _ _ ▸ h).1.symm
  · rfl

theorem Sole.node_write (hd : d.Sole chosen) (hchosen : chosen p) (hp : isFile (d.tree.node p))
    (q : Path) :
    (d.write p content).tree.node q = if q = p then some (.file content) else d.tree.node q := by
  rw [Disk.node_write]
  by_cases hq : q = p
  · subst hq
    simp [hp]
  rw [if_neg hq, if_neg]
  intro hnames
  rw [Bool.and_eq_true, decide_eq_true_eq] at hnames
  exact hq (hd p q hchosen hp hnames.1 hnames.2.symm).symm

theorem Sole.create (hd : d.Sole chosen) (h : d.tree.Room p) : (d.create p n h).Sole chosen := by
  intro q r hchosen hq hr heq
  rw [node_create] at hq hr
  change update d.inode p d.next q = update d.inode p d.next r at heq
  by_cases hqp : q = p
  · by_cases hrp : r = p
    · rw [hqp, hrp]
    · -- the number of the new file is larger than all that are in use
      rw [hqp, update_self, update_of_ne hrp] at heq
      have := d.bound r
      omega
  rw [if_neg hqp] at hq
  by_cases hrp : r = p
  · rw [hrp, update_self, update_of_ne hqp] at heq
    have := d.bound q
    omega
  · rw [if_neg hrp] at hr
    rw [update_of_ne hqp, update_of_ne hrp] at heq
    exact hd q r hchosen hq hr heq

theorem Sole.erase (hd : d.Sole chosen) (hp : p ≠ []) : (d.erase p hp).Sole chosen := by
  intro q r hchosen hq hr heq
  rw [node_erase] at hq hr
  split_ifs at hq hr
  · cases hq
  · cases hq
  · cases hr
  · exact hd q r hchosen hq hr heq

theorem Sole.write (hd : d.Sole chosen) : (d.write p content).Sole chosen := by
  intro q r hchosen hq hr heq
  rw [isFile_write] at hq hr
  exact hd q r hchosen hq hr heq

end Disk

end FileTree
