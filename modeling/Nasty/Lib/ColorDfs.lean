import Mathlib.Data.Finset.Card

/-!
# Three-colour depth-first search

`visit succ` walks a graph given by successor lists. A node is uncoloured, grey while its
successors are being visited, black afterwards; meeting a grey node is the error. The colour map
is threaded through the whole search, so one root profits from what an earlier root coloured.

* `visit_ends`: on a finite set of nodes closed under `succ` the search terminates.
* `visitAll_ok_iff`: from the empty colouring it succeeds exactly when no root reaches a cycle.
-/

namespace ColorDfs

open Relation Function List

inductive Color
  | gray
  | black

/-- The colours given so far; `none` is a node that has not been met. -/
abbrev Coloring (ν : Type*) := ν → Option Color

variable {ν : Type*}

def Edge (succ : ν → List ν) (a b : ν) : Prop := b ∈ succ a

/-- Visit nodes, stopping at the first error. The outer `none` is a search out of fuel. -/
def visitList (f : ν → Coloring ν → Option (Except ν (Coloring ν))) :
    List ν → Coloring ν → Option (Except ν (Coloring ν))
  | [], c => some (.ok c)
  | n :: ns, c =>
    match f n c with
    | none => none
    | some (.error e) => some (.error e)
    | some (.ok c') => visitList f ns c'

/-- Visit a node. The error is the grey node that was met again. -/
def visit [DecidableEq ν] (succ : ν → List ν) :
    ℕ → ν → Coloring ν → Option (Except ν (Coloring ν))
  | 0, _, _ => none
  | fuel + 1, n, c =>
    match c n with
    | some .black => some (.ok c)
    | some .gray => some (.error n)
    | none =>
      match visitList (visit succ fuel) (succ n) (update c n (some .gray)) with
      | none => none
      | some (.error e) => some (.error e)
      | some (.ok c') => some (.ok (update c' n (some .black)))

def visitAll [DecidableEq ν] (succ : ν → List ν) (fuel : ℕ) (roots : List ν) :
    Option (Except ν (Coloring ν)) :=
  visitList (visit succ fuel) roots fun _ => none

/-! ## Along a list of nodes -/

section

variable {f : ν → Coloring ν → Option (Except ν (Coloring ν))} {succ : ν → List ν} {n : ν}
  {c c' c₁ : Coloring ν} {N : Finset ν} {k : ℕ} {r : Except ν (Coloring ν)}

theorem visitList_cons {ns : List ν} : visitList f (n :: ns) c = some r ↔
      (∃ e, f n c = some (.error e) ∧ r = .error e) ∨
        ∃ c₁, f n c = some (.ok c₁) ∧ visitList f ns c₁ = some r := by
  rw [visitList]
  split <;> simp_all [eq_comm]

theorem visitList_of_le {g : ν → Coloring ν → Option (Except ν (Coloring ν))}
    (hfg : ∀ n c r, f n c = some r → g n c = some r) :
    ∀ ns c r, visitList f ns c = some r → visitList g ns c = some r := by
  intro ns
  induction ns with
  | nil => exact fun _ _ h => h
  | cons n ns ih =>
    intro c r h
    rw [visitList_cons] at h ⊢
    exact h.imp (fun ⟨e, h₁, he⟩ => ⟨e, hfg _ _ _ h₁, he⟩)
      fun ⟨c₁, h₁, h₂⟩ => ⟨c₁, hfg _ _ _ h₁, ih _ _ h₂⟩

def uncolored (N : Finset ν) (c : Coloring ν) : Finset ν := N.filter fun x => c x = none

/-- From a colouring that leaves fewer than `k` nodes of `N` uncoloured, `f` ends and takes no
colour away. -/
def Ends (N : Finset ν) (k : ℕ) (f : ν → Coloring ν → Option (Except ν (Coloring ν))) : Prop :=
  ∀ n ∈ N, ∀ c, (uncolored N c).card < k →
    ∃ r, f n c = some r ∧ ∀ c', r = .ok c' → uncolored N c' ⊆ uncolored N c

theorem Ends.list (hf : Ends N k f) : ∀ ns : List ν, (∀ n ∈ ns, n ∈ N) →
    ∀ c, (uncolored N c).card < k →
      ∃ r, visitList f ns c = some r ∧ ∀ c', r = .ok c' → uncolored N c' ⊆ uncolored N c := by
  intro ns
  induction ns with
  | nil =>
    intro _ c _
    refine ⟨_, rfl, ?_⟩
    rintro _ ⟨⟩
    exact subset_rfl
  | cons n ns ih =>
  intro hns c hc
  rw [forall_mem_cons] at hns
  obtain ⟨e | c₁, h₁, hsub⟩ := hf n hns.1 c hc
  · exact ⟨.error e, visitList_cons.2 (.inl ⟨e, h₁, rfl⟩), nofun⟩
  have hsub := hsub c₁ rfl
  obtain ⟨r, h₂, hsub'⟩ := ih hns.2 c₁ ((Finset.card_le_card hsub).trans_lt hc)
  exact ⟨r, visitList_cons.2 (.inr ⟨c₁, h₁, h₂⟩), fun c' hc' => (hsub' c' hc').trans hsub⟩

/-- Every black node is accessible: all paths from it end. -/
def BlackAcc (succ : ν → List ν) (c : Coloring ν) : Prop :=
  ∀ b, c b = some .black → Acc (fun x y => Edge succ y x) b

/-- Every grey node reaches `n` by at least one edge. -/
def GrayReaches (succ : ν → List ν) (c : Coloring ν) (n : ν) : Prop :=
  ∀ g, c g = some .gray → TransGen (Edge succ) g n

/-- The same grey nodes, accessible black nodes, and no black node turned back. -/
structure Visited (succ : ν → List ν) (c c' : Coloring ν) : Prop where
  gray : ∀ g, c' g = some .gray ↔ c g = some .gray
  black : ∀ b, c b = some .black → c' b = some .black
  acc : BlackAcc succ c'

theorem Visited.refl (h : BlackAcc succ c) : Visited succ c c := ⟨fun _ => Iff.rfl, fun _ h => h, h⟩

theorem Visited.trans (h : Visited succ c c₁) (h' : Visited succ c₁ c') : Visited succ c c' :=
  ⟨fun g => (h'.gray g).trans (h.gray g), fun b hb => h'.black b (h.black b hb), h'.acc⟩

/-- Success blackens the nodes, an error is a cycle reached from one of them. -/
def Outcome (succ : ν → List ν) (ns : List ν) (c : Coloring ν) : Except ν (Coloring ν) → Prop
  | .ok c' => Visited succ c c' ∧ ∀ n ∈ ns, c' n = some .black
  | .error e => ∃ n ∈ ns, ReflTransGen (Edge succ) n e ∧ TransGen (Edge succ) e e

/-- What one level of the search has to do, given the invariants of the colouring it starts
from. -/
def Sound (succ : ν → List ν) (f : ν → Coloring ν → Option (Except ν (Coloring ν))) : Prop :=
  ∀ n c r, BlackAcc succ c → GrayReaches succ c n → f n c = some r → Outcome succ [n] c r

theorem Sound.list (hf : Sound succ f) :
    ∀ (ns : List ν) (c : Coloring ν) r, BlackAcc succ c → (∀ n ∈ ns, GrayReaches succ c n) →
      visitList f ns c = some r → Outcome succ ns c r := by
  intro ns
  induction ns with
  | nil =>
    rintro c _ hacc - ⟨⟩
    exact ⟨.refl hacc, nofun⟩
  | cons n ns ih =>
  intro c r hacc hg h
  rw [forall_mem_cons] at hg
  rcases visitList_cons.1 h with ⟨e, h₁, rfl⟩ | ⟨c₁, h₁, h₂⟩
  · obtain ⟨m, hm, hme⟩ := hf n c _ hacc hg.1 h₁
    exact ⟨m, mem_append_left ns hm, hme⟩
  obtain ⟨hv, hn⟩ := hf n c _ hacc hg.1 h₁
  have hrest := ih c₁ r hv.acc (fun m hm g hgray => hg.2 m hm g ((hv.gray g).1 hgray)) h₂
  rcases r with e | c'
  · obtain ⟨m, hm, hme⟩ := hrest
    exact ⟨m, mem_cons_of_mem _ hm, hme⟩
  · obtain ⟨hv', hns⟩ := hrest
    exact ⟨hv.trans hv', forall_mem_cons.2
      ⟨hv'.black n (hn n (mem_singleton_self n)), hns⟩⟩

theorem not_cycle_of_acc {a b : ν} (h : Acc (fun x y => Edge succ y x) a)
    (hab : ReflTransGen (Edge succ) a b) : ¬ TransGen (Edge succ) b b := by
  have hb : Acc (fun x y => Edge succ y x) b := by
    induction hab with
    | refl => exact h
    | tail _ hedge ih => exact ih.inv hedge
  intro hcyc
  have hback : TransGen (fun x y => Edge succ y x) b b := transGen_swap.2 hcyc
  have hwf := hb.transGen
  clear hab hcyc h hb
  induction hwf with
  | intro x _ ih => exact ih x hback hback

end

/-! ## The search -/

section

variable [DecidableEq ν] {succ : ν → List ν} {fuel : ℕ} {n : ν} {c : Coloring ν}

theorem visit_black (h : c n = some .black) : visit succ (fuel + 1) n c = some (.ok c) := by
  rw [visit, h]

theorem visit_gray (h : c n = some .gray) : visit succ (fuel + 1) n c = some (.error n) := by
  rw [visit, h]

theorem visit_fresh (h : c n = none) : visit succ (fuel + 1) n c = some r ↔
      ∃ r₁, visitList (visit succ fuel) (succ n) (update c n (some .gray)) = some r₁ ∧
        r = r₁.map (update · n (some .black)) := by
  rw [visit, h]
  dsimp only
  split <;> simp_all [Except.map, eq_comm]

theorem visit_of_le : ∀ {fuel fuel' : ℕ}, fuel ≤ fuel' → ∀ n c r,
    visit succ fuel n c = some r → visit succ fuel' n c = some r := by
  intro fuel
  induction fuel with
  | zero => intro fuel' _ n c r h; simp [visit] at h
  | succ fuel ih =>
  intro fuel' hle n c r h
  obtain ⟨k, rfl⟩ : ∃ k, fuel' = k + 1 := ⟨fuel' - 1, by omega⟩
  rcases hc : c n with _ | _ | _
  · obtain ⟨r₁, h₁, hr⟩ := (visit_fresh hc).1 h
    exact (visit_fresh hc).2 ⟨r₁, visitList_of_le (ih (by omega)) _ _ _ h₁, hr⟩
  · rwa [visit_gray hc] at h ⊢
  · rwa [visit_black hc] at h ⊢

/-! ### Termination -/

section

variable {N : Finset ν} (hN : ∀ a ∈ N, ∀ b ∈ succ a, b ∈ N)

theorem uncolored_update (k : Color) :
    uncolored N (update c n (some k)) = (uncolored N c).erase n := by
  ext x
  by_cases hx : x = n <;> simp [uncolored, hx]

include hN in
/-- **Termination.** On a finite set closed under successors, fuel above the number of
uncoloured nodes is enough. -/
theorem visit_ends : ∀ fuel, Ends N fuel (visit succ fuel) := by
  intro fuel
  induction fuel with
  | zero => exact fun _ _ _ hc => absurd hc (Nat.not_lt_zero _)
  | succ fuel ih =>
  intro n hn c hc
  rcases hcn : c n with _ | _ | _
  · have hmem : n ∈ uncolored N c := Finset.mem_filter.2 ⟨hn, hcn⟩
    have hlt := Finset.card_erase_lt_of_mem hmem
    obtain ⟨r, hr, hsub⟩ := ih.list (succ n) (hN n hn) (update c n (some .gray)) (by
      rw [uncolored_update]
      omega)
    refine ⟨_, (visit_fresh hcn).2 ⟨r, hr, rfl⟩, ?_⟩
    rcases r with e | c'
    · exact nofun
    rintro _ ⟨⟩
    have hsub := hsub c' rfl
    rw [uncolored_update] at hsub ⊢
    exact (Finset.erase_subset _ _).trans (hsub.trans (Finset.erase_subset _ _))
  · exact ⟨_, visit_gray hcn, nofun⟩
  · refine ⟨_, visit_black hcn, ?_⟩
    rintro _ ⟨⟩
    exact subset_rfl

include hN in
theorem visitAll_isSome (hf : N.card < fuel) {roots : List ν} (hr : ∀ r ∈ roots, r ∈ N) :
    (visitAll succ fuel roots).isSome := by
  obtain ⟨r, hr, -⟩ := (visit_ends hN fuel).list roots hr (fun _ => none)
    ((Finset.card_filter_le _ _).trans_lt hf)
  exact Option.isSome_iff_exists.2 ⟨r, hr⟩

end

/-! ### Correctness -/

theorem BlackAcc.gray (h : BlackAcc succ c) (n : ν) : BlackAcc succ (update c n (some .gray)) := by
  intro b hb
  by_cases hbn : b = n
  · simp [hbn] at hb
  · rw [update_of_ne hbn] at hb
    exact h b hb

/-- The grey nodes, the new one included, reach every successor of the new one. -/
theorem GrayReaches.next (h : GrayReaches succ c n) {m : ν} (hm : m ∈ succ n) :
    GrayReaches succ (update c n (some .gray)) m := by
  intro g hg
  by_cases hgn : g = n
  · exact hgn ▸ TransGen.single hm
  · rw [update_of_ne hgn] at hg
    exact (h g hg).tail hm

/-- Turning the new node black after its successors keeps the grey nodes. -/
theorem Visited.finish (hn : c n = none) (h : Visited succ (update c n (some .gray)) c₁)
    (hs : ∀ m ∈ succ n, c₁ m = some .black) : Visited succ c (update c₁ n (some .black)) := by
  refine ⟨fun g => ?_, fun b hb => ?_, fun b hb => ?_⟩
  · by_cases hgn : g = n
    · subst hgn
      simp [hn]
    · rw [update_of_ne hgn, h.gray, update_of_ne hgn]
  · have hbn : b ≠ n := by
      rintro rfl
      rw [hn] at hb
      cases hb
    rw [update_of_ne hbn]
    exact h.black b (by rwa [update_of_ne hbn])
  by_cases hbn : b = n
  · subst hbn
    exact ⟨_, fun m hm => h.acc m (hs m hm)⟩
  · rw [update_of_ne hbn] at hb
    exact h.acc b hb

theorem visit_correct : ∀ fuel, Sound succ (visit succ fuel) := by
  intro fuel
  induction fuel with
  | zero => exact fun _ _ _ _ _ => nofun
  | succ fuel ih =>
  intro n c r hacc hg h
  have hself := mem_singleton_self n
  rcases hc : c n with _ | _ | _
  · obtain ⟨r₁, h₁, rfl⟩ := (visit_fresh hc).1 h
    have hlist := ih.list _ _ _ (hacc.gray n) (fun m hm => hg.next hm) h₁
    rcases r₁ with e | c₁
    · obtain ⟨m, hm, hme, hcyc⟩ := hlist
      exact ⟨n, hself, ReflTransGen.head hm hme, hcyc⟩
    · exact ⟨hlist.1.finish hc hlist.2, forall_mem_singleton.2 (update_self ..)⟩
  · rw [visit_gray hc] at h
    cases h
    exact ⟨n, hself, ReflTransGen.refl, hg n hc⟩
  · rw [visit_black hc] at h
    cases h
    exact ⟨Visited.refl hacc, forall_mem_singleton.2 hc⟩

/-- **Correctness.** If the search over the roots ends, it ends well exactly when no root
reaches a cycle. -/
theorem visitAll_ok_iff {roots : List ν} (hsome : (visitAll succ fuel roots).isSome) :
    (∃ c, visitAll succ fuel roots = some (.ok c)) ↔
      ∀ r ∈ roots, ∀ n, ReflTransGen (Edge succ) r n → ¬ TransGen (Edge succ) n n := by
  obtain ⟨res, hres⟩ := Option.isSome_iff_exists.1 hsome
  have hout := (visit_correct fuel).list roots (fun _ => none) res (fun _ => nofun)
    (fun _ _ _ => nofun) hres
  rw [hres]
  rcases res with e | c
  · obtain ⟨r, hr, hre, hcyc⟩ := hout
    exact ⟨nofun, fun h => absurd hcyc (h r hr e hre)⟩
  · exact ⟨fun _ r hr n hrn => not_cycle_of_acc (hout.1.acc r (hout.2 r hr)) hrn,
      fun _ => ⟨c, rfl⟩⟩

end

end ColorDfs
