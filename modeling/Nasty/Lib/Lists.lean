import Mathlib.Data.List.Destutter
import Mathlib.Data.List.Perm.Subperm

/-!
# Adding to a list and changing one element

`modifyFirst` changes the first element that satisfies a predicate, the one that `find?` returns.
`keepFirst` keeps the first occurrence of each element, `destutter` one of each run of equal ones.
-/

namespace List

variable {α β : Type*} {l : List α}

theorem Pairwise.concat {R : α → α → Prop} {a : α} (h : l.Pairwise R)
    (ha : ∀ b ∈ l, R b a) : (l ++ [a]).Pairwise R := by
  refine pairwise_append.2 ⟨h, pairwise_singleton R a, fun b hb c hc => ?_⟩
  rw [mem_singleton.1 hc]
  exact ha b hb

theorem Nodup.concat_toList {o : Option α} (h : l.Nodup) (ho : ∀ a ∈ o, a ∉ l) :
    (l ++ o.toList).Nodup := by
  cases o with
  | none => simpa using h
  | some a =>
    refine Pairwise.concat h fun b hb heq => ?_
    exact ho a rfl (heq ▸ hb)

variable (p : α → Bool) (f : α → α)

def modifyFirst : List α → List α
  | [] => []
  | a :: l => if p a then f a :: l else a :: modifyFirst l

variable {p f} {a b : α} {l : List α}

theorem modifyFirst_append {l₁ l₂ : List α} (h : ∀ b ∈ l₁, ¬ p b) (ha : p a) :
    (l₁ ++ a :: l₂).modifyFirst p f = l₁ ++ f a :: l₂ := by
  induction l₁ with
  | nil => exact if_pos ha
  | cons b l₁ ih =>
    rw [forall_mem_cons] at h
    rw [cons_append, modifyFirst, if_neg h.1, ih h.2]
    rfl

theorem modifyFirst_of_forall (h : ∀ b ∈ l, ¬ p b) : l.modifyFirst p f = l := by
  induction l with
  | nil => rfl
  | cons b l ih =>
    rw [forall_mem_cons] at h
    rw [modifyFirst, if_neg h.1, ih h.2]

/-- The first element that satisfies the predicate, if there is one, and what is around it. -/
theorem forall_or_first (p : α → Bool) (l : List α) : (∀ b ∈ l, ¬ p b) ∨
    ∃ l₁ a l₂, l = l₁ ++ a :: l₂ ∧ (∀ b ∈ l₁, ¬ p b) ∧ p a ∧ l.find? p = some a := by
  cases h : l.find? p with
  | none => exact .inl (find?_eq_none.1 h)
  | some a =>
    obtain ⟨ha, l₁, l₂, hl, hl₁⟩ := find?_eq_some_iff_append.1 h
    exact .inr ⟨l₁, a, l₂, hl, fun b hb => by simpa using hl₁ b hb, ha, rfl⟩

theorem mem_modifyFirst (h : b ∈ l.modifyFirst p f) : b ∈ l ∨ ∃ a ∈ l, p a ∧ f a = b := by
  rcases forall_or_first p l with hnone | ⟨l₁, a, l₂, rfl, hl₁, ha, -⟩
  · exact .inl (modifyFirst_of_forall hnone ▸ h)
  rw [modifyFirst_append hl₁ ha, mem_append, mem_cons] at h
  rcases h with h | rfl | h
  · exact .inl (mem_append_left _ h)
  · exact .inr ⟨a, by simp, ha, rfl⟩
  · exact .inl (mem_append_right _ (mem_cons_of_mem _ h))

theorem modifyFirst_eq_self_iff : l.modifyFirst p f = l ↔ ∀ a ∈ l.find? p, f a = a := by
  induction l with
  | nil => simp [modifyFirst]
  | cons b l ih =>
  unfold modifyFirst
  by_cases hb : p b
  · simp [hb]
  · simp [hb, ih]

variable {g : α → β}

theorem map_modifyFirst (hg : ∀ a, g (f a) = g a) (l : List α) :
    (l.modifyFirst p f).map g = l.map g := by
  induction l with
  | nil => rfl
  | cons a l ih =>
  unfold modifyFirst
  split
  · rw [map_cons, map_cons, hg]
  · rw [map_cons, map_cons, ih]

theorem nodup_map_modifyFirst (h : (l.map g).Nodup)
    (hne : ∀ a ∈ l, p a → ∀ b ∈ l, b ≠ a → g b ≠ g (f a)) : ((l.modifyFirst p f).map g).Nodup := by
  rcases forall_or_first p l with hnone | ⟨l₁, a, l₂, rfl, hl₁, ha, -⟩
  · rwa [modifyFirst_of_forall hnone]
  rw [modifyFirst_append hl₁ ha, map_append, map_cons, nodup_middle, nodup_cons, ← map_append]
  rw [map_append, map_cons, nodup_middle, nodup_cons, ← map_append] at h
  refine ⟨fun hmem => ?_, h.2⟩
  obtain ⟨b, hb, heq⟩ := mem_map.1 hmem
  have hba : b ≠ a := fun hba => h.1 (hba ▸ mem_map_of_mem hb)
  exact hne a (by simp) ha b (perm_middle.mem_iff.2 (mem_cons_of_mem _ hb)) hba heq

/-- Where `g` tells elements apart and the elements that satisfy `p` agree on it, only the changed
element can still satisfy `p`. -/
theorem eq_changed_of_mem_modifyFirst (h : (l.map g).Nodup)
    (hp : ∀ a ∈ l, p a → ∀ b ∈ l, p b → g a = g b) (hb : b ∈ l.modifyFirst p f) (hpb : p b) :
    ∃ a ∈ l, p a ∧ f a = b := by
  rcases forall_or_first p l with hnone | ⟨l₁, a, l₂, rfl, hl₁, ha, -⟩
  · exact absurd hpb (hnone b (modifyFirst_of_forall hnone ▸ hb))
  rw [modifyFirst_append hl₁ ha, mem_append, mem_cons] at hb
  rcases hb with hb | rfl | hb
  · exact absurd hpb (hl₁ b hb)
  · exact ⟨a, by simp, ha, rfl⟩
  · rw [map_append, map_cons, nodup_middle, nodup_cons] at h
    have hg := hp a (by simp) ha b (by simp [hb]) hpb
    exact absurd (hg ▸ mem_append_right _ (mem_map_of_mem hb)) h.1

theorem exists_of_mem_modifyFirst (h : b ∈ l.modifyFirst p f)
    (hg : ∀ a, g (f a) = g a) : ∃ a ∈ l, g a = g b := by
  have hmem : g b ∈ (l.modifyFirst p f).map g := mem_map_of_mem h
  rw [map_modifyFirst hg] at hmem
  exact mem_map.1 hmem

theorem mem_modifyFirst_of_find? (h : l.find? p = some a) : f a ∈ l.modifyFirst p f := by
  obtain ⟨ha, l₁, l₂, rfl, hl₁⟩ := find?_eq_some_iff_append.1 h
  rw [modifyFirst_append (by simpa using hl₁) ha]
  simp

theorem find?_modifyFirst (h : l.find? p = some a) (hf : p (f a)) :
    (l.modifyFirst p f).find? p = some (f a) := by
  obtain ⟨ha, l₁, l₂, rfl, hl₁⟩ := find?_eq_some_iff_append.1 h
  have hl₁ : ∀ b ∈ l₁, ¬ p b := by simpa using hl₁
  rw [modifyFirst_append hl₁ ha, find?_append, find?_eq_none.2 hl₁, find?_cons_of_pos hf]
  rfl

theorem mem_modifyFirst_of_mem (h : a ∈ l) : a ∈ l.modifyFirst p f ∨ l.find? p = some a := by
  rcases forall_or_first p l with hnone | ⟨l₁, c, l₂, rfl, hl₁, hc, hfirst⟩
  · exact .inl ((modifyFirst_of_forall hnone).symm ▸ h)
  rw [modifyFirst_append hl₁ hc, hfirst]
  rcases mem_append.1 h with h | h
  · exact .inl (mem_append_left _ h)
  rcases mem_cons.1 h with rfl | h
  · exact .inr rfl
  · exact .inl (mem_append_right _ (mem_cons_of_mem _ h))

/-! ## First occurrences -/

variable [DecidableEq α] {acc : List α}

def addNew (acc : List α) (a : α) : List α := if a ∈ acc then acc else acc ++ [a]

def keepFirst (l : List α) : List α := l.foldl addNew []

theorem mem_addNew : b ∈ addNew acc a ↔ b ∈ acc ∨ b = a := by
  unfold addNew
  split_ifs with h
  · exact ⟨.inl, fun hb => hb.elim id fun hba => hba ▸ h⟩
  · rw [mem_append, mem_singleton]

theorem mem_foldl_addNew : b ∈ l.foldl addNew acc ↔ b ∈ acc ∨ b ∈ l := by
  induction l generalizing acc with
  | nil => simp
  | cons a l ih => rw [foldl_cons, ih, mem_addNew, mem_cons, or_assoc]

@[simp] theorem mem_keepFirst : b ∈ l.keepFirst ↔ b ∈ l := by
  simp [keepFirst, mem_foldl_addNew]

theorem foldl_addNew_const {m : List α} (hm : m ≠ []) (h : ∀ b ∈ m, b = a) :
    m.foldl addNew acc = addNew acc a := by
  induction m generalizing acc with
  | nil => exact absurd rfl hm
  | cons b m ih =>
  obtain rfl := h b mem_cons_self
  rw [foldl_cons]
  by_cases hnil : m = []
  · rw [hnil, foldl_nil]
  · rw [ih hnil fun c hc => h c (mem_cons_of_mem _ hc), addNew, if_pos (mem_addNew.2 (.inr rfl))]

/-- Repeating each element does not change the first occurrences. -/
theorem keepFirst_flatMap {f : α → List α} (hne : ∀ a ∈ l, f a ≠ [])
    (hf : ∀ a ∈ l, ∀ b ∈ f a, b = a) : (l.flatMap f).keepFirst = l.keepFirst := by
  suffices h : ∀ acc, (l.flatMap f).foldl addNew acc = l.foldl addNew acc from h []
  induction l with
  | nil => exact fun _ => rfl
  | cons a l ih =>
  intro acc
  rw [flatMap_cons, foldl_append, foldl_cons,
    foldl_addNew_const (hne a mem_cons_self) (hf a mem_cons_self)]
  exact ih (fun b hb => hne b (mem_cons_of_mem _ hb)) (fun b hb => hf b (mem_cons_of_mem _ hb)) _

/-! ## Free names -/

omit [DecidableEq α] in
/-- Among one more of distinct candidates than there are taken elements, one is free. -/
theorem exists_not_mem_of_injective {f : Nat → α} (hf : Function.Injective f) (taken : List α)
    (start : Nat) : ∃ n ∈ range' start (taken.length + 1), f n ∉ taken := by
  by_contra hall
  have hsub : (range' start (taken.length + 1)).map f ⊆ taken := by
    intro a ha
    obtain ⟨n, hn, rfl⟩ := mem_map.1 ha
    by_contra hfree
    exact hall ⟨n, hn, hfree⟩
  have hlen := ((Nodup.map hf nodup_range').subperm hsub).length_le
  rw [length_map, length_range'] at hlen
  omega

/-! ## Pieces -/

omit [DecidableEq α] in
theorem length_flatMap_le {f g : α → List β}
    (h : ∀ a ∈ l, (f a).length ≤ (g a).length) : (l.flatMap f).length ≤ (l.flatMap g).length := by
  induction l with
  | nil => exact Nat.le_refl 0
  | cons a l ih =>
    rw [forall_mem_cons] at h
    rw [flatMap_cons, flatMap_cons, length_append, length_append]
    exact Nat.add_le_add h.1 (ih h.2)

omit [DecidableEq α] in
/-- If no piece is longer than its counterpart, the pieces agree when the whole does. -/
theorem flatMap_eq_flatMap_iff {f g : α → List β} (h : ∀ a ∈ l, (f a).length ≤ (g a).length) :
    l.flatMap f = l.flatMap g ↔ ∀ a ∈ l, f a = g a := by
  refine ⟨fun heq => ?_, fun heq => List.flatMap_congr heq⟩
  induction l with
  | nil => nofun
  | cons a l ih =>
  rw [forall_mem_cons] at h ⊢
  rw [flatMap_cons, flatMap_cons] at heq
  have hrest := length_flatMap_le h.2
  have hlen : (f a).length = (g a).length := by
    have htotal := congrArg length heq
    rw [length_append, length_append] at htotal
    omega
  obtain ⟨hfirst, hothers⟩ := append_inj heq hlen
  exact ⟨hfirst, ih h.2 hothers⟩

omit [DecidableEq α] in
/-- An element first, and then those that differ from it by a key that tells all apart. -/
theorem perm_cons_filter_ne [DecidableEq β] (h : (l.map g).Nodup) (ha : a ∈ l) :
    l.Perm (a :: l.filter (g · ≠ g a)) := by
  obtain ⟨l₁, l₂, rfl⟩ := append_of_mem ha
  have hne : ∀ b ∈ l₁ ++ l₂, g b ≠ g a := by
    intro b hb heq
    rw [map_append, map_cons, nodup_middle, nodup_cons] at h
    exact h.1 (heq ▸ map_append ▸ mem_map_of_mem hb)
  rw [filter_append, filter_cons_of_neg (by simp), ← filter_append,
    filter_eq_self.2 fun b hb => by simpa using hne b hb]
  exact perm_middle

omit [DecidableEq α] in
/-- An element that takes the place of those with its key. -/
theorem nodup_map_cons_filter [DecidableEq β] (h : (l.map g).Nodup) (a : α) :
    ((a :: l.filter (g · ≠ g a)).map g).Nodup := by
  rw [map_cons, nodup_cons]
  refine ⟨fun hmem => ?_, h.sublist (filter_sublist.map g)⟩
  obtain ⟨b, hb, heq⟩ := mem_map.1 hmem
  exact of_decide_eq_true (mem_filter.1 hb).2 heq

end List
