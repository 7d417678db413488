import Mathlib.Data.List.AList
import Mathlib.Data.Set.Finite.Basic

/-!
# Maps that are changed in place and swept

The two operations on a map of values that `AList` lacks: changing the value of one key, and
keeping only the entries that satisfy a predicate. And maps built by one insertion for every
element of a list, as functions. `Finite` says that a function has finitely many values.
-/

namespace AList

variable {α β : Type*} [DecidableEq α]

def modify (a : α) (f : β → β) (s : AList fun _ : α => β) : AList fun _ : α => β :=
  match s.lookup a with
  | some b => s.insert a (f b)
  | none => s

def retain (p : β → Bool) (s : AList fun _ : α => β) : AList fun _ : α => β :=
  ⟨s.entries.filter fun e => p e.2, s.nodupKeys.sublist List.filter_sublist⟩

def values (s : AList fun _ : α => β) : List β := s.entries.map (·.2)

variable {a a' : α} {b : β} {f : β → β} {p : β → Bool} {s : AList fun _ : α => β}

theorem lookup_modify : (s.modify a f).lookup a = (s.lookup a).map f := by
  unfold modify
  rcases h : s.lookup a with _ | b
  · rw [Option.map_none, h]
  · rw [Option.map_some]
    exact lookup_insert s

theorem lookup_modify_ne (hne : a' ≠ a) : (s.modify a f).lookup a' = s.lookup a' := by
  unfold modify
  rcases s.lookup a with _ | b
  · rfl
  · exact lookup_insert_ne hne

theorem lookup_retain : (s.retain p).lookup a = (s.lookup a).filter p := by
  ext b
  rw [Option.mem_def.symm, mem_lookup_iff, Option.filter_eq_some_iff, ← Option.mem_def,
    mem_lookup_iff]
  exact List.mem_filter

theorem mem_values : b ∈ s.values ↔ ∃ a, s.lookup a = some b := by
  constructor
  · intro h
    obtain ⟨⟨a, _⟩, hmem, rfl⟩ := List.mem_map.1 h
    exact ⟨a, mem_lookup_iff.2 hmem⟩
  · rintro ⟨a, h⟩
    exact List.mem_map.2 ⟨⟨a, b⟩, mem_lookup_iff.1 h, rfl⟩

end AList

namespace Function

variable {α κ ν : Type*} [DecidableEq κ]

theorem forall_update_some {f : κ → Option ν} {i : κ} {c : Option ν} {P : ν → Prop}
    (hc : ∀ v, c = some v → P v) (hf : ∀ k v, f k = some v → P v) :
    ∀ k v, update f i c k = some v → P v :=
  (forall_update_iff f fun _ o => ∀ v, o = some v → P v).2 ⟨hc, fun k _ => hf k⟩

/-- The map that takes the key of every element to its value; a later element replaces an earlier
one. -/
def insertAll (key : α → κ) (value : α → ν) (l : List α) : κ → Option ν :=
  l.foldl (fun map x => update map (key x) (some (value x))) fun _ => none

variable {key : α → κ} {value : α → ν} {l : List α} {k : κ} {v : ν}

theorem insertAll_concat (x : α) : insertAll key value (l ++ [x]) =
    update (insertAll key value l) (key x) (some (value x)) := by
  rw [insertAll, List.foldl_append]
  rfl

/-- With distinct keys nothing is replaced. -/
theorem insertAll_eq_some (h : (l.map key).Nodup) :
    insertAll key value l k = some v ↔ ∃ x ∈ l, key x = k ∧ value x = v := by
  induction l using List.reverseRecOn with
  | nil => simp [insertAll]
  | append_singleton l x ih =>
  rw [List.map_append, List.nodup_append] at h
  rw [insertAll_concat, update_apply]
  split_ifs with hk
  · have hnot : ∀ y ∈ l, key y ≠ k := fun y hy =>
      hk ▸ h.2.2 (key y) (List.mem_map_of_mem hy) (key x) (by simp)
    constructor
    · intro hv
      exact ⟨x, by simp, hk.symm, Option.some.inj hv⟩
    rintro ⟨y, hy, hyk, rfl⟩
    rcases List.mem_append.1 hy with hy | hy
    · exact absurd hyk (hnot y hy)
    · rw [List.mem_singleton.1 hy]
  · rw [ih h.1]
    refine exists_congr fun y => and_congr_left fun hy => ?_
    rw [List.mem_append, List.mem_singleton]
    refine ⟨.inl, fun hmem => hmem.resolve_right ?_⟩
    rintro rfl
    exact hk hy.1.symm

end Function

namespace Maps

variable {α β : Type*} {f : α → Option β}

abbrev Finite (f : α → Option β) : Prop := {a | (f a).isSome}.Finite

theorem Finite.none : Finite (fun _ => Option.none : α → Option β) := by
  simp [Finite]

theorem Finite.update [DecidableEq α] (hf : Finite f) (a : α) (b : Option β) :
    Finite (Function.update f a b) := by
  refine (Set.Finite.insert a hf).subset fun x hx => ?_
  by_cases hxa : x = a
  · exact .inl hxa
  · rw [Set.mem_ofPred_eq, Function.update_of_ne hxa] at hx
    exact .inr hx

theorem Finite.exists_list (hf : Finite f) : ∃ l : List α, l.Nodup ∧ ∀ a, a ∈ l ↔ (f a).isSome := by
  refine ⟨(Set.Finite.toFinset hf).toList, Finset.nodup_toList _, fun a => ?_⟩
  rw [Finset.mem_toList, Set.Finite.mem_toFinset]
  rfl

end Maps
