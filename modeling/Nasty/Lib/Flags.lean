import Mathlib.Data.List.Nodup

/-!
# Records with a key and a flag

A list of records is seen through two of their fields: a key, by which a record is looked up, and a
flag. `flagAt` looks a flag up, `put` sets it for one key and `putAll` for several. What they do to
one another is said by `flagAt_put` and `flagAt_putAll`; the rest of the records does not matter.
-/

structure FlagField (α κ : Type) where
  key : α → κ
  get : α → Bool
  set : Bool → α → α
  key_set : ∀ b a, key (set b a) = key a
  get_set : ∀ b a, get (set b a) = b

namespace FlagField

open List

variable {α κ : Type} [DecidableEq κ] (F : FlagField α κ)

def flagAt (l : List α) (k : κ) : Bool := (l.find? (F.key · = k)).any F.get

def put (b : Bool) (k : κ) (l : List α) : List α :=
  l.map fun a => if F.key a = k then F.set b a else a

def putAll (b : Bool) (ks : List κ) (l : List α) : List α := ks.foldl (fun l k => F.put b k l) l

variable {F} {b : Bool} {k j : κ} {ks : List κ} {l : List α} {a : α}

theorem map_key_put : (F.put b k l).map F.key = l.map F.key := by
  rw [put, map_map]
  refine map_congr_left fun a _ => ?_
  simp only [Function.comp_apply]
  split
  · exact F.key_set b a
  · rfl

theorem find?_put : (F.put b k l).find? (F.key · = j) =
    (l.find? (F.key · = j)).map fun a => if j = k then F.set b a else a := by
  induction l with
  | nil => rfl
  | cons a l ih =>
  rw [put, map_cons] at *
  by_cases ha : F.key a = j
  · by_cases hj : j = k
    · simp [ha, hj, F.key_set]
    · simp [ha, hj]
  have hkey : F.key (if F.key a = k then F.set b a else a) ≠ j := by
    split
    · rw [F.key_set]
      exact ha
    · exact ha
  rw [find?_cons_of_neg (by simpa using hkey), find?_cons_of_neg (by simpa using ha)]
  exact ih

theorem decide_mem_map_key : decide (k ∈ l.map F.key) = (l.find? (F.key · = k)).isSome := by
  rw [Bool.eq_iff_iff, decide_eq_true_iff]
  simp

theorem flagAt_put : F.flagAt (F.put b k l) j =
    if j = k then b && decide (k ∈ l.map F.key) else F.flagAt l j := by
  rw [flagAt, find?_put]
  by_cases hj : j = k
  · subst hj
    rw [decide_mem_map_key]
    cases l.find? (F.key · = j) with
    | none => simp
    | some a => simp [F.get_set]
  · rw [if_neg hj]
    simp only [hj, if_false, Option.map_id_fun']
    rfl

theorem map_key_putAll : (F.putAll b ks l).map F.key = l.map F.key := by
  induction ks generalizing l with
  | nil => rfl
  | cons k ks ih => rw [putAll, foldl_cons, ← putAll, ih, map_key_put]

theorem flagAt_putAll : F.flagAt (F.putAll b ks l) j =
    if j ∈ ks then b && decide (j ∈ l.map F.key) else F.flagAt l j := by
  induction ks generalizing l with
  | nil => rfl
  | cons k ks ih =>
  rw [putAll, foldl_cons, ← putAll, ih, flagAt_put, map_key_put]
  by_cases hks : j ∈ ks
  · rw [if_pos hks, if_pos (mem_cons_of_mem _ hks)]
  by_cases hj : j = k
  · subst hj
    simp
  · simp [hj]

theorem flagAt_of_mem (hkeys : (l.map F.key).Nodup) (ha : a ∈ l) :
    F.flagAt l (F.key a) = F.get a := by
  induction l with
  | nil => cases ha
  | cons c l ih =>
  rw [map_cons, nodup_cons] at hkeys
  rcases mem_cons.1 ha with rfl | ha
  · simp [flagAt]
  · have hne : F.key c ≠ F.key a := fun h => hkeys.1 (h ▸ mem_map_of_mem ha)
    rw [flagAt, find?_cons_of_neg (by simpa using hne)]
    exact ih hkeys.2 ha

end FlagField
