import Nasty.Lib.Lts
import Nasty.Lib.Maps

/-!
# The cached list of filesystems

`list` looks at the cache under its lock, discovers the filesystems without it, and stores what it
found under the lock again. A mutation changes the filesystems and then empties the cache.

A snapshot carries the number of changes made before it was taken. A discovery that crosses a
mutation is stored after the cache was emptied (`stale_answer`).
-/

namespace Nasty.Storage.ListCache

open Lts Function

variable {α : Type}

def fsListCacheTtl : ℕ := 3000000000

structure Snapshot (α : Type) where
  data : α
  /-- How many changes had been made when it was taken. -/
  moment : ℕ

inductive Call (α : Type)
  | started
  | discovering
  | discovered (result : Snapshot α)

/-- What a mutation has done: its last change, and whether it has emptied the cache since. -/
structure Mutation where
  moment : ℕ
  invalidated : Bool

structure World (α : Type) where
  clock : ℕ
  filesystems : α
  changes : ℕ
  listCache : Option (ℕ × Snapshot α)
  /-- The calls of `list`, each with the last change whose mutation had returned at its start. -/
  calls : ℕ → Option (ℕ × Call α)
  mutations : ℕ → Option Mutation
  /-- The last change for which the cache was emptied, and the last whose mutation has returned. -/
  invalidated : ℕ
  returned : ℕ
  /-- What the calls yielded, each with the change it has to show. -/
  answers : List (ℕ × Snapshot α)

def World.init (filesystems : α) : World α :=
  ⟨0, filesystems, 0, none, fun _ => none, fun _ => none, 0, 0, []⟩

inductive Event (α : Type)
  | tick (nanos : ℕ)
  | start (i : ℕ)
  | look (i : ℕ)
  | discover (i : ℕ) (ok : Bool)
  | store (i : ℕ)
  | change (j : ℕ) (filesystems : α)
  | invalidateListCache (j : ℕ)
  | finish (j : ℕ)

def World.put (w : World α) (i : ℕ) (c : Option (ℕ × Call α)) : World α :=
  { w with calls := update w.calls i c }

def World.yield (w : World α) (i since : ℕ) (data : Snapshot α) : World α :=
  { w.put i none with answers := w.answers ++ [(since, data)] }

def World.exec (w : World α) : Event α → Option (World α)
  | .tick nanos => some { w with clock := w.clock + nanos }
  | .start i => if (w.calls i).isNone then some (w.put i (some (w.returned, .started))) else none
  | .look i =>
    match w.calls i, w.listCache with
    | some (since, .started), some (ts, data) =>
      if w.clock - ts < fsListCacheTtl then some (w.yield i since data)
      else some (w.put i (some (since, .discovering)))
    | some (since, .started), none => some (w.put i (some (since, .discovering)))
    | _, _ => none
  | .discover i ok =>
    match w.calls i with
    | some (since, .discovering) =>
      some (w.put i (if ok then some (since, .discovered ⟨w.filesystems, w.changes⟩) else none))
    | _ => none
  | .store i =>
    match w.calls i with
    | some (since, .discovered result) =>
      some { w.yield i since result with listCache := some (w.clock, result) }
    | _ => none
  | .change j filesystems =>
    if (w.mutations j).all (!·.invalidated) then
      some { w with filesystems, changes := w.changes + 1,
                    mutations := update w.mutations j (some ⟨w.changes + 1, false⟩) }
    else none
  | .invalidateListCache j =>
    match w.mutations j with
    | some ⟨moment, false⟩ =>
      some { w with listCache := none, invalidated := max w.invalidated moment,
                    mutations := update w.mutations j (some ⟨moment, true⟩) }
    | _ => none
  | .finish j =>
    match w.mutations j with
    | some ⟨moment, true⟩ =>
      some { w with returned := max w.returned moment, mutations := update w.mutations j none }
    | _ => none

def Step (w : World α) (e : Event α) (w' : World α) : Prop := w.exec e = some w'

/-- A snapshot is stored only if it shows every change for which the cache was emptied. -/
def Careful (w : World α) : Event α → Prop
  | .store i => ∀ since result, w.calls i = some (since, .discovered result) →
      w.invalidated ≤ result.moment
  | _ => True

def CarefulStep (w : World α) (e : Event α) (w' : World α) : Prop := Careful w e ∧ Step w e w'

/-- Every answer shows the changes whose mutations had returned before its call started. -/
def World.Fresh (w : World α) : Prop := ∀ a ∈ w.answers, a.1 ≤ a.2.moment

/-! ## The invariant -/

def Call.Shows (since : ℕ) : Call α → Prop
  | .discovered result => since ≤ result.moment
  | _ => True

structure Inv (w : World α) : Prop where
  returned : w.returned ≤ w.invalidated
  invalidated : w.invalidated ≤ w.changes
  mutations : ∀ j m, w.mutations j = some m →
    m.moment ≤ w.changes ∧ (m.invalidated → m.moment ≤ w.invalidated)
  cache : ∀ ts data, w.listCache = some (ts, data) → w.invalidated ≤ data.moment
  calls : ∀ i c, w.calls i = some c → c.1 ≤ w.returned ∧ c.2.Shows c.1
  fresh : w.Fresh

variable {w w' : World α} {i since : ℕ}

theorem inv_init (filesystems : α) : Inv (.init filesystems) :=
  ⟨le_rfl, le_rfl, nofun, nofun, nofun, nofun⟩

theorem Inv.put (h : Inv w) {c : Option (ℕ × Call α)}
    (hc : ∀ d, c = some d → d.1 ≤ w.returned ∧ d.2.Shows d.1) : Inv (w.put i c) :=
  { h with calls := forall_update_some hc h.calls }

theorem Inv.putCall (h : Inv w) {c : Call α} (hsince : since ≤ w.returned) (hc : c.Shows since) :
    Inv (w.put i (some (since, c))) := by
  refine h.put ?_
  rintro _ ⟨⟩
  exact ⟨hsince, hc⟩

theorem Inv.yield (h : Inv w) {data : Snapshot α} (hdata : since ≤ data.moment) :
    Inv (w.yield i since data) :=
  { h.put (c := none) nofun with
    fresh := List.forall_mem_append.2 ⟨h.fresh, List.forall_mem_singleton.2 hdata⟩ }

theorem Inv.mutate (h : Inv w) {j : ℕ} {m : Option Mutation} (hm : ∀ n, m = some n →
      n.moment ≤ w.changes ∧ (n.invalidated → n.moment ≤ w.invalidated)) :
    Inv { w with mutations := update w.mutations j m } :=
  { h with mutations := forall_update_some hm h.mutations }

theorem Inv.step {e : Event α} (h : Inv w) (hstep : CarefulStep w e w') : Inv w' := by
  obtain ⟨hcareful, hexec⟩ := hstep
  unfold Step at hexec
  cases e with
  | tick =>
    cases hexec
    exact { h with }
  | start i =>
    simp only [World.exec] at hexec
    split_ifs at hexec
    cases hexec
    exact h.putCall le_rfl trivial
  | look i =>
    simp only [World.exec] at hexec
    split at hexec
    · next since ts data hi hcache =>
      have hsince := (h.calls i _ hi).1
      split_ifs at hexec <;> cases hexec
      · exact h.yield ((hsince.trans h.returned).trans (h.cache ts data hcache))
      · exact h.putCall hsince trivial
    · next since hi _ =>
      cases hexec
      exact h.putCall (h.calls i _ hi).1 trivial
    · cases hexec
  | discover i ok =>
    simp only [World.exec] at hexec
    split at hexec <;> cases hexec
    next since hi =>
    have hsince := (h.calls i _ hi).1
    cases ok with
    | false => exact h.put (c := none) nofun
    | true => exact h.putCall hsince ((hsince.trans h.returned).trans h.invalidated)
  | store i =>
    simp only [World.exec] at hexec
    split at hexec <;> cases hexec
    next since result hi =>
    refine { h.yield (h.calls i _ hi).2 with cache := ?_ }
    rintro _ _ ⟨⟩
    exact hcareful since result hi
  | change j filesystems =>
    simp only [World.exec] at hexec
    split_ifs at hexec
    cases hexec
    have hgrown : Inv { w with filesystems, changes := w.changes + 1 } :=
      { h with
        invalidated := h.invalidated.trans (Nat.le_succ _)
        mutations := fun k m hk => (h.mutations k m hk).imp_left (·.trans (Nat.le_succ _)) }
    refine hgrown.mutate ?_
    rintro _ ⟨⟩
    exact ⟨le_rfl, nofun⟩
  | invalidateListCache j =>
    simp only [World.exec] at hexec
    split at hexec <;> cases hexec
    next moment hj =>
    have hmoment := (h.mutations j _ hj).1
    have hemptied : Inv { w with listCache := none, invalidated := max w.invalidated moment } :=
      { h with
        returned := h.returned.trans (le_max_left ..)
        invalidated := max_le h.invalidated hmoment
        mutations := fun k m hk =>
          (h.mutations k m hk).imp_right fun hm hi => (hm hi).trans (le_max_left ..)
        cache := nofun }
    refine hemptied.mutate ?_
    rintro _ ⟨⟩
    exact ⟨hmoment, fun _ => le_max_right ..⟩
  | finish j =>
    simp only [World.exec] at hexec
    split at hexec <;> cases hexec
    next moment hj =>
    have hreturned : Inv { w with returned := max w.returned moment } :=
      { h with
        returned := max_le h.returned ((h.mutations j _ hj).2 rfl)
        calls := fun k c hk => (h.calls k c hk).imp_left (·.trans (le_max_left ..)) }
    exact hreturned.mutate (m := none) nofun

/-- **No stale answer,** if each stored snapshot was taken after all changes for which the cache was
emptied. -/
theorem answers_fresh {filesystems : α} {es : List (Event α)}
    (hrun : Run CarefulStep (.init filesystems) es w) : w.Fresh :=
  (hrun.inv (inv_init filesystems) fun _ _ _ h hstep => h.step hstep).fresh

/-- The mutation returns between the first call and the others: the second discovers, and the third
is answered from the cache. -/
theorem answers_fresh_cached : ∃ es w, Run CarefulStep (World.init "tank") es w ∧
    w.answers = [(0, ⟨"tank", 0⟩), (1, ⟨"tank, pool", 1⟩), (1, ⟨"tank, pool", 1⟩)] ∧ w.Fresh := by
  have h0 : Run CarefulStep (World.init "tank") [] (World.init "tank") := .nil
  have h1 := h0.next (.start 0) trivial rfl
  have h2 := h1.next (.look 0) trivial rfl
  have h3 := h2.next (.discover 0 true) trivial rfl
  have h4 := h3.next (.store 0) (fun _ _ _ => Nat.zero_le _) rfl
  have h5 := h4.next (.change 0 "tank, pool") trivial rfl
  have h6 := h5.next (.invalidateListCache 0) trivial rfl
  have h7 := h6.next (.finish 0) trivial rfl
  have h8 := h7.next (.start 1) trivial rfl
  have h9 := h8.next (.look 1) trivial rfl
  have h10 := h9.next (.discover 1 true) trivial rfl
  have h11 := h10.next (.store 1) (by rintro _ _ ⟨⟩; exact le_rfl) rfl
  have h12 := h11.next (.start 2) trivial rfl
  have h13 := h12.next (.look 2) trivial rfl
  exact ⟨_, _, h13, rfl, answers_fresh h13⟩

/-- A filesystem is made while a call discovers: the old snapshot is stored after the cache was
emptied, and answers the next call. -/
theorem stale_answer : ∃ es w, Run Step (World.init "tank") es w ∧ ¬ w.Fresh := by
  refine ⟨[.start 0, .look 0, .discover 0 true, .change 0 "tank, pool", .invalidateListCache 0,
    .finish 0, .store 0, .start 1, .look 1], _, .of_foldlM rfl, fun h => ?_⟩
  have hstale : 1 ≤ 0 := h _ (List.mem_append_right _ (List.mem_singleton_self _))
  nomatch hstale

end Nasty.Storage.ListCache
