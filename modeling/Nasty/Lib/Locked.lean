import Nasty.Lib.Lists
import Nasty.Lib.Lts

/-!
# Locked sections

Tasks that load a record, decide what to do with it and save it, each section under one lock.
A task waits for the lock, or only tries it. The caller of a task may go away, and the task goes on
without it; a restart loses every task and keeps the store.

1. `Inv`: what the holder of the lock is about to save was decided on what the store still holds.
2. `run_saves`: so the saves of a run are a run of the system in which each operation is atomic.
3. `run_settled`: the answer a caller gets was decided in one step of its task.
4. `run_reported`: a save whose caller got no answer has an event that says why.
-/

namespace Locked

open Lts List Option Function

variable {K R O A : Type*}

/-! ## The system -/

/-- What a section does with what it has loaded: answer, or save a record and answer. -/
inductive Verdict (K R A : Type*) where
  | answer (a : A)
  | save (k : K) (r : R) (saved failed : A)

/-- The record an operation loads, what it decides, and whether it only tries the lock. -/
structure Protocol (K R O A : Type*) where
  loads : O → Option K
  decide : O → Option R → Verdict K R A
  tries : O → Bool

inductive Phase (K R A : Type*) where
  | queued
  | loading
  | saving (k : K) (r : R) (saved failed : A)
  | done (a : A)

def Phase.inSection : Phase K R A → Bool
  | .loading | .saving .. => true
  | .queued | .done _ => false

structure Task (K R O A : Type*) where
  op : O
  phase : Phase K R A
  /-- Its caller still waits for the answer. -/
  awaited : Bool

structure State (K R O A : Type*) where
  store : K → Option R
  holder : Option ℕ
  tasks : ℕ → Option (Task K R O A)
  spawned : ℕ

def init (store : K → Option R) : State K R O A := ⟨store, none, fun _ => none, 0⟩

inductive Event (O A : Type*) where
  | call (t : ℕ) (op : O)
  | tryCall (t : ℕ) (op : O)
  /-- A call that found the lock taken. -/
  | dropped (op : O)
  | lock (t : ℕ)
  | load (t : ℕ) (op : O) (ok : Bool)
  | save (t : ℕ) (op : O) (ok : Bool)
  | answer (t : ℕ) (op : O) (a : A)
  | abandon (t : ℕ)
  | restart

def Event.called : Event O A → Option (ℕ × O)
  | .call t op | .tryCall t op => some (t, op)
  | _ => none

def Event.saved : Event O A → Option (ℕ × O)
  | .save t op true => some (t, op)
  | _ => none

def Event.answered : Event O A → Option (ℕ × O × A)
  | .answer t op a => some (t, op, a)
  | _ => none

def calls (h : List (Event O A)) : List (ℕ × O) := h.filterMap Event.called

def saves (h : List (Event O A)) : List (ℕ × O) := h.filterMap Event.saved

def answers (h : List (Event O A)) : List (ℕ × O × A) := h.filterMap Event.answered

variable {h : List (Event O A)} (s : State K R O A) (h₁ h₂ : List (Event O A))

theorem mem_saves {t : ℕ} {op : O} : (t, op) ∈ saves h ↔ .save t op true ∈ h := by
  refine mem_filterMap.trans ⟨fun ⟨e, he, heq⟩ => ?_, fun he => ⟨_, he, rfl⟩⟩
  unfold Event.saved at heq
  split at heq <;> cases heq
  exact he

theorem mem_answers {t : ℕ} {op : O} {a : A} : (t, op, a) ∈ answers h ↔ .answer t op a ∈ h := by
  refine mem_filterMap.trans ⟨fun ⟨e, he, heq⟩ => ?_, fun he => ⟨_, he, rfl⟩⟩
  unfold Event.answered at heq
  split at heq <;> cases heq
  exact he

theorem calls_append : calls (h₁ ++ h₂) = calls h₁ ++ calls h₂ :=
  filterMap_append

theorem saves_append : saves (h₁ ++ h₂) = saves h₁ ++ saves h₂ :=
  filterMap_append

theorem calls_concat (h : List (Event O A)) (e : Event O A) :
    calls (h ++ [e]) = calls h ++ e.called.toList := by
  cases hc : e.called <;> simp [calls, hc]

theorem saves_concat (h : List (Event O A)) (e : Event O A) :
    saves (h ++ [e]) = saves h ++ e.saved.toList := by
  cases hc : e.saved <;> simp [saves, hc]

theorem answers_concat (h : List (Event O A)) (e : Event O A) :
    answers (h ++ [e]) = answers h ++ e.answered.toList := by
  cases hc : e.answered <;> simp [answers, hc]

def State.put (s : State K R O A) (t : ℕ) (task : Task K R O A) : State K R O A :=
  { s with tasks := update s.tasks t (some task) }

@[simp, grind =] theorem put_tasks (t u : ℕ) (task : Task K R O A) :
    (s.put t task).tasks u = if u = t then some task else s.tasks u :=
  update_apply ..

theorem of_put {s : State K R O A} {t u : ℕ} {task task' : Task K R O A}
    (h : (s.put t task).tasks u = some task') :
    (u = t ∧ task = task') ∨ s.tasks u = some task' := by
  rw [put_tasks] at h
  split_ifs at h with hu
  · exact .inl ⟨hu, some.inj h⟩
  · exact .inr h

@[simp, grind =] theorem put_store (t task) : (s.put t task).store = s.store := rfl

@[simp, grind =] theorem put_holder (t task) : (s.put t task).holder = s.holder := rfl

@[simp, grind =] theorem put_spawned (t task) : (s.put t task).spawned = s.spawned := rfl

def Verdict.phase : Verdict K R A → Phase K R A
  | .answer a => .done a
  | .save k r saved failed => .saving k r saved failed

/-- The lock is given back with the answer. -/
def Verdict.holder (t : ℕ) : Verdict K R A → Option ℕ
  | .answer _ => none
  | .save .. => some t

variable [DecidableEq K] [DecidableEq O] [DecidableEq A] (P : Protocol K R O A)

def next (s : State K R O A) : Event O A → Option (State K R O A)
  | .call t op =>
    if t = s.spawned ∧ ¬ P.tries op then
      some { s.put t ⟨op, .queued, true⟩ with spawned := t + 1 }
    else none
  | .tryCall t op =>
    if t = s.spawned ∧ P.tries op ∧ s.holder = none then
      some { s.put t ⟨op, .loading, true⟩ with holder := some t, spawned := t + 1 }
    else none
  -- a lock on its way to the next waiter is not free, so this does not depend on the holder
  | .dropped op => if P.tries op then some s else none
  | .lock t =>
    match s.tasks t with
    | some ⟨op, .queued, c⟩ =>
      if s.holder = none then some { s.put t ⟨op, .loading, c⟩ with holder := some t } else none
    | _ => none
  | .load t op ok =>
    match s.tasks t with
    | some ⟨op', .loading, c⟩ =>
      let v := P.decide op (if ok then (P.loads op).bind s.store else none)
      if op' = op then some { s.put t ⟨op, v.phase, c⟩ with holder := v.holder t } else none
    | _ => none
  | .save t op ok =>
    match s.tasks t with
    | some ⟨op', .saving k r saved failed, c⟩ =>
      if op' = op then
        some { s.put t ⟨op, .done (if ok then saved else failed), c⟩ with
          store := if ok then update s.store k (some r) else s.store
          holder := none }
      else none
    | _ => none
  | .answer t op a =>
    match s.tasks t with
    | some ⟨op', .done a', true⟩ =>
      if op' = op ∧ a' = a then some (s.put t ⟨op, .done a, false⟩) else none
    | _ => none
  | .abandon t =>
    match s.tasks t with
    | some ⟨op, phase, true⟩ => some (s.put t ⟨op, phase, false⟩)
    | _ => none
  | .restart => some { s with holder := none, tasks := fun _ => none }

def Step (s : State K R O A) (e : Event O A) (u : State K R O A) : Prop := next P s e = some u

/-! ## What a step does -/

/-- What a load of the operation may give: the record of the store, or nothing. -/
def Seen (store : K → Option R) (op : O) (seen : Option R) : Prop :=
  seen = none ∨ seen = (P.loads op).bind store

inductive Effect (s : State K R O A) : Event O A → State K R O A → Prop
  | call (op) :
    Effect s (.call s.spawned op)
      { s.put s.spawned ⟨op, .queued, true⟩ with spawned := s.spawned + 1 }
  | tryCall (op) (free : s.holder = none) :
    Effect s (.tryCall s.spawned op)
      { s.put s.spawned ⟨op, .loading, true⟩ with
        holder := some s.spawned, spawned := s.spawned + 1 }
  | dropped (op) : Effect s (.dropped op) s
  | lock {t op c} (task : s.tasks t = some ⟨op, .queued, c⟩) (free : s.holder = none) :
    Effect s (.lock t) { s.put t ⟨op, .loading, c⟩ with holder := some t }
  | load {t op c} (ok seen) (task : s.tasks t = some ⟨op, .loading, c⟩)
    (saw : Seen P s.store op seen) :
    Effect s (.load t op ok)
      { s.put t ⟨op, (P.decide op seen).phase, c⟩ with holder := (P.decide op seen).holder t }
  | saved {t op c k r saved failed} (task : s.tasks t = some ⟨op, .saving k r saved failed, c⟩) :
    Effect s (.save t op true)
      { s.put t ⟨op, .done saved, c⟩ with
        store := update s.store k (some r), holder := none }
  | failed {t op c k r saved failed} (task : s.tasks t = some ⟨op, .saving k r saved failed, c⟩) :
    Effect s (.save t op false) { s.put t ⟨op, .done failed, c⟩ with holder := none }
  | answer {t op a} (task : s.tasks t = some ⟨op, .done a, true⟩) :
    Effect s (.answer t op a) (s.put t ⟨op, .done a, false⟩)
  | abandon {t op phase} (task : s.tasks t = some ⟨op, phase, true⟩) :
    Effect s (.abandon t) (s.put t ⟨op, phase, false⟩)
  | restart : Effect s .restart { s with holder := none, tasks := fun _ => none }

variable {P} {s u : State K R O A} {e : Event O A} {t : ℕ} {op : O} {a : A}

theorem effect_of_step (h : Step P s e u) : Effect P s e u := by
  unfold Step next at h
  split at h
  · split_ifs at h with ht
    obtain ⟨rfl, -⟩ := ht
    cases h
    exact .call _
  · split_ifs at h with ht
    obtain ⟨rfl, -, free⟩ := ht
    cases h
    exact .tryCall _ free
  · split_ifs at h
    cases h
    exact .dropped _
  · split at h
    · rename_i task
      split_ifs at h with free
      cases h
      exact .lock task free
    · cases h
  · split at h
    · rename_i ok _ _ _ task
      dsimp only at h
      split_ifs at h with hop <;> cases hop <;> cases h
      · exact .load ok _ task (.inr rfl)
      · exact .load ok _ task (.inl rfl)
    · cases h
  · split at h
    · rename_i ok _ _ _ _ _ _ _ task
      cases ok <;> simp only [Bool.false_eq_true, if_false] at h <;>
        split_ifs at h with hop <;> cases hop <;> cases h
      · exact .failed task
      · exact .saved task
    · cases h
  · split at h
    · rename_i task
      split_ifs at h with hop
      obtain ⟨rfl, rfl⟩ := hop
      cases h
      exact .answer task
    · cases h
  · split at h
    · rename_i task
      cases h
      exact .abandon task
    · cases h
  · cases h
    exact .restart

/-- How a task goes on: its operation and its answer stay, and a caller that has gone does not
come back. -/
structure Task.Becomes (old new : Task K R O A) : Prop where
  op : new.op = old.op
  done : ∀ a, old.phase = .done a → new.phase = .done a
  awaited : old.awaited = false → new.awaited = false

theorem task_of_step {task : Task K R O A} (h : Step P s e u) (hu : u.tasks t = some task) :
    (t = s.spawned ∧ e.called = some (t, task.op)) ∨
      ∃ old, s.tasks t = some old ∧ old.Becomes task := by
  have hkept : s.tasks t = some task → ∃ old, s.tasks t = some old ∧ old.Becomes task :=
    fun hold => ⟨task, hold, rfl, fun _ => id, id⟩
  rcases effect_of_step h with
    _ | _ | _ | ⟨task, -⟩ | ⟨ok, seen, task, saw⟩ | task | task | task | task | _
  case dropped => exact .inr (hkept hu)
  case restart => cases hu
  all_goals rcases of_put hu with ⟨rfl, rfl⟩ | hold
  case call.inl | tryCall.inl => exact .inl ⟨rfl, rfl⟩
  case lock.inl | load.inl | saved.inl | failed.inl => exact .inr ⟨_, task, rfl, nofun, id⟩
  case answer.inl | abandon.inl => exact .inr ⟨_, task, rfl, fun _ => id, fun _ => rfl⟩
  all_goals exact .inr (hkept hold)

theorem spawned_of_step (h : Step P s e u) :
    s.spawned ≤ u.spawned ∧ ∀ x ∈ e.called, x.1 = s.spawned ∧ u.spawned = s.spawned + 1 := by
  rcases effect_of_step h <;> simp [Event.called]

theorem saving_of_step {x : ℕ × O} (h : Step P s e u) (hx : x ∈ e.saved) :
    ∃ k r saved failed c, s.tasks x.1 = some ⟨x.2, .saving k r saved failed, c⟩ ∧
      u.tasks x.1 = some ⟨x.2, .done saved, c⟩ ∧ u.store = update s.store k (some r) := by
  cases effect_of_step h with
  | saved task =>
    cases hx
    exact ⟨_, _, _, _, _, task, by simp, rfl⟩
  | _ => cases hx

theorem awaited_of_step {x : ℕ × O × A} (h : Step P s e u) (hx : x ∈ e.answered) :
    s.tasks x.1 = some ⟨x.2.1, .done x.2.2, true⟩ ∧
      u.tasks x.1 = some ⟨x.2.1, .done x.2.2, false⟩ := by
  cases effect_of_step h with
  | answer task =>
    cases hx
    exact ⟨task, by simp⟩
  | _ => cases hx

/-! ## Mutual exclusion -/

variable (P) in
/-- Only the holder is in its section, and what it saves it has decided on what the store still
holds. -/
structure Inv (s : State K R O A) : Prop where
  exclusive : ∀ t task, s.tasks t = some task → task.phase.inSection → s.holder = some t
  current : ∀ t op c k r saved failed,
    s.tasks t = some ⟨op, .saving k r saved failed, c⟩ →
      ∃ seen, Seen P s.store op seen ∧ P.decide op seen = .save k r saved failed
  bounded : ∀ t task, s.tasks t = some task → t < s.spawned

omit [DecidableEq K] [DecidableEq O] [DecidableEq A] in
theorem Inv.init (store : K → Option R) : Inv P (init store) :=
  ⟨by simp [Locked.init], by simp [Locked.init], by simp [Locked.init]⟩

/-- The new task is queued, or it starts with a free lock; a task that goes on is the holder. -/
theorem Inv.step (hs : Inv P s) (h : Step P s e u) : Inv P u := by
  obtain ⟨hex, hcur, hbound⟩ := hs
  rcases effect_of_step h with _ | _ | _ | _ | ⟨ok, seen, task, saw⟩ | _ | _ | _ | _ | _
  case load =>
    rcases hv : P.decide _ seen with a | ⟨k, r, saved, failed⟩
    all_goals refine ⟨?_, ?_, ?_⟩ <;> grind [Phase.inSection, Verdict.phase, Verdict.holder]
  all_goals refine ⟨?_, ?_, ?_⟩ <;> grind [Phase.inSection]

theorem Inv.run (hs : Inv P s) (hrun : Run (Step P) s h u) : Inv P u :=
  hrun.inv hs fun _ _ _ => Inv.step

/-! ## Saves are atomic -/

variable (P) in
/-- The atomic system: an operation that saves loads, decides and saves in one step. -/
def Atomic (store : K → Option R) (x : ℕ × O) (store' : K → Option R) : Prop :=
  ∃ seen k r saved failed, Seen P store x.2 seen ∧ P.decide x.2 seen = .save k r saved failed ∧
    store' = update store k (some r)

theorem atomic_of_step (hs : Inv P s) (h : Step P s e u) :
    (e.saved = none ∧ u.store = s.store) ∨ ∃ x, e.saved = some x ∧ Atomic P s.store x u.store := by
  rcases effect_of_step h with _ | _ | _ | _ | _ | task | _ | _ | _ | _
  case saved =>
    obtain ⟨seen, hseen, hv⟩ := hs.current _ _ _ _ _ _ _ task
    exact .inr ⟨_, rfl, seen, _, _, _, _, hseen, hv, rfl⟩
  all_goals exact .inl ⟨rfl, rfl⟩

/-- **Refinement.** The saves of a run are a run of the atomic system. -/
theorem run_saves (hs : Inv P s) (hrun : Run (Step P) s h u) :
    Run (Atomic P) s.store (saves h) u.store := by
  induction hrun with
  | nil => exact .nil
  | @snoc h t e u hrun hstep ih =>
  rw [saves_concat]
  rcases atomic_of_step (hs.run hrun) hstep with ⟨hnone, hstore⟩ | ⟨x, hx, hatomic⟩
  · rwa [hnone, hstore, toList_none, append_nil]
  · rw [hx]
    exact .snoc ih hatomic

/-! ## A task is called once, saves once and answers once -/

structure Track (h : List (Event O A)) (s : State K R O A) : Prop where
  called : ∀ t task, s.tasks t = some task → (t, task.op) ∈ calls h
  bounded : ∀ x ∈ calls h, x.1 < s.spawned
  calls_nodup : (calls h).Nodup
  saved : ∀ x ∈ saves h, x ∈ calls h ∧ ∀ task, s.tasks x.1 = some task → ∃ a, task.phase = .done a
  saves_nodup : (saves h).Nodup
  answered : ∀ x ∈ answers h, x.1 < s.spawned ∧
    ∀ task, s.tasks x.1 = some task → task.awaited = false
  answers_nodup : ((answers h).map Prod.fst).Nodup

theorem Track.step (ht : Track h s) (hstep : Step P s e u) : Track (h ++ [e]) u := by
  obtain ⟨hle, hspawn⟩ := spawned_of_step hstep
  have hold : ∀ x ∈ calls h, x.1 < u.spawned := fun x hx => Nat.lt_of_lt_of_le (ht.bounded x hx) hle
  refine ⟨?_, ?_, ?_, ?_, ?_, ?_, ?_⟩
  · intro t task hu
    rw [calls_concat, mem_append, mem_toList]
    rcases task_of_step hstep hu with ⟨-, hcalled⟩ | ⟨old, hold, hbecomes⟩
    · exact .inr hcalled
    · exact .inl (hbecomes.op ▸ ht.called t old hold)
  · rw [calls_concat]
    intro x hx
    rcases mem_append.1 hx with hx | hx
    · exact hold x hx
    · have := hspawn x (mem_toList.1 hx)
      omega
  · rw [calls_concat]
    refine ht.calls_nodup.concat_toList fun x hx hmem => ?_
    have := ht.bounded x hmem
    have := hspawn x hx
    omega
  · rw [saves_concat, calls_concat]
    intro x hx
    rcases mem_append.1 hx with hx | hx
    · obtain ⟨hcall, hdone⟩ := ht.saved x hx
      refine ⟨mem_append_left _ hcall, fun task hu => ?_⟩
      rcases task_of_step hstep hu with ⟨hnew, -⟩ | ⟨old, hs, hbecomes⟩
      · exact absurd (ht.bounded x hcall) (by omega)
      · obtain ⟨a, ha⟩ := hdone old hs
        exact ⟨a, hbecomes.done a ha⟩
    obtain ⟨k, r, saved, failed, c, hs, hu, -⟩ := saving_of_step hstep (mem_toList.1 hx)
    refine ⟨mem_append_left _ (ht.called x.1 _ hs), fun task htask => ?_⟩
    cases hu.symm.trans htask
    exact ⟨saved, rfl⟩
  · rw [saves_concat]
    refine ht.saves_nodup.concat_toList fun x hx hmem => ?_
    obtain ⟨k, r, saved, failed, c, hs, -, -⟩ := saving_of_step hstep hx
    obtain ⟨a, ha⟩ := (ht.saved x hmem).2 _ hs
    cases ha
  · rw [answers_concat]
    intro x hx
    rcases mem_append.1 hx with hx | hx
    · obtain ⟨hlt, haway⟩ := ht.answered x hx
      refine ⟨Nat.lt_of_lt_of_le hlt hle, fun task hu => ?_⟩
      rcases task_of_step hstep hu with ⟨hnew, -⟩ | ⟨old, hs, hbecomes⟩
      · omega
      · exact hbecomes.awaited (haway old hs)
    obtain ⟨hs, hu⟩ := awaited_of_step hstep (mem_toList.1 hx)
    refine ⟨hold _ (ht.called x.1 _ hs), fun task htask => ?_⟩
    cases hu.symm.trans htask
    rfl
  · rw [answers_concat, map_append, ← toList_map]
    refine ht.answers_nodup.concat_toList fun t hmem hold => ?_
    obtain ⟨x, hx, rfl⟩ := map_eq_some_iff.1 hmem
    obtain ⟨y, hy, heq⟩ := mem_map.1 hold
    have haway := (ht.answered y hy).2 _ (heq ▸ (awaited_of_step hstep hx).1)
    cases haway

variable {store : K → Option R}

theorem run_track (hrun : Run (Step P) (init store) h s) : Track h s :=
  hrun.history_inv ⟨by simp [init], by simp [calls], .nil, by simp [saves], .nil,
    by simp [answers], .nil⟩
    fun _ _ _ _ => Track.step

omit [DecidableEq K] [DecidableEq O] [DecidableEq A] in
theorem Track.saves_subperm (ht : Track h s) : (saves h).Subperm (calls h) :=
  ht.saves_nodup.subperm fun x hx => (ht.saved x hx).1

theorem run_spawned_le (hrun : Run (Step P) s h u) :
    s.spawned ≤ u.spawned ∧ ∀ x ∈ calls h, s.spawned ≤ x.1 := by
  induction hrun with
  | nil => simp [calls]
  | snoc _ hstep ih =>
  obtain ⟨hle, hnew⟩ := spawned_of_step hstep
  rw [calls_concat]
  refine ⟨Nat.le_trans ih.1 hle, fun x hx => ?_⟩
  rcases mem_append.1 hx with hx | hx
  · exact ih.2 x hx
  · rw [(hnew x (mem_toList.1 hx)).1]
    exact ih.1

/-! ## Answers -/

variable (P) in
/-- The step in which a task comes to its answer, by what it does to the store. -/
inductive Ends (t : ℕ) (op : O) (a : A) (store : K → Option R) (e : Event O A) :
    (K → Option R) → Prop
  | answered {seen} (saw : Seen P store op seen) (decided : P.decide op seen = .answer a) :
    Ends t op a store e store
  | saved {seen k r failed} (saw : Seen P store op seen)
    (decided : P.decide op seen = .save k r a failed) (event : e = .save t op true) :
    Ends t op a store e (update store k (some r))
  | failed {seen k r saved} (saw : Seen P store op seen)
    (decided : P.decide op seen = .save k r saved a) :
    Ends t op a store e store

theorem done_of_step {c : Bool} (hs : Inv P s) (h : Step P s e u)
    (hdone : u.tasks t = some ⟨op, .done a, c⟩) :
    (∃ c', s.tasks t = some ⟨op, .done a, c'⟩) ∨ Ends P t op a s.store e u.store := by
  rcases effect_of_step h with _ | _ | _ | _ | ⟨ok, seen, task, saw⟩ | task | task | _ | _ | _
  case load op' c' =>
    rcases of_put hdone with ⟨rfl, heq⟩ | hold
    · rcases hv : P.decide op' seen with a' | _ <;> rw [hv] at heq <;> cases heq
      exact .inr (.answered saw hv)
    · exact .inl ⟨c, hold⟩
  case saved =>
    rcases of_put hdone with ⟨rfl, heq⟩ | hold
    · cases heq
      obtain ⟨seen, hseen, hv⟩ := hs.current _ _ _ _ _ _ _ task
      exact .inr (.saved hseen hv rfl)
    · exact .inl ⟨c, hold⟩
  case failed =>
    rcases of_put hdone with ⟨rfl, heq⟩ | hold
    · cases heq
      obtain ⟨seen, hseen, hv⟩ := hs.current _ _ _ _ _ _ _ task
      exact .inr (.failed hseen hv)
    · exact .inl ⟨c, hold⟩
  all_goals grind

variable (P) in
/-- The history has a step in which the task came to its answer. -/
def Settled (store : K → Option R) (h : List (Event O A)) (u : State K R O A) (t : ℕ) (op : O)
    (a : A) : Prop :=
  ∃ h₁ e h₂ s₁ s₂, h = h₁ ++ e :: h₂ ∧ Run (Step P) (init store) h₁ s₁ ∧ Step P s₁ e s₂ ∧
    Run (Step P) s₂ h₂ u ∧ Ends P t op a s₁.store e s₂.store

theorem Settled.snoc (hset : Settled P store h s t op a) (hstep : Step P s e u) :
    Settled P store (h ++ [e]) u t op a := by
  obtain ⟨h₁, e₁, h₂, s₁, s₂, rfl, hrun₁, hstep₁, hrun₂, hends⟩ := hset
  exact ⟨h₁, e₁, h₂ ++ [e], s₁, s₂, by simp, hrun₁, hstep₁, .snoc hrun₂ hstep, hends⟩

/-- **Linearization.** The answer a caller got was decided in one step of its task. -/
theorem run_settled (hrun : Run (Step P) (init store) h u) (hanswer : .answer t op a ∈ h) :
    Settled P store h u t op a := by
  -- a task that is done has settled too, so that its answer may come at any later time
  suffices hall : ∀ t op a, ((∃ c, u.tasks t = some ⟨op, .done a, c⟩) ∨ .answer t op a ∈ h) →
      Settled P store h u t op a from hall t op a (.inr hanswer)
  clear hanswer
  induction hrun with
  | nil => simp [init]
  | @snoc h s e u hrun hstep ih =>
  rintro t op a (⟨c, hdone⟩ | hanswer)
  · rcases done_of_step ((Inv.init store).run hrun) hstep hdone with hold | hends
    · exact (ih t op a (.inl hold)).snoc hstep
    · exact ⟨h, e, [], s, u, by simp, hrun, hstep, .nil, hends⟩
  rcases mem_append.1 hanswer with hold | hnew
  · exact (ih t op a (.inr hold)).snoc hstep
  · cases mem_singleton.1 hnew
    exact (ih t op a (.inl ⟨true, (awaited_of_step hstep rfl).1⟩)).snoc hstep

/-- The task's answer has reached its caller, is on its way to it, or has lost it. -/
def Reported (h : List (Event O A)) (s : State K R O A) (t : ℕ) (op : O) (a : A) : Prop :=
  .answer t op a ∈ h ∨ s.tasks t = some ⟨op, .done a, true⟩ ∨ .abandon t ∈ h ∨ .restart ∈ h

variable (P) in
/-- An answer that the operation gives after a save. -/
def SavedAnswer (op : O) (a : A) : Prop :=
  ∃ seen k r failed, P.decide op seen = .save k r a failed

variable (P) in
/-- The second clause carries the first: a task that saves unawaited was left by its caller. -/
structure Report (h : List (Event O A)) (s : State K R O A) : Prop where
  saved : ∀ x ∈ saves h, ∃ a, SavedAnswer P x.2 a ∧ Reported h s x.1 x.2 a
  unawaited : ∀ t task, s.tasks t = some task → task.awaited = false →
    .abandon t ∈ h ∨ ∃ a, task.phase = .done a ∧ .answer t task.op a ∈ h

theorem Reported.step (hs : Inv P s) (hr : Reported h s t op a)
    (hstep : Step P s e u) : Reported (h ++ [e]) u t op a := by
  have hbound := hs.bounded
  unfold Reported at hr ⊢
  rcases effect_of_step hstep with _ | _ | _ | _ | _ | _ | _ | _ | _ | _
  all_goals grind

theorem Report.step (hs : Inv P s) (hr : Report P h s)
    (hstep : Step P s e u) : Report P (h ++ [e]) u := by
  obtain ⟨hsaved, hun⟩ := hr
  refine ⟨fun x hx => ?_, ?_⟩
  · rw [saves_concat] at hx
    rcases mem_append.1 hx with hx | hx
    · obtain ⟨a, ha, hrep⟩ := hsaved x hx
      exact ⟨a, ha, hrep.step hs hstep⟩
    obtain ⟨k, r, saved, failed, c, htask, hu, -⟩ :=
      saving_of_step hstep (mem_toList.1 hx)
    obtain ⟨seen, -, hv⟩ := hs.current _ _ _ _ _ _ _ htask
    refine ⟨saved, ⟨seen, k, r, failed, hv⟩, ?_⟩
    cases c with
    | true => exact .inr (.inl hu)
    | false =>
      rcases hun _ _ htask rfl with habandon | ⟨a, hphase, -⟩
      · exact .inr (.inr (.inl (mem_append_left _ habandon)))
      · cases hphase
  · rcases effect_of_step hstep with _ | _ | _ | _ | _ | _ | _ | _ | _ | _
    all_goals grind

/-- Every save has an answer, and it is known where the answer is. -/
theorem run_reported (hrun : Run (Step P) (init store) h u) : Report P h u := by
  induction hrun with
  | nil => exact ⟨by simp [saves], by simp [init]⟩
  | snoc hrun hstep ih => exact ih.step ((Inv.init store).run hrun) hstep

end Locked
