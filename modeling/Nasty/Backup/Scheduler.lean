import Nasty.Cron.Posix
import Nasty.Lib.Lts

/-!
# The backup scheduler

`SchedulerTick` keeps two maps by profile id: the schedule last seen and the instant from which
occurrences count. A tick returns the due profiles, and only those whose job was admitted are
marked, so the others stay due. The abstract state `Observed` is what the history of ticks says:
since when each profile has its schedule, and when it was last admitted. The scheduler refines it.
-/

namespace Nasty.Backup

open Cron Lts List Function

structure BackupProfile where
  id : String
  enabled : Bool
  schedule : Option String

/-- The trimmed schedule of an enabled profile, unless it is empty. -/
def activeSchedule (profile : BackupProfile) : Option (List Char) :=
  ((if profile.enabled then profile.schedule else none).map fun s => Text.trim s.toList).filter
    (¬ ·.isEmpty)

structure SchedulerTick (τ : Type) where
  lastAttempted : String → Option τ
  startedAt : τ
  schedules : String → Option (List Char)

def SchedulerTick.new {τ : Type} (startedAt : τ) : SchedulerTick τ :=
  { lastAttempted := fun _ => none, startedAt, schedules := fun _ => none }

def seedProfile {τ : Type} (s : SchedulerTick τ) (profile : BackupProfile) : SchedulerTick τ :=
  match activeSchedule profile with
  | some schedule =>
    { s with
      lastAttempted := update s.lastAttempted profile.id (some s.startedAt)
      schedules := update s.schedules profile.id (some schedule) }
  | none => s

def seedProfiles {τ : Type} (s : SchedulerTick τ) (profiles : List BackupProfile) :
    SchedulerTick τ :=
  profiles.foldl seedProfile s

def markAttempted {τ : Type} (s : SchedulerTick τ) (profileId : String) (attemptedAt : τ) :
    SchedulerTick τ :=
  { s with lastAttempted := update s.lastAttempted profileId (some attemptedAt) }

section Evaluate

variable {τ : Type} [LinearOrder τ] (crate : Crate τ)

def shouldFire (schedule : UnionSchedule τ) (lastAttemptedAt now : τ) : Option τ :=
  (schedule.nextAfter lastAttemptedAt).filter (· ≤ now)

def visit (now : τ) (st : SchedulerTick τ × List String) (profile : BackupProfile) :
    SchedulerTick τ × List String :=
  let (s, toFire) := st
  match activeSchedule profile with
  | none =>
    ({ s with
        lastAttempted := update s.lastAttempted profile.id none
        schedules := update s.schedules profile.id none }, toFire)
  | some expr =>
    if s.schedules profile.id ≠ some expr then
      ({ s with
          schedules := update s.schedules profile.id (some expr)
          lastAttempted := update s.lastAttempted profile.id (some now) }, toFire)
    else
      match Cron.Backup.parseCron crate expr with
      | .error _ => (s, toFire)
      | .ok schedule =>
        let last := (s.lastAttempted profile.id).getD s.startedAt
        let s := { s with lastAttempted := update s.lastAttempted profile.id (some last) }
        if (shouldFire schedule last now).isSome then (s, toFire ++ [profile.id])
        else (s, toFire)

def retainLive (s : SchedulerTick τ) (profiles : List BackupProfile) : SchedulerTick τ :=
  { s with
    lastAttempted := fun id => if id ∈ profiles.map (·.id) then s.lastAttempted id else none
    schedules := fun id => if id ∈ profiles.map (·.id) then s.schedules id else none }

def evaluate (s : SchedulerTick τ) (profiles : List BackupProfile) (now : τ) :
    List String × SchedulerTick τ :=
  let (s, toFire) := profiles.foldl (visit crate now) (retainLive s profiles, [])
  (toFire, s)

end Evaluate

/-! ## Runs -/

/-- A tick of the loop: the ids it returned and those of them whose job was admitted. -/
structure Tick (τ : Type) where
  profiles : List BackupProfile
  now : τ
  due : List String
  admitted : List String

structure World (τ : Type) where
  scheduler : SchedulerTick τ
  clock : τ

def World.seeded {τ : Type} (startedAt : τ) (profiles : List BackupProfile) : World τ :=
  { scheduler := seedProfiles (.new startedAt) profiles, clock := startedAt }

def DistinctIds (profiles : List BackupProfile) : Prop := (profiles.map (·.id)).Nodup

inductive Step {τ : Type} [LinearOrder τ] (crate : Crate τ) : World τ → Tick τ → World τ → Prop
  | tick {w : World τ} {e : Tick τ} {s : SchedulerTick τ} (hclock : w.clock ≤ e.now)
      (hids : DistinctIds e.profiles)
      (heval : evaluate crate w.scheduler e.profiles e.now = (e.due, s))
      (hadmitted : e.admitted ⊆ e.due) :
      Step crate w e ⟨e.admitted.foldl (markAttempted · · e.now) s, e.now⟩

/-! ## The abstract state -/

def activeOf (profiles : List BackupProfile) (id : String) : Option (List Char) :=
  (profiles.find? (·.id = id)).bind activeSchedule

/-- For each id its schedule at the last tick, since when it is observed, and the last admission. -/
structure Observed (τ : Type) where
  seen : String → Option (List Char × τ)
  marked : String → Option τ

namespace Observed

variable {τ : Type}

def seeded (startedAt : τ) (profiles : List BackupProfile) : Observed τ where
  seen id := (activeOf profiles id).map (·, startedAt)
  marked _ := none

/-- The instant since which an id has the schedule, given what was seen before `now`. -/
def since (before : Option (List Char × τ)) (expr : List Char) (now : τ) : τ :=
  match before with
  | some (expr', t) => if expr' = expr then t else now
  | none => now

def next (o : Observed τ) (e : Tick τ) : Observed τ where
  seen id := (activeOf e.profiles id).map fun expr => (expr, since (o.seen id) expr e.now)
  marked id := if id ∈ e.admitted then some e.now else o.marked id

@[simp] theorem next_seen (o : Observed τ) (e : Tick τ) (id : String) :
    (o.next e).seen id =
      (activeOf e.profiles id).map fun expr => (expr, since (o.seen id) expr e.now) := rfl

@[simp] theorem next_marked (o : Observed τ) (e : Tick τ) (id : String) :
    (o.next e).marked id = if id ∈ e.admitted then some e.now else o.marked id := rfl

/-- The latest of the engine's start, the first observation and the last admission. -/
def cursor [LinearOrder τ] (o : Observed τ) (startedAt : τ) (id : String) (observed : τ) : τ :=
  max (max startedAt observed) ((o.marked id).getD startedAt)

end Observed

def observe {τ : Type} (startedAt : τ) (seeds : List BackupProfile) (es : List (Tick τ)) :
    Observed τ :=
  es.foldl Observed.next (.seeded startedAt seeds)

variable {ps : List BackupProfile}

theorem activeOf_cons_self {p : BackupProfile} : activeOf (p :: ps) p.id = activeSchedule p := by
  simp [activeOf]

variable {id : String}

theorem activeOf_cons_of_ne {p : BackupProfile} (hne : id ≠ p.id) :
    activeOf (p :: ps) id = activeOf ps id := by
  simp [activeOf, hne.symm]

variable {profiles : List BackupProfile} {expr : List Char} {τ : Type}

theorem activeOf_of_not_mem (h : id ∉ profiles.map (·.id)) : activeOf profiles id = none := by
  rw [activeOf, find?_eq_none.2 (by simpa using h), Option.bind_none]

theorem activeOf_eq_some (hids : DistinctIds profiles) : activeOf profiles id = some expr ↔
      ∃ profile ∈ profiles, profile.id = id ∧ activeSchedule profile = some expr := by
  unfold activeOf
  constructor
  · intro h
    obtain ⟨profile, hfind, hexpr⟩ := Option.bind_eq_some_iff.1 h
    exact ⟨profile, mem_of_find?_eq_some hfind, by simpa using find?_some hfind, hexpr⟩
  rintro ⟨profile, hmem, rfl, hexpr⟩
  rcases hfind : profiles.find? (·.id = profile.id) with _ | found
  · exact absurd hmem fun hmem => by simpa using find?_eq_none.1 hfind profile hmem
  · have heq : found = profile := inj_on_of_nodup_map hids
      (mem_of_find?_eq_some hfind) hmem (by simpa using find?_some hfind)
    rw [hfind, heq, Option.bind_some, hexpr]

/-! ## One profile of a tick -/

/-- What a tick knows of one id: the two maps' values, and whether it is to fire. -/
structure Cell (τ : Type) where
  last : Option τ
  schedule : Option (List Char)
  fires : Bool

def cell {τ : Type} (st : SchedulerTick τ × List String) (id : String) : Cell τ :=
  { last := st.1.lastAttempted id, schedule := st.1.schedules id, fires := id ∈ st.2 }

theorem mem_iff_fires (st : SchedulerTick τ × List String) (id : String) :
    id ∈ st.2 ↔ (cell st id).fires :=
  decide_eq_true_iff.symm

section Cell

variable {τ : Type} [LinearOrder τ] (crate : Crate τ)

def visitCell (startedAt now : τ) (active : Option (List Char)) (c : Cell τ) : Cell τ :=
  match active with
  | none => { c with last := none, schedule := none }
  | some expr =>
    if c.schedule ≠ some expr then { c with last := some now, schedule := some expr }
    else
      match Cron.Backup.parseCron crate expr with
      | .error _ => c
      | .ok schedule =>
        { c with
          last := some (c.last.getD startedAt)
          fires := c.fires ∨ (shouldFire schedule (c.last.getD startedAt) now).isSome }

variable {crate} {now : τ} {st : SchedulerTick τ × List String} {profile : BackupProfile}
  {profiles : List BackupProfile} {id : String}

theorem cell_visit_self :
    cell (visit crate now st profile) profile.id =
      visitCell crate st.1.startedAt now (activeSchedule profile) (cell st profile.id) := by
  unfold visit visitCell
  rcases activeSchedule profile with _ | expr
  · simp [cell]
  by_cases hsame : st.1.schedules profile.id = some expr
  · have hsame' : (cell st profile.id).schedule = some expr := hsame
    dsimp only
    rw [if_neg (not_not.2 hsame), if_neg (not_not.2 hsame')]
    rcases Cron.Backup.parseCron crate expr with _ | schedule
    · rfl
    · dsimp only [cell]
      split_ifs with hfire <;> simp [hfire]
  · simp [cell, hsame]

theorem visit_frame :
    (visit crate now st profile).1.startedAt = st.1.startedAt ∧
      ∀ id, id ≠ profile.id → cell (visit crate now st profile) id = cell st id := by
  unfold visit
  rcases activeSchedule profile with _ | expr
  · exact ⟨rfl, fun id hne => by simp [cell, hne]⟩
  dsimp only
  split_ifs
  · exact ⟨rfl, fun id hne => by simp [cell, hne]⟩
  rcases Cron.Backup.parseCron crate expr with _ | schedule
  · exact ⟨rfl, fun id hne => rfl⟩
  · dsimp only
    split <;> exact ⟨rfl, fun id hne => by simp [cell, hne]⟩

theorem cell_foldl_of_not_mem (h : id ∉ profiles.map (·.id)) :
    cell (profiles.foldl (visit crate now) st) id = cell st id := by
  induction profiles generalizing st with
  | nil => rfl
  | cons q ps ih =>
    rw [map_cons, mem_cons, not_or] at h
    rw [foldl_cons, ih h.2, visit_frame.2 id h.1]

/-- In a list of distinct ids each profile meets the cell as it was before the tick. -/
theorem cell_foldl_of_mem (hids : DistinctIds profiles) (hmem : profile ∈ profiles) :
    cell (profiles.foldl (visit crate now) st) profile.id =
      visitCell crate st.1.startedAt now (activeSchedule profile) (cell st profile.id) := by
  induction profiles generalizing st with
  | nil => nomatch hmem
  | cons q ps ih =>
  obtain ⟨hq, hps⟩ := nodup_cons.1 hids
  rw [foldl_cons]
  rcases mem_cons.1 hmem with rfl | hmem
  · rw [cell_foldl_of_not_mem hq, cell_visit_self]
  · have hne : profile.id ≠ q.id := fun heq => hq (mem_map.2 ⟨profile, hmem, heq⟩)
    rw [ih hps hmem, visit_frame.2 _ hne, visit_frame.1]

theorem foldl_startedAt : (profiles.foldl (visit crate now) st).1.startedAt = st.1.startedAt := by
  induction profiles generalizing st with
  | nil => rfl
  | cons q ps ih => rw [foldl_cons, ih, visit_frame.1]

variable {s s' : SchedulerTick τ} {due : List String} {startedAt : τ} {schedule : UnionSchedule τ}

theorem cell_evaluate (hids : DistinctIds profiles)
    (heval : evaluate crate s profiles now = (due, s')) (id : String) :
    cell (s', due) id = visitCell crate s.startedAt now (activeOf profiles id)
      { last := s.lastAttempted id, schedule := s.schedules id, fires := false } := by
  cases heval
  rcases hfind : profiles.find? (·.id = id) with _ | profile
  · have hactive : activeOf profiles id = none := by rw [activeOf, hfind, Option.bind_none]
    have hnot : id ∉ profiles.map (·.id) := by simpa using hfind
    rw [cell_foldl_of_not_mem hnot, hactive]
    simp only [cell, retainLive, if_neg hnot, not_mem_nil, decide_false, visitCell]
  have hactive : activeOf profiles id = activeSchedule profile := by
    rw [activeOf, hfind, Option.bind_some]
  have hmem := mem_of_find?_eq_some hfind
  obtain rfl : profile.id = id := by simpa using find?_some hfind
  have hlive : profile.id ∈ profiles.map (·.id) := mem_map.2 ⟨profile, hmem, rfl⟩
  rw [cell_foldl_of_mem hids hmem, hactive]
  simp only [cell, retainLive, if_pos hlive, not_mem_nil, decide_false]

theorem evaluate_startedAt (heval : evaluate crate s profiles now = (due, s')) :
    s'.startedAt = s.startedAt := by
  cases heval
  exact foldl_startedAt

theorem shouldFire_isSome {last : τ} :
    (shouldFire schedule last now).isSome ↔ ∃ t, schedule.Occurs t ∧ last < t ∧ t ≤ now :=
  UnionSchedule.nextAfter_filter_isSome

theorem visitCell_fires_iff {active : Option (List Char)} {last : Option τ}
    {seen : Option (List Char)} : (visitCell crate startedAt now active ⟨last, seen, false⟩).fires ↔
      ∃ expr schedule, active = some expr ∧ seen = some expr ∧
        Cron.Backup.parseCron crate expr = .ok schedule ∧
        ∃ t, schedule.Occurs t ∧ last.getD startedAt < t ∧ t ≤ now := by
  rcases active with _ | expr
  · simp [visitCell]
  by_cases hseen : seen = some expr
  · subst hseen
    rcases hparse : Cron.Backup.parseCron crate expr with _ | schedule
    · simp [visitCell, hparse]
    · simp [visitCell, hparse, shouldFire_isSome]
  · simp only [visitCell, ne_eq, hseen, not_false_eq_true, if_true, Bool.false_eq_true, false_iff]
    rintro ⟨expr', -, ⟨⟩, hseen', -⟩
    exact hseen hseen'

theorem visitCell_new {c : Cell τ} (hnew : c.schedule ≠ some expr) :
    visitCell crate startedAt now (some expr) c =
      { c with last := some now, schedule := some expr } :=
  if_pos hnew

theorem visitCell_kept {last : τ} {c : Cell τ} (hlast : c.last = some last)
    (hseen : c.schedule = some expr) :
    (visitCell crate startedAt now (some expr) c).last = some last ∧
      (visitCell crate startedAt now (some expr) c).schedule = some expr := by
  unfold visitCell
  dsimp only
  rw [if_neg (not_not.2 hseen)]
  rcases Cron.Backup.parseCron crate expr with _ | schedule
  · exact ⟨hlast, hseen⟩
  · exact ⟨by rw [hlast, Option.getD_some], hseen⟩

end Cell

theorem foldl_markAttempted (ids : List String) (s : SchedulerTick τ) (now : τ) :
    ids.foldl (markAttempted · · now) s =
      { s with lastAttempted := fun id => if id ∈ ids then some now else s.lastAttempted id } := by
  induction ids generalizing s with
  | nil => rfl
  | cons id ids ih =>
  rw [foldl_cons, ih, markAttempted]
  congr 1
  funext id'
  by_cases hid : id' = id <;> simp [hid]

/-! ## Refinement -/

open Observed

section

variable {τ : Type} [LinearOrder τ] {crate : Crate τ}

structure Refines (o : Observed τ) (w : World τ) : Prop where
  schedules : ∀ id, w.scheduler.schedules id = (o.seen id).map Prod.fst
  last : ∀ id expr t, o.seen id = some (expr, t) →
    w.scheduler.lastAttempted id = some (o.cursor w.scheduler.startedAt id t)
  observed_le : ∀ id expr t, o.seen id = some (expr, t) → t ≤ w.clock
  marked_le : ∀ id t, o.marked id = some t → t ≤ w.clock
  started_le : w.scheduler.startedAt ≤ w.clock

variable {o : Observed τ} {w w' : World τ} {e : Tick τ} {s : SchedulerTick τ} {now : τ}
  {profiles : List BackupProfile} {due : List String} {id : String} {expr : List Char}

theorem Refines.cursor_now (h : Refines o w) (hclock : w.clock ≤ now) (id : String) :
    o.cursor w.scheduler.startedAt id now = now := by
  have hstarted := h.started_le.trans hclock
  have hmarked : (o.marked id).getD w.scheduler.startedAt ≤ now := by
    rcases hm : o.marked id with _ | t
    · exact hstarted
    · exact (h.marked_le id t hm).trans hclock
  rw [cursor, max_eq_right hstarted, max_eq_left hmarked]

theorem Refines.evaluate (h : Refines o w) (hclock : w.clock ≤ now) (hids : DistinctIds profiles)
    (heval : evaluate crate w.scheduler profiles now = (due, s))
    (hactive : activeOf profiles id = some expr) :
    s.schedules id = some expr ∧ s.lastAttempted id =
      some (o.cursor w.scheduler.startedAt id (since (o.seen id) expr now)) := by
  have hcell := cell_evaluate hids heval id
  rw [hactive] at hcell
  have hschedule := congrArg Cell.schedule hcell
  have hlast := congrArg Cell.last hcell
  have hnew : w.scheduler.schedules id ≠ some expr → since (o.seen id) expr now = now →
      s.schedules id = some expr ∧ s.lastAttempted id =
        some (o.cursor w.scheduler.startedAt id (since (o.seen id) expr now)) := by
    intro hne hsince
    rw [visitCell_new hne] at hschedule hlast
    rw [hsince, h.cursor_now hclock]
    exact ⟨hschedule, hlast⟩
  have hseen := h.schedules id
  rcases hold : o.seen id with _ | ⟨expr', t⟩ <;> rw [hold] at hseen hnew
  · exact hnew (by rw [hseen]; nofun) rfl
  by_cases heq : expr' = expr
  · subst heq
    have hlast' := h.last id expr' t hold
    rw [hlast', hseen] at hschedule hlast
    exact ⟨hschedule.trans (visitCell_kept rfl rfl).2, hlast.trans (by
      rw [(visitCell_kept rfl rfl).1, since, if_pos rfl])⟩
  · exact hnew (by rw [hseen]; simpa using heq) (if_neg heq)

theorem Refines.step (h : Refines o w) (hstep : Step crate w e w') : Refines (o.next e) w' := by
  obtain ⟨hclock, hids, heval, -⟩ := hstep
  rw [foldl_markAttempted]
  have hstarted := evaluate_startedAt heval
  have hsince : ∀ id expr, since (o.seen id) expr e.now ≤ e.now := by
    intro id expr
    rcases hold : o.seen id with _ | ⟨expr', t⟩
    · exact le_rfl
    unfold since
    dsimp only
    split
    · exact (h.observed_le id expr' t hold).trans hclock
    · exact le_rfl
  constructor
  · intro id
    rcases hactive : activeOf e.profiles id with _ | expr
    · have hnone := congrArg Cell.schedule (cell_evaluate hids heval id)
      rw [hactive] at hnone
      rw [next_seen, hactive]
      exact hnone
    · rw [next_seen, hactive]
      exact (h.evaluate hclock hids heval hactive).1
  · intro id expr t hseen
    obtain ⟨expr, hactive, heq⟩ := Option.map_eq_some_iff.1 hseen
    cases heq
    dsimp only
    by_cases hadmitted : id ∈ e.admitted
    · -- an admission counts from the tick, which no observation follows
      rw [if_pos hadmitted, cursor, next_marked, if_pos hadmitted,
        Option.getD_some, max_eq_right]
      exact max_le (hstarted.le.trans (h.started_le.trans hclock)) (hsince id expr)
    · rw [if_neg hadmitted, cursor, next_marked, if_neg hadmitted, hstarted]
      exact (h.evaluate hclock hids heval hactive).2
  · intro id expr t hseen
    obtain ⟨expr, hactive, heq⟩ := Option.map_eq_some_iff.1 hseen
    cases heq
    exact hsince id expr
  · intro id t hmarked
    rw [next_marked] at hmarked
    split at hmarked
    · exact (Option.some.inj hmarked).ge
    · exact (h.marked_le id t hmarked).trans hclock
  · exact hstarted.le.trans (h.started_le.trans hclock)

theorem Step.startedAt (hstep : Step crate w e w') :
    w'.scheduler.startedAt = w.scheduler.startedAt := by
  obtain ⟨-, -, heval, -⟩ := hstep
  rw [foldl_markAttempted, ← evaluate_startedAt heval]

theorem Refines.mem_due (h : Refines o w) (hstep : Step crate w e w') (id : String) :
    id ∈ e.due ↔ ∃ expr t₀ schedule, activeOf e.profiles id = some expr ∧
      o.seen id = some (expr, t₀) ∧ Cron.Backup.parseCron crate expr = .ok schedule ∧
      ∃ t, schedule.Occurs t ∧ o.cursor w.scheduler.startedAt id t₀ < t ∧ t ≤ e.now := by
  obtain ⟨-, hids, heval, -⟩ := hstep
  have hfires := congrArg Cell.fires (cell_evaluate hids heval id)
  rw [mem_iff_fires (_, e.due), hfires, visitCell_fires_iff, h.schedules id]
  constructor
  · rintro ⟨expr, schedule, hactive, hseen, hparse, t, ht, hlt, hle⟩
    obtain ⟨⟨_, t₀⟩, hold, rfl⟩ := Option.map_eq_some_iff.1 hseen
    rw [h.last id _ t₀ hold] at hlt
    exact ⟨_, t₀, schedule, hactive, hold, hparse, t, ht, hlt, hle⟩
  · rintro ⟨expr, t₀, schedule, hactive, hseen, hparse, t, ht, hlt, hle⟩
    refine ⟨expr, schedule, hactive, by rw [hseen, Option.map_some], hparse, t, ht, ?_, hle⟩
    rwa [h.last id _ t₀ hseen]

end

theorem seedProfiles_spec {s : SchedulerTick τ} (hids : DistinctIds profiles) (id : String) :
    (seedProfiles s profiles).startedAt = s.startedAt ∧
      (seedProfiles s profiles).schedules id = (activeOf profiles id).or (s.schedules id) ∧
      (seedProfiles s profiles).lastAttempted id =
        ((activeOf profiles id).map fun _ => s.startedAt).or (s.lastAttempted id) := by
  induction profiles generalizing s with
  | nil => exact ⟨rfl, rfl, rfl⟩
  | cons p ps ih =>
  obtain ⟨hp, hps⟩ := nodup_cons.1 hids
  obtain ⟨hstarted, hschedules, hlast⟩ := ih hps
  have hstarted' : (seedProfile s p).startedAt = s.startedAt := by
    unfold seedProfile
    split <;> rfl
  rw [seedProfiles, foldl_cons, ← seedProfiles, hstarted, hschedules, hlast, hstarted']
  refine ⟨rfl, ?_⟩
  by_cases hid : id = p.id
  · subst hid
    rw [activeOf_of_not_mem hp, activeOf_cons_self]
    unfold seedProfile
    rcases activeSchedule p with _ | expr <;> simp
  · rw [activeOf_cons_of_ne hid]
    unfold seedProfile
    rcases activeSchedule p with _ | expr <;> simp [hid]

section Runs

variable {τ : Type} {startedAt : τ} {seeds : List BackupProfile} {es : List (Tick τ)}
  {o : Observed τ} {id : String} {expr : List Char} {t₀ : τ}

theorem foldl_next_kept (hseen : o.seen id = some (expr, t₀))
    (hkept : ∀ e ∈ es, activeOf e.profiles id = some expr ∧ id ∉ e.admitted) :
    (es.foldl next o).seen id = some (expr, t₀) ∧
      (es.foldl next o).marked id = o.marked id := by
  induction es generalizing o with
  | nil => exact ⟨hseen, rfl⟩
  | cons e es ih =>
  obtain ⟨hactive, hnot⟩ := hkept e mem_cons_self
  have hseen' : (o.next e).seen id = some (expr, t₀) := by
    rw [next_seen, hactive, hseen, Option.map_some, since, if_pos rfl]
  obtain ⟨hs, hm⟩ := ih hseen' fun e' he' => hkept e' (mem_cons_of_mem _ he')
  exact ⟨hs, hm.trans (by rw [next_marked, if_neg hnot])⟩

variable [LinearOrder τ] {crate : Crate τ} {w w' : World τ}

theorem refines_seeded (hseeds : DistinctIds seeds) :
    Refines (.seeded startedAt seeds) (.seeded startedAt seeds) := by
  have hspec := seedProfiles_spec (s := .new startedAt) hseeds
  have hstarted : (World.seeded startedAt seeds).scheduler.startedAt = startedAt := (hspec "").1
  refine ⟨fun id => ?_, fun id expr t hseen => ?_, fun id expr t hseen => ?_, nofun, hstarted.le⟩
  · refine (hspec id).2.1.trans ?_
    rcases hactive : activeOf seeds id <;> simp [SchedulerTick.new, seeded, hactive]
  · obtain ⟨expr, hactive, heq⟩ := Option.map_eq_some_iff.1 hseen
    cases heq
    refine (hspec id).2.2.trans ?_
    rw [hactive, hstarted]
    simp [SchedulerTick.new, cursor, seeded]
  · obtain ⟨expr, -, heq⟩ := Option.map_eq_some_iff.1 hseen
    exact (Prod.mk.inj heq).2.ge

theorem refines_run (hseeds : DistinctIds seeds)
    (hrun : Run (Step crate) (.seeded startedAt seeds) es w) :
    Refines (observe startedAt seeds es) w ∧ w.scheduler.startedAt = startedAt := by
  refine hrun.history_inv
    (I := fun es w => Refines (observe startedAt seeds es) w ∧ w.scheduler.startedAt = startedAt)
    ⟨refines_seeded hseeds, (seedProfiles_spec hseeds "").1⟩ ?_
  rintro es w e w' ⟨h, hstarted⟩ hstep
  rw [observe, foldl_append]
  exact ⟨h.step hstep, hstep.startedAt.trans hstarted⟩

theorem admitted_le_marked (hrun : Run (Step crate) (.seeded startedAt seeds) es w) :
    ∀ e ∈ es, e.now ≤ w.clock ∧ ∀ id ∈ e.admitted,
      ∃ m, (observe startedAt seeds es).marked id = some m ∧ e.now ≤ m := by
  refine hrun.history_inv (I := fun es w => ∀ e ∈ es, e.now ≤ w.clock ∧ ∀ id ∈ e.admitted,
    ∃ m, (observe startedAt seeds es).marked id = some m ∧ e.now ≤ m) nofun ?_
  rintro es w e w' h ⟨hclock, -, -, -⟩ e' he'
  rw [observe, foldl_append, foldl_cons, foldl_nil]
  simp only [next_marked]
  rcases mem_append.1 he' with he' | he'
  · obtain ⟨hle, hmarked⟩ := h e' he'
    refine ⟨hle.trans hclock, fun id hid => ?_⟩
    split
    · exact ⟨e.now, rfl, hle.trans hclock⟩
    · exact hmarked id hid
  · obtain rfl := mem_singleton.1 he'
    exact ⟨le_rfl, fun id hid => ⟨e'.now, if_pos hid, le_rfl⟩⟩

theorem due_of_not_admitted {t : τ} (h : Refines o w) (hseen : o.seen id = some (expr, t₀))
    (hparse : Cron.Backup.parseCron crate expr = .ok schedule) (hoccurs : schedule.Occurs t)
    (hlt : o.cursor w.scheduler.startedAt id t₀ < t) (hrun : Run (Step crate) w es w')
    (hkept : ∀ e ∈ es, activeOf e.profiles id = some expr ∧ id ∉ e.admitted) :
    ∀ e ∈ es, t ≤ e.now → id ∈ e.due := by
  -- along the run the abstract state follows, and so far all ticks returned the id
  have hinv := hrun.history_inv (I := fun es w' => Refines (es.foldl next o) w' ∧
    w'.scheduler.startedAt = w.scheduler.startedAt ∧
    ((∀ e ∈ es, activeOf e.profiles id = some expr ∧ id ∉ e.admitted) →
      ∀ e ∈ es, t ≤ e.now → id ∈ e.due)) ⟨h, rfl, fun _ => nofun⟩ ?_
  · exact hinv.2.2 hkept
  rintro es w₁ e w₂ ⟨h₁, hstarted, hdue⟩ hstep
  rw [foldl_append]
  refine ⟨h₁.step hstep, hstep.startedAt.trans hstarted, fun hkept e' he' hle => ?_⟩
  have hkept' : ∀ e ∈ es, activeOf e.profiles id = some expr ∧ id ∉ e.admitted :=
    fun e he => hkept e (mem_append_left _ he)
  rcases mem_append.1 he' with he' | he'
  · exact hdue hkept' e' he' hle
  obtain rfl := mem_singleton.1 he'
  obtain ⟨hseen', hmarked⟩ := foldl_next_kept hseen hkept'
  have hactive := (hkept e' (mem_append_right _ (mem_singleton_self e'))).1
  refine (h₁.mem_due hstep id).2
    ⟨expr, t₀, schedule, hactive, hseen', hparse, t, hoccurs, ?_, hle⟩
  rwa [cursor, hmarked, hstarted]

/-- **Exactly the due profiles.** A tick returns the active profiles with an observed schedule and
an occurrence after the cursor, which stays due until it is admitted. -/
theorem tick_due (hseeds : DistinctIds seeds)
    (hrun : Run (Step crate) (.seeded startedAt seeds) es w) (id : String) :
    (∀ e w', Step crate w e w' → (id ∈ e.due ↔
      ∃ profile ∈ e.profiles, profile.id = id ∧ ∃ expr t₀ schedule,
        activeSchedule profile = some expr ∧
        (observe startedAt seeds es).seen id = some (expr, t₀) ∧
        Cron.Backup.parseCron crate expr = .ok schedule ∧ ∃ t, schedule.Occurs t ∧
          (observe startedAt seeds es).cursor startedAt id t₀ < t ∧ t ≤ e.now)) ∧
    ∀ expr t₀, (observe startedAt seeds es).seen id = some (expr, t₀) →
      startedAt ≤ (observe startedAt seeds es).cursor startedAt id t₀ ∧
      t₀ ≤ (observe startedAt seeds es).cursor startedAt id t₀ ∧
      (∀ e ∈ es, id ∈ e.admitted →
        e.now ≤ (observe startedAt seeds es).cursor startedAt id t₀) ∧
      ∀ schedule t, Cron.Backup.parseCron crate expr = .ok schedule → schedule.Occurs t →
        (observe startedAt seeds es).cursor startedAt id t₀ < t →
        ∀ es' w', Run (Step crate) w es' w' →
          (∀ e ∈ es', activeOf e.profiles id = some expr ∧ id ∉ e.admitted) →
          ∀ e ∈ es', t ≤ e.now → id ∈ e.due := by
  obtain ⟨h, hstarted⟩ := refines_run hseeds hrun
  refine ⟨fun e w' hstep => ?_, fun expr t₀ hseen => ⟨?_, ?_, fun e he hid => ?_, ?_⟩⟩
  · have hids : DistinctIds e.profiles := by
      obtain ⟨-, hids, -, -⟩ := hstep
      exact hids
    rw [h.mem_due hstep, hstarted]
    constructor
    · rintro ⟨expr, t₀, schedule, hactive, hdue⟩
      obtain ⟨profile, hmem, hid, hexpr⟩ := (activeOf_eq_some hids).1 hactive
      exact ⟨profile, hmem, hid, expr, t₀, schedule, hexpr, hdue⟩
    · rintro ⟨profile, hmem, hid, expr, t₀, schedule, hexpr, hdue⟩
      exact ⟨expr, t₀, schedule, (activeOf_eq_some hids).2 ⟨profile, hmem, hid, hexpr⟩, hdue⟩
  · exact (le_max_left _ _).trans (le_max_left _ _)
  · exact (le_max_right _ _).trans (le_max_left _ _)
  · obtain ⟨m, hm, hle⟩ := (admitted_le_marked hrun e he).2 id hid
    rw [cursor, hm]
    exact hle.trans (le_max_right _ _)
  · intro schedule t hparse hoccurs hlt es' w' hrun' hkept
    exact due_of_not_admitted h hseen hparse hoccurs (hstarted ▸ hlt) hrun' hkept

end Runs

/-- A profile seeded at midnight 0 and run every midnight is due at midnight 3. -/
theorem tick_due_nightly :
    let profiles := [{ id := "p", enabled := true, schedule := some " 0 0 * * * " }]
    (evaluate midnights (World.seeded 0 profiles).scheduler profiles 3).1 = ["p"] ∧
    ∃ w', Step midnights (.seeded 0 profiles) ⟨profiles, 3, ["p"], []⟩ w' ∧
      ∃ expr t₀, (observe 0 profiles []).seen "p" = some (expr, t₀) ∧
        ∃ t, (observe 0 profiles []).cursor 0 "p" t₀ < t ∧ t ≤ 3 := by
  intro profiles
  have hdue : (evaluate midnights (World.seeded 0 profiles).scheduler profiles 3).1 = ["p"] := by
    decide
  have hids : DistinctIds profiles := nodup_singleton "p"
  have hstep : Step midnights (.seeded 0 profiles) ⟨profiles, 3, ["p"], []⟩
      ⟨(evaluate midnights (World.seeded 0 profiles).scheduler profiles 3).2, 3⟩ :=
    .tick (by decide) hids (Prod.ext hdue rfl) (nil_subset _)
  have hiff := (tick_due hids .nil "p").1 _ _ hstep
  obtain ⟨profile, -, -, expr, t₀, schedule, -, hseen, -, t, -, hlt, hle⟩ :=
    hiff.1 mem_cons_self
  exact ⟨hdue, _, hstep, expr, t₀, hseen, t, hlt, hle⟩

/-- On a clock behind the engine's start a new profile counts from the tick that observes it:
started at 5, seen at 2, due at 4. -/
theorem due_before_start :
    let profiles := [{ id := "p", enabled := true, schedule := some "0 0 * * *" }]
    let first : Tick ℕ := ⟨profiles, 2, [], []⟩
    ∃ w w' t₀, Run (Step midnights) ⟨seedProfiles (.new 5) [], 2⟩ [first] w ∧
      Step midnights w ⟨profiles, 4, ["p"], []⟩ w' ∧
      (observe 5 [] [first]).seen "p" = some ("0 0 * * *".toList, t₀) ∧
      ¬ ∃ t, (observe 5 [] [first]).cursor 5 "p" t₀ < t ∧ t ≤ 4 := by
  intro profiles first
  have hids : DistinctIds profiles := nodup_singleton "p"
  have hfirst : Step midnights ⟨seedProfiles (.new 5) [], 2⟩ first
      ⟨(evaluate midnights (.new 5) profiles 2).2, 2⟩ :=
    .tick le_rfl hids (Prod.ext (by decide) rfl) (nil_subset _)
  have hdue : (evaluate midnights (evaluate midnights (.new 5) profiles 2).2 profiles 4).1 =
      ["p"] := by
    decide
  refine ⟨_, _, 2, .snoc .nil hfirst, .tick (by decide) hids (Prod.ext hdue rfl) (nil_subset _),
    by decide, ?_⟩
  rintro ⟨t, hlt, hle⟩
  have hcursor : (observe 5 [] [first]).cursor 5 "p" 2 = 5 := by decide
  omega

end Nasty.Backup
