import Mathlib.Algebra.Order.Ring.Rat
import Nasty.Lib.Lts
import Nasty.Lib.Maps

/-!
# The registry of backup jobs

A started job has a worker, which moves the job's entry from pending to running and then to a
terminal state, and a monitor, which waits for the end of the worker and fails the job if it is
not terminal by then. The `mark_*` methods are unguarded writes by job id; what makes them safe
is the order in which worker and monitor take their steps, the `Phase` of a job.

`Effect` says once what a step can do to the entries.
-/

namespace Nasty.Backup.Jobs

open Lts Function Option AList

inductive BackupJobKind
  | initRepo
  | runBackup
  | checkRepo
  | restore
  deriving DecidableEq

inductive BackupJobState
  | pending
  | running
  | succeeded
  | failed
  deriving DecidableEq

def BackupJobState.isTerminal : BackupJobState → Bool
  | succeeded | failed => true
  | pending | running => false

structure BackupJob where
  id : String
  profileId : String
  kind : BackupJobKind
  state : BackupJobState
  createdAt : String
  startedAt : Option String
  finishedAt : Option String
  progress : Option String
  progressFraction : Option ℚ
  result : Option String
  error : Option String

def BackupJob.new (id profileId : String) (kind : BackupJobKind) (createdAt : String) :
    BackupJob where
  id := id
  profileId := profileId
  kind := kind
  state := .pending
  createdAt := createdAt
  startedAt := none
  finishedAt := none
  progress := none
  progressFraction := none
  result := none
  error := none

inductive JobError
  | alreadyRunning (profileId jobId : String)

def JobError.message : JobError → String
  | alreadyRunning profileId jobId =>
    "backup job already running for profile '" ++ profileId ++ "' (job id: " ++ jobId ++ ")"

/-- The clock library: the RFC 3339 text of an instant in nanoseconds, and its parser. -/
structure Chrono where
  toRfc3339 : ℤ → String
  parseRfc3339 : String → Option ℤ

def jobRetention : ℤ := 3600000000000

def unexpectedTaskError : String :=
  "Backup operation stopped unexpectedly; retry the operation"

/-! ## The methods -/

abbrev Registry := AList fun _ : String => BackupJob

section Methods

variable (chrono : Chrono) (now : ℤ)

def retained (job : BackupJob) : Bool :=
  if job.state.isTerminal then
    match job.finishedAt.bind chrono.parseRfc3339 with
    | some ts => now - jobRetention < ts
    | none => true
  else true

def gcLocked (map : Registry) : Registry := map.retain (retained chrono now)

def start (map : Registry) (profileId : String) (kind : BackupJobKind) (id : String) :
    Except JobError BackupJob × Registry :=
  let map := gcLocked chrono now map
  match map.values.find? fun j => j.profileId = profileId ∧ ¬ j.state.isTerminal with
  | some existing => (.error (.alreadyRunning profileId existing.id), map)
  | none =>
    let job := BackupJob.new id profileId kind (chrono.toRfc3339 now)
    (.ok job, map.insert job.id job)

def markRunning (map : Registry) (jobId : String) : Registry :=
  map.modify jobId fun job =>
    { job with state := .running, startedAt := some (chrono.toRfc3339 now) }

def markProgress (map : Registry) (jobId : String) (fraction : ℚ) : Registry :=
  map.modify jobId fun job => { job with progressFraction := some (max 0 (min fraction 1)) }

def markSucceeded (map : Registry) (jobId result : String) : Registry :=
  map.modify jobId fun job =>
    { job with
      state := .succeeded, finishedAt := some (chrono.toRfc3339 now), result := some result }

def markFailed (map : Registry) (jobId error : String) : Registry :=
  map.modify jobId fun job =>
    { job with state := .failed, finishedAt := some (chrono.toRfc3339 now), error := some error }

/-- Returns whether the job was abandoned, the registry and the running marker. -/
def recoverAbandoned (map : Registry) (jobId : String) (running : Option String) :
    Bool × Registry × Option String :=
  match map.lookup jobId with
  | none => (false, map, running)
  | some job =>
    if job.state.isTerminal then (false, map, running)
    else
      (true, markFailed chrono now map jobId unexpectedTaskError,
        if running = some job.profileId then none else running)

def get (map : Registry) (jobId : String) : Option BackupJob × Registry :=
  let map := gcLocked chrono now map
  (map.lookup jobId, map)

def list (map : Registry) (profileId : Option String) : List BackupJob × Registry :=
  let map := gcLocked chrono now map
  let jobs := map.values.filter fun j => profileId.all (j.profileId = ·)
  (jobs.mergeSort fun a b => b.createdAt ≤ a.createdAt, map)

end Methods

/-! ## Workers and monitors -/

inductive Phase
  | spawned
  /-- after `mark_running` -/
  | started
  /-- inside `run_backup`, between the two writes of the running marker -/
  | backingUp
  /-- `run_backup` has cleared the marker -/
  | backedUp
  /-- after `mark_succeeded` or `mark_failed` -/
  | settled
  /-- the worker returned, panicked or was cancelled -/
  | ended
  /-- the monitor ran `recover_abandoned` -/
  | recovered
  deriving DecidableEq

structure Task where
  profileId : String
  kind : BackupJobKind
  phase : Phase

inductive Event
  | start (profileId : String) (kind : BackupJobKind) (id : String) (now : ℤ)
  | markRunning (id : String) (now : ℤ)
  | beginRun (id : String)
  | endRun (id : String)
  | markProgress (id : String) (fraction : ℚ)
  | markSucceeded (id result : String) (now : ℤ)
  | markFailed (id error : String) (now : ℤ)
  | workerEnds (id : String)
  | recover (id : String) (now : ℤ)
  | get (id : String) (now : ℤ)
  | list (profileId : Option String) (now : ℤ)

/-- `tasks` holds the phase of every job ever started, `runs` the jobs whose backup run has begun
and not ended, the last begun first. -/
structure World where
  registry : Registry
  running : Option String
  tasks : String → Option Task
  runs : List String

def World.init : World := { registry := ∅, running := none, tasks := fun _ => none, runs := [] }

def World.advance (w : World) (id : String) (task : Task) (phase : Phase) : World :=
  { w with tasks := update w.tasks id (some { task with phase }) }

def World.turn (w : World) (id : String) (ready : Task → Bool) (act : Task → World) :
    Option World :=
  ((w.tasks id).filter ready).map act

variable (chrono : Chrono)

def World.spawn (w : World) (profileId : String) (kind : BackupJobKind) (id : String) (now : ℤ) :
    Option World :=
  match start chrono now w.registry profileId kind id with
  | (.error _, registry) => some { w with registry }
  | (.ok _, registry) =>
    if w.tasks id = none then
      some ({ w with registry }.advance id ⟨profileId, kind, .spawned⟩ .spawned)
    else none

/-- A worker or monitor takes its steps in order, and a UUID is drawn once. -/
def World.next (w : World) : Event → Option World
  | .start profileId kind id now => w.spawn chrono profileId kind id now
  | .markRunning id now =>
    w.turn id (·.phase = .spawned) fun task =>
      { w with registry := markRunning chrono now w.registry id }.advance id task .started
  | .beginRun id =>
    w.turn id (fun task => task.phase = .started ∧ task.kind = .runBackup) fun task =>
      { w with running := some task.profileId, runs := id :: w.runs }.advance id task .backingUp
  | .endRun id =>
    w.turn id (·.phase = .backingUp) fun task =>
      { w with running := none, runs := w.runs.erase id }.advance id task .backedUp
  | .markProgress id fraction =>
    w.turn id (fun task => task.phase = .started ∧ task.kind = .restore) fun task =>
      { w with registry := markProgress w.registry id fraction }.advance id task .started
  | .markSucceeded id result now =>
    w.turn id (fun task => task.phase = .started ∨ task.phase = .backedUp) fun task =>
      { w with registry := markSucceeded chrono now w.registry id result }.advance id task .settled
  | .markFailed id error now =>
    w.turn id (fun task => task.phase = .started ∨ task.phase = .backedUp) fun task =>
      { w with registry := markFailed chrono now w.registry id error }.advance id task .settled
  | .workerEnds id =>
    w.turn id (fun task => task.phase ≠ .ended ∧ task.phase ≠ .recovered) fun task =>
      w.advance id task .ended
  | .recover id now =>
    w.turn id (·.phase = .ended) fun task =>
      let (_, registry, running) := recoverAbandoned chrono now w.registry id w.running
      { w with registry, running, runs := w.runs.erase id }.advance id task .recovered
  | .get id now => some { w with registry := (get chrono now w.registry id).2 }
  | .list profileId now => some { w with registry := (list chrono now w.registry profileId).2 }

def Step (w : World) (e : Event) (w' : World) : Prop := w.next chrono e = some w'

/-! ## What a step does to the entries -/

variable {chrono} {w w' : World} {e : Event} {id : String} {map map' : Registry} {job : BackupJob}

def Swept (map map' : Registry) : Prop :=
  ∀ id, map'.lookup id = map.lookup id ∨
    map'.lookup id = none ∧ ∃ job, map.lookup id = some job ∧ job.state.isTerminal

variable {now : ℤ} {phase : Phase} {task : Task} {profileId : String} {kind : BackupJobKind}

theorem swept_gcLocked : Swept map (gcLocked chrono now map) := by
  intro id
  rw [gcLocked, lookup_retain]
  rcases map.lookup id with _ | job
  · exact .inl rfl
  by_cases hterminal : job.state.isTerminal
  · rw [filter_some]
    split
    · exact .inl rfl
    · exact .inr ⟨rfl, job, rfl, hterminal⟩
  · refine .inl (filter_some_pos ?_)
    rw [retained, if_neg hterminal]

theorem Swept.lookup (h : Swept map map') (hjob : map'.lookup id = some job) :
    map.lookup id = some job := by
  rcases h id with heq | ⟨hnone, -⟩
  · rw [← heq, hjob]
  · rw [hnone] at hjob
    nomatch hjob

theorem Swept.active (h : Swept map map') (hjob : map.lookup id = some job)
    (hactive : ¬ job.state.isTerminal) : map'.lookup id = some job := by
  rcases h id with heq | ⟨-, job', hjob', hterminal⟩
  · rw [heq, hjob]
  · rw [hjob] at hjob'
    cases hjob'
    exact absurd hterminal hactive

def Agrees : Phase → BackupJobState → Prop
  | .spawned, s => s = .pending
  | .started, s | .backingUp, s | .backedUp, s => s = .running
  | .settled, s | .recovered, s => s.isTerminal
  | .ended, _ => True

def Phase.live : Phase → Bool
  | .spawned | .started | .backingUp | .backedUp => true
  | .settled | .ended | .recovered => false

theorem Agrees.active (hlive : phase.live) {s : BackupJobState} (h : Agrees phase s) :
    s.isTerminal = false := by
  cases phase with
  | spawned => rw [show s = .pending from h]; rfl
  | started | backingUp | backedUp => rw [show s = .running from h]; rfl
  | settled | ended | recovered => nomatch hlive

structure Moves (before after : Phase) (f : BackupJob → BackupJob) : Prop where
  live : after.live → before.live
  profileId : ∀ job, (f job).profileId = job.profileId
  agrees : ∀ job, Agrees before job.state → Agrees after (f job).state
  terminal : ∀ job, Agrees before job.state → job.state.isTerminal → f job = job

def Event.actor : Event → Option String
  | .start _ _ _ _ | .get _ _ | .list _ _ => none
  | .markRunning id _ | .beginRun id | .endRun id | .markProgress id _ | .markSucceeded id _ _
  | .markFailed id _ _ | .workerEnds id | .recover id _ => some id

inductive Effect (w : World) : Event → World → Prop
  | queued {w' : World} {profileId id : String} {kind : BackupJobKind} {now : ℤ} {map : Registry}
      {job : BackupJob} (hfresh : w.tasks id = none) (hswept : Swept w.registry map)
      (hfree : ∀ id' job', map.lookup id' = some job' → job'.profileId = profileId →
        job'.state.isTerminal)
      (hprofile : job.profileId = profileId) (hpending : job.state = .pending)
      (hregistry : w'.registry = map.insert id job)
      (htasks : w'.tasks = update w.tasks id (some ⟨profileId, kind, .spawned⟩)) :
      Effect w (.start profileId kind id now) w'
  | swept {w' : World} {e : Event} (hactor : e.actor = none)
      (hswept : Swept w.registry w'.registry) (htasks : w'.tasks = w.tasks) : Effect w e w'
  | moved {w' : World} {e : Event} {id : String} {task : Task} {phase : Phase}
      {f : BackupJob → BackupJob} (hactor : e.actor = some id) (htask : w.tasks id = some task)
      (hmoves : Moves task.phase phase f)
      (hself : w'.registry.lookup id = (w.registry.lookup id).map f)
      (hother : ∀ id', id' ≠ id → w'.registry.lookup id' = w.registry.lookup id')
      (htasks : w'.tasks = update w.tasks id (some { task with phase })) :
      Effect w e w'

theorem Effect.kept (hactor : e.actor = some id) (htask : w.tasks id = some task)
    (hregistry : w'.registry = w.registry)
    (htasks : w'.tasks = update w.tasks id (some { task with phase }))
    (hlive : phase.live → task.phase.live) (hagrees : ∀ s, Agrees task.phase s → Agrees phase s) :
    Effect w e w' := by
  refine .moved hactor htask
    ⟨hlive, fun _ => rfl, fun _ => hagrees _, fun _ _ _ => rfl⟩ ?_
    (fun _ _ => by rw [hregistry]) htasks
  rw [hregistry]
  exact map_id'.symm

theorem Effect.written {f : BackupJob → BackupJob} (hactor : e.actor = some id)
    (htask : w.tasks id = some task) (hregistry : w'.registry = w.registry.modify id f)
    (htasks : w'.tasks = update w.tasks id (some { task with phase }))
    (hprofile : ∀ job, (f job).profileId = job.profileId) (hlive : task.phase.live)
    (hagrees : ∀ job, Agrees task.phase job.state → Agrees phase (f job).state) :
    Effect w e w' := by
  refine .moved hactor htask ⟨fun _ => hlive, hprofile, hagrees, fun job hbefore hterminal => ?_⟩ ?_
    (fun id' hne => ?_) htasks
  · rw [hbefore.active hlive] at hterminal
    nomatch hterminal
  · rw [hregistry, lookup_modify]
  · rw [hregistry, lookup_modify_ne hne]

theorem start_ok (h : start chrono now map profileId kind id = (.ok job, map')) :
    (∀ id' job', (gcLocked chrono now map).lookup id' = some job' →
      job'.profileId = profileId → job'.state.isTerminal) ∧
    job = .new id profileId kind (chrono.toRfc3339 now) ∧
    map' = (gcLocked chrono now map).insert id job := by
  unfold start at h
  dsimp only at h
  split at h
  · nomatch (Prod.mk.inj h).1
  rename_i hfind
  obtain ⟨hjob, rfl⟩ := Prod.mk.inj h
  cases hjob
  refine ⟨fun id' job' hjob' hprofile => ?_, rfl, rfl⟩
  have hnot := List.find?_eq_none.1 hfind job' (mem_values.2 ⟨id', hjob'⟩)
  by_contra hactive
  exact hnot (decide_eq_true ⟨hprofile, hactive⟩)

theorem start_error {error : JobError}
    (h : start chrono now map profileId kind id = (.error error, map')) :
    map' = gcLocked chrono now map := by
  unfold start at h
  dsimp only at h
  split at h
  · exact (Prod.mk.inj h).2.symm
  · nomatch (Prod.mk.inj h).1

def abandon (chrono : Chrono) (now : ℤ) (job : BackupJob) : BackupJob :=
  if job.state.isTerminal then job
  else
    { job with
      state := .failed
      finishedAt := some (chrono.toRfc3339 now)
      error := some unexpectedTaskError }

section Recover

variable {now : ℤ} {running : Option String}

theorem lookup_recoverAbandoned :
    (recoverAbandoned chrono now map id running).2.1.lookup id =
      (map.lookup id).map (abandon chrono now) := by
  unfold recoverAbandoned
  rcases hjob : map.lookup id with _ | job
  · exact hjob
  dsimp only
  rw [map_some, abandon]
  split
  · exact hjob
  · rw [markFailed, lookup_modify, hjob, map_some]

theorem lookup_recoverAbandoned_ne {id' : String} (hne : id' ≠ id) :
    (recoverAbandoned chrono now map id running).2.1.lookup id' = map.lookup id' := by
  unfold recoverAbandoned
  rcases map.lookup id with _ | job
  · rfl
  dsimp only
  split
  · rfl
  · exact lookup_modify_ne hne

theorem running_recoverAbandoned (hjob : map.lookup id = some job)
    (hactive : ¬ job.state.isTerminal) :
    (recoverAbandoned chrono now map id running).2.2 =
      if running = some job.profileId then none else running := by
  rw [recoverAbandoned, hjob]
  dsimp only
  rw [if_neg hactive]

theorem running_recoverAbandoned_of_terminal
    (h : ∀ job, map.lookup id = some job → job.state.isTerminal) :
    (recoverAbandoned chrono now map id running).2.2 = running := by
  unfold recoverAbandoned
  rcases hjob : map.lookup id with _ | job
  · rfl
  · dsimp only
    rw [if_pos (h job hjob)]

end Recover

theorem moves_abandon : Moves .ended .recovered (abandon chrono now) where
  live := nofun
  profileId job := by
    unfold abandon
    split <;> rfl
  agrees job _ := by
    show (abandon chrono now job).state.isTerminal
    unfold abandon
    split
    · assumption
    · rfl
  terminal job _ hterminal := if_pos hterminal

theorem turn_eq_some {ready : Task → Bool} {act : Task → World}
    (h : w.turn id ready act = some w') :
    ∃ task, w.tasks id = some task ∧ ready task ∧ act task = w' := by
  obtain ⟨task, hfilter, hact⟩ := map_eq_some_iff.1 h
  obtain ⟨htask, hready⟩ := filter_eq_some_iff.1 hfilter
  exact ⟨task, htask, hready, hact⟩

theorem effect_of_step (hstep : Step chrono w e w') : Effect w e w' := by
  cases e with
  | start profileId kind id now =>
    change w.spawn chrono profileId kind id now = some w' at hstep
    unfold World.spawn at hstep
    rcases hstart : start chrono now w.registry profileId kind id with ⟨_ | job, map⟩ <;>
      rw [hstart] at hstep <;> dsimp only at hstep
    · cases hstep
      obtain rfl := start_error hstart
      exact .swept rfl swept_gcLocked rfl
    split at hstep
    · rename_i hfresh
      cases hstep
      obtain ⟨hfree, rfl, rfl⟩ := start_ok hstart
      exact .queued hfresh swept_gcLocked hfree rfl rfl rfl rfl
    · nomatch hstep
  | get id now | list profileId now =>
    cases hstep
    exact .swept rfl swept_gcLocked rfl
  | markRunning id now =>
    obtain ⟨task, htask, hready, rfl⟩ := turn_eq_some hstep
    have hphase : task.phase = .spawned := by simpa using hready
    exact .written rfl htask rfl rfl (fun _ => rfl) (hphase ▸ rfl) fun _ _ => rfl
  | beginRun id =>
    obtain ⟨task, htask, hready, rfl⟩ := turn_eq_some hstep
    obtain ⟨hphase, -⟩ : task.phase = .started ∧ task.kind = .runBackup := by simpa using hready
    refine .kept rfl htask rfl rfl (fun _ => hphase ▸ rfl) fun s h => ?_
    rw [hphase] at h
    exact h
  | endRun id =>
    obtain ⟨task, htask, hready, rfl⟩ := turn_eq_some hstep
    have hphase : task.phase = .backingUp := by simpa using hready
    refine .kept rfl htask rfl rfl (fun _ => hphase ▸ rfl) fun s h => ?_
    rw [hphase] at h
    exact h
  | markProgress id fraction =>
    obtain ⟨task, htask, hready, rfl⟩ := turn_eq_some hstep
    obtain ⟨hphase, -⟩ : task.phase = .started ∧ task.kind = .restore := by simpa using hready
    exact .written rfl htask rfl rfl (fun _ => rfl) (hphase ▸ rfl) fun _ h => hphase ▸ h
  | markSucceeded id result now | markFailed id error now =>
    obtain ⟨task, htask, hready, rfl⟩ := turn_eq_some hstep
    have hphase : task.phase = .started ∨ task.phase = .backedUp := by simpa using hready
    exact .written rfl htask rfl rfl (fun _ => rfl) (by rcases hphase with h | h <;> rw [h] <;> rfl)
      fun _ _ => rfl
  | workerEnds id =>
    obtain ⟨task, htask, -, rfl⟩ := turn_eq_some hstep
    exact .kept rfl htask rfl rfl nofun fun _ _ => trivial
  | recover id now =>
    obtain ⟨task, htask, hready, rfl⟩ := turn_eq_some hstep
    have hphase : task.phase = .ended := by simpa using hready
    exact .moved rfl htask (hphase ▸ moves_abandon) lookup_recoverAbandoned
      (fun _ hne => lookup_recoverAbandoned_ne hne) rfl

/-! ## The invariant -/

structure Inv (w : World) : Prop where
  task : ∀ id job, w.registry.lookup id = some job →
    ∃ task, w.tasks id = some task ∧ task.profileId = job.profileId ∧ Agrees task.phase job.state
  live : ∀ id task, w.tasks id = some task → task.phase.live →
    ∃ job, w.registry.lookup id = some job
  unique : ∀ id₁ id₂ job₁ job₂, w.registry.lookup id₁ = some job₁ →
    w.registry.lookup id₂ = some job₂ → job₁.profileId = job₂.profileId →
    ¬ job₁.state.isTerminal → ¬ job₂.state.isTerminal → id₁ = id₂

theorem inv_init : Inv .init where
  task _ _ h := nomatch h
  live _ _ h := nomatch h
  unique _ _ _ _ h := nomatch h

section

variable (h : Inv w)
include h

section

variable (he : Effect w e w')
include he

theorem Inv.entry {job' : BackupJob} (hjob' : w'.registry.lookup id = some job') :
    (∃ job, w.registry.lookup id = some job ∧ job'.profileId = job.profileId ∧
      (job.state.isTerminal → job' = job)) ∨
    w.tasks id = none ∧ (∃ profileId kind now, e = .start profileId kind id now) ∧
      ∀ id₁ job₁, w.registry.lookup id₁ = some job₁ → job₁.profileId = job'.profileId →
        job₁.state.isTerminal := by
  cases he with
  | @queued _ profileId id₀ kind now map job hfresh hswept hfree hprofile _ hregistry =>
    rw [hregistry] at hjob'
    by_cases hid : id = id₀
    · subst hid
      rw [lookup_insert] at hjob'
      cases hjob'
      refine .inr ⟨hfresh, ⟨_, _, _, rfl⟩, fun id₁ job₁ hjob₁ heq => ?_⟩
      by_contra hactive
      exact hactive (hfree id₁ job₁ (hswept.active hjob₁ hactive) (heq.trans hprofile))
    · rw [lookup_insert_ne hid] at hjob'
      exact .inl ⟨job', hswept.lookup hjob', rfl, fun _ => rfl⟩
  | swept _ hswept => exact .inl ⟨job', hswept.lookup hjob', rfl, fun _ => rfl⟩
  | @moved _ _ id₀ task phase f _ htask hmoves hself hother htasks =>
    by_cases hid : id = id₀
    · subst hid
      rw [hself] at hjob'
      obtain ⟨job, hjob, rfl⟩ := map_eq_some_iff.1 hjob'
      obtain ⟨task', htask', -, hagrees⟩ := h.task id job hjob
      rw [htask] at htask'
      cases htask'
      exact .inl ⟨job, hjob, hmoves.profileId job, hmoves.terminal job hagrees⟩
    · rw [hother id hid] at hjob'
      exact .inl ⟨job', hjob', rfl, fun _ => rfl⟩

theorem Inv.task_effect :
    ∀ id job, w'.registry.lookup id = some job → ∃ task, w'.tasks id = some task ∧
      task.profileId = job.profileId ∧ Agrees task.phase job.state := by
  intro id job' hjob'
  cases he with
  | @queued _ profileId id₀ kind now map job hfresh hswept _ hprofile hpending hregistry htasks =>
    rw [hregistry] at hjob'
    rw [htasks]
    by_cases hid : id = id₀
    · subst hid
      rw [lookup_insert] at hjob'
      cases hjob'
      exact ⟨_, update_self .., hprofile.symm, hpending⟩
    · rw [lookup_insert_ne hid] at hjob'
      rw [update_of_ne hid]
      exact h.task id job' (hswept.lookup hjob')
  | swept _ hswept htasks =>
    rw [htasks]
    exact h.task id job' (hswept.lookup hjob')
  | @moved _ _ id₀ task phase f _ htask hmoves hself hother htasks =>
    rw [htasks]
    by_cases hid : id = id₀
    · subst hid
      rw [hself] at hjob'
      obtain ⟨job, hjob, rfl⟩ := map_eq_some_iff.1 hjob'
      obtain ⟨task', htask', hprofile, hagrees⟩ := h.task id job hjob
      rw [htask] at htask'
      cases htask'
      exact ⟨_, update_self .., hprofile.trans (hmoves.profileId job).symm,
        hmoves.agrees job hagrees⟩
    · rw [hother id hid] at hjob'
      rw [update_of_ne hid]
      exact h.task id job' hjob'

theorem Inv.unique_effect :
    ∀ id₁ id₂ job₁ job₂, w'.registry.lookup id₁ = some job₁ →
      w'.registry.lookup id₂ = some job₂ → job₁.profileId = job₂.profileId →
      ¬ job₁.state.isTerminal → ¬ job₂.state.isTerminal → id₁ = id₂ := by
  intro id₁ id₂ job₁ job₂ h₁ h₂ hprofile hactive₁ hactive₂
  have hold : ∀ {job job' : BackupJob}, (job.state.isTerminal → job' = job) →
      ¬ job'.state.isTerminal → ¬ job.state.isTerminal :=
    fun heq hactive hterminal => hactive (heq hterminal ▸ hterminal)
  rcases h.entry he h₁ with ⟨old₁, hold₁, hp₁, heq₁⟩ | ⟨-, ⟨_, _, _, he₁⟩, hfree₁⟩ <;>
    rcases h.entry he h₂ with ⟨old₂, hold₂, hp₂, heq₂⟩ | ⟨-, ⟨_, _, _, he₂⟩, hfree₂⟩
  · exact h.unique id₁ id₂ old₁ old₂ hold₁ hold₂ (hp₁.symm.trans (hprofile.trans hp₂))
      (hold heq₁ hactive₁) (hold heq₂ hactive₂)
  · exact absurd (hfree₂ id₁ old₁ hold₁ (hp₁.symm.trans hprofile)) (hold heq₁ hactive₁)
  · exact absurd (hfree₁ id₂ old₂ hold₂ (hp₂.symm.trans hprofile.symm)) (hold heq₂ hactive₂)
  · rw [he₁] at he₂
    injection he₂

theorem Inv.active_kept (hjob : w.registry.lookup id = some job)
    (hactive : ¬ job.state.isTerminal) : ∃ job', w'.registry.lookup id = some job' := by
  cases he with
  | @queued _ _ id₀ _ _ map new hfresh hswept _ _ _ hregistry =>
    have hid : id ≠ id₀ := by
      rintro rfl
      obtain ⟨task, htask, -⟩ := h.task id job hjob
      rw [hfresh] at htask
      nomatch htask
    exact ⟨job, by rw [hregistry, lookup_insert_ne hid, hswept.active hjob hactive]⟩
  | swept _ hswept => exact ⟨job, hswept.active hjob hactive⟩
  | @moved _ _ id₀ task phase f _ _ _ hself hother =>
  by_cases hid : id = id₀
  · subst hid
    exact ⟨f job, by rw [hself, hjob, map_some]⟩
  · exact ⟨job, by rw [hother id hid, hjob]⟩

end

theorem Inv.entry_of_live (htask : w.tasks id = some task) (hlive : task.phase.live) :
    ∃ job, w.registry.lookup id = some job ∧ task.profileId = job.profileId ∧
      ¬ job.state.isTerminal := by
  obtain ⟨job, hjob⟩ := h.live id task htask hlive
  obtain ⟨task', htask', hprofile, hagrees⟩ := h.task id job hjob
  rw [htask] at htask'
  cases htask'
  exact ⟨job, hjob, hprofile, by rw [hagrees.active hlive]; nofun⟩

theorem Inv.live_effect (he : Effect w e w') :
    ∀ id task, w'.tasks id = some task → task.phase.live →
      ∃ job, w'.registry.lookup id = some job := by
  intro id task' htask' hlive
  have hold : ∀ task, w.tasks id = some task → task.phase.live →
      ∃ job, w'.registry.lookup id = some job := by
    intro task htask hlive
    obtain ⟨job, hjob, -, hactive⟩ := h.entry_of_live htask hlive
    exact h.active_kept he hjob hactive
  cases he with
  | @queued _ _ id₀ _ _ map job _ _ _ _ _ hregistry htasks =>
    rw [htasks] at htask'
    by_cases hid : id = id₀
    · exact ⟨job, by rw [hregistry, hid, lookup_insert]⟩
    · rw [update_of_ne hid] at htask'
      exact hold task' htask' hlive
  | swept _ _ htasks =>
    rw [htasks] at htask'
    exact hold task' htask' hlive
  | @moved _ _ id₀ task phase f _ htask hmoves hself hother htasks =>
    rw [htasks] at htask'
    by_cases hid : id = id₀
    · subst hid
      rw [update_self] at htask'
      cases htask'
      exact hold task htask (hmoves.live hlive)
    · rw [update_of_ne hid] at htask'
      exact hold task' htask' hlive

theorem Inv.step (hstep : Step chrono w e w') : Inv w' :=
  let he := effect_of_step hstep
  ⟨h.task_effect he, h.live_effect he, h.unique_effect he⟩

end

theorem inv_run {es : List Event} (hrun : Run (Step chrono) .init es w) : Inv w :=
  hrun.inv inv_init fun _ _ _ h => h.step

theorem Effect.known (he : Effect w e w') (hid : w.tasks id ≠ none) : w'.tasks id ≠ none := by
  cases he with
  | @queued _ _ id₀ _ _ _ _ _ _ _ _ _ _ htasks | @moved _ _ id₀ _ _ _ _ _ _ _ _ htasks =>
    rw [htasks]
    by_cases heq : id = id₀
    · rw [heq, update_self]
      nofun
    · rwa [update_of_ne heq]
  | swept _ _ htasks => rwa [htasks]

theorem Inv.terminal_kept (h : Inv w) (hjob : w.registry.lookup id = some job)
    (hterminal : job.state.isTerminal) {es : List Event} (hrun : Run (Step chrono) w es w') :
    ∀ job', w'.registry.lookup id = some job' → job' = job := by
  obtain ⟨task, htask, -⟩ := h.task id job hjob
  have hinv := hrun.inv (I := fun w' => Inv w' ∧ w'.tasks id ≠ none ∧
    ∀ job', w'.registry.lookup id = some job' → job' = job)
    ⟨h, by rw [htask]; nofun, fun job' hjob' => by rw [hjob] at hjob'; cases hjob'; rfl⟩ ?_
  · exact hinv.2.2
  rintro w₁ e w₂ ⟨h₁, hknown, hsame⟩ hstep
  have he := effect_of_step hstep
  refine ⟨h₁.step hstep, he.known hknown, fun job' hjob' => ?_⟩
  rcases h₁.entry he hjob' with ⟨old, hold, -, heq⟩ | ⟨hfresh, -⟩
  · obtain rfl := hsame old hold
    exact heq hterminal
  · exact absurd hfresh hknown

/-- **The life of a job.** One active job a profile; a terminal job stays as it is; a job whose
monitor has run is over; none is lost. -/
theorem job_lifecycle {es : List Event} (hrun : Run (Step chrono) .init es w) :
    (∀ id₁ id₂ job₁ job₂, w.registry.lookup id₁ = some job₁ →
      w.registry.lookup id₂ = some job₂ → job₁.profileId = job₂.profileId →
      ¬ job₁.state.isTerminal → ¬ job₂.state.isTerminal → id₁ = id₂) ∧
    (∀ id job, w.registry.lookup id = some job → job.state.isTerminal →
      ∀ es' w', Run (Step chrono) w es' w' →
        ∀ job', w'.registry.lookup id = some job' → job' = job) ∧
    (∀ id task, w.tasks id = some task → task.phase = .recovered →
      ∀ job, w.registry.lookup id = some job → job.state.isTerminal) ∧
    ∀ id job, w.registry.lookup id = some job → ¬ job.state.isTerminal →
      ∀ e w', Step chrono w e w' → ∃ job', w'.registry.lookup id = some job' := by
  have h := inv_run hrun
  refine ⟨h.unique, fun id job hjob hterminal es' w' => h.terminal_kept hjob hterminal,
    fun id task htask hphase job hjob => ?_, fun id job hjob hactive e w' hstep => ?_⟩
  · obtain ⟨task', htask', -, hagrees⟩ := h.task id job hjob
    rw [htask] at htask'
    cases htask'
    rw [hphase] at hagrees
    exact hagrees
  · exact h.active_kept (effect_of_step hstep) hjob hactive

def decimalClock : Chrono := { toRfc3339 := toString, parseRfc3339 := String.toInt? }

/-- The worker of a job dies after `mark_running`; its monitor fails the job, for good. -/
theorem job_lifecycle_abandoned :
    ∃ w, Run (Step decimalClock) .init [.start "p" .runBackup "a" 0, .markRunning "a" 1,
        .workerEnds "a", .recover "a" 2] w ∧
      ∃ job, w.registry.lookup "a" = some job ∧ job.state = .failed ∧
        ∀ es' w', Run (Step decimalClock) w es' w' →
          ∀ job', w'.registry.lookup "a" = some job' → job' = job := by
  obtain ⟨w, hexec, hjob⟩ : ∃ w, List.foldlM (World.next decimalClock) .init
      [.start "p" .runBackup "a" 0, .markRunning "a" 1, .workerEnds "a", .recover "a" 2] =
        some w ∧ (w.registry.lookup "a").map (·.state) = some .failed := ⟨_, rfl, by decide⟩
  obtain ⟨job, hlookup, hfailed⟩ := map_eq_some_iff.1 hjob
  have hrun := Run.of_foldlM hexec
  exact ⟨w, hrun, job, hlookup, hfailed, (job_lifecycle hrun).2.1 "a" job hlookup (hfailed ▸ rfl)⟩

end Nasty.Backup.Jobs
