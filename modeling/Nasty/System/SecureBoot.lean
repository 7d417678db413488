import Nasty.Lib.Proc

/-!
# Secure Boot enrollment

`SecureBootEnrollmentService` drives a ceremony whose phase is kept three times: in memory, in the
state file, and in what `begin` stages for the next rebuild, the overlay file and the lanzaboote
input of the wrapper flake. No lock spans a call: the phase check and what it guards are apart.

1. `Cmd`: the steps a call takes, `World.Post`: what each may answer and leave when it fails.
2. `begin`, `abort`, `complete`, `rebuild`, `new`: the calls, as processes over these steps.
3. `Sys`: calls that interleave, and restarts of the engine at any point.
4. `Coherent` is what a restart must find, `Settled` what holds between calls; each call leads
   from `Settled` to `Settled` if no other one passes its phase check meanwhile (`body_wp`).
-/

namespace Nasty.System.SecureBoot

open Lts Proc Function

inductive EnrollmentPhase
  | notStarted
  | overlayWritten (overlayAt : ℕ)
  | postEnrollment (detectedAt : ℕ) (staleTpmBindings : List String)
  | complete (completedAt : ℕ)
  | aborted (abortedAt : ℕ) (reason : String)

namespace EnrollmentPhase

def Staged : EnrollmentPhase → Prop
  | overlayWritten _ | postEnrollment _ _ | complete _ => True
  | notStarted | aborted _ _ => False

def Enrolled : EnrollmentPhase → Prop
  | postEnrollment _ _ | complete _ => True
  | notStarted | overlayWritten _ | aborted _ _ => False

end EnrollmentPhase

structure EnrollmentState where
  phase : EnrollmentPhase
  initiatedBy : Option String
  rebuildTriggeredAt : Option ℕ

instance : Inhabited EnrollmentState := ⟨⟨.notStarted, none, none⟩⟩

def EnrollmentState.rebuiltAt (state : EnrollmentState) (now : ℕ) : EnrollmentState :=
  ⟨state.phase, state.initiatedBy, some now⟩

inductive EnrollmentError
  | alreadyInProgress
  | pastPointOfNoReturn
  | notInPostEnrollment
  | io (text : String)

/-! ## The steps of a call -/

/-- How `systemd-run` ends. -/
inductive SystemdRun
  | started
  | notSpawned (error : String)
  | exited (status stderr : String)

inductive Cmd
  | readPhase
  | readInitiatedBy
  | readRebuildTriggeredAt
  | setState (state : EnrollmentState)
  /-- The write lock of `rebuild`: the marker is set to the time and the state is cloned. -/
  | markRebuilt
  | loadState
  | saveState (state : EnrollmentState)
  | writeOverlayFile
  | removeOverlayFile
  | addLanzabooteInput
  | removeLanzabooteInput
  | runNixFlakeLock
  | resetFailed
  | stopUnit
  | systemdRun
  | secureBootEnabled
  | enumerateTpmBindings
  | unixNow

abbrev Cmd.Answer : Cmd → Type
  | readPhase => EnrollmentPhase
  | readInitiatedBy => Option String
  | readRebuildTriggeredAt => Option ℕ
  | markRebuilt => EnrollmentState
  | loadState => Option EnrollmentState
  | saveState _ | writeOverlayFile | removeOverlayFile | addLanzabooteInput
  | removeLanzabooteInput | runNixFlakeLock => Except String Unit
  | systemdRun => SystemdRun
  | secureBootEnabled => Option Bool
  | enumerateTpmBindings => List String
  | unixNow => ℕ
  | setState _ | resetFailed | stopUnit => Unit

structure World where
  memory : EnrollmentState
  /-- What can be read back from the state file. -/
  file : Option EnrollmentState
  overlay : Bool
  /-- The wrapper declares the lanzaboote input. -/
  input : Bool
  /-- The firmware has enrolled the keys. -/
  firmware : Bool

def World.persisted (s : World) : EnrollmentPhase := (s.file.getD default).phase

/-- Files are written in place: a failed write leaves the old content or a part of the new one. -/
def World.Post (s : World) : (c : Cmd) → c.Answer → World → Prop
  | .readPhase, r, t => r = s.memory.phase ∧ t = s
  | .readInitiatedBy, r, t => r = s.memory.initiatedBy ∧ t = s
  | .readRebuildTriggeredAt, r, t => r = s.memory.rebuildTriggeredAt ∧ t = s
  | .setState st, _, t => t = { s with memory := st }
  | .markRebuilt, r, t => ∃ now, r = s.memory.rebuiltAt now ∧ t = { s with memory := r }
  | .loadState, r, t => (r = s.file ∨ r = none) ∧ t = s
  | .saveState st, .ok _, t => t = { s with file := some st }
  | .saveState _, .error _, t => t = s ∨ t = { s with file := none }
  | .writeOverlayFile, .ok _, t => t = { s with overlay := true }
  | .writeOverlayFile, .error _, t => t = s ∨ t = { s with overlay := true }
  | .removeOverlayFile, .ok _, t => t = { s with overlay := false }
  | .removeOverlayFile, .error _, t => t = s
  | .addLanzabooteInput, .ok _, t => t = { s with input := true }
  | .addLanzabooteInput, .error _, t => ∃ b, t = { s with input := b }
  | .removeLanzabooteInput, .ok _, t => t = { s with input := false }
  | .removeLanzabooteInput, .error _, t => ∃ b, t = { s with input := b }
  | .secureBootEnabled, r, t => (r = some true → s.firmware) ∧ t = s
  | .runNixFlakeLock, _, t | .resetFailed, _, t | .stopUnit, _, t | .systemdRun, _, t
  | .enumerateTpmBindings, _, t | .unixNow, _, t => t = s

/-! ## The calls -/

abbrev Call := Proc Cmd Cmd.Answer EnrollmentError

def commit (state : EnrollmentState) : Call EnrollmentState := do
  let _ ← perform (.setState state)
  let saved ← perform (.saveState state)
  orFail .io saved
  pure state

def stage (actor : String) : Call EnrollmentState := do
  let written ← perform .writeOverlayFile
  orFail .io written
  let added : Except String Unit ← perform Cmd.addLanzabooteInput
  match added with
  | .error e =>
    let _ ← perform .removeOverlayFile
    fail (.io ("inject lanzaboote input into wrapper: " ++ e))
  | .ok _ =>
    let locked : Except String Unit ← perform Cmd.runNixFlakeLock
    match locked with
    | .error e =>
      let _ ← perform .removeLanzabooteInput
      let _ ← perform .removeOverlayFile
      fail (.io ("lock lanzaboote input (network required): io: " ++ e))
    | .ok _ =>
      let _ ← perform .resetFailed
      let overlayAt ← perform .unixNow
      commit ⟨.overlayWritten overlayAt, some actor, none⟩

def begin (actor : String) : Call EnrollmentState := do
  let phase : EnrollmentPhase ← perform Cmd.readPhase
  match phase with
  | .notStarted | .aborted _ _ => stage actor
  | .overlayWritten _ | .postEnrollment _ _ | .complete _ => fail .alreadyInProgress

def unstage (actor reason : String) : Call EnrollmentState := do
  let removed ← perform .removeOverlayFile
  orFail .io removed
  -- a failure here is only logged
  let _ ← perform .removeLanzabooteInput
  let abortedAt ← perform .unixNow
  let rebuildTriggeredAt ← perform .readRebuildTriggeredAt
  commit ⟨.aborted abortedAt reason, some actor, rebuildTriggeredAt⟩

def abort (actor reason : String) : Call EnrollmentState := do
  let phase : EnrollmentPhase ← perform Cmd.readPhase
  match phase with
  | .notStarted | .postEnrollment _ _ | .complete _ => fail .pastPointOfNoReturn
  | .overlayWritten _ | .aborted _ _ => unstage actor reason

def complete (actor : String) : Call EnrollmentState := do
  let phase : EnrollmentPhase ← perform Cmd.readPhase
  match phase with
  | .postEnrollment _ _ =>
    let completedAt ← perform .unixNow
    let rebuildTriggeredAt ← perform .readRebuildTriggeredAt
    commit ⟨.complete completedAt, some actor, rebuildTriggeredAt⟩
  | .notStarted | .overlayWritten _ | .complete _ | .aborted _ _ => fail .notInPostEnrollment

def recordRebuild : Call EnrollmentState := do
  let snapshot ← perform .markRebuilt
  let saved ← perform (.saveState snapshot)
  orFail .io saved
  pure snapshot

def rebuild : Call EnrollmentState := do
  let phase : EnrollmentPhase ← perform Cmd.readPhase
  match phase with
  | .overlayWritten _ =>
    let _ ← perform .resetFailed
    let _ ← perform .stopUnit
    let output : SystemdRun ← perform Cmd.systemdRun
    match output with
    | .notSpawned e => fail (.io ("systemd-run: " ++ e))
    | .exited status stderr => fail (.io ("systemd-run exited " ++ status ++ ": " ++ stderr))
    | .started => recordRebuild
  | .notStarted | .postEnrollment _ _ | .complete _ | .aborted _ _ => fail .alreadyInProgress

/-- `maybe_detect_transition`, once the firmware was seen to have the keys. -/
def recordTransition : Call EnrollmentState := do
  let stale ← perform .enumerateTpmBindings
  let detectedAt ← perform .unixNow
  let initiatedBy ← perform .readInitiatedBy
  let rebuildTriggeredAt ← perform .readRebuildTriggeredAt
  let state := ⟨.postEnrollment detectedAt stale, initiatedBy, rebuildTriggeredAt⟩
  let _ ← perform (.setState state)
  -- a failure here is only logged
  let _ ← perform (.saveState state)
  pure state

def maybeDetectTransition (loaded : EnrollmentState) : Call EnrollmentState := do
  let phase : EnrollmentPhase ← perform Cmd.readPhase
  match phase with
  | .overlayWritten _ =>
    let enabled : Option Bool ← perform Cmd.secureBootEnabled
    match enabled with
    | some true => recordTransition
    | some false | none => pure loaded
  | .notStarted | .postEnrollment _ _ | .complete _ | .aborted _ _ => pure loaded

def new : Call EnrollmentState := do
  let state : Option EnrollmentState ← perform Cmd.loadState
  let _ ← perform (.setState (state.getD default))
  maybeDetectTransition (state.getD default)

inductive Op
  | begin (actor : String)
  | abort (actor reason : String)
  | complete (actor : String)
  | rebuild

def Op.body : Op → Call EnrollmentState
  | begin actor => SecureBoot.begin actor
  | abort actor reason => SecureBoot.abort actor reason
  | complete actor => SecureBoot.complete actor
  | rebuild => SecureBoot.rebuild

/-! ## The engine -/

abbrev Sys := Pool World Cmd Cmd.Answer EnrollmentError EnrollmentState

/-- The engine starts: memory is lost, and `new` runs before any call is taken. -/
def boot (s : World) : Sys :=
  ⟨{ s with memory := default }, update (fun _ => none) 0 (some new)⟩

def init (firmware : Bool) : Sys := boot ⟨default, none, false, false, firmware⟩

inductive Event
  | spawn (i : ℕ) (o : Op)
  | call (i : ℕ) (c : Cmd) (r : c.Answer)
  /-- The engine stops, wherever its calls are, and starts again; meanwhile the firmware may have
  enrolled the keys. -/
  | restart (enrolled : Bool)

def Step (w : Sys) : Event → Sys → Prop
  | .spawn i o, w' => w.procs i = none ∧ (∃ r, w.procs 0 = some (.done r)) ∧
      w'.shared = w.shared ∧ w'.procs = w.put i o.body
  | .call i c r, w' => ∃ next, w.procs i = some (.call c next) ∧ w.shared.Post c r w'.shared ∧
      w'.procs = w.put i (next r)
  | .restart enrolled, w' =>
      w' = boot { w.shared with firmware := w.shared.firmware || enrolled }

/-! ## What is required -/

def Succeeds : (c : Cmd) → c.Answer → Prop
  | .saveState _, r | .writeOverlayFile, r | .removeOverlayFile, r | .addLanzabooteInput, r
  | .removeLanzabooteInput, r | .runNixFlakeLock, r => r = .ok ()
  | .systemdRun, r => r = .started
  | _, _ => True

def Smooth (c : Cmd) (s : World) (r : c.Answer) (t : World) : Prop := s.Post c r t ∧ Succeeds c r

def World.Undone (s : World) (actor reason : String) : Prop :=
  (∃ r t, Exec Smooth (abort actor reason) s r t) ∧
    ∀ r t, Exec Smooth (abort actor reason) s r t → t.overlay = false ∧ t.input = false

structure World.Safe (s : World) : Prop where
  staged : s.memory.phase.Staged → s.overlay ∧ s.input
  saved : s.memory.phase = s.persisted
  undone : s.overlay ∨ s.input → ¬ s.firmware → ∀ actor reason, s.Undone actor reason

/-! ## Between calls -/

structure World.Fits (phase : EnrollmentPhase) (s : World) : Prop where
  staged : phase.Staged → s.overlay ∧ s.input
  fresh : phase = .notStarted → s.overlay = false ∧ s.input = false
  enrolled : phase.Enrolled → s.firmware

def World.Coherent (s : World) : Prop := s.Fits s.persisted

structure World.Settled (s : World) : Prop where
  saved : s.memory.phase = s.persisted
  coherent : s.Coherent

variable {phase : EnrollmentPhase}

theorem EnrollmentPhase.Enrolled.staged (h : phase.Enrolled) : phase.Staged := by
  cases phase with
  | postEnrollment | complete => trivial
  | notStarted | overlayWritten | aborted => exact h.elim

variable {s : World}

theorem fits_of_unstaged (hs : ¬ phase.Staged)
    (hfresh : phase = .notStarted → s.overlay = false ∧ s.input = false) : s.Fits phase :=
  ⟨fun h => absurd h hs, hfresh, fun h => absurd h.staged hs⟩

theorem World.Fits.setMemory (h : s.Fits phase)
    (st : EnrollmentState) : World.Fits phase { s with memory := st } :=
  ⟨h.staged, h.fresh, h.enrolled⟩

theorem World.Fits.power (h : s.Fits phase)
    (enrolled : Bool) : World.Fits phase { s with firmware := s.firmware || enrolled } :=
  ⟨h.staged, h.fresh, fun hp => by simp [h.enrolled hp]⟩

/-! ## The condition -/

/-- Between the first file that `begin` or `abort` changes and the save of its phase. -/
def Midway : EnrollmentPhase → Cmd → Prop
  | .notStarted, .addLanzabooteInput | .notStarted, .removeLanzabooteInput
  | .notStarted, .removeOverlayFile | .notStarted, .runNixFlakeLock
  | .notStarted, .resetFailed | .notStarted, .unixNow => True
  | .notStarted, .setState st | .notStarted, .saveState st => st.phase.Staged
  | .overlayWritten _, .removeLanzabooteInput | .overlayWritten _, .unixNow
  | .overlayWritten _, .readRebuildTriggeredAt => True
  | .overlayWritten _, .setState st | .overlayWritten _, .saveState st => ¬ st.phase.Staged
  | _, _ => False

/-- The state file can be read, a failed save changes no phase, and before the first enrollment
failed writes change nothing and removals succeed. -/
def Reliable (s : World) : (c : Cmd) → c.Answer → World → Prop
  | .loadState, r, _ => r = s.file
  | .saveState st, .error _, t => t.persisted = st.phase
  | .writeOverlayFile, .error _, t => s.persisted = .notStarted → t.overlay = s.overlay
  | .addLanzabooteInput, .error _, t => s.persisted = .notStarted → t.input = s.input
  | .removeOverlayFile, .error _, t => s.persisted = .notStarted → t.overlay = false
  | .removeLanzabooteInput, .error _, t => s.persisted = .notStarted → t.input = false
  | _, _, _ => True

/-- A call that has not looked at the phase yet. -/
def Waiting (p : Call EnrollmentState) : Prop := ∃ o, p = Op.body o

/-- A call passes its phase check only while no other one is between its check and its end. The
steps are reliable, and the engine does not stop midway. -/
def Careful (w : Sys) : Event → Sys → Prop
  | .spawn _ _, _ => True
  | .call i c r, w' => Reliable w.shared c r w'.shared ∧ ((∃ o, w.procs i = some (Op.body o)) →
      (∃ a, w'.procs i = some (.done a)) ∨ w.OthersRest Waiting i)
  | .restart _, _ => ∀ i c next, w.procs i = some (.call c next) → ¬ Midway w.shared.persisted c

def CarefulStep (w : Sys) (e : Event) (w' : Sys) : Prop := Careful w e w' ∧ Step w e w'

/-! ## The calls, one by one -/

/-- The phase is read in a settled state only, and a call can be stopped before any step that is
not midway. -/
def reliable : Contract Cmd Cmd.Answer World where
  pre c s := (c = .readPhase → s.Settled) ∧ (¬ Midway s.persisted c → s.Coherent)
  post c s r t := s.Post c r t ∧ Reliable s c r t

/-- The call leads to a settled state. -/
abbrev Settles (p : Call EnrollmentState) (s : World) : Prop :=
  p.wp reliable (fun _ => World.Settled) s

section Calls

variable {s : World} {c : Cmd} {st : EnrollmentState} (actor : String)

/-- Without a staged phase on disk, every step that is midway from the start may come next. -/
theorem pre_of_unstaged (hs : ¬ s.persisted.Staged) (hc : Midway .notStarted c) :
    reliable.pre c s := by
  refine ⟨by rintro rfl; exact hc.elim, fun hmid => ?_⟩
  refine fits_of_unstaged hs fun hphase => absurd ?_ hmid
  rwa [hphase]

theorem World.Settled.pre (h : s.Settled) : reliable.pre c s :=
  ⟨fun _ => h, fun _ => h.coherent⟩

theorem settled_of_save {r : Except String Unit} {t : World}
    (h : reliable.post (.saveState st) s r t) (hmemory : s.memory.phase = st.phase)
    (hst : s.Fits st.phase) : t.Settled := by
  obtain ⟨hpost, hrel⟩ := h
  cases r with
  | ok _ =>
    obtain rfl := hpost
    exact ⟨hmemory, hst.staged, hst.fresh, hst.enrolled⟩
  | error e =>
    have hphase : t.persisted = st.phase := hrel
    rw [← hphase] at hmemory hst
    rcases hpost with rfl | rfl <;> exact ⟨hmemory, hst.staged, hst.fresh, hst.enrolled⟩

theorem commit_wp (hst : s.Fits st.phase) (hset : reliable.pre (.setState st) s)
    (hsave : reliable.pre (.saveState st) s) : Settles (commit st) s := by
  refine ⟨hset, ?_⟩
  rintro _ _ ⟨rfl, -⟩
  refine ⟨⟨nofun, fun hmid => (hsave.2 hmid).setMemory st⟩, fun r t h => ?_⟩
  have ht : t.Settled := settled_of_save h rfl (hst.setMemory st)
  cases r with
  | ok _ | error e => exact ht

theorem rollback_wp {e : EnrollmentError} (hsaved : s.memory.phase = s.persisted)
    (hs : ¬ s.persisted.Staged) (hinput : s.persisted = .notStarted → s.input = false) :
    Settles (perform Cmd.removeOverlayFile >>= fun _ => fail e) s := by
  refine ⟨pre_of_unstaged hs trivial, ?_⟩
  rintro (_ | _) t ⟨hpost, hrel⟩
  · obtain rfl : t = s := hpost
    exact ⟨hsaved, fits_of_unstaged hs fun h => ⟨hrel h, hinput h⟩⟩
  · obtain rfl := hpost
    exact ⟨hsaved, fits_of_unstaged hs fun h => ⟨rfl, hinput h⟩⟩

theorem stage_wp (h : s.Settled) (hs : ¬ s.persisted.Staged) : Settles (stage actor) s := by
  refine ⟨h.pre, ?_⟩
  rintro (e | _) t ⟨hpost, hrel⟩
  · -- a failed write of the overlay
    rcases hpost with rfl | rfl
    · exact h
    · refine ⟨h.saved, fits_of_unstaged hs fun hp => ?_⟩
      exact ⟨(hrel hp).trans (h.coherent.fresh hp).1, (h.coherent.fresh hp).2⟩
  obtain rfl := hpost
  refine ⟨pre_of_unstaged hs trivial, ?_⟩
  rintro (e | _) t ⟨hpost, hrel⟩
  · obtain ⟨b, rfl⟩ := hpost
    exact rollback_wp h.saved hs fun hp => (hrel hp).trans (h.coherent.fresh hp).2
  obtain rfl := hpost
  refine ⟨pre_of_unstaged hs trivial, ?_⟩
  rintro (e | _) t ⟨hpost, -⟩
  · -- the lock fails: both files are taken back
    obtain rfl := hpost
    refine ⟨pre_of_unstaged hs trivial, ?_⟩
    rintro (e | _) t ⟨hpost, hrel⟩
    · obtain ⟨b, rfl⟩ := hpost
      exact rollback_wp h.saved hs hrel
    · obtain rfl := hpost
      exact rollback_wp h.saved hs fun _ => rfl
  obtain rfl := hpost
  refine ⟨pre_of_unstaged hs trivial, ?_⟩
  rintro _ _ ⟨rfl, -⟩
  refine ⟨pre_of_unstaged hs trivial, ?_⟩
  rintro now _ ⟨rfl, -⟩
  exact commit_wp ⟨fun _ => ⟨rfl, rfl⟩, nofun, fun h => h.elim⟩
    (pre_of_unstaged hs trivial) (pre_of_unstaged hs trivial)

theorem begin_wp (h : s.Settled) : Settles (begin actor) s := by
  refine ⟨h.pre, ?_⟩
  rintro phase _ ⟨⟨hphase, rfl⟩, -⟩
  rw [h.saved] at hphase
  cases phase with
  | notStarted | aborted => exact stage_wp actor h (by rw [← hphase]; exact id)
  | overlayWritten | postEnrollment | complete => exact h

/-- Every step of an abort after the overlay is gone is midway, unless nothing is staged. -/
theorem pre_of_unstaging (hs : s.persisted ≠ .notStarted ∧ ¬ s.persisted.Enrolled)
    (hc : ∀ n, Midway (.overlayWritten n) c) : reliable.pre c s := by
  refine ⟨by rintro rfl; exact (hc 0).elim, fun hmid => ?_⟩
  have hstaged : ¬ s.persisted.Staged := by
    intro hst
    cases hp : s.persisted with
    | overlayWritten n => exact hmid (by rw [hp]; exact hc n)
    | notStarted => exact hs.1 hp
    | postEnrollment | complete => exact hs.2 (by rw [hp]; trivial)
    | aborted => rw [hp] at hst; exact hst
  exact fits_of_unstaged hstaged fun hp => absurd hp hs.1

theorem unstage_wp (actor reason : String) (h : s.Settled)
    (hs : s.persisted ≠ .notStarted ∧ ¬ s.persisted.Enrolled) :
    Settles (unstage actor reason) s := by
  have haborted : ∀ (n : ℕ) (t : World), t.Fits (.aborted n reason) :=
    fun n t => fits_of_unstaged id nofun
  refine ⟨h.pre, ?_⟩
  rintro (e | _) t ⟨hpost, -⟩
  · obtain rfl : t = s := hpost
    exact h
  obtain rfl := hpost
  refine ⟨pre_of_unstaging hs fun _ => trivial, ?_⟩
  rintro r t ⟨hpost, -⟩
  -- a failed removal of the input is only logged
  obtain ⟨b, rfl⟩ : ∃ b, t = { s with overlay := false, input := b } := by
    cases r with
    | error e => exact hpost
    | ok _ => exact ⟨false, hpost⟩
  refine ⟨pre_of_unstaging hs fun _ => trivial, ?_⟩
  rintro now _ ⟨rfl, -⟩
  refine ⟨pre_of_unstaging hs fun _ => trivial, ?_⟩
  rintro marker _ ⟨⟨-, rfl⟩, -⟩
  exact commit_wp (haborted now _) (pre_of_unstaging hs fun _ => id)
    (pre_of_unstaging hs fun _ => id)

theorem abort_wp (actor reason : String) (h : s.Settled) : Settles (abort actor reason) s := by
  refine ⟨h.pre, ?_⟩
  rintro phase _ ⟨⟨hphase, rfl⟩, -⟩
  rw [h.saved] at hphase
  cases phase with
  | overlayWritten => exact unstage_wp actor reason h (by rw [← hphase]; exact ⟨nofun, id⟩)
  | aborted => exact unstage_wp actor reason h (by rw [← hphase]; exact ⟨nofun, id⟩)
  | notStarted | postEnrollment | complete => exact h

theorem complete_wp (h : s.Settled) : Settles (complete actor) s := by
  refine ⟨h.pre, ?_⟩
  rintro phase _ ⟨⟨hphase, rfl⟩, -⟩
  rw [h.saved] at hphase
  cases phase with
  | postEnrollment =>
    have hfits := h.coherent
    rw [World.Coherent, ← hphase] at hfits
    refine ⟨h.pre, ?_⟩
    rintro now _ ⟨rfl, -⟩
    refine ⟨h.pre, ?_⟩
    rintro marker _ ⟨⟨-, rfl⟩, -⟩
    exact commit_wp ⟨fun _ => hfits.staged trivial, nofun, fun _ => hfits.enrolled trivial⟩
      h.pre h.pre
  | notStarted | overlayWritten | complete | aborted => exact h

theorem recordRebuild_wp (h : s.Settled) : Settles recordRebuild s := by
  refine ⟨h.pre, ?_⟩
  rintro _ _ ⟨⟨now, rfl, rfl⟩, -⟩
  have hfits := h.coherent
  rw [World.Coherent, ← h.saved] at hfits
  refine ⟨⟨nofun, fun _ => h.coherent.setMemory _⟩, fun r t hsave => ?_⟩
  have ht : t.Settled := settled_of_save hsave rfl (hfits.setMemory _)
  cases r with
  | ok _ | error e => exact ht

theorem rebuild_wp (h : s.Settled) : Settles rebuild s := by
  refine ⟨h.pre, ?_⟩
  rintro phase _ ⟨⟨-, rfl⟩, -⟩
  cases phase with
  | overlayWritten =>
    refine ⟨h.pre, ?_⟩
    rintro _ _ ⟨rfl, -⟩
    refine ⟨h.pre, ?_⟩
    rintro _ _ ⟨rfl, -⟩
    refine ⟨h.pre, ?_⟩
    rintro output _ ⟨rfl, -⟩
    cases output with
    | started => exact recordRebuild_wp h
    | notSpawned | exited => exact h
  | notStarted | postEnrollment | complete | aborted => exact h

theorem body_wp (o : Op) (h : s.Settled) : Settles o.body s := by
  cases o with
  | begin actor => exact begin_wp actor h
  | abort actor reason => exact abort_wp actor reason h
  | complete actor => exact complete_wp actor h
  | rebuild => exact rebuild_wp h

theorem recordTransition_wp (h : s.Coherent) (hfiles : s.overlay ∧ s.input)
    (hfirmware : s.firmware) : Settles recordTransition s := by
  refine ⟨⟨nofun, fun _ => h⟩, ?_⟩
  rintro stale _ ⟨rfl, -⟩
  refine ⟨⟨nofun, fun _ => h⟩, ?_⟩
  rintro now _ ⟨rfl, -⟩
  refine ⟨⟨nofun, fun _ => h⟩, ?_⟩
  rintro actor _ ⟨⟨-, rfl⟩, -⟩
  refine ⟨⟨nofun, fun _ => h⟩, ?_⟩
  rintro marker _ ⟨⟨-, rfl⟩, -⟩
  refine ⟨⟨nofun, fun _ => h⟩, ?_⟩
  rintro _ _ ⟨rfl, -⟩
  refine ⟨⟨nofun, fun _ => h.setMemory _⟩, fun r t hsave => ?_⟩
  exact settled_of_save hsave rfl ⟨fun _ => hfiles, nofun, fun _ => hfirmware⟩

theorem maybeDetectTransition_wp (loaded : EnrollmentState) (h : s.Settled) :
    Settles (maybeDetectTransition loaded) s := by
  refine ⟨h.pre, ?_⟩
  rintro phase t ⟨⟨hphase, ht⟩, -⟩
  obtain rfl : s = t := ht.symm
  rw [h.saved] at hphase
  cases phase with
  | overlayWritten n =>
    have hstaged : s.persisted.Staged := by
      rw [← hphase]
      trivial
    refine ⟨h.pre, ?_⟩
    rintro enabled t ⟨⟨hfirmware, ht⟩, -⟩
    obtain rfl : s = t := ht.symm
    match enabled, hfirmware with
    | some true, hfirmware =>
      exact recordTransition_wp h.coherent (h.coherent.staged hstaged) (hfirmware rfl)
    | some false, _ | none, _ => exact h
  | notStarted | postEnrollment | complete | aborted => exact h

theorem new_wp (h : s.Coherent) : Settles new s := by
  refine ⟨⟨nofun, fun _ => h⟩, ?_⟩
  rintro loaded t ⟨⟨-, ht⟩, hloaded⟩
  obtain rfl : s = t := ht.symm
  obtain rfl : loaded = s.file := hloaded
  refine ⟨⟨nofun, fun _ => h⟩, ?_⟩
  rintro _ _ ⟨rfl, -⟩
  exact maybeDetectTransition_wp _ ⟨rfl, h.setMemory _⟩

end Calls

/-! ## Aborting -/

theorem unstage_undoes (actor reason : String) (s : World) :
    (unstage actor reason).wp ⟨fun _ _ => True, Smooth⟩
      (fun _ t => t.overlay = false ∧ t.input = false) s := by
  refine ⟨trivial, ?_⟩
  rintro _ _ ⟨hpost, rfl⟩
  obtain rfl := hpost
  refine ⟨trivial, ?_⟩
  rintro _ _ ⟨hpost, rfl⟩
  obtain rfl := hpost
  refine ⟨trivial, ?_⟩
  rintro now _ ⟨rfl, -⟩
  refine ⟨trivial, ?_⟩
  rintro marker _ ⟨⟨-, rfl⟩, -⟩
  refine ⟨trivial, ?_⟩
  rintro _ _ ⟨rfl, -⟩
  refine ⟨trivial, ?_⟩
  rintro _ _ ⟨hpost, rfl⟩
  obtain rfl := hpost
  exact ⟨rfl, rfl⟩

variable {s t : World} {w w' : Sys} {p : Call EnrollmentState}

/-- Every step succeeds, at the time 7. -/
def machine : (c : Cmd) → World → Option (c.Answer × World)
  | .readPhase, s => some (s.memory.phase, s)
  | .readRebuildTriggeredAt, s => some (s.memory.rebuildTriggeredAt, s)
  | .setState st, s => some ((), { s with memory := st })
  | .loadState, s => some (s.file, s)
  | .saveState st, s => some (.ok (), { s with file := some st })
  | .writeOverlayFile, s => some (.ok (), { s with overlay := true })
  | .removeOverlayFile, s => some (.ok (), { s with overlay := false })
  | .addLanzabooteInput, s => some (.ok (), { s with input := true })
  | .removeLanzabooteInput, s => some (.ok (), { s with input := false })
  | .runNixFlakeLock, s => some (.ok (), s)
  | .resetFailed, s => some ((), s)
  | .unixNow, s => some ((7 : ℕ), s)
  | _, _ => none

theorem machine_smooth : Sound Smooth (fun _ => True) machine := by
  intro c s r t _ h
  cases c <;> cases h <;> simp [Smooth, World.Post, Succeeds]

theorem machine_reliable : Sound reliable.post (fun _ => True) machine := by
  intro c s r t _ h
  cases c <;> cases h <;> simp [reliable, World.Post, Reliable]

theorem abort_undoes
    (h : ∃ n, s.memory.phase = .overlayWritten n ∨ ∃ reason, s.memory.phase = .aborted n reason)
    (actor reason : String) : s.Undone actor reason := by
  have hnext : ∀ r t, Exec Smooth (abort actor reason) s r t ↔
      Exec Smooth (unstage actor reason) s r t := by
    intro r t
    constructor
    · rintro (_ | ⟨⟨⟨rfl, rfl⟩, -⟩, hrest⟩)
      obtain ⟨n, hn | ⟨why, hn⟩⟩ := h <;> rwa [hn] at hrest
    · intro hrest
      refine .call (r := s.memory.phase) ⟨⟨rfl, rfl⟩, trivial⟩ ?_
      obtain ⟨n, hn | ⟨why, hn⟩⟩ := h <;> rwa [hn]
  have hexec := (machine_smooth.exec (p := unstage actor reason) (s := s) trivial rfl).1
  refine ⟨⟨_, _, (hnext _ _).2 hexec⟩, fun r t hrt => ?_⟩
  exact Exec.of_wp (I := ⟨fun _ _ => True, Smooth⟩) ((hnext r t).1 hrt)
    (unstage_undoes actor reason s)

theorem World.Settled.safe (h : s.Settled) : s.Safe := by
  have hfits := h.coherent
  rw [World.Coherent, ← h.saved] at hfits
  refine ⟨hfits.staged, h.saved, fun hfiles hfirmware actor reason => ?_⟩
  cases hp : s.memory.phase with
  | notStarted =>
    obtain ⟨hoverlay, hinput⟩ := hfits.fresh hp
    rw [hoverlay, hinput] at hfiles
    simp at hfiles
  | overlayWritten n => exact abort_undoes ⟨n, .inl hp⟩ actor reason
  | aborted n why => exact abort_undoes ⟨n, .inr ⟨why, hp⟩⟩ actor reason
  | postEnrollment | complete => exact absurd (hfits.enrolled (by rw [hp]; trivial)) hfirmware

/-! ## Every run -/

theorem waiting_start (p : Call EnrollmentState) (s : World) (hp : Waiting p) :
    s.Settled ↔ Settles p s := by
  obtain ⟨o, rfl⟩ := hp
  refine ⟨body_wp o, fun h => ?_⟩
  cases o <;> exact h.1.1 rfl

theorem boot_procs {j : ℕ} (hj : j ≠ 0) : (boot s).procs j = none := by
  change update (fun _ => none) 0 (some new) j = none
  rw [update_of_ne hj]

theorem boot_others (s : World) : (boot s).OthersRest Waiting 0 := by
  intro j q hj hq
  nomatch (boot_procs hj).symm.trans hq

theorem boot_alone (h : s.Coherent) : (boot s).Alone reliable World.Settled Waiting :=
  ⟨0, boot_others s, new_wp (h.setMemory default)⟩

theorem coherent_of_alone (h : w.Alone reliable World.Settled Waiting)
    (hmid : ∀ i c next, w.procs i = some (.call c next) → ¬ Midway w.shared.persisted c) :
    w.shared.Coherent := by
  obtain ⟨i, -, hwp⟩ := h
  cases hi : w.procs i with
  | none =>
    rw [hi] at hwp
    exact World.Settled.coherent hwp
  | some p =>
  rw [hi] at hwp
  cases p with
  | done r => exact World.Settled.coherent hwp
  | call c next => exact hwp.1.2 (hmid i c next hi)

theorem alone_step {e : Event} (h : w.Alone reliable World.Settled Waiting)
    (hstep : CarefulStep w e w') : w'.Alone reliable World.Settled Waiting := by
  obtain ⟨hcareful, hstep⟩ := hstep
  cases e with
  | spawn i o =>
    obtain ⟨hnone, -, hshared, hprocs⟩ := hstep
    exact h.spawn waiting_start ⟨o, rfl⟩ hnone hshared hprocs
  | call i c r =>
    obtain ⟨next, hcall, hpost, hprocs⟩ := hstep
    refine h.call waiting_start hcall ⟨hpost, hcareful.1⟩ hprocs ?_
    rintro ⟨o, ho⟩
    refine (hcareful.2 ⟨o, hcall.trans (congrArg some ho)⟩).imp_left fun ⟨a, ha⟩ => ⟨?_, a, ?_⟩
    · cases o <;> cases ho <;> exact hpost.2
    · rw [hprocs, Pool.put_self] at ha
      exact Option.some.inj ha
  | restart enrolled =>
    obtain rfl := hstep
    exact boot_alone ((coherent_of_alone h hcareful).power enrolled)

/-- **Enrollment.** Between undisturbed calls the phase, the state file and the two configuration
files agree. -/
theorem enrollment_safe {firmware : Bool} {es : List Event} {w : Sys}
    (h : Run CarefulStep (init firmware) es w) (hidle : w.Idle) : w.shared.Safe := by
  have hinit : (init firmware).Alone reliable World.Settled Waiting :=
    boot_alone (fits_of_unstaged id fun _ => ⟨rfl, rfl⟩)
  exact ((h.inv hinit fun _ _ _ => alone_step).of_idle hidle).safe

/-! ## Two runs -/

/-- Process `i` has ended in `t`; the others are as they were in `w`. -/
structure Ended (i : ℕ) (t : World) (w w' : Sys) : Prop where
  shared : w'.shared = t
  done : ∃ r, w'.procs i = some (.done r)
  others : ∀ j, j ≠ i → w'.procs j = w.procs j

theorem run_exec {r : Except EnrollmentError EnrollmentState} (h : Exec reliable.post p s r t)
    (i : ℕ) (w : Sys) (hs : w.shared = s) (hi : w.procs i = some p)
    (hrest : w.OthersRest Waiting i) : ∃ es w', Run CarefulStep w es w' ∧ Ended i t w w' := by
  induction h generalizing w with
  | done => exact ⟨[], w, .nil, hs, ⟨_, hi⟩, fun _ _ => rfl⟩
  | @call c next r s u a v hpost hrest ih =>
  obtain rfl := hs
  have hstep : CarefulStep w (.call i c r) ⟨u, w.put i (next r)⟩ :=
    ⟨⟨hpost.2, fun _ => .inr hrest⟩, next, hi, hpost.1, rfl⟩
  obtain ⟨es, w', hrun, hshared, hdone, hothers⟩ :=
    ih ⟨u, w.put i (next r)⟩ rfl (w.put_self i (next r)) (hrest.put rfl (.inl rfl))
  refine ⟨_, w', (Run.snoc .nil hstep).append hrun, hshared, hdone, fun j hj => ?_⟩
  rw [hothers j hj]
  exact w.put_of_ne (next r) hj

theorem run_new (s : World) (hfile : s.file = none) : ∃ es w, Run CarefulStep (boot s) es w ∧
    Ended 0 { s with memory := default } (boot s) w := by
  obtain ⟨memory, file, overlay, input, firmware⟩ := s
  cases hfile
  exact run_exec (machine_reliable.exec trivial rfl).1 0 (boot _) rfl rfl (boot_others _)

theorem Ended.ends {i j : ℕ} (h : Ended i t w w') (hj : w'.procs j = some p)
    (hothers : j ≠ i → w.procs j = some p → ∃ r, p = .done r) : ∃ r, p = .done r := by
  by_cases hji : j = i
  · obtain ⟨r, hr⟩ := h.done
    rw [hji, hr] at hj
    exact ⟨r, (Option.some.inj hj).symm⟩
  · exact hothers hji (h.others j hji ▸ hj)

theorem Ended.idle (h : Ended 0 t (boot s) w) : w.Idle := fun _ _ hi =>
  h.ends hi fun h0 hi => nomatch (boot_procs h0).symm.trans hi

theorem Ended.free (h : Ended 0 t (boot s) w) {j : ℕ} (hj : j ≠ 0) : w.procs j = none :=
  (h.others j hj).trans (boot_procs hj)

/-- The engine stops after `begin` has written the overlay: the next start is in the first phase,
and `abort` refuses. -/
theorem overlay_stranded : ∃ es w, Run Step (init false) es w ∧ w.Idle ∧
    w.shared.overlay = true ∧ w.shared.firmware = false ∧ ¬ w.shared.Safe := by
  obtain ⟨es, w, hrun, hnew⟩ := run_new ⟨default, none, false, false, false⟩ rfl
  obtain ⟨es', w', hrun', hnew'⟩ := run_new ⟨default, none, true, false, false⟩ rfl
  let begun : Sys := ⟨w.shared, w.put 1 (begin "admin")⟩
  have hspawn : Step w (.spawn 1 (.begin "admin")) begun :=
    ⟨hnew.free (by decide), hnew.done, rfl, rfl⟩
  let passed : Sys := ⟨w.shared, begun.put 1 (stage "admin")⟩
  have hread : Step begun (.call 1 .readPhase .notStarted) passed := by
    refine ⟨_, w.put_self 1 (begin "admin"), ⟨?_, rfl⟩, rfl⟩
    rw [hnew.shared]
    rfl
  obtain ⟨procs, hwrite⟩ : ∃ procs, Step passed (.call 1 .writeOverlayFile (.ok ()))
      ⟨{ w.shared with overlay := true }, procs⟩ :=
    ⟨_, _, begun.put_self 1 (stage "admin"), rfl, rfl⟩
  have hstop : Step ⟨{ w.shared with overlay := true }, procs⟩ (.restart false)
      (boot ⟨default, none, true, false, false⟩) := by
    rw [hnew.shared]
    rfl
  have hstranded := hrun.imp fun _ _ _ h => h.2
  refine ⟨_, w', ((((hstranded.snoc hspawn).snoc hread).snoc hwrite).snoc hstop).append
    (hrun'.imp fun _ _ _ h => h.2), hnew'.idle, ?_, ?_, fun hsafe => ?_⟩
  · rw [hnew'.shared]
  · rw [hnew'.shared]
  rw [hnew'.shared] at hsafe
  obtain ⟨-, hall⟩ := hsafe.undone (.inl rfl) Bool.false_ne_true "admin" ""
  -- the abort ends at its phase check
  have hrefused := hall (.error .pastPointOfNoReturn) _
    (.call (r := .notStarted) ⟨⟨rfl, rfl⟩, trivial⟩ .done)
  exact absurd hrefused.1 Bool.true_eq_false.mp

/-- Two calls overlap: the second looks at the phase when the first has ended, and is refused. -/
theorem enrollment_safe_begun : ∃ es w, Run CarefulStep (init false) es w ∧ w.Idle ∧
    w.shared.memory.phase = .overlayWritten 7 ∧ w.shared.Safe := by
  obtain ⟨es, w, hrun, hnew⟩ := run_new ⟨default, none, false, false, false⟩ rfl
  let first : Sys := ⟨w.shared, w.put 1 (begin "admin")⟩
  let both : Sys := ⟨w.shared, first.put 2 (begin "operator")⟩
  have hfirst : CarefulStep w (.spawn 1 (.begin "admin")) first :=
    ⟨trivial, hnew.free (by decide), hnew.done, rfl, rfl⟩
  have hboth : CarefulStep first (.spawn 2 (.begin "operator")) both :=
    ⟨trivial, hnew.free (j := 2) (by decide), hnew.done, rfl, rfl⟩
  have hrest : both.OthersRest Waiting 1 := by
    refine Pool.OthersRest.put (w := first) ?_ rfl (.inr (.inr ⟨.begin "operator", rfl⟩))
    exact .put (w := w) (fun j q _ hq => .inl (hnew.idle j q hq)) rfl (.inl rfl)
  have hexec := (machine_reliable.exec (p := begin "admin")
    (s := ⟨default, none, false, false, false⟩) trivial rfl).1
  obtain ⟨es', w', hrun', hended⟩ := run_exec hexec 1 both hnew.shared
    (w.put_self 1 (begin "admin")) hrest
  have hdone : ∀ j q, j ≠ 2 → w'.procs j = some q → ∃ r, q = .done r := by
    refine fun j q h2 hq => hended.ends hq fun h1 hq => hnew.idle j q ?_
    rwa [show both.procs j = w.procs j from (first.put_of_ne _ h2).trans (w.put_of_ne _ h1)] at hq
  have hrefused : Exec reliable.post (begin "operator") w'.shared (.error .alreadyInProgress)
      w'.shared := by
    rw [hended.shared]
    exact (machine_reliable.exec trivial rfl).1
  obtain ⟨es'', w'', hrun'', hended'⟩ := run_exec hrefused 2 w' rfl
    ((hended.others 2 (by decide)).trans (first.put_self 2 _))
    fun j q hj hq => .inl (hdone j q hj hq)
  have hall := ((Run.snoc (.snoc hrun hfirst) hboth).append hrun').append hrun''
  have hidle : w''.Idle := fun j q hq => hended'.ends hq (hdone j q)
  exact ⟨_, w'', hall, hidle, by rw [hended'.shared, hended.shared], enrollment_safe hall hidle⟩

end Nasty.System.SecureBoot
