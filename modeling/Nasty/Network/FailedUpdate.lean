import Nasty.Network.Transaction

/-!
# Failed updates

An update that is rejected by the validator, or whose apply fails, returns an error. Whether it
leaves anything behind depends on the rollback window: with one, the snapshot file is written
before the configuration is persisted and no failure removes it, so every later update is
refused until the engine restarts. Without a window a failed apply still leaves the new
configuration persisted.
-/

namespace Nasty.Network

open Lts Except

/-- The two failures: the validator refuses the configuration, or the apply fails. -/
def UpdateError.rejectedOrApply : UpdateError → Bool
  | .rejected _ => true
  | .apply _ => true
  | _ => false

/-- No snapshot, no transaction, the old configuration, and a later update is not refused. -/
structure Undone (s t : State) : Prop where
  pendingRevert : t.pendingRevert = .absent
  transactions : t.transactions = ∅
  config : loadConfig t = loadConfig s
  recovery : ∀ request mgmtIface env, (update t request mgmtIface env).1 ≠ .error .requiresRecovery

def resolvedIn (s : State) (request : UpdateRequest) (env : UpdateEnv) : NetworkConfig :=
  resolved request.config (loadConfig s) env.live env.liveIfaces

def windowIn (s : State) (request : UpdateRequest) (mgmtIface : Option String) (env : UpdateEnv) :
    Option UInt64 :=
  rollbackSecs request.confirmWithinSecs
    (classifyRisk (loadConfig s) (resolvedIn s request env) mgmtIface)

def Accepted (config : NetworkConfig) : Prop :=
  Layered.validate (Layered.toLayered config) = .ok ()

instance (config : NetworkConfig) : Decidable (Accepted config) :=
  inferInstanceAs (Decidable (_ = _))

section

variable {s t : State} {config : NetworkConfig} {env : UpdateEnv} {err : UpdateError}

theorem persistAndApply_failed (h : persistAndApply env config s = (.error err, t))
    (herr : err.rejectedOrApply = true) :
    (Accepted config ∧ t = { s with config := .value config }) ∨ ¬ Accepted config ∧ t = s := by
  unfold persistAndApply persistConfig at h
  unfold Accepted
  rcases hv : Layered.validate (Layered.toLayered config) with e | _ <;> rw [hv] at h
  · cases h
    exact .inr ⟨nofun, rfl⟩
  rcases hw : env.configWrite with _ | e <;> rw [hw] at h
  · obtain ⟨-, rfl⟩ := Prod.mk.inj h
    exact .inl ⟨rfl, rfl⟩
  · -- a failed write is neither of the two
    obtain ⟨he, -⟩ := Prod.mk.inj h
    rw [← error.inj he] at herr
    cases herr

/-- The snapshot file as an update with this window leaves it on failure. -/
def snapshotAfter (s : State) (window : Option UInt64) : Stored NetworkConfig :=
  if window.isSome then .value (loadConfig s) else s.pendingRevert

theorem commitUpdate_failed {window : Option UInt64} {riskReason : Option String}
    (h : commitUpdate s config window riskReason env = (.error err, t))
    (herr : err.rejectedOrApply = true) :
    (Accepted config ∧
        t = { s with config := .value config, pendingRevert := snapshotAfter s window }) ∨
      ¬ Accepted config ∧ t = { s with pendingRevert := snapshotAfter s window } := by
  unfold commitUpdate at h
  rcases window with _ | secs
  · rcases hp : persistAndApply env config s with ⟨e | _, s'⟩ <;> rw [hp] at h
    · obtain ⟨he, rfl⟩ := Prod.mk.inj h
      exact persistAndApply_failed (error.inj he ▸ hp) herr
    · cases (Prod.mk.inj h).1
  rcases hw : env.snapshotWrite with _ | e <;> rw [hw] at h
  · rcases hp : persistAndApply env config { s with pendingRevert := .value (loadConfig s) }
      with ⟨e | _, s'⟩ <;> rw [hp] at h
    · obtain ⟨he, rfl⟩ := Prod.mk.inj h
      exact persistAndApply_failed (error.inj he ▸ hp) herr
    · cases (Prod.mk.inj h).1
  · rw [← error.inj (Prod.mk.inj h).1] at herr
    cases herr

theorem update_failed {request : UpdateRequest} {mgmtIface : Option String}
    (h : update s request mgmtIface env = (.error err, t)) (herr : err.rejectedOrApply = true) :
    (Accepted (resolvedIn s request env) ∧ t = { s with
        config := .value (resolvedIn s request env)
        pendingRevert := snapshotAfter s (windowIn s request mgmtIface env) }) ∨
      ¬ Accepted (resolvedIn s request env) ∧
        t = { s with pendingRevert := snapshotAfter s (windowIn s request mgmtIface env) } := by
  unfold update at h
  rcases hk : s.transactions.keys.head? with _ | id <;> rw [hk] at h
  · simp only at h
    split_ifs at h with hf
    · rw [← error.inj (Prod.mk.inj h).1] at herr
      cases herr
    rcases hc : checkUpdate request.config (loadConfig s) mgmtIface env.live env.liveIfaces
      with e | _ <;> rw [hc] at h
    · rw [← error.inj (Prod.mk.inj h).1] at herr
      cases herr
    · exact commitUpdate_failed h herr
  · rw [← error.inj (Prod.mk.inj h).1] at herr
    cases herr

theorem applyWithVfSettle_ne (env : UpdateEnv) (config : NetworkConfig) :
    applyWithVfSettle env config ≠ .error .requiresRecovery := by
  unfold applyWithVfSettle
  rcases env.apply with e | outcome
  · nofun
  simp only
  split_ifs
  · rcases env.reapply with e | outcome' <;> nofun
  · nofun

theorem persistAndApply_ne (env : UpdateEnv) (config : NetworkConfig) (s : State) :
    (persistAndApply env config s).1 ≠ .error .requiresRecovery := by
  unfold persistAndApply persistConfig
  rcases Layered.validate (Layered.toLayered config) with e | _
  · nofun
  · rcases env.configWrite with _ | e
    · exact applyWithVfSettle_ne env config
    · nofun

theorem commitUpdate_ne (s : State) (config : NetworkConfig) (window : Option UInt64)
    (riskReason : Option String) (env : UpdateEnv) :
    (commitUpdate s config window riskReason env).1 ≠ .error .requiresRecovery := by
  unfold commitUpdate
  rcases window with _ | secs
  · have hne := persistAndApply_ne env config s
    rcases hp : persistAndApply env config s with ⟨e | _, s'⟩ <;> rw [hp] at hne
    · exact fun heq => hne (congrArg error (error.inj heq))
    · nofun
  rcases env.snapshotWrite with _ | e
  · have hne := persistAndApply_ne env config { s with pendingRevert := .value (loadConfig s) }
    rcases hp : persistAndApply env config { s with pendingRevert := .value (loadConfig s) }
      with ⟨e | _, s'⟩ <;> rw [hp] at hne
    · exact fun heq => hne (congrArg error (error.inj heq))
    · nofun
  · nofun

theorem update_ne_requiresRecovery (h : t.pendingRevert = .absent) (request : UpdateRequest)
    (mgmtIface : Option String) (env : UpdateEnv) :
    (update t request mgmtIface env).1 ≠ .error .requiresRecovery := by
  unfold update
  rcases t.transactions.keys.head? with _ | id
  · simp only
    rw [if_neg (not_not.2 h)]
    rcases checkUpdate request.config (loadConfig t) mgmtIface env.live env.liveIfaces with e | _
    · nofun
    · exact commitUpdate_ne t _ _ _ env
  · nofun

/-- **Failed updates.** They are undone exactly if there was no window and nothing new was
persisted. -/
theorem failed_update_undone_iff {request : UpdateRequest} {mgmtIface : Option String}
    (htable : s.transactions = ∅) (hfile : s.pendingRevert = .absent)
    (h : update s request mgmtIface env = (.error err, t)) (herr : err.rejectedOrApply = true) :
    Undone s t ↔ windowIn s request mgmtIface env = none ∧
      (¬ Accepted (resolvedIn s request env) ∨ resolvedIn s request env = loadConfig s) := by
  have hsnapshot : snapshotAfter s (windowIn s request mgmtIface env) = .absent ↔
      windowIn s request mgmtIface env = none := by
    unfold snapshotAfter
    rcases windowIn s request mgmtIface env with _ | secs <;> simp [hfile]
  have hconfig : t.transactions = ∅ ∧
      t.pendingRevert = snapshotAfter s (windowIn s request mgmtIface env) ∧
      (loadConfig t = loadConfig s ↔
        ¬ Accepted (resolvedIn s request env) ∨ resolvedIn s request env = loadConfig s) := by
    obtain ⟨hacc, rfl⟩ | ⟨hacc, rfl⟩ := update_failed h herr
    · exact ⟨htable, rfl, by simp [hacc, loadConfig, Stored.load]⟩
    · exact ⟨htable, rfl, by simp [hacc, loadConfig]⟩
  obtain ⟨htable', hfile', hload⟩ := hconfig
  rw [← hsnapshot, ← hload, ← hfile']
  constructor
  · exact fun hu => ⟨hu.pendingRevert, hu.config⟩
  · exact fun ⟨hp, hc⟩ => ⟨hp, htable', hc, update_ne_requiresRecovery hp⟩

end

def blank : State := ⟨.absent, .absent, ∅, [], 0⟩

def twins : NetworkConfig := { interfaces := [{ name := "eth0" }, { name := "eth0" }] }

theorem failed_update_undone_blank : Undone blank (update blank { config := twins } none {}).2 := by
  have hrejected : update blank { config := twins } none {} =
      (.error (.rejected "duplicate link name 'eth0'"),
        (update blank { config := twins } none {}).2) := Prod.ext (by decide) rfl
  exact (failed_update_undone_iff rfl rfl hrejected rfl).2 ⟨by decide, .inl (by decide)⟩

/-- With a window a refused update leaves a snapshot, and a failed apply its configuration too. -/
theorem failed_update_leaves_snapshot :
    Reachable Step Fresh blank ∧ blank.transactions = ∅ ∧ blank.pendingRevert = .absent ∧
      (update blank { config := twins, confirmWithinSecs := some 30 } none {}).1 =
        .error (.rejected "duplicate link name 'eth0'") ∧
      (update blank { config := twins, confirmWithinSecs := some 30 } none {}).2.pendingRevert ≠
        .absent ∧
      (update (update blank { config := twins, confirmWithinSecs := some 30 } none {}).2
        { config := {} } none {}).1 = .error .requiresRecovery ∧
      loadConfig (update blank { config := { dns := ["10.0.0.1"] } } none
        { apply := .error "connect to NetworkManager: timeout" }).2 ≠ loadConfig blank :=
  ⟨.init ⟨rfl, rfl, rfl⟩, rfl, rfl, by decide⟩

end Nasty.Network
