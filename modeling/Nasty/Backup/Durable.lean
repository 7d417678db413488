import Nasty.Backup.Service

/-!
# Profiles in memory and on disk

After a start that could load the state file, memory holds the list of the file after every
operation, wherever in its save an error was met: an error before the rename leaves both, one
after it leaves both changed. After a start that could not load the file, memory is empty and the
service read-only; a file that could not be read or parsed is never replaced.
-/

namespace Nasty.Backup.Service

open Cron Lts

variable {τ : Type} [LinearOrder τ] {env : Env τ} {json : Json} {w w' : World} {e : Event τ}
  {es : List (Event τ)}

def Agrees (json : Json) (w : World) : Prop :=
  w.stateLoadError = none → loadProfilesFrom json none w.disk = .ok w.profiles

theorem agrees_new (json : Json) (faults : Faults) (disk : Disk) :
    Agrees json (.new json faults disk) := by
  intro hhealthy
  obtain ⟨hcontent, ⟨hload, -⟩ | ⟨-, herror⟩⟩ := World.new_spec json faults disk
  · rw [loadProfilesFrom_congr hcontent, hload]
  · exact absurd hhealthy herror

omit [LinearOrder τ] in
theorem Agrees.effect (h : Agrees json w) (heffect : Effect json w e w') : Agrees json w' := by
  cases heffect with
  | kept hprofiles herror hcontent =>
    intro hhealthy
    rw [loadProfilesFrom_congr hcontent, hprofiles]
    exact h (herror ▸ hhealthy)
  | replaced _ _ _ htext hprofiles _ hcontent =>
    intro _
    rw [hprofiles]
    exact load_encoded htext hcontent
  | restarted _ hnew => exact hnew ▸ agrees_new json _ w.disk

/-- Only an operation of a healthy service that could load the file replaces it. -/
theorem loaded_of_content_ne (hstep : Step env json w e w')
    (hne : w'.disk.content ≠ w.disk.content) :
    w.stateLoadError = none ∧ ∃ ps, loadProfilesFrom json e.faults.read w.disk = .ok ps := by
  cases effect_of_step hstep with
  | kept _ _ hcontent => exact absurd hcontent hne
  | replaced _ hhealthy hstored => exact ⟨hhealthy, _, hstored⟩
  | restarted _ hnew =>
    subst hnew
    exact absurd (World.new_spec json _ w.disk).1 hne

theorem stateLoadError_step (hstep : Step env json w e w') (he : ∀ faults, e ≠ .restart faults) :
    w'.stateLoadError = w.stateLoadError := by
  cases effect_of_step hstep with
  | kept _ herror => exact herror
  | replaced _ hhealthy _ _ _ herror => rw [hhealthy, herror]
  | restarted hevent => exact absurd hevent (he _)

theorem content_kept_of_unparsed {error : BackupError}
    (herror : loadProfilesFrom json none w.disk = .error error)
    (hrun : Run (Step env json) w es w') : w'.disk.content = w.disk.content := by
  refine hrun.inv (I := fun t => t.disk.content = w.disk.content) rfl fun t e u ht hstep => ?_
  by_contra hne
  obtain ⟨-, ps, hps⟩ := loaded_of_content_ne hstep (ht ▸ hne)
  have hload := (loadProfilesFrom_readable hps).2
  rw [loadProfilesFrom_congr ht, herror] at hload
  nomatch hload

theorem content_kept_of_unhealthy (herror : w.stateLoadError ≠ none)
    (hrun : Run (Step env json) w es w') (hes : ∀ faults, .restart faults ∉ es) :
    w'.disk.content = w.disk.content := by
  -- The service stays read-only as long as no restart has occurred.
  have hinv := hrun.history_inv
    (I := fun es t => (∀ faults, Event.restart faults ∉ es) →
      t.disk.content = w.disk.content ∧ t.stateLoadError ≠ none)
    (fun _ => ⟨rfl, herror⟩) fun es t e u ih hstep hes => by
      obtain ⟨hcontent, hunhealthy⟩ := ih fun faults hmem =>
        hes faults (List.mem_append_left _ hmem)
      have he : ∀ faults, e ≠ .restart faults := fun faults heq =>
        hes faults (List.mem_append_right _ (List.mem_singleton.2 heq.symm))
      refine ⟨?_, stateLoadError_step hstep he ▸ hunhealthy⟩
      by_contra hne
      exact hunhealthy (loaded_of_content_ne hstep (hcontent ▸ hne)).1
  exact (hinv hes).1

/-- **Memory and file.** After a start that loaded the file the two agree, and a file that cannot be
read is never replaced. -/
theorem profiles_durable (env : Env τ) (json : Json) :
    (∀ (faults : Faults) (disk : Disk) (es : List (Event τ)) (w : World),
      Run (Step env json) (.new json faults disk) es w → w.stateLoadError = none →
      loadProfilesFrom json none w.disk = .ok w.profiles) ∧
    ∀ (w : World) (es : List (Event τ)) (w' : World), Run (Step env json) w es w' →
      (w.stateLoadError ≠ none ∧ (∀ faults, .restart faults ∉ es) ∨
        (∀ e ∈ es, e.faults.read ≠ none) ∨
        ∃ error, loadProfilesFrom json none w.disk = .error error) →
      w'.disk.content = w.disk.content := by
  refine ⟨fun faults disk es w hrun => ?_, fun w es w' hrun hdamaged => ?_⟩
  · exact hrun.inv (agrees_new json faults disk) fun _ _ _ h hstep =>
      h.effect (effect_of_step hstep)
  rcases hdamaged with ⟨herror, hes⟩ | hread | ⟨error, herror⟩
  · exact content_kept_of_unhealthy herror hrun hes
  · refine hrun.history_inv (I := fun es t => (∀ e ∈ es, e.faults.read ≠ none) →
      t.disk.content = w.disk.content) (fun _ => rfl) (fun es t e u ih hstep hes => ?_) hread
    have hcontent := ih fun e he => hes e (List.mem_append_left _ he)
    by_contra hne
    obtain ⟨-, ps, hps⟩ := loaded_of_content_ne hstep (hcontent ▸ hne)
    exact hes e (List.mem_append_right _ (List.mem_singleton_self e))
      (loadProfilesFrom_readable hps).1
  · exact content_kept_of_unparsed herror hrun

/-! ## A file that could not be read at startup -/

def unread : World := .new renameJson { read := some "Input/output error" } twoProfiles.disk

theorem profiles_durable_two :
    loadProfilesFrom renameJson none twoProfiles.disk = .ok twoProfiles.profiles ∧
      (unread.next localEnv renameJson (.create offline "" nightly)).disk.content =
        unread.disk.content := by
  have hall := profiles_durable localEnv renameJson
  refine ⟨hall.1 {} ⟨none, false⟩ _ twoProfiles (Run.of_foldl _ _) (by decide +kernel), ?_⟩
  refine hall.2 unread _ _ (Run.of_foldl unread [Event.create offline "" nightly])
    (.inl ⟨nofun, ?_⟩)
  simp

/-- The failed start shows no profiles though the file holds two, and an operation then fails and
leaves both as they are. -/
theorem unread_memory_differs :
    (createProfile localEnv renameJson offline "" nightly unread).1.isOk = false ∧
      (createProfile localEnv renameJson offline "" nightly unread).2.profiles = [] ∧
      loadProfilesFrom renameJson none
        (createProfile localEnv renameJson offline "" nightly unread).2.disk =
          .ok [nightly, weekly] := by
  refine ⟨by decide +kernel, by decide +kernel, by decide +kernel⟩

end Nasty.Backup.Service
