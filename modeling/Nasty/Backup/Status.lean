import Nasty.Backup.Jobs

/-!
# The status of backup runs

`BackupService` has one running marker for all profiles. A run writes its profile into it when it
begins and clears it when it ends, whoever is named there then; the monitor of a dead run clears
it only if it names the run's own profile. So long as no run ends while another is in progress,
the marker names the run begun last (`Marked`), and the status is right. A run that ends beside
another leaves the marker empty.
-/

namespace Nasty.Backup.Jobs

open Lts List Function Option

structure BackupStatus where
  running : Bool
  profileId : Option String
  progress : Option String

def World.status (w : World) : BackupStatus :=
  { running := w.running.isSome, profileId := w.running, progress := none }

def World.profileOf (w : World) (id : String) : Option String := (w.tasks id).map (·.profileId)

/-- The status reports a run whenever one is in progress, and only a profile whose run is. -/
structure StatusRight (w : World) : Prop where
  running : w.runs ≠ [] → w.status.running
  profileId : ∀ p, w.status.profileId = some p → ∃ id ∈ w.runs, w.profileOf id = some p

/-- No run ends while another is in progress, unless it is recovered and not the last begun. -/
def EndsAlone (w : World) : Event → Prop
  | .endRun id => ∀ id' ∈ w.runs, id' = id
  | .recover id _ => w.runs.head? = some id → ∀ id' ∈ w.runs, id' = id
  | _ => True

/-! ## Runs in progress -/

variable {chrono : Chrono} {w w' : World} {e : Event} {id id₀ : String} {runs : List String}

def InRun (w : World) (id : String) : Prop :=
  ∃ task job, w.tasks id = some task ∧ (task.phase = .backingUp ∨ task.phase = .ended) ∧
    w.registry.lookup id = some job ∧ task.profileId = job.profileId ∧ ¬ job.state.isTerminal

theorem InRun.ne (h : InRun w id) {task : Task} (htask : w.tasks id₀ = some task)
    (hphase : task.phase ≠ .backingUp ∧ task.phase ≠ .ended) : id ≠ id₀ := by
  rintro rfl
  obtain ⟨task', -, htask', hin, -⟩ := h
  rw [htask] at htask'
  cases htask'
  exact hin.elim hphase.1 hphase.2

theorem InRun.other (h : InRun w id) (hne : id ≠ id₀) {task : Option Task}
    (htasks : w'.tasks = update w.tasks id₀ task)
    (hlookup : w'.registry.lookup id = w.registry.lookup id) : InRun w' id := by
  obtain ⟨task', job, htask, hrest⟩ := h
  refine ⟨task', job, ?_, ?_⟩
  · rw [htasks, update_of_ne hne, htask]
  · rw [hlookup]
    exact hrest

theorem InRun.request (h : InRun w id) (he : Effect w e w') (hactor : e.actor = none) :
    InRun w' id := by
  obtain ⟨task, job, htask, hphase, hjob, hprofile, hactive⟩ := h
  cases he with
  | @queued _ _ id₀ _ _ _ _ hfresh hswept _ _ _ hregistry htasks =>
    have hne : id ≠ id₀ := by
      rintro rfl
      rw [hfresh] at htask
      nomatch htask
    refine ⟨task, job, ?_, hphase, ?_, hprofile, hactive⟩
    · rw [htasks, update_of_ne hne, htask]
    · rw [hregistry, AList.lookup_insert_ne hne, hswept.active hjob hactive]
  | swept _ hswept htasks =>
    exact ⟨task, job, by rw [htasks, htask], hphase, hswept.active hjob hactive, hprofile, hactive⟩
  | moved hactor' => rw [hactor] at hactor'; nomatch hactor'

theorem InRun.step (h : InRun w id) (hstep : Step chrono w e w') (hend : e ≠ .endRun id)
    (hrecover : ∀ now, e ≠ .recover id now) : InRun w' id := by
  cases e with
  | start | get | list => exact h.request (effect_of_step hstep) rfl
  | markRunning id₀ now | markProgress id₀ fraction =>
    obtain ⟨task, htask, hready, rfl⟩ := turn_eq_some hstep
    have hne := h.ne htask (by simp_all)
    exact h.other hne rfl (AList.lookup_modify_ne hne)
  | beginRun id₀ =>
    obtain ⟨task, htask, hready, rfl⟩ := turn_eq_some hstep
    exact h.other (h.ne htask (by simp_all)) rfl rfl
  | endRun id₀ =>
    obtain ⟨task, htask, hready, rfl⟩ := turn_eq_some hstep
    exact h.other (fun heq => hend (heq ▸ rfl)) rfl rfl
  | markSucceeded id₀ result now | markFailed id₀ error now =>
    obtain ⟨task, htask, hready, rfl⟩ := turn_eq_some hstep
    have hne := h.ne htask (by rcases of_decide_eq_true hready with h | h <;> simp [h])
    exact h.other hne rfl (AList.lookup_modify_ne hne)
  | workerEnds id₀ =>
    obtain ⟨task, htask, -, rfl⟩ := turn_eq_some hstep
    by_cases hne : id = id₀
    · subst hne
      obtain ⟨task', job, htask', -, hrest⟩ := h
      rw [htask] at htask'
      cases htask'
      exact ⟨_, job, update_self .., .inr rfl, hrest⟩
    · exact h.other hne rfl rfl
  | recover id₀ now =>
    obtain ⟨task, htask, hready, rfl⟩ := turn_eq_some hstep
    have hne : id ≠ id₀ := fun heq => hrecover now (heq ▸ rfl)
    exact h.other hne rfl (lookup_recoverAbandoned_ne hne)

inductive RunEffect (chrono : Chrono) (w : World) : Event → World → Prop
  | begun {w' : World} {id : String} {task : Task} (htask : w.tasks id = some task)
      (hphase : task.phase = .started) (hruns : w'.runs = id :: w.runs)
      (hrunning : w'.running = some task.profileId) : RunEffect chrono w (.beginRun id) w'
  | ended {w' : World} {id : String} (hruns : w'.runs = w.runs.erase id)
      (hrunning : w'.running = none) : RunEffect chrono w (.endRun id) w'
  | recovered {w' : World} {id : String} {now : ℤ} (hruns : w'.runs = w.runs.erase id)
      (hrunning : w'.running = (recoverAbandoned chrono now w.registry id w.running).2.2) :
      RunEffect chrono w (.recover id now) w'
  | kept {w' : World} {e : Event} (hother : ∀ id now, e ≠ .endRun id ∧ e ≠ .recover id now)
      (hruns : w'.runs = w.runs) (hrunning : w'.running = w.running) : RunEffect chrono w e w'

theorem runEffect_of_step (hstep : Step chrono w e w') : RunEffect chrono w e w' := by
  cases e with
  | start profileId kind id now =>
    change w.spawn chrono profileId kind id now = some w' at hstep
    unfold World.spawn at hstep
    split at hstep
    · cases hstep
      exact .kept (fun _ _ => ⟨nofun, nofun⟩) rfl rfl
    split at hstep
    · cases hstep
      exact .kept (fun _ _ => ⟨nofun, nofun⟩) rfl rfl
    · nomatch hstep
  | get | list =>
    cases hstep
    exact .kept (fun _ _ => ⟨nofun, nofun⟩) rfl rfl
  | markRunning | markProgress | markSucceeded | markFailed | workerEnds =>
    obtain ⟨task, -, -, rfl⟩ := turn_eq_some hstep
    exact .kept (fun _ _ => ⟨nofun, nofun⟩) rfl rfl
  | beginRun id =>
    obtain ⟨task, htask, hready, rfl⟩ := turn_eq_some hstep
    exact .begun htask (of_decide_eq_true hready).1 rfl rfl
  | endRun id =>
    obtain ⟨task, -, -, rfl⟩ := turn_eq_some hstep
    exact .ended rfl rfl
  | recover id now =>
    obtain ⟨task, -, -, rfl⟩ := turn_eq_some hstep
    exact .recovered rfl rfl

theorem Effect.profileOf (he : Effect w e w') {p : String} (h : w.profileOf id = some p) :
    w'.profileOf id = some p := by
  obtain ⟨task, htask, rfl⟩ := map_eq_some_iff.1 h
  cases he with
  | @queued _ _ id₀ _ _ _ _ hfresh _ _ _ _ _ htasks =>
    have hne : id ≠ id₀ := by
      rintro rfl
      rw [hfresh] at htask
      nomatch htask
    rw [World.profileOf, htasks, update_of_ne hne, htask, map_some]
  | swept _ _ htasks => rw [World.profileOf, htasks, htask, map_some]
  | @moved _ _ id₀ task₀ _ _ _ htask₀ _ _ _ htasks =>
  rw [World.profileOf, htasks]
  by_cases hne : id = id₀
  · subst hne
    rw [htask] at htask₀
    cases htask₀
    rw [update_self, map_some]
  · rw [update_of_ne hne, htask, map_some]

/-! ## The marker -/

structure RunInv (w : World) : Prop extends Inv w where
  nodup : w.runs.Nodup
  inRun : ∀ id ∈ w.runs, InRun w id

def Marked (w : World) : Prop := w.running = w.runs.head?.bind w.profileOf

theorem runInv_init : RunInv .init where
  toInv := inv_init
  nodup := nodup_nil
  inRun := nofun

theorem RunInv.step (h : RunInv w) (hstep : Step chrono w e w') : RunInv w' := by
  have hinv := h.toInv.step hstep
  have hkept : ∀ id ∈ w.runs, e ≠ .endRun id → (∀ now, e ≠ .recover id now) → InRun w' id :=
    fun id hid => (h.inRun id hid).step hstep
  cases runEffect_of_step hstep with
  | @begun _ id task htask hphase hruns =>
    have hnot : id ∉ w.runs := fun hid =>
      (h.inRun id hid).ne htask ⟨by rw [hphase]; nofun, by rw [hphase]; nofun⟩ rfl
    refine ⟨hinv, ?_, ?_⟩ <;> rw [hruns]
    · exact nodup_cons.2 ⟨hnot, h.nodup⟩
    intro id' hid'
    rcases mem_cons.1 hid' with rfl | hid'
    · obtain ⟨task', htask', hready, rfl⟩ := turn_eq_some hstep
      rw [htask] at htask'
      cases htask'
      obtain ⟨job, hjob, hrest⟩ := h.entry_of_live htask (by rw [hphase]; rfl)
      exact ⟨_, job, update_self .., .inl rfl, hjob, hrest⟩
    · exact hkept id' hid' nofun nofun
  | @ended _ id hruns =>
    refine ⟨hinv, hruns ▸ h.nodup.erase id, fun id' hid' => ?_⟩
    obtain ⟨hne, hid'⟩ := (h.nodup.mem_erase_iff).1 (hruns ▸ hid')
    exact hkept id' hid' (fun heq => hne (by injection heq with heq; exact heq.symm)) nofun
  | @recovered _ id now hruns =>
    refine ⟨hinv, hruns ▸ h.nodup.erase id, fun id' hid' => ?_⟩
    obtain ⟨hne, hid'⟩ := (h.nodup.mem_erase_iff).1 (hruns ▸ hid')
    exact hkept id' hid' nofun (fun now heq => hne (by injection heq with heq; exact heq.symm))
  | kept hother hruns =>
    refine ⟨hinv, hruns ▸ h.nodup, fun id' hid' => ?_⟩
    exact hkept id' (hruns ▸ hid') (hother id' 0).1 fun now => (hother id' now).2

theorem erase_eq_nil (hnodup : runs.Nodup) : runs.erase id = [] ↔ ∀ id' ∈ runs, id' = id := by
  rw [eq_nil_iff_forall_not_mem]
  simp only [hnodup.mem_erase_iff, not_and', not_not]

theorem InRun.profileOf (h : InRun w id) : ∃ p, w.profileOf id = some p := by
  obtain ⟨task, -, htask, -⟩ := h
  exact ⟨task.profileId, by rw [World.profileOf, htask, map_some]⟩

section Recover

variable {now : ℤ}

theorem RunInv.recover_head (h : RunInv w) (hm : Marked w) (hhead : w.runs.head? = some id) :
    (recoverAbandoned chrono now w.registry id w.running).2.2 = none := by
  obtain ⟨task, job, htask, -, hjob, hprofile, hactive⟩ :=
    h.inRun id (mem_of_head? hhead)
  rw [running_recoverAbandoned hjob hactive, if_pos]
  rw [hm, hhead, bind_some, World.profileOf, htask, map_some, hprofile]

/-- Two active jobs are of different profiles, so the marker is another run's. -/
theorem RunInv.recover_other (h : RunInv w) (hm : Marked w) (hhead : w.runs.head? ≠ some id) :
    (recoverAbandoned chrono now w.registry id w.running).2.2 = w.running := by
  by_cases hactive : ∃ job, w.registry.lookup id = some job ∧ ¬ job.state.isTerminal
  · obtain ⟨job, hjob, hactive⟩ := hactive
    rw [running_recoverAbandoned hjob hactive, if_neg]
    intro hrunning
    rw [hm] at hrunning
    obtain ⟨id', hid', hprofile'⟩ := bind_eq_some_iff.1 hrunning
    obtain ⟨task', job', htask', -, hjob', hsame, hactive'⟩ :=
      h.inRun id' (mem_of_head? hid')
    rw [World.profileOf, htask'] at hprofile'
    have hprofiles : job'.profileId = job.profileId := hsame.symm.trans (some.inj hprofile')
    exact hhead (h.unique id' id job' job hjob' hjob hprofiles hactive' hactive ▸ hid')
  · refine running_recoverAbandoned_of_terminal fun job hjob => ?_
    by_contra hterminal
    exact hactive ⟨job, hjob, hterminal⟩

end Recover

theorem head?_erase_of_ne (hhead : runs.head? ≠ some id) : (runs.erase id).head? = runs.head? := by
  cases runs with
  | nil => rfl
  | cons id' runs =>
    have hne : (id' == id) = false := beq_eq_false_iff_ne.2 fun heq => hhead (heq ▸ rfl)
    rw [erase_cons, hne]
    rfl

theorem Marked.step (hm : Marked w) (h : RunInv w) (hstep : Step chrono w e w')
    (halone : EndsAlone w e) : Marked w' := by
  have hprofile : ∀ id p, w.profileOf id = some p → w'.profileOf id = some p :=
    fun _ _ => (effect_of_step hstep).profileOf
  -- the run begun last keeps its profile
  have hhead : w'.runs.head? = w.runs.head? → w'.running = w.running → Marked w' := by
    intro hruns hrunning
    rw [Marked, hruns, hrunning, hm]
    rcases hfirst : w.runs.head? with _ | id
    · rfl
    · obtain ⟨p, hp⟩ := (h.inRun id (mem_of_head? hfirst)).profileOf
      rw [bind_some, bind_some, hp, hprofile id p hp]
  have hnone : w'.runs = [] → w'.running = none → Marked w' := by
    intro hruns hrunning
    rw [Marked, hruns, hrunning]
    rfl
  cases runEffect_of_step hstep with
  | begun htask _ hruns hrunning =>
    rw [Marked, hruns, hrunning]
    refine (hprofile _ _ ?_).symm
    rw [World.profileOf, htask, map_some]
  | ended hruns hrunning =>
    exact hnone (hruns.trans ((erase_eq_nil h.nodup).2 halone)) hrunning
  | @recovered _ id now hruns hrunning =>
    by_cases hfirst : w.runs.head? = some id
    · exact hnone (hruns.trans ((erase_eq_nil h.nodup).2 (halone hfirst)))
        (hrunning.trans (h.recover_head hm hfirst))
    · exact hhead (hruns ▸ head?_erase_of_ne hfirst) (hrunning.trans (h.recover_other hm hfirst))
  | kept _ hruns hrunning => exact hhead (hruns ▸ rfl) hrunning

theorem RunInv.statusRight (h : RunInv w) (hm : Marked w) : StatusRight w := by
  constructor
  · intro hne
    obtain ⟨id, hid⟩ := ne_none_iff_exists'.1 (mt head?_eq_none_iff.1 hne)
    obtain ⟨p, hp⟩ := (h.inRun id (mem_of_head? hid)).profileOf
    show w.running.isSome
    rw [hm, hid, bind_some, hp]
    rfl
  intro p hp
  have hp : w.running = some p := hp
  rw [hm] at hp
  obtain ⟨id, hid, hprofile⟩ := bind_eq_some_iff.1 hp
  exact ⟨id, mem_of_head? hid, hprofile⟩

theorem RunInv.endsAlone (h : RunInv w) (hm : Marked w) (hstep : Step chrono w e w')
    (hright : StatusRight w') : EndsAlone w e := by
  have hnil : w'.running = none → w'.runs = [] := by
    intro hrunning
    by_contra hne
    have hreported := hright.running hne
    rw [World.status, hrunning] at hreported
    nomatch hreported
  cases runEffect_of_step hstep with
  | begun => trivial
  | ended hruns hrunning => exact (erase_eq_nil h.nodup).1 (hruns ▸ hnil hrunning)
  | recovered hruns hrunning =>
    intro hfirst
    exact (erase_eq_nil h.nodup).1 (hruns ▸ hnil (hrunning.trans (h.recover_head hm hfirst)))
  | kept hother =>
  cases e with
  | endRun id => exact absurd rfl (hother id 0).1
  | recover id now => exact absurd rfl (hother id now).2
  | _ => trivial

/-- **The status is right while runs end alone.** A step keeps it right exactly when it does not end
a run beside another. -/
theorem status_right_iff {es : List Event}
    (hrun : Run (fun w e w' => Step chrono w e w' ∧ EndsAlone w e) .init es w) :
    StatusRight w ∧ ∀ e w', Step chrono w e w' → (StatusRight w' ↔ EndsAlone w e) := by
  obtain ⟨h, hm⟩ := hrun.inv (I := fun w => RunInv w ∧ Marked w) ⟨runInv_init, rfl⟩
    fun _ _ _ ⟨h, hm⟩ ⟨hstep, halone⟩ => ⟨h.step hstep, hm.step h hstep halone⟩
  refine ⟨h.statusRight hm, fun e w' hstep => ⟨h.endsAlone hm hstep, fun halone => ?_⟩⟩
  exact (h.step hstep).statusRight (hm.step h hstep halone)

def overlap : List Event :=
  [.start "p" .runBackup "a" 0, .start "q" .runBackup "b" 0, .markRunning "a" 1,
    .markRunning "b" 1, .beginRun "a", .beginRun "b"]

theorem status_right_iff_overlap : ∃ w, Run (Step decimalClock) .init overlap w ∧
    w.runs = ["b", "a"] ∧ StatusRight w ∧
      ∀ w', Step decimalClock w (.endRun "a") w' → ¬ StatusRight w' := by
  obtain ⟨w, hexec, hruns⟩ : ∃ w, List.foldlM (World.next decimalClock) .init overlap = some w ∧
      w.runs = ["b", "a"] := ⟨_, rfl, rfl⟩
  have hrun := Run.of_foldlM hexec
  obtain ⟨hright, hiff⟩ := status_right_iff
    (hrun.restrict (P := EndsAlone) (by simp [overlap, EndsAlone]))
  refine ⟨w, hrun, hruns, hright, fun w' hstep => mt (hiff _ w' hstep).1 ?_⟩
  rw [EndsAlone, hruns]
  decide

/-- Of two overlapping runs the first to end clears the marker of the other. -/
theorem status_idle_during_run : ∃ w, Run (Step decimalClock) .init (overlap ++ [.endRun "a"]) w ∧
    w.runs = ["b"] ∧ w.profileOf "b" = some "q" ∧ w.status.running = false := by
  obtain ⟨w, hexec, hw⟩ : ∃ w, List.foldlM (World.next decimalClock) .init
      (overlap ++ [.endRun "a"]) = some w ∧
      (w.runs, w.profileOf "b", w.status.running) = (["b"], some "q", false) :=
    ⟨_, rfl, by decide⟩
  simp only [Prod.mk.injEq] at hw
  exact ⟨w, Run.of_foldlM hexec, hw⟩

end Nasty.Backup.Jobs
