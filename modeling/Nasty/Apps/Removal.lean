import Nasty.Apps.Machine

/-!
# A removed name

`remove` is to leave a name as if it had never been used. For a simple app it does: the sidecar is
removed last. For a compose project the sidecar is removed before the route, and removing the route
clears two fields of the sidecar, which makes a new one. The name is then taken.
-/

namespace Nasty.Apps

open Proc World

variable {docker : Docker} {w w' : World} {name : Name} {d : Dir}

/-! ## What is left -/

def World.cleared (w : World) (name : Name) : Manifest :=
  { (w.manifests name).getD .empty with ingressSubdomain := none, ingressHostPort := none }

def World.unrouted (w : World) (name : Name) : World :=
  if name ∈ w.routes.map (·.name) then
    { w.setManifest name (w.cleared name) with routes := w.routes.filter (·.name ≠ name) }
  else w

@[simp] theorem unrouted_dirs : (w.unrouted name).dirs = w.dirs := by
  unfold unrouted
  split_ifs <;> rfl

@[simp] theorem unrouted_containers : (w.unrouted name).containers = w.containers := by
  unfold unrouted
  split_ifs <;> rfl

theorem unrouted_routes : name ∉ (w.unrouted name).routes.map (·.name) := by
  unfold unrouted
  split_ifs with hroute
  · simp
  · exact hroute

theorem ingressRemove_spec (hname : validateAppName name = .ok ()) :
    (ingressRemove name).wp (succeeding docker) (fun _ t => t = w.unrouted name) w := by
  simp only [ingressRemove, ingressList, wp_bind, wp_ofExcept, hname, after_ok, wp_listRoutes,
    wp_orFail_ok, wp_refuse, not_not, after_error]
  refine ⟨fun habsent => ?_, fun hroute => ?_⟩
  · rw [unrouted, if_neg habsent]
  · simp [unrouted, hroute, setManifest, cleared, Edit.apply]

def Dir.without (d : Dir) : DirEntry → Dir
  | some file => d.set file none
  | none => { d with marker := none }

theorem Dir.without_entry {e e' : DirEntry} : (d.without e).entry e' ↔ d.entry e' ∧ e' ≠ e := by
  rcases e with _ | file <;> rcases e' with _ | file'
  · simp [Dir.without, Dir.entry]
  · simp [Dir.without, Dir.entry]
  · simp [Dir.without, Dir.entry, Dir.set]
  · by_cases h : file' = file <;> simp [Dir.without, Dir.entry, Dir.set_apply, h]

theorem removeEntry_spec {e : DirEntry} (he : d.entry e) :
    (removeEntry name e).wp (succeeding docker)
      (fun r t => r = .ok () ∧ t = w.setDir name (some (d.without e))) (w.setDir name (some d)) := by
  have hd : (w.setDir name (some d)).dirs name = some d := by rw [setDir_apply, if_pos rfl]
  cases e with
  | none =>
    rw [removeEntry, wp_bind, wp_removeMarker hd]
    exact ⟨rfl, setDir_setDir⟩
  | some file =>
    rw [removeEntry, wp_bind, wp_removeFile hd he]
    exact ⟨rfl, setDir_setDir⟩

theorem removeEntries_spec {entries : List DirEntry} (hnodup : entries.Nodup)
    (hentries : ∀ e, e ∈ entries ↔ d.entry e) (hw : w' = w.setDir name (some d)) :
    (each entries (removeEntry name)).wp (succeeding docker) (fun r t => r = .ok () ∧
      ∃ d' : Dir, (∀ e, d'.entry e = false) ∧ t = w.setDir name (some d')) w' := by
  subst hw
  induction entries generalizing d with
  | nil => exact ⟨rfl, d, fun e => by simpa using (hentries e).symm, rfl⟩
  | cons e entries ih =>
  obtain ⟨he, hnodup⟩ := List.nodup_cons.1 hnodup
  rw [each, wp_bind]
  refine (removeEntry_spec ((hentries e).1 List.mem_cons_self)).imp ?_
  rintro _ _ ⟨rfl, rfl⟩
  refine ih hnodup fun e' => ?_
  rw [Dir.without_entry, ← hentries, List.mem_cons]
  refine ⟨fun he' => ⟨.inr he', fun heq => he (heq ▸ he')⟩, fun he' => he'.1.resolve_left he'.2⟩

theorem removeDirAll_spec (hd : w.dirs name = some d) :
    (removeDirAll name).wp (succeeding docker) (fun _ t => t = w.setDir name none) w := by
  rw [removeDirAll, wp_bind]
  refine wp_readDir hd fun entries hnodup hentries => ?_
  rw [after_ok, wp_bind, wp_orFail_ok, after_ok, wp_bind]
  refine (removeEntries_spec hnodup hentries (setDir_self hd).symm).imp ?_
  rintro _ _ ⟨rfl, d', hempty, rfl⟩
  rw [after_ok, wp_bind, wp_removeDir (by rw [setDir_apply, if_pos rfl]) hempty]
  exact setDir_setDir

/-! ## The two orders -/

def World.composeRemoved (w : World) (name : Name) : World :=
  (((w.replaceProject name []).setDir name none).setManifest name none).unrouted name

def World.simpleRemoved (w : World) (name : Name) : World :=
  ((w.withContainers (w.containers.filter (·.name ≠ containerName name))).unrouted
    name).setManifest name none

theorem composeRemoved_locked (h : w.compose = false) :
    { ({ w with compose := true } : World).composeRemoved name with compose := false } =
      w.composeRemoved name := by
  by_cases hroute : name ∈ w.routes.map (·.name)
  · simp only [composeRemoved, unrouted, cleared, replaceProject,
      setDir, setManifest, withContainers, hroute, if_true, h]
  · simp only [composeRemoved, unrouted, replaceProject, setDir,
      setManifest, withContainers, hroute, if_false, h]

theorem composeRemove_spec :
    (composeRemove name).wp (succeeding docker) (fun r t => r = .ok () → t = w.composeRemoved name)
      w := by
  rw [composeRemove, wp_holding]
  refine wp_lockCompose.2 fun hlock => wp.imp (Q := fun r t => r = .ok () →
    t = ({ w with compose := true } : World).composeRemoved name) ?_ fun r t ht =>
      wp_unlockCompose.2 fun hr => (ht hr ▸ composeRemoved_locked hlock :)
  generalize ({ w with compose := true } : World) = w
  cases hname : validateAppName name with
  | error e => simp
  | ok _ =>
  simp only [after_ok, wp_bind, wp_requireReady, wp_ofExcept]
  rintro (e | _)
  · simp
  simp only [after_ok, wp_bind, wp_fileExists, wp_refuse, wp_composeDown, wp_orFail_ok, wp_ignore,
    wp_removeManifest, Bool.not_eq_true, Bool.not_eq_false]
  refine ⟨fun _ => by simp, fun hfile => ?_⟩
  obtain ⟨d, hd⟩ := dir_of_file hfile
  refine (removeDirAll_spec (w := w.replaceProject name []) hd).imp ?_
  rintro _ _ rfl
  refine (ingressRemove_spec hname).imp ?_
  rintro _ _ rfl _
  rfl

theorem removeSimple_spec (hname : validateAppName name = .ok ()) :
    (removeSimple name).wp (succeeding docker) (fun r t => r = .ok () → t = w.simpleRemoved name)
      w := by
  simp only [removeSimple, wp_bind, wp_containerExists, after_ok, wp_refuse, wp_removeContainer,
    wp_orFail_ok, wp_ignore]
  refine ⟨fun _ => by simp, fun _ => ?_⟩
  refine (ingressRemove_spec hname).imp ?_
  rintro _ _ rfl
  simp only [wp_removeManifest]
  exact fun _ => rfl

def World.removed (w : World) (name : Name) : World :=
  if (w.file name .compose).isSome then w.composeRemoved name else w.simpleRemoved name

theorem remove_spec :
    (remove name).wp (succeeding docker) (fun r t => r = .ok () → t = w.removed name) w := by
  simp only [remove]
  cases hname : validateAppName name with
  | error e => simp
  | ok _ =>
  simp only [after_ok, wp_bind, wp_requireReady, wp_ofExcept]
  rintro (e | _)
  · simp
  simp only [after_ok, wp_bind, wp_fileExists, removed]
  split_ifs
  · exact composeRemove_spec
  · exact removeSimple_spec hname

/-! ## A free name -/

/-- Nothing of an app has this name, and a new app may have it. -/
def World.Free (w : World) (name : Name) : Prop :=
  validateNewAppName name = .ok () ∧ w.dirs name = none ∧ w.manifests name = none ∧
    ∀ c ∈ w.containers, c.name ≠ containerName name ∧ c.project ≠ some name

def World.NoSettings (w : World) (name : Name) : Prop :=
  name ∉ w.routes.map (·.name) ∧ ∀ m, w.manifests name = some m →
    m.ingressSubdomain = none ∧ m.ingressHostPort = none ∧ m.startup = none ∧
      m.registryCredentialIds = []

theorem ensureNewAppNameAvailable_spec : (ensureNewAppNameAvailable name).wp (succeeding docker)
      (fun r t => t = w ∧ (r = .ok () ↔ w.Free name)) w := by
  simp only [ensureNewAppNameAvailable, wp_bind, wp_ofExcept]
  cases hname : validateNewAppName name with
  | error e => simp [World.Free, hname]
  | ok _ =>
  simp only [after_ok, wp_bind, wp_projectContainers, wp_orFail_ok, wp_dirExists,
    wp_manifestExists, wp_containerExists, wp_refuse, true_and]
  have hfree : w.Free name ↔ ¬ ((w.dirs name).isSome ∨ (w.manifests name).isSome ∨
      w.containers.any (·.name = containerName name) ∨
      w.containers.any (·.project = some name)) := by
    simp [World.Free, hname, forall_and]
  refine ⟨fun htaken => iff_of_false (by simp) ?_, fun h => iff_of_true trivial (hfree.2 h)⟩
  exact mt hfree.1 (not_not_intro htaken)

theorem exec_ensureNewAppNameAvailable (h : w.Free name) :
    Exec (Succeeding docker) (ensureNewAppNameAvailable name) w (.ok ()) w := by
  obtain ⟨hname, hdir, hmanifest, hcontainers⟩ := h
  have hproject : Succeeding docker (.projectContainers name) w (.ok false) w := by
    refine ⟨⟨rfl, ?_⟩, .inl rfl⟩
    rintro _ ⟨⟩
    simpa using fun c hc => (hcontainers c hc).2
  have hdirs : Succeeding docker (.dirExists name) w false w := by
    refine ⟨⟨rfl, ?_⟩, .inl trivial⟩
    rw [hdir]
    rfl
  have hmanifests : Succeeding docker (.manifestExists name) w false w := by
    refine ⟨⟨rfl, ?_⟩, .inl trivial⟩
    rw [hmanifest]
    rfl
  have hcontainer : Succeeding docker (.containerExists (containerName name)) w false w := by
    refine ⟨⟨rfl, ?_⟩, .inl trivial⟩
    simpa using fun c hc => (hcontainers c hc).1
  rw [ensureNewAppNameAvailable, hname]
  exact .call hproject <| .call hdirs <| .call hmanifests <| .call hcontainer .done

theorem available_iff_free :
    Exec (Succeeding docker) (ensureNewAppNameAvailable name) w (.ok ()) w ↔ w.Free name := by
  refine ⟨fun h => ?_, exec_ensureNewAppNameAvailable⟩
  exact ((h.of_wp ensureNewAppNameAvailable_spec).2.1 rfl)

/-! ## Names that can be used again -/

/-- No route would bring the sidecar back, and no app of the other kind has the name. -/
def World.Reusable (w : World) (name : Name) : Prop :=
  validateNewAppName name = .ok () ∧
    if (w.file name .compose).isSome then
      name ∉ w.routes.map (·.name) ∧
        ∀ c ∈ w.containers, c.name = containerName name → c.project = some name
    else
      w.dirs name = none ∧ ∀ c ∈ w.containers, c.project = some name → c.name = containerName name

theorem composeRemoved_manifests :
    (w.composeRemoved name).manifests name =
      if name ∈ w.routes.map (·.name) then some .empty else none := by
  rw [composeRemoved, unrouted]
  split_ifs with h h' h'
  · simp [setManifest, cleared, Manifest.empty]
  · exact absurd h h'
  · exact absurd h' h
  · simp [setManifest]

theorem composeRemoved_free : (w.composeRemoved name).Free name ↔ validateNewAppName name = .ok () ∧
    name ∉ w.routes.map (·.name) ∧
      ∀ c ∈ w.containers, c.name = containerName name → c.project = some name := by
  have hdirs : (w.composeRemoved name).dirs name = none := by
    simp [composeRemoved, setManifest, setDir]
  have hcontainers : (w.composeRemoved name).containers =
      w.containers.filter (·.project ≠ some name) := by
    simp [composeRemoved, setManifest, setDir, replaceProject,
      withContainers]
  rw [World.Free, hdirs, composeRemoved_manifests, hcontainers, ite_eq_right_iff]
  refine and_congr_right fun _ => ?_
  simp only [true_and, reduceCtorEq, List.mem_filter, decide_eq_true_eq]
  refine and_congr_right fun _ => ⟨fun h c hc hname => ?_, fun h c hc => ⟨fun hname => ?_, hc.2⟩⟩
  · by_contra hproject
    exact (h c ⟨hc, hproject⟩).1 hname
  · exact hc.2 (h c hc.1 hname)

theorem simpleRemoved_free : (w.simpleRemoved name).Free name ↔ validateNewAppName name = .ok () ∧
    w.dirs name = none ∧
      ∀ c ∈ w.containers, c.project = some name → c.name = containerName name := by
  have hdirs : (w.simpleRemoved name).dirs = w.dirs := by
    simp [simpleRemoved, setManifest, withContainers]
  have hmanifests : (w.simpleRemoved name).manifests name = none := by
    simp [simpleRemoved, setManifest]
  have hcontainers : (w.simpleRemoved name).containers =
      w.containers.filter (·.name ≠ containerName name) := by
    simp [simpleRemoved, setManifest, withContainers]
  rw [World.Free, hdirs, hmanifests, hcontainers]
  refine and_congr_right fun _ => and_congr_right fun _ => ?_
  simp only [true_and, List.mem_filter, decide_eq_true_eq]
  refine ⟨fun h c hc hproject => ?_, fun h c hc => ⟨hc.2, fun hproject => ?_⟩⟩
  · by_contra hname
    exact (h c ⟨hc, hname⟩).2 hproject
  · exact hc.2 (h c hc.1 hproject)

theorem removed_noSettings : (w.removed name).NoSettings name := by
  rw [removed]
  split_ifs
  · refine ⟨unrouted_routes, fun m hm => ?_⟩
    rw [composeRemoved_manifests] at hm
    split_ifs at hm
    cases hm
    exact ⟨rfl, rfl, rfl, rfl⟩
  · refine ⟨unrouted_routes, fun m hm => ?_⟩
    simp [simpleRemoved, setManifest] at hm

/-- **Reuse of a name.** After a removal without failures the name is free, and nothing of the app is
kept, exactly if it was `Reusable`. -/
theorem removed_name_reusable (h : Exec (Succeeding docker) (remove name) w (.ok ()) w') :
    (Exec (Succeeding docker) (ensureNewAppNameAvailable name) w' (.ok ()) w' ∧
      w'.NoSettings name) ↔ w.Reusable name := by
  obtain rfl := h.of_wp remove_spec rfl
  rw [and_iff_left removed_noSettings, available_iff_free, removed, World.Reusable]
  split_ifs
  · exact composeRemoved_free
  · exact simpleRemoved_free

def blogContainer : InstallAppRequest := ⟨blog, [⟨80, some 8080, "tcp".toList⟩], none, none, none⟩

theorem removed_name_reusable_simple : ∃ app w w',
    Exec (Succeeding web) (install blogContainer) .initial (.ok app) w ∧
    blog ∈ w.routes.map (·.name) ∧ Exec (Succeeding web) (remove blog) w (.ok ()) w' ∧
    Exec (Succeeding web) (ensureNewAppNameAvailable blog) w' (.ok ()) w' ∧
      w'.NoSettings blog := by
  obtain ⟨r, w, hinstall, hwithin, hw⟩ := blogMachine_sound.exists_exec
    (p := install blogContainer) initial_within (Q := fun a =>
      a.1.isOk ∧ blog ∈ a.2.routes.map (·.name) ∧
      (a.2.file blog .compose).isSome = false ∧ (a.2.dirs blog).isNone ∧
      (∀ c ∈ a.2.containers, c.project = some blog → c.name = containerName blog) ∧
      ((remove blog).play blogMachine a.2).any fun b => b.1 = .ok ()) (by decide +kernel)
  simp only [decide_eq_true_eq] at hw
  obtain ⟨hok, hroute, hfile, hdir, hcontainers, hremove⟩ := hw
  obtain ⟨_, w', hremoved, -, hr⟩ := blogMachine_sound.exists_exec hwithin hremove
  obtain rfl := of_decide_eq_true hr
  cases r with
  | error e => cases hok
  | ok app =>
  refine ⟨app, w, w', hinstall, hroute, hremoved, (removed_name_reusable hremoved).2 ?_⟩
  refine ⟨by decide, ?_⟩
  rw [if_neg (by simp [hfile])]
  exact ⟨Option.isNone_iff_eq_none.1 hdir, hcontainers⟩

def blogProject : ComposeRequest := ⟨blog, "services: \x7b\x7d", "", false, none, none⟩

/-- A compose project with a route is deployed and removed, and its sidecar is back. -/
theorem removed_name_taken : ∃ w w',
    Exec (Succeeding web) (deployCompose blogProject) .initial (.ok ()) w ∧
    Exec (Succeeding web) (remove blog) w (.ok ()) w' ∧
    ¬ Exec (Succeeding web) (ensureNewAppNameAvailable blog) w' (.ok ()) w' := by
  obtain ⟨_, w, hdeploy, hwithin, hw⟩ := blogMachine_sound.exists_exec
    (p := deployCompose blogProject) initial_within (Q := fun a => a.1 = .ok () ∧
      ((remove blog).play blogMachine a.2).any fun b =>
        b.1 = .ok () ∧ (b.2.manifests blog).isSome) (by decide +kernel)
  obtain ⟨rfl, hremove⟩ := of_decide_eq_true hw
  obtain ⟨_, w', hremoved, -, hw'⟩ := blogMachine_sound.exists_exec hwithin hremove
  obtain ⟨rfl, hmanifest⟩ := of_decide_eq_true hw'
  refine ⟨w, w', hdeploy, hremoved, fun h => ?_⟩
  obtain ⟨-, -, hnone, -⟩ := available_iff_free.1 h
  rw [hnone] at hmanifest
  cases hmanifest

end Nasty.Apps
