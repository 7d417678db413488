import Nasty.Apps.Steps

/-!
# A machine on which every step succeeds

The commands of the runs below, carried out on apps and files with known names. Docker publishes
the ports that it is asked for, no container crashes and no route is broken; where a run does not
come the machine has no answer. `machine_sound` says that this is one of the worlds of
`Succeeding`.
-/

namespace Nasty.Apps

open Proc List

variable (docker : Docker) (names : List Name) (files : List File)

def freshId (w : World) : Option Name :=
  let id := "id-".toList ++ (toString w.credentials.length).toList
  if id ∈ w.credentials.map (·.id) then none else some id

/-- A change of a project directory; it fails if the directory, or what is to be changed in it, is
not there. -/
def editDir (w : World) (app : Name) (edit : Dir → Option (Option Dir)) :
    Except String Unit × World :=
  match (w.dirs app).bind edit with
  | some d => (.ok (), w.setDir app d)
  | none => (.error "No such file or directory", w)

def machine : (c : Cmd) → World → Option (c.Answer × World)
  | .lockApps, w => if w.apps then none else some ((), { w with apps := true })
  | .unlockApps, w => some ((), { w with apps := false })
  | .lockCompose, w => if w.compose then none else some ((), { w with compose := true })
  | .unlockCompose, w => some ((), { w with compose := false })
  | .manifestExists app, w => some ((w.manifests app).isSome, w)
  | .readManifest app, w => some (.ok (w.manifests app), w)
  | .editManifest app edit, w =>
    if app ∈ names then
      some (.ok (), w.setManifest app (edit.apply ((w.manifests app).getD .empty)))
    else none
  | .removeManifest app, w => some (.ok (), w.setManifest app none)
  | .dirExists app, w => some ((w.dirs app).isSome, w)
  | .createDir app, w =>
    if app ∈ names then some (.ok (), w.setDir app (some ((w.dirs app).getD .empty))) else none
  | .readDir app, w => (w.dirs app).map fun d =>
      (.ok ((none :: files.map some).filter d.entry), w)
  | .removeDir app, w => editDir w app fun d =>
      if (none :: files.map some).any d.entry then none else some none
  | .fileExists app file, w => some ((w.file app file).isSome, w)
  | .readFile app file, w => some (.ok (w.file app file), w)
  | .writeFile app file content, w =>
    if file ∈ files then editDir w app fun d => some (some (d.set file (some content))) else none
  | .renameFile app old new, w =>
    if new ∈ files then editDir w app fun d => (d.files old).map fun content =>
      some ((d.set old none).set new (some content))
    else none
  | .removeFile app file, w => editDir w app fun d =>
      if (d.files file).isSome then some (some (d.set file none)) else none
  | .readMarker app, w => some (.ok (w.marker app), w)
  | .writeMarker app staged t, w =>
    editDir w app fun d => some (some { d.set staged none with marker := some t })
  | .removeMarker app _, w => editDir w app fun d => some (some { d with marker := none })
  | .loadCredentials, w => some (.ok w.credentials, w)
  | .newId, w => (freshId w).map fun id => (id, w)
  | .containerExists name, w => some (w.containers.any (·.name = name), w)
  | .createContainer name app bindings, w =>
    if app ∈ names ∧ ∀ c ∈ w.containers, c.name ≠ name then
      some (.ok (), w.withContainers (w.containers ++ [⟨name, some app, none, bindings, []⟩]))
    else none
  | .startContainer name, w => (w.containers.find? (·.name = name)).map fun c =>
      (.ok (), w.withContainers (w.containers.map fun c' =>
        if c'.name = name then { c' with ports := c.bindings } else c'))
  | .removeContainer name, w =>
    some (.ok (), w.withContainers (w.containers.filter (·.name ≠ name)))
  | .projectContainers project, w => some (.ok (w.containers.any (·.project = some project)), w)
  | .composeDown project, w => some (.ok (), w.replaceProject project [])
  | .composeUp project, w => (w.dirs project).map fun d =>
      (.ok (), w.replaceProject project (docker project d.files))
  | .listApps, w => some (.ok (names.filterMap w.app), w)
  | .listRoutes, w => some (.ok w.routes, w)
  | .putRoute route, w =>
    if route.name ∈ w.routes.map (·.name) then none
    else some (.ok (), { w with routes := route :: w.routes })
  | .removeRoute app, w => some (.ok (), { w with routes := w.routes.filter (·.name ≠ app) })
  | .requireReady, w | .other .., w => some (.ok (), w)
  | .detectCrash _, w | .probe _, w => some (none, w)
  | .usedHostPorts, w => some ([], w)
  | .findServer, w => some (.ok (), w)
  | _, _ => none

/-! ## The worlds of the machine -/

structure World.Within (w : World) : Prop where
  manifests : ∀ n, (w.manifests n).isSome → n ∈ names
  dirs : ∀ n d, w.dirs n = some d → n ∈ names ∧ ∀ f, (d.files f).isSome → f ∈ files
  containers : ∀ c ∈ w.containers, ∀ n, c.app = some n → n ∈ names

variable {docker names files} {w : World}

theorem Dir.entry_iff {d : Dir} (hd : ∀ f, (d.files f).isSome → f ∈ files) (e : DirEntry) :
    e ∈ (none :: files.map some).filter d.entry ↔ d.entry e := by
  rw [mem_filter, and_iff_right_iff_imp]
  intro he
  cases e with
  | none => exact mem_cons_self
  | some file => exact mem_cons_of_mem _ (mem_map_of_mem (hd file he))

section

variable (hw : w.Within names files)
include hw

theorem World.Within.app {n : Name} {app : App} (h : w.app n = some app) : n ∈ names := by
  rcases World.app_source h with ⟨c, hc, hn⟩ | hm | hd
  · exact hw.containers c hc n hn
  · exact hw.manifests n hm
  · obtain ⟨d, hd⟩ := Option.isSome_iff_exists.1 hd
    exact (hw.dirs n d hd).1

variable {app : Name}

theorem World.Within.setManifest {m : Option Manifest} (happ : m.isSome → app ∈ names) :
    (w.setManifest app m).Within names files where
  manifests n hn := by
    rw [setManifest_apply] at hn
    split_ifs at hn with h
    · rw [h]
      exact happ hn
    · exact hw.manifests n hn
  dirs := hw.dirs
  containers := hw.containers

theorem World.Within.setDir {d' : Option Dir}
    (happ : ∀ d, d' = some d → app ∈ names ∧ ∀ f, (d.files f).isSome → f ∈ files) :
    (w.setDir app d').Within names files where
  manifests := hw.manifests
  dirs n d hd := by
    rw [setDir_apply] at hd
    split_ifs at hd with h
    · rw [h]
      exact happ d hd
    · exact hw.dirs n d hd
  containers := hw.containers

theorem World.Within.withContainers {containers : List Container}
    (h : ∀ c ∈ containers, ∀ n, c.app = some n → n ∈ names) :
    (w.withContainers containers).Within names files :=
  ⟨hw.manifests, hw.dirs, h⟩

theorem World.Within.replaceProject {project : Name} {containers : List (Name × List MappedPort)} :
    (w.replaceProject project containers).Within names files := by
  refine hw.withContainers fun c hc n hn => ?_
  rcases mem_append.1 hc with hc | hc
  · exact hw.containers c (mem_of_mem_filter hc) n hn
  · obtain ⟨_, -, rfl⟩ := mem_map.1 hc
    cases hn

end

theorem Dir.set_files {d : Dir} {file : File} {content : Option String}
    (hd : ∀ f, (d.files f).isSome → f ∈ files) (h : content.isSome → file ∈ files) :
    ∀ f, ((d.set file content).files f).isSome → f ∈ files := by
  intro f hf
  rw [Dir.set_apply] at hf
  split_ifs at hf with heq
  · rw [heq]
    exact h hf
  · exact hd f hf

theorem editDir_sound {edit : Dir → Option (Option Dir)} {effect : World → Prop}
    {r : Except String Unit} {t : World} (hw : w.Within names files)
    (heffect : ∀ u, effect u ↔
      ∃ d, w.dirs app = some d ∧ ∃ d', edit d = some d' ∧ u = w.setDir app d')
    (hedit : ∀ d, w.dirs app = some d → ∀ d', edit d = some (some d') →
      ∀ f, (d'.files f).isSome → f ∈ files)
    (h : editDir w app edit = (r, t)) : Achieved w effect r t ∧ t.Within names files := by
  rw [achieved_iff]
  unfold editDir at h
  cases hd' : (w.dirs app).bind edit with
  | some d' =>
    rw [hd'] at h
    cases h
    obtain ⟨d, hd, hd'⟩ := Option.bind_eq_some_iff.1 hd'
    refine ⟨.inl ⟨rfl, (heffect _).2 ⟨d, hd, d', hd', rfl⟩⟩, hw.setDir ?_⟩
    rintro d' rfl
    exact ⟨(hw.dirs _ d hd).1, hedit d hd d' hd'⟩
  | none =>
  rw [hd'] at h
  cases h
  refine ⟨.inr ⟨⟨_, rfl⟩, rfl, fun u hu => ?_⟩, hw⟩
  obtain ⟨d, hd, d', hedit', -⟩ := (heffect u).1 hu
  rw [hd, Option.bind_some, hedit'] at hd'
  cases hd'

/-! ## The commands -/

/-- What the machine does at a command is among what may happen, and the names stay known. -/
def SoundAt (docker : Docker) (names : List Name) (files : List File) (c : Cmd) : Prop :=
  ∀ w r t, w.Within names files → machine docker names files c w = some (r, t) →
    Succeeding docker c w r t ∧ t.Within names files

variable {app name : Name} {file : File}

theorem createDir_sound : SoundAt docker names files (.createDir app) := by
  intro w r t hw h
  obtain ⟨happ, ⟨⟩⟩ := Option.ite_none_right_eq_some.1 h
  refine ⟨⟨.inl ⟨rfl, rfl⟩, .inl rfl⟩, hw.setDir ?_⟩
  rintro _ ⟨⟩
  refine ⟨happ, ?_⟩
  cases hd : w.dirs app with
  | none => simp [Dir.empty]
  | some d => exact (hw.dirs app d hd).2

theorem readDir_sound (hfiles : files.Nodup) : SoundAt docker names files (.readDir app) := by
  intro w r t hw h
  obtain ⟨d, hd, ⟨⟩⟩ := Option.map_eq_some_iff.1 h
  refine ⟨⟨⟨rfl, ?_⟩, .inl rfl⟩, hw⟩
  rintro _ ⟨⟩
  have hentries : (none :: files.map some).Nodup :=
    nodup_cons.2 ⟨by simp, hfiles.map (Option.some_injective _)⟩
  exact ⟨d, hd, hentries.filter _, Dir.entry_iff (hw.dirs app d hd).2⟩

theorem removeDir_sound : SoundAt docker names files (.removeDir app) := by
  intro w r t hw h
  rw [Succeeding, Answers]
  refine editDir_sound hw (fun u => ?_) (fun d hd d' hd' => ?_) (Option.some.inj h)
  · refine exists_congr fun d => and_congr_right fun hd => ?_
    have hempty : (∀ e, d.entry e = false) ↔ ¬ (none :: files.map some).any d.entry := by
      rw [any_eq_true, not_exists]
      refine forall_congr' fun e => ?_
      rw [← mem_filter, Dir.entry_iff (hw.dirs app d hd).2, Bool.not_eq_true]
    simp [hempty]
  · cases (Option.ite_none_left_eq_some.1 hd').2

theorem writeFile_sound {content : String} :
    SoundAt docker names files (.writeFile app file content) := by
  intro w r t hw h
  obtain ⟨hfile, h⟩ := Option.ite_none_right_eq_some.1 h
  rw [Succeeding, Answers]
  refine editDir_sound hw (fun u => ?_) (fun d hd d' hd' => ?_) (Option.some.inj h)
  · simp
  · cases hd'
    exact Dir.set_files (hw.dirs app d hd).2 fun _ => hfile

theorem renameFile_sound {new : File} :
    SoundAt docker names files (.renameFile app file new) := by
  intro w r t hw h
  obtain ⟨hfile, h⟩ := Option.ite_none_right_eq_some.1 h
  rw [Succeeding, Answers]
  refine editDir_sound hw (fun u => ?_) (fun d hd d' hd' => ?_) (Option.some.inj h)
  · simp
  · obtain ⟨content, -, hd'⟩ := Option.map_eq_some_iff.1 hd'
    cases hd'
    exact Dir.set_files (Dir.set_files (hw.dirs app d hd).2 (by simp)) fun _ => hfile

theorem removeFile_sound : SoundAt docker names files (.removeFile app file) := by
  intro w r t hw h
  rw [Succeeding, Answers]
  refine editDir_sound hw (fun u => ?_) (fun d hd d' hd' => ?_) (Option.some.inj h)
  · simp
  · cases (Option.ite_none_right_eq_some.1 hd').2
    exact Dir.set_files (hw.dirs app d hd).2 (by simp)

theorem writeMarker_sound {marker : Transaction} :
    SoundAt docker names files (.writeMarker app file marker) := by
  intro w r t hw h
  rw [Succeeding, Answers]
  refine editDir_sound hw (fun u => ?_) (fun d hd d' hd' => ?_) (Option.some.inj h)
  · simp
  · cases hd'
    exact Dir.set_files (hw.dirs app d hd).2 (by simp)

theorem removeMarker_sound {finish : Finish} :
    SoundAt docker names files (.removeMarker app finish) := by
  intro w r t hw h
  rw [Succeeding, Answers]
  refine editDir_sound hw (fun u => ?_) (fun d hd d' hd' => ?_) (Option.some.inj h)
  · simp
  · cases hd'
    exact (hw.dirs app d hd).2

theorem createContainer_sound {bindings : List MappedPort} :
    SoundAt docker names files (.createContainer name app bindings) := by
  intro w r t hw h
  obtain ⟨⟨happ, hfree⟩, ⟨⟩⟩ := Option.ite_none_right_eq_some.1 h
  refine ⟨⟨.inl ⟨rfl, hfree, rfl⟩, .inl rfl⟩, hw.withContainers fun c hc n hn => ?_⟩
  rcases mem_append.1 hc with hc | hc
  · exact hw.containers c hc n hn
  · rw [mem_singleton.1 hc] at hn
    cases hn
    exact happ

theorem startContainer_sound : SoundAt docker names files (.startContainer name) := by
  intro w r t hw h
  obtain ⟨c, hc, ⟨⟩⟩ := Option.map_eq_some_iff.1 h
  have hname : c.name = name := by simpa using find?_some hc
  refine ⟨⟨.inl ⟨rfl, c, mem_of_find?_eq_some hc, hname, c.bindings,
    published_self c.bindings, rfl⟩, .inl rfl⟩, hw.withContainers fun c' hc' n hn => ?_⟩
  obtain ⟨c'', hc'', rfl⟩ := mem_map.1 hc'
  refine hw.containers c'' hc'' n ?_
  split_ifs at hn <;> exact hn

theorem composeUp_sound : SoundAt docker names files (.composeUp app) := by
  intro w r t hw h
  obtain ⟨d, hd, ⟨⟩⟩ := Option.map_eq_some_iff.1 h
  refine ⟨⟨.inl ⟨d, hd, d, _, rfl, fun _ _ => rfl, fun _ => rfl, ?_⟩, .inl rfl⟩,
    hw.replaceProject⟩
  exact (setDir_self (w := w.replaceProject _ _) hd).symm

theorem listApps_sound (hnames : names.Nodup) : SoundAt docker names files .listApps := by
  rintro w r t hw ⟨⟩
  refine ⟨⟨⟨rfl, ?_⟩, .inl rfl⟩, hw⟩
  rintro _ ⟨⟩
  exact World.lists_filterMap hnames fun _ _ => hw.app

theorem machine_sound (hnames : names.Nodup) (hfiles : files.Nodup) :
    Sound (Succeeding docker) (World.Within names files) (machine docker names files) := by
  intro c
  cases c
  case createDir => exact createDir_sound
  case readDir => exact readDir_sound hfiles
  case removeDir => exact removeDir_sound
  case writeFile => exact writeFile_sound
  case renameFile => exact renameFile_sound
  case removeFile => exact removeFile_sound
  case writeMarker => exact writeMarker_sound
  case removeMarker => exact removeMarker_sound
  case createContainer => exact createContainer_sound
  case startContainer => exact startContainer_sound
  case composeUp => exact composeUp_sound
  case listApps => exact listApps_sound hnames
  -- the rest have one answer, which is given directly
  all_goals
    intro w r t hw h
    rw [Succeeding, Answers]
    simp only [machine, Option.some.injEq, Option.ite_none_left_eq_some,
      Option.ite_none_right_eq_some, Option.map_eq_some_iff] at h
  case clearProxyDisabledReason | mappedPort | removeProject | resolveNetwork => cases h
  case lockApps | lockCompose =>
    obtain ⟨hfree, -, rfl⟩ := h
    exact ⟨⟨⟨by simpa using hfree, rfl⟩, .inl trivial⟩, hw.manifests, hw.dirs, hw.containers⟩
  case unlockApps | unlockCompose =>
    obtain ⟨-, rfl⟩ := h
    exact ⟨⟨rfl, .inl trivial⟩, hw.manifests, hw.dirs, hw.containers⟩
  case requireReady | detectCrash | probe =>
    obtain ⟨rfl, rfl⟩ := h
    exact ⟨⟨rfl, .inl trivial⟩, hw⟩
  case other =>
    obtain ⟨rfl, rfl⟩ := h
    exact ⟨⟨rfl, .inl fun _ => rfl⟩, hw⟩
  case usedHostPorts =>
    obtain ⟨rfl, rfl⟩ := h
    exact ⟨⟨⟨rfl, by simp⟩, .inl trivial⟩, hw⟩
  case findServer =>
    obtain ⟨rfl, rfl⟩ := h
    exact ⟨⟨rfl, .inl rfl⟩, hw⟩
  case manifestExists | dirExists | fileExists =>
    obtain ⟨rfl, rfl⟩ := h
    exact ⟨⟨⟨rfl, rfl⟩, .inl trivial⟩, hw⟩
  case readManifest | readFile | readMarker | loadCredentials | listRoutes =>
    obtain ⟨rfl, rfl⟩ := h
    exact ⟨⟨⟨rfl, fun _ h => (Except.ok.inj h).symm⟩, .inl rfl⟩, hw⟩
  case editManifest =>
    obtain ⟨happ, rfl, rfl⟩ := h
    exact ⟨⟨.inl ⟨rfl, rfl⟩, .inl rfl⟩, hw.setManifest fun _ => happ⟩
  case removeManifest =>
    obtain ⟨rfl, rfl⟩ := h
    exact ⟨⟨.inl ⟨rfl, rfl⟩, .inl rfl⟩, hw.setManifest (by simp)⟩
  case removeRoute =>
    obtain ⟨rfl, rfl⟩ := h
    exact ⟨⟨.inl ⟨rfl, rfl⟩, .inl rfl⟩, hw.manifests, hw.dirs, hw.containers⟩
  case putRoute =>
    obtain ⟨hnew, rfl, rfl⟩ := h
    exact ⟨⟨.inl ⟨rfl, hnew, rfl⟩, .inl rfl⟩, hw.manifests, hw.dirs, hw.containers⟩
  case newId =>
    obtain ⟨id, hid, rfl, rfl⟩ := h
    obtain ⟨hnew, ⟨⟩⟩ := Option.ite_none_left_eq_some.1 hid
    exact ⟨⟨⟨rfl, hnew⟩, .inl trivial⟩, hw⟩
  case containerExists =>
    obtain ⟨rfl, rfl⟩ := h
    exact ⟨⟨⟨rfl, by simp⟩, .inl trivial⟩, hw⟩
  case projectContainers =>
    obtain ⟨rfl, rfl⟩ := h
    refine ⟨⟨⟨rfl, ?_⟩, .inl rfl⟩, hw⟩
    rintro _ ⟨⟩
    simp
  case removeContainer =>
    obtain ⟨rfl, rfl⟩ := h
    exact ⟨⟨.inl ⟨rfl, rfl⟩, .inl rfl⟩, hw.withContainers fun c hc =>
      hw.containers c (mem_of_mem_filter hc)⟩
  case composeDown =>
    obtain ⟨rfl, rfl⟩ := h
    exact ⟨⟨.inl ⟨rfl, rfl⟩, .inl rfl⟩, hw.replaceProject⟩

theorem World.initial_within : World.initial.Within names files := ⟨nofun, nofun, nofun⟩

/-! ## An app -/

def blog : Name := "blog".toList

def web : Docker := fun project _ =>
  [(project ++ "-web-1".toList, [⟨8080, 80, "tcp".toList⟩])]

def projectFiles : List File :=
  [.compose, .env, .nastyMeta] ++ ["", ".yml", ".env", ".yml.backup", ".env.backup"].map
    fun s => .staged ("id-0" ++ s).toList

def blogMachine : (c : Cmd) → World → Option (c.Answer × World) := machine web [blog] projectFiles

theorem blogMachine_sound : Sound (Succeeding web) (World.Within [blog] projectFiles) blogMachine :=
  machine_sound (by decide) (by decide)

end Nasty.Apps
