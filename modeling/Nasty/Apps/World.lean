import Nasty.Apps.Deployment
import Nasty.Lib.Maps

/-!
# What the commands do

A `World` holds the apps directory, the registry credentials, the containers and the routes.
`Answers` says what each command may answer and change there. A program or request that fails has
changed nothing, apart from `docker compose up`, which may have replaced some containers.

What Docker makes of a compose project is a parameter: the containers with the ports they publish.
-/

namespace Nasty.Apps

open Proc Function Option

/-! ## The world -/

structure Container where
  name : Name
  app : Option Name
  project : Option Name
  bindings : List MappedPort
  ports : List MappedPort

structure Dir where
  files : File → Option String
  marker : Option Transaction
  finite : Maps.Finite files

structure World where
  manifests : Name → Option Manifest
  dirs : Name → Option Dir
  finiteManifests : Maps.Finite manifests
  finiteDirs : Maps.Finite dirs
  credentials : List Credential
  containers : List Container
  routes : List AppRoute
  apps : Bool
  compose : Bool

def World.initial : World where
  manifests _ := none
  dirs _ := none
  finiteManifests := .none
  finiteDirs := .none
  credentials := []
  containers := []
  routes := []
  apps := false
  compose := false

/-- The names and published ports of the containers of a project, from its files. -/
abbrev Docker := Name → (File → Option String) → List (Name × List MappedPort)

def Dir.empty : Dir := ⟨fun _ => none, none, .none⟩

def Dir.set (d : Dir) (file : File) (content : Option String) : Dir :=
  { d with files := update d.files file content, finite := d.finite.update file content }

def Dir.entry (d : Dir) : DirEntry → Bool
  | some file => (d.files file).isSome
  | none => d.marker.isSome

def World.setManifest (w : World) (app : Name) (m : Option Manifest) : World :=
  { w with
    manifests := update w.manifests app m
    finiteManifests := w.finiteManifests.update app m }

def World.setDir (w : World) (app : Name) (d : Option Dir) : World :=
  { w with dirs := update w.dirs app d, finiteDirs := w.finiteDirs.update app d }

def World.file (w : World) (app : Name) (file : File) : Option String :=
  (w.dirs app).bind (·.files file)

def World.marker (w : World) (app : Name) : Option Transaction := (w.dirs app).bind (·.marker)

def World.withContainers (w : World) (containers : List Container) : World :=
  { w with containers }

def World.replaceProject (w : World) (project : Name) (containers : List (Name × List MappedPort)) :
    World :=
  w.withContainers (w.containers.filter (·.project ≠ some project) ++
    containers.map fun c => ⟨c.1, none, some project, c.2, c.2⟩)

variable {w : World} {d : Option Dir}

theorem setManifest_apply {app n : Name} {m : Option Manifest} :
    (w.setManifest app m).manifests n = if n = app then m else w.manifests n :=
  update_apply ..

theorem setDir_apply {app n : Name} : (w.setDir app d).dirs n = if n = app then d else w.dirs n :=
  update_apply ..

theorem Dir.set_apply {d : Dir} {file f : File} {content : Option String} :
    (d.set file content).files f = if f = file then content else d.files f :=
  update_apply ..

theorem setDir_setDir {app : Name} {d' : Option Dir} :
    (w.setDir app d).setDir app d' = w.setDir app d' := by
  simp [World.setDir]

theorem setDir_self {app : Name} (h : w.dirs app = d) : w.setDir app d = w := by
  simp only [World.setDir, ← h, update_eq_self]

theorem Dir.exists_entries (d : Dir) :
    ∃ entries : List DirEntry, entries.Nodup ∧ ∀ e, e ∈ entries ↔ d.entry e := by
  obtain ⟨files, hnodup, hfiles⟩ := d.finite.exists_list
  refine ⟨(if d.marker.isSome then [none] else []) ++ files.map some, ?_, fun e => ?_⟩
  · refine List.Nodup.append ?_ (hnodup.map (some_injective _)) ?_
    · split_ifs <;> simp
    · split_ifs <;> simp
  · cases e with
    | none => simp [Dir.entry]
    | some file => simp [Dir.entry, hfiles]

theorem dir_of_file {app : Name} {file : File} (h : (w.file app file).isSome) :
    ∃ d, w.dirs app = some d := by
  obtain ⟨content, hcontent⟩ := isSome_iff_exists.1 h
  obtain ⟨d, hd, -⟩ := bind_eq_some_iff.1 hcontent
  exact ⟨d, hd⟩

/-! ## Apps -/

def World.disabledReason (w : World) (app : Name) : Option String :=
  (w.manifests app).bind (·.proxyDisabledReason)

def World.projectPorts (w : World) (project : Name) : List MappedPort :=
  sortAndDedupPorts ((w.containers.filter (·.project = some project)).flatMap (·.ports))

def World.app (w : World) (name : Name) : Option App :=
  if validateAppName name = .ok () then
    match w.containers.find? (·.app = some name) with
    | some c => some ⟨name, .simple, sortAndDedupPorts c.ports, w.disabledReason name⟩
    | none =>
      if (w.manifests name).any (·.simple) then some ⟨name, .simple, [], w.disabledReason name⟩
      else if (w.file name .compose).isSome then
        some ⟨name, .compose, w.projectPorts name, w.disabledReason name⟩
      else none
  else none

def World.Lists (w : World) (apps : List App) : Prop :=
  (apps.map (·.name)).Nodup ∧ ∀ app, app ∈ apps ↔ w.app app.name = some app

section Lists

variable {w : World} {n : Name} {app : App}

theorem World.app_name (h : w.app n = some app) : app.name = n := by
  unfold World.app at h
  rw [ite_none_right_eq_some] at h
  obtain ⟨-, h⟩ := h
  split at h
  · cases h
    rfl
  · split_ifs at h <;> cases h <;> rfl

theorem World.app_source (h : w.app n = some app) :
    (∃ c ∈ w.containers, c.app = some n) ∨ (w.manifests n).isSome ∨ (w.dirs n).isSome := by
  unfold World.app at h
  rw [ite_none_right_eq_some] at h
  obtain ⟨-, h⟩ := h
  split at h
  · next c hc =>
    exact .inl ⟨c, List.mem_of_find?_eq_some hc, by simpa using List.find?_some hc⟩
  split_ifs at h with hsimple hcompose
  · obtain ⟨m, hm, -⟩ := (any_eq_true _ _).1 hsimple
    exact .inr (.inl (by rw [hm]; rfl))
  · obtain ⟨d, hd⟩ := dir_of_file hcompose
    exact .inr (.inr (by rw [hd]; rfl))

theorem World.lists_filterMap {names : List Name} (hnames : names.Nodup)
    (h : ∀ n app, w.app n = some app → n ∈ names) : w.Lists (names.filterMap w.app) := by
  constructor
  · have hmap : (names.filterMap w.app).map (·.name) = names.filter fun n => (w.app n).isSome := by
      rw [List.map_filterMap, ← List.filterMap_eq_filter]
      refine List.filterMap_congr fun n _ => ?_
      cases hn : w.app n with
      | none => simp [Option.guard, hn]
      | some app => simp [hn, World.app_name hn]
    rw [hmap]
    exact hnames.filter _
  intro app
  rw [List.mem_filterMap]
  constructor
  · rintro ⟨n, -, hn⟩
    rwa [World.app_name hn]
  · exact fun happ => ⟨app.name, h _ _ happ, happ⟩

end Lists

/-! ## Answers -/

/-- Docker publishes what it is asked to; for port 0 it takes a free one. -/
def Published (bindings ports : List MappedPort) : Prop :=
  List.Forall₂ (fun b p => p.containerPort = b.containerPort ∧ p.protocol = b.protocol ∧
    (b.hostPort ≠ 0 → p.hostPort = b.hostPort)) bindings ports

theorem published_self (bindings : List MappedPort) : Published bindings bindings :=
  List.forall₂_same.2 fun _ _ => ⟨rfl, rfl, fun _ => rfl⟩

def Effected {α ε : Type} (w : World) (effect : World → Prop) (r : Except ε α) (w' : World) :
    Prop :=
  (r.isOk ∧ effect w') ∨ (r.isOk = false ∧ w' = w)

variable (docker : Docker)

def Answers : (c : Cmd) → World → c.Answer → World → Prop
  | .lockApps, w, _, w' => w.apps = false ∧ w' = { w with apps := true }
  | .unlockApps, w, _, w' => w' = { w with apps := false }
  | .lockCompose, w, _, w' => w.compose = false ∧ w' = { w with compose := true }
  | .unlockCompose, w, _, w' => w' = { w with compose := false }
  | .manifestExists app, w, b, w' => w' = w ∧ b = (w.manifests app).isSome
  | .readManifest app, w, r, w' => w' = w ∧ ∀ m, r = .ok m → m = w.manifests app
  | .editManifest app edit, w, r, w' =>
    Effected w (· = w.setManifest app (edit.apply ((w.manifests app).getD .empty))) r w'
  | .clearProxyDisabledReason app, w, r, w' =>
    Effected w (· = w.setManifest app
      ((w.manifests app).map fun m => { m with proxyDisabledReason := none })) r w'
  | .removeManifest app, w, r, w' => Effected w (· = w.setManifest app none) r w'
  | .dirExists app, w, b, w' => w' = w ∧ b = (w.dirs app).isSome
  | .createDir app, w, r, w' =>
    Effected w (· = w.setDir app (some ((w.dirs app).getD .empty))) r w'
  | .readDir app, w, r, w' => w' = w ∧ ∀ entries, r = .ok entries →
      ∃ d, w.dirs app = some d ∧ entries.Nodup ∧ ∀ e, e ∈ entries ↔ d.entry e
  | .removeDir app, w, r, w' =>
    Effected w (fun w' => ∃ d, w.dirs app = some d ∧ (∀ e, d.entry e = false) ∧
      w' = w.setDir app none) r w'
  | .fileExists app file, w, b, w' => w' = w ∧ b = (w.file app file).isSome
  | .readFile app file, w, r, w' => w' = w ∧ ∀ content, r = .ok content → content = w.file app file
  | .writeFile app file content, w, r, w' =>
    Effected w (fun w' => ∃ d, w.dirs app = some d ∧
      w' = w.setDir app (some (d.set file (some content)))) r w'
  | .renameFile app old new, w, r, w' =>
    Effected w (fun w' => ∃ d content, w.dirs app = some d ∧ d.files old = some content ∧
      w' = w.setDir app (some ((d.set old none).set new (some content)))) r w'
  | .removeFile app file, w, r, w' =>
    Effected w (fun w' => ∃ d, w.dirs app = some d ∧ (d.files file).isSome ∧
      w' = w.setDir app (some (d.set file none))) r w'
  | .readMarker app, w, r, w' => w' = w ∧ ∀ t, r = .ok t → t = w.marker app
  | .writeMarker app staged t, w, r, w' =>
    Effected w (fun w' => ∃ d, w.dirs app = some d ∧
      w' = w.setDir app (some { d.set staged none with marker := some t })) r w'
  | .removeMarker app _, w, r, w' =>
    Effected w (fun w' => ∃ d, w.dirs app = some d ∧
      w' = w.setDir app (some { d with marker := none })) r w'
  | .loadCredentials, w, r, w' => w' = w ∧ ∀ l, r = .ok l → l = w.credentials
  | .newId, w, id, w' => w' = w ∧ id ∉ w.credentials.map (·.id)
  | .containerExists name, w, b, w' => w' = w ∧ (b ↔ ∃ c ∈ w.containers, c.name = name)
  | .createContainer name app bindings, w, r, w' =>
    Effected w (fun w' => (∀ c ∈ w.containers, c.name ≠ name) ∧
      w' = w.withContainers (w.containers ++ [⟨name, some app, none, bindings, []⟩])) r w'
  | .startContainer name, w, r, w' =>
    Effected w (fun w' => ∃ c ∈ w.containers, c.name = name ∧ ∃ ports, Published c.bindings ports ∧
      w' = w.withContainers (w.containers.map fun c =>
        if c.name = name then { c with ports } else c)) r w'
  | .removeContainer name, w, r, w' =>
    Effected w (· = w.withContainers (w.containers.filter (·.name ≠ name))) r w'
  | .mappedPort name port, w, r, w' => w' = w ∧ ∀ p, r = some p → ∃ c ∈ w.containers,
      c.name = name ∧ ∃ m ∈ c.ports, m.tcp ∧ m.containerPort = port ∧ m.hostPort = p
  | .projectContainers project, w, r, w' =>
    w' = w ∧ ∀ b, r = .ok b → (b ↔ ∃ c ∈ w.containers, c.project = some project)
  | .removeProject project, w, r, w' | .composeDown project, w, r, w' =>
    Effected w (· = w.replaceProject project []) r w'
  | .composeUp project, w, r, w' => (∃ d, w.dirs project = some d ∧ ∃ d' containers,
      d'.marker = d.marker ∧ (∀ f, (∀ n, f ≠ .other n) → d'.files f = d.files f) ∧
      (r.isOk → containers = docker project d.files) ∧
      w' = (w.replaceProject project containers).setDir project (some d')) ∨
      (r.isOk = false ∧ w' = w)
  | .listApps, w, r, w' => w' = w ∧ ∀ l, r = .ok l → w.Lists l
  | .listRoutes, w, r, w' => w' = w ∧ ∀ l, r = .ok l → l = w.routes
  | .putRoute route, w, r, w' =>
    Effected w (fun w' => route.name ∉ w.routes.map (·.name) ∧
      w' = { w with routes := route :: w.routes }) r w'
  | .removeRoute app, w, r, w' =>
    Effected w (· = { w with routes := w.routes.filter (·.name ≠ app) }) r w'
  | .usedHostPorts, w, ports, w' => w' = w ∧ ∀ p ∈ ports, ∃ n app, w.app n = some app ∧
      ∃ m ∈ app.ports, m.hostPort = p
  | .requireReady, w, _, w' | .detectCrash _, w, _, w' | .resolveNetwork _, w, _, w'
  | .findServer, w, _, w' | .probe _, w, _, w' | .other .., w, _, w' => w' = w

end Nasty.Apps
