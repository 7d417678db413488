import Nasty.Apps.World

/-!
# Runs without failures

The steps of Docker, Caddy and the filesystem succeed wherever they can. Most commands then have
one answer and one effect, and a process can be run through on its code: for each command there is
a rule that says what is left to show after it.
-/

namespace Nasty.Apps

open Proc Proc

variable (docker : Docker)

/-- The steps of Docker, Caddy and the filesystem succeed; a container may still crash. -/
def Succeeds : (c : Cmd) → c.Answer → Prop
  | .readManifest _, r => r.isOk
  | .readDir _, r => r.isOk
  | .readFile .., r => r.isOk
  | .readMarker _, r => r.isOk
  | .loadCredentials, r => r.isOk
  | .mappedPort .., r => r.isSome
  | .projectContainers _, r => r.isOk
  | .listApps, r => r.isOk
  | .listRoutes, r => r.isOk
  | .editManifest .., r | .clearProxyDisabledReason _, r | .removeManifest _, r | .createDir _, r
  | .removeDir _, r | .writeFile .., r | .renameFile .., r | .removeFile .., r | .writeMarker .., r
  | .removeMarker .., r | .createContainer .., r | .startContainer _, r | .removeContainer _, r
  | .removeProject _, r | .composeUp _, r | .composeDown _, r | .findServer, r | .putRoute _, r
  | .removeRoute _, r => r.isOk
  | .other what _, r => what = "sync" → r.isOk
  | _, _ => True

/-- A step fails only where none of its kind can succeed: the file to be removed is not there. -/
def Succeeding (c : Cmd) (w : World) (r : c.Answer) (w' : World) : Prop :=
  Answers docker c w r w' ∧ (Succeeds c r ∨ ∀ r' t, Answers docker c w r' t → ¬ Succeeds c r')

def succeeding : Contract Cmd Cmd.Answer World := ⟨fun _ _ => True, Succeeding docker⟩

variable {docker} {w w' : World} {r : Except String Unit}

/-- The effect takes place, or the step fails because it cannot. -/
def Achieved (w : World) (effect : World → Prop) (r : Except String Unit) (w' : World) : Prop :=
  Effected w effect r w' ∧
    (r.isOk ∨ ∀ (r' : Except String Unit) t, Effected w effect r' t → ¬ r'.isOk)

theorem achieved_iff (effect : World → Prop) : Achieved w effect r w' ↔
    (r = .ok () ∧ effect w') ∨ ((∃ e, r = .error e) ∧ w' = w ∧ ∀ t, ¬ effect t) := by
  have hstuck : (∀ (r' : Except String Unit) t, Effected w effect r' t → ¬ r'.isOk) ↔
      ∀ t, ¬ effect t := by
    refine ⟨fun h t ht => h (.ok ()) t (.inl ⟨rfl, ht⟩) rfl, fun h r' t ht => ?_⟩
    rcases ht with ⟨-, ht⟩ | ⟨herr, -⟩
    · exact absurd ht (h t)
    · simp [herr]
  rw [Achieved, hstuck]
  cases r with
  | ok _ =>
    have hok : (Except.ok () : Except String Unit).isOk = true := rfl
    simp [Effected, hok]
  | error e =>
    have herr : (Except.error e : Except String Unit).isOk = false := rfl
    simp [Effected, herr]

variable {t : World} {c : Cmd} {Q : Except AppsError c.Answer → World → Prop}

theorem achieved_of_iff {effect : World → Prop} (h : ∀ u, effect u ↔ u = t) :
    Achieved w effect r w' ↔ r = .ok () ∧ w' = t := by
  rw [achieved_iff, h]
  exact or_iff_left fun hnone => hnone.2.2 t ((h t).2 rfl)

theorem achieved_eq_iff : Achieved w (· = t) r w' ↔ r = .ok () ∧ w' = t :=
  achieved_of_iff fun _ => Iff.rfl

theorem answered_iff {ε β : Type} {x : β} {r : Except ε β} :
    ((w' = w ∧ ∀ y, r = .ok y → y = x) ∧ (r.isOk ∨ ∀ (r' : Except ε β) t,
      (t = w ∧ ∀ y, r' = .ok y → y = x) → ¬ r'.isOk)) ↔ r = .ok x ∧ w' = w := by
  cases r with
  | ok y =>
    have hok : (Except.ok y : Except ε β).isOk = true := rfl
    simp only [Except.ok.injEq, forall_eq', hok, true_or, and_true]
    exact and_comm
  | error e =>
  refine iff_of_false ?_ (by simp)
  rintro ⟨-, h | h⟩
  · cases h
  · refine h (.ok x) w ⟨rfl, ?_⟩ rfl
    rintro _ ⟨⟩
    rfl

theorem wp_run_of_guarded {g : Prop} {r : c.Answer}
    (h : ∀ r' t', Succeeding docker c w r' t' ↔ g ∧ r' = r ∧ t' = t) :
    (run c).wp (succeeding docker) Q w ↔ (g → Q (.ok r) t) := by
  constructor
  · exact fun hw hg => hw.2 r t ((h r t).2 ⟨hg, rfl, rfl⟩)
  intro hw
  refine ⟨trivial, fun r' t' ht => ?_⟩
  obtain ⟨hg, rfl, rfl⟩ := (h r' t').1 ht
  exact hw hg

theorem wp_run_of_iff {r : c.Answer} (h : ∀ r' t', Succeeding docker c w r' t' ↔ r' = r ∧ t' = t) :
    (run c).wp (succeeding docker) Q w ↔ Q (.ok r) t :=
  (wp_run_of_guarded fun r' t' => by rw [h, true_and]).trans true_imp_iff

theorem wp_run_of_any (h : ∀ r t, Succeeding docker c w r t ↔ t = w) :
    (run c).wp (succeeding docker) Q w ↔ ∀ r, Q (.ok r) w := by
  constructor
  · exact fun hw r => hw.2 r w ((h r w).2 rfl)
  intro hw
  refine ⟨trivial, fun r t ht => ?_⟩
  rw [(h r t).1 ht]
  exact hw r

section Steps

-- made once here: the equations of `Answers` are many
attribute [local simp] Answers

variable {app project name : Name} {file : File}

theorem wp_lockCompose {Q} :
    wp (α := Unit) (succeeding docker) Q (run .lockCompose) w ↔
      (w.compose = false → Q (.ok ()) { w with compose := true }) := by
  refine wp_run_of_guarded fun r t => ?_
  exact (and_iff_left (.inl trivial)).trans (and_congr_right fun _ => (and_iff_right rfl).symm)

theorem wp_unlockCompose {Q} :
    wp (α := Unit) (succeeding docker) Q (run .unlockCompose) w ↔
      Q (.ok ()) { w with compose := false } :=
  wp_run_of_iff fun _ _ => (and_iff_left (.inl trivial)).trans (and_iff_right rfl).symm

@[simp] theorem wp_requireReady {Q} :
    wp (α := Except AppsError Unit) (succeeding docker) Q (run .requireReady) w ↔
      ∀ r, Q (.ok r) w :=
  wp_run_of_any fun _ _ => and_iff_left (.inl trivial)

@[simp] theorem wp_manifestExists {Q} :
    wp (α := Bool) (succeeding docker) Q (run (.manifestExists app)) w ↔
      Q (.ok (w.manifests app).isSome) w :=
  wp_run_of_iff fun _ _ => (and_iff_left (.inl trivial)).trans and_comm

@[simp] theorem wp_editManifest {edit : Edit} {Q} :
    wp (α := Except String Unit) (succeeding docker) Q (run (.editManifest app edit)) w ↔
      Q (.ok (.ok ())) (w.setManifest app (edit.apply ((w.manifests app).getD .empty))) :=
  wp_run_of_iff fun _ _ => achieved_eq_iff

@[simp] theorem wp_removeManifest {Q} :
    wp (α := Except String Unit) (succeeding docker) Q (run (.removeManifest app)) w ↔
      Q (.ok (.ok ())) (w.setManifest app none) :=
  wp_run_of_iff fun _ _ => achieved_eq_iff

@[simp] theorem wp_dirExists {Q} :
    wp (α := Bool) (succeeding docker) Q (run (.dirExists app)) w ↔
      Q (.ok (w.dirs app).isSome) w :=
  wp_run_of_iff fun _ _ => (and_iff_left (.inl trivial)).trans and_comm

@[simp] theorem wp_fileExists {Q} :
    wp (α := Bool) (succeeding docker) Q (run (.fileExists app file)) w ↔
      Q (.ok (w.file app file).isSome) w :=
  wp_run_of_iff fun _ _ => (and_iff_left (.inl trivial)).trans and_comm

variable {d : Dir}

section

variable (hd : w.dirs app = some d)
include hd

theorem wp_readDir {Q}
    (h : ∀ entries, entries.Nodup → (∀ e, e ∈ entries ↔ d.entry e) → Q (.ok (.ok entries)) w) :
    wp (α := Except String (List DirEntry)) (succeeding docker) Q (run (.readDir app)) w := by
  refine ⟨trivial, ?_⟩
  rintro (e | entries) t ⟨⟨rfl, hentries⟩, hok⟩
  · obtain ⟨entries, hnodup, hmem⟩ := d.exists_entries
    rcases hok with hok | hok
    · cases hok
    · refine absurd rfl (hok (.ok entries) t ⟨rfl, ?_⟩)
      rintro _ ⟨⟩
      exact ⟨d, hd, hnodup, hmem⟩
  · obtain ⟨d', hd', hnodup, hmem⟩ := hentries entries rfl
    obtain rfl : d = d' := Option.some.inj (hd.symm.trans hd')
    exact h entries hnodup hmem

theorem wp_removeDir (hempty : ∀ e, d.entry e = false) {Q} :
    wp (α := Except String Unit) (succeeding docker) Q (run (.removeDir app)) w ↔
      Q (.ok (.ok ())) (w.setDir app none) := by
  refine wp_run_of_iff fun r t => ?_
  rw [Succeeding, Answers]
  exact achieved_of_iff fun u => by simp [hd, hempty]

theorem wp_removeFile (hfile : (d.files file).isSome) {Q} :
    wp (α := Except String Unit) (succeeding docker) Q (run (.removeFile app file)) w ↔
      Q (.ok (.ok ())) (w.setDir app (some (d.set file none))) := by
  refine wp_run_of_iff fun r t => ?_
  rw [Succeeding, Answers]
  exact achieved_of_iff fun u => by simp [hd, hfile]

theorem wp_removeMarker {finish : Finish} {Q} :
    wp (α := Except String Unit) (succeeding docker) Q (run (.removeMarker app finish)) w ↔
      Q (.ok (.ok ())) (w.setDir app (some { d with marker := none })) := by
  refine wp_run_of_iff fun r t => ?_
  rw [Succeeding, Answers]
  exact achieved_of_iff fun u => by simp [hd]

end

@[simp] theorem wp_containerExists {Q} :
    wp (α := Bool) (succeeding docker) Q (run (.containerExists name)) w ↔
      Q (.ok (w.containers.any (·.name = name))) w := by
  refine wp_run_of_iff fun b t => (and_iff_left (.inl trivial)).trans (and_comm.trans ?_)
  refine and_congr_left fun _ => ?_
  rw [Bool.eq_iff_iff (b := List.any _ _)]
  simp

@[simp] theorem wp_projectContainers {Q} :
    wp (α := Except String Bool) (succeeding docker) Q (run (.projectContainers project)) w ↔
      Q (.ok (.ok (w.containers.any (·.project = some project)))) w := by
  have hany (b : Bool) : (b ↔ ∃ c ∈ w.containers, c.project = some project) ↔
      b = w.containers.any (·.project = some project) := by
    rw [Bool.eq_iff_iff (b := List.any _ _)]
    simp
  refine wp_run_of_iff fun r t => Iff.trans ?_ answered_iff
  simp only [Succeeding, Answers, Succeeds, hany]

@[simp] theorem wp_removeContainer {Q} :
    wp (α := Except String Unit) (succeeding docker) Q (run (.removeContainer name)) w ↔
      Q (.ok (.ok ())) (w.withContainers (w.containers.filter (·.name ≠ name))) :=
  wp_run_of_iff fun _ _ => achieved_eq_iff

@[simp] theorem wp_composeDown {Q} :
    wp (α := Except String Unit) (succeeding docker) Q (run (.composeDown project)) w ↔
      Q (.ok (.ok ())) (w.replaceProject project []) :=
  wp_run_of_iff fun _ _ => achieved_eq_iff

@[simp] theorem wp_listRoutes {Q} :
    wp (α := Except String (List AppRoute)) (succeeding docker) Q (run .listRoutes) w ↔
      Q (.ok (.ok w.routes)) w :=
  wp_run_of_iff fun _ _ => answered_iff

@[simp] theorem wp_removeRoute {Q} :
    wp (α := Except String Unit) (succeeding docker) Q (run (.removeRoute app)) w ↔
      Q (.ok (.ok ())) { w with routes := w.routes.filter (·.name ≠ app) } :=
  wp_run_of_iff fun _ _ => achieved_eq_iff

end Steps

end Nasty.Apps
