import Nasty.Backup.Persist
import Nasty.Lib.Lists
import Nasty.Lib.Lts

/-!
# The backup service: operations on profiles

Every operation computes the list it wants to store from the list in memory (`Plan`) and hands it
to `persistProfilesChecked`. Between reading a profile and taking the lock other calls may run, so
the profile read first (`existing`, `initialized`, `executed`) is an input of the locked part.

`createProfile` refuses an id or a name that is taken. `updateProfile` stores the record it is
given: ids and names stay distinct exactly as long as the record keeps the id it is stored under
and takes no other profile's name.
-/

namespace Nasty.Backup.Service

open Cron Lts List

variable {τ : Type} [LinearOrder τ]

structure Call (τ : Type) where
  secrets : Secrets
  now : τ
  faults : Faults

section Operations

variable (env : Env τ) (json : Json) (call : Call τ)

def World.store {α : Type} (faults : Faults) (next : List BackupProfile) (answer : α)
    (w : World) : Except BackupError α × World :=
  let (persistence, w') := w.persistProfilesChecked json faults next
  ((persistence.mapError StatePersistFailure.toBackupError).map fun _ => answer, w')

def World.getProfileInternal (w : World) (id : String) : Except BackupError BackupProfile :=
  match w.profiles.find? (·.id = id) with
  | some p => .ok p
  | none => .error (.notFound id)

def World.getProfile (w : World) (id : String) : Except BackupError BackupProfile :=
  (w.getProfileInternal id).map (·.redacted env.url)

def checkSubmitted (p : BackupProfile) : Except BackupError BackupProfile := do
  validateSources p.sources
  validateB2Target p.target
  let schedule ← normalizeSchedule env.crate call.now p.schedule
  .ok { p with schedule }

def withNormalizedTarget (p : BackupProfile) : BackupProfile :=
  { p with target := (normalizeRestUrlUserinfo env.url p.target).2 }

/-- `create_profile` before it takes the lock. -/
def prepareCreate (uuid : String) (profile : BackupProfile) :
    Except BackupError BackupProfile := do
  let p ← checkSubmitted env call profile
  let p := if p.id = "" then { p with id := uuid } else p
  validateTrustedCacert p
  .ok (encryptProfileSecretsInPlace call.secrets (withNormalizedTarget env p))

def createProfile (uuid : String) (profile : BackupProfile) (w : World) :
    Except BackupError BackupProfile × World :=
  match prepareCreate env call uuid profile with
  | .error error => (.error error, w)
  | .ok profile =>
    if w.profiles.any fun p => p.id = profile.id ∨ p.name = profile.name then
      (.error (.alreadyExists profile.name), w)
    else w.store json call.faults (w.profiles ++ [profile]) (profile.redacted env.url)

/-- `update_profile` between its first checks and the lock. -/
def prepareUpdate (update existing : BackupProfile) : Except BackupError BackupProfile := do
  let p := carryForwardExistingSecrets (withNormalizedTarget env update) existing
  let p := invalidateLastRunIfDefinitionChanged p existing
  validateTrustedCacert p
  .ok (encryptProfileSecretsInPlace call.secrets p)

/-- `update_profile` under the lock. -/
def commitUpdate (id : String) (update : BackupProfile) (w : World) :
    Except BackupError BackupProfile × World :=
  if w.profiles.any (·.id = id) then
    w.store json call.faults (w.profiles.modifyFirst (·.id = id) fun _ => update)
      (update.redacted env.url)
  else (.error (.notFound id), w)

/-- `update_profile` once it has read `existing`. -/
def updateFrom (id : String) (update existing : BackupProfile) (w : World) :
    Except BackupError BackupProfile × World :=
  match prepareUpdate env call update existing with
  | .error error => (.error error, w)
  | .ok update => commitUpdate env json call id update w

def updateProfile (id : String) (update : BackupProfile) (w : World) :
    Except BackupError BackupProfile × World :=
  match checkSubmitted env call update with
  | .error error => (.error error, w)
  | .ok update =>
    match w.getProfileInternal id with
    | .error error => (.error error, w)
    | .ok existing => updateFrom env json call id update existing w

def deleteProfile (id : String) (w : World) : Except BackupError Unit × World :=
  if w.profiles.any (·.id = id) then
    w.store json call.faults (w.profiles.filter (·.id ≠ id)) ()
  else (.error (.notFound id), w)

/-- `init_repo` after the repository was initialized for `initialized`. -/
def recordInit (id : String) (initialized : BackupProfile) (w : World) :
    Except BackupError Unit × World :=
  match w.getProfileInternal id with
  | .error error => (.error error, w)
  | .ok current =>
    if backupDefinitionMatches current initialized then
      w.store json call.faults
        (w.profiles.modifyFirst (·.id = id) fun p => { p with repoInitialized := true }) ()
    else
      (.error (.failed ("profile changed during repository initialization; " ++
        "initialize the current target again")), w)

def recordingFailed (result : BackupRunResult) (error : BackupError) : BackupError :=
  let message :=
    if result.success then "backup data was written, but recording its result failed; " ++
      "automatic pruning was skipped"
    else "the backup failed, and recording its result also failed"
  .failed s!"{message}: {error.message}"

/-- `run_backup` after the run of `executed` ended with `result`. -/
def recordRun (id : String) (executed : BackupProfile) (result : BackupRunResult) (w : World) :
    Except BackupError Unit × World :=
  let unchanged := fun p : BackupProfile => decide (p.id = id) && backupDefinitionMatches p executed
  if w.profiles.any unchanged then
    let (stored, w') := w.store json call.faults
      (w.profiles.modifyFirst unchanged fun p => { p with lastRun := some result }) ()
    (stored.mapError (recordingFailed result), w')
  else (.ok (), w)

def secretsSet (p : BackupProfile) : Bool × Bool :=
  (p.passwordEncrypted.isSome, encryptedTargetSet p.target)

def migrateProfile (p : BackupProfile) : Bool × BackupProfile :=
  let normalized := withNormalizedTarget env p
  let sealed := encryptProfileSecretsInPlace call.secrets normalized
  ((normalizeRestUrlUserinfo env.url p.target).1 || secretsSet normalized != secretsSet sealed,
    sealed)

def migrateSecrets (w : World) : Except BackupError Unit × World :=
  if w.profiles.any fun p => (migrateProfile env call p).1 then
    w.store json call.faults (w.profiles.map fun p => (migrateProfile env call p).2) ()
  else (.ok (), w)

end Operations

/-! ## The system -/

inductive Event (τ : Type)
  | create (call : Call τ) (uuid : String) (profile : BackupProfile)
  | update (call : Call τ) (id : String) (update existing : BackupProfile)
  | delete (call : Call τ) (id : String)
  | recordInit (call : Call τ) (id : String) (initialized : BackupProfile)
  | recordRun (call : Call τ) (id : String) (executed : BackupProfile) (result : BackupRunResult)
  | migrate (call : Call τ)
  | restart (faults : Faults)

def World.next (env : Env τ) (json : Json) (w : World) : Event τ → World
  | .create call uuid profile => (createProfile env json call uuid profile w).2
  | .update call id update existing =>
    match checkSubmitted env call update with
    | .error _ => w
    | .ok update => (updateFrom env json call id update existing w).2
  | .delete call id => (deleteProfile json call id w).2
  | .recordInit call id initialized => (Service.recordInit json call id initialized w).2
  | .recordRun call id executed result => (Service.recordRun json call id executed result w).2
  | .migrate call => (migrateSecrets env json call w).2
  | .restart faults => .new json faults w.disk

def Step (env : Env τ) (json : Json) (w : World) (e : Event τ) (w' : World) : Prop :=
  w.next env json e = w'

def Event.faults : Event τ → Faults
  | .create call .. | .update call .. | .delete call _ | .recordInit call .. | .recordRun call ..
  | .migrate call => call.faults
  | .restart faults => faults

/-- The list that an operation stores in place of `ps`, by what it does to ids and names. -/
inductive Plan : Event τ → List BackupProfile → List BackupProfile → Prop
  | added {call uuid profile ps p} (hfresh : ∀ q ∈ ps, q.id ≠ p.id ∧ q.name ≠ p.name) :
      Plan (.create call uuid profile) ps (ps ++ [p])
  | changed {call id update existing ps p} (hid : p.id = update.id) (hname : p.name = update.name)
      (hfound : ∃ q ∈ ps, q.id = id) :
      Plan (.update call id update existing) ps (ps.modifyFirst (·.id = id) fun _ => p)
  | removed {call id ps} : Plan (.delete call id) ps (ps.filter (·.id ≠ id))
  | rewritten {e ps next} (hids : next.map (·.id) = ps.map (·.id))
      (hnames : next.map (·.name) = ps.map (·.name)) : Plan e ps next

inductive Effect (json : Json) (w : World) (e : Event τ) (w' : World) : Prop
  | kept (hprofiles : w'.profiles = w.profiles) (herror : w'.stateLoadError = w.stateLoadError)
      (hcontent : w'.disk.content = w.disk.content)
  | replaced {next stored text} (hplan : Plan e w.profiles next)
      (hhealthy : w.stateLoadError = none)
      (hstored : loadProfilesFrom json e.faults.read w.disk = .ok stored)
      (htext : json.encode next = .ok text) (hprofiles : w'.profiles = next)
      (herror : w'.stateLoadError = none) (hcontent : w'.disk.content = some text.toUTF8)
  | restarted {faults} (hevent : e = .restart faults) (hnew : w' = .new json faults w.disk)

variable {env : Env τ} {json : Json} {call : Call τ} {w w' : World} {e : Event τ} {id : String}
  {update existing : BackupProfile}

omit [LinearOrder τ] in
theorem effect_of_same (h : w = w') : Effect json w e w' :=
  .kept (h ▸ rfl) (h ▸ rfl) (h ▸ rfl)

omit [LinearOrder τ] in
theorem effect_of_store {next : List BackupProfile}
    (h : (w.persistProfilesChecked json e.faults next).2 = w') (hplan : Plan e w.profiles next) :
    Effect json w e w' := by
  have hpersisted := persisted json e.faults next w
  rw [h] at hpersisted
  generalize (w.persistProfilesChecked json e.faults next).1 = persistence at hpersisted
  cases hpersisted with
  | kept _ hprofiles herror hcontent => exact .kept hprofiles herror hcontent
  | replaced _ hhealthy hstored htext hprofiles herror hcontent =>
    exact .replaced hplan hhealthy hstored htext hprofiles herror hcontent

omit [LinearOrder τ] in
theorem Plan.touched {ps : List BackupProfile} {p : BackupProfile → Bool}
    {f : BackupProfile → BackupProfile} (hf : ∀ a, (f a).id = a.id ∧ (f a).name = a.name) :
    Plan e ps (ps.modifyFirst p f) :=
  .rewritten (map_modifyFirst (fun a => (hf a).1) ps)
    (map_modifyFirst (fun a => (hf a).2) ps)

variable {p : BackupProfile}

theorem checkSubmitted_spec (h : checkSubmitted env call update = .ok p) :
    ∃ schedule, p = { update with schedule } := by
  unfold checkSubmitted at h
  obtain ⟨-, h⟩ := Except.rest_ok h
  obtain ⟨-, h⟩ := Except.rest_ok h
  obtain ⟨schedule, h⟩ := Except.rest_ok h
  exact ⟨schedule, (Except.ok.inj h).symm⟩

theorem prepareUpdate_spec (h : prepareUpdate env call update existing = .ok p) :
    ∃ lastRun, p = encryptProfileSecretsInPlace call.secrets
      { carryForwardExistingSecrets (withNormalizedTarget env update) existing with lastRun } := by
  unfold prepareUpdate invalidateLastRunIfDefinitionChanged at h
  obtain ⟨-, h⟩ := Except.rest_ok h
  cases h
  split
  · exact ⟨_, rfl⟩
  · exact ⟨none, rfl⟩

theorem stored_keys {checked p : BackupProfile}
    (hcheck : checkSubmitted env call update = .ok checked)
    (hprepare : prepareUpdate env call checked existing = .ok p) :
    p.id = update.id ∧ p.name = update.name := by
  obtain ⟨schedule, rfl⟩ := checkSubmitted_spec hcheck
  obtain ⟨lastRun, rfl⟩ := prepareUpdate_spec hprepare
  exact ⟨rfl, rfl⟩

theorem effect_of_create {uuid : String} {profile : BackupProfile}
    (h : (createProfile env json call uuid profile w).2 = w') :
    Effect json w (.create call uuid profile) w' := by
  unfold createProfile at h
  split at h
  case h_1 => exact effect_of_same h
  case h_2 p _ =>
    split_ifs at h with htaken
    · exact effect_of_same h
    · refine effect_of_store h (.added fun q hq => ?_)
      rw [← not_or]
      exact fun hkey => htaken (any_eq_true.2 ⟨q, hq, decide_eq_true hkey⟩)

theorem effect_of_update {update' : BackupProfile}
    (hcheck : checkSubmitted env call update = .ok update')
    (h : (updateFrom env json call id update' existing w).2 = w') :
    Effect json w (.update call id update existing) w' := by
  unfold updateFrom at h
  split at h
  case h_1 => exact effect_of_same h
  case h_2 p hprepare =>
    unfold commitUpdate at h
    split_ifs at h with hfound
    · obtain ⟨hid, hname⟩ := stored_keys hcheck hprepare
      refine effect_of_store h (.changed hid hname ?_)
      simpa using hfound
    · exact effect_of_same h

omit [LinearOrder τ] in
theorem effect_of_recordInit (h : (recordInit json call id existing w).2 = w') :
    Effect json w (.recordInit call id existing) w' := by
  unfold recordInit at h
  split at h
  case h_1 => exact effect_of_same h
  case h_2 =>
    split_ifs at h
    · exact effect_of_store h (.touched fun _ => ⟨rfl, rfl⟩)
    · exact effect_of_same h

omit [LinearOrder τ] in
theorem effect_of_recordRun {result : BackupRunResult}
    (h : (recordRun json call id existing result w).2 = w') :
    Effect json w (.recordRun call id existing result) w' := by
  unfold recordRun at h
  dsimp only at h
  split_ifs at h
  · exact effect_of_store h
      (.touched fun _ => ⟨rfl, rfl⟩)
  · exact effect_of_same h

theorem effect_of_step (hstep : Step env json w e w') : Effect json w e w' := by
  cases e with
  | create call uuid profile => exact effect_of_create hstep
  | update call id update existing =>
    simp only [Step, World.next] at hstep
    split at hstep
    case h_1 => exact effect_of_same hstep
    case h_2 hcheck => exact effect_of_update hcheck hstep
  | delete call id =>
    simp only [Step, World.next, deleteProfile] at hstep
    split_ifs at hstep
    · exact effect_of_store hstep .removed
    · exact effect_of_same hstep
  | recordInit call id initialized => exact effect_of_recordInit hstep
  | recordRun call id executed result => exact effect_of_recordRun hstep
  | migrate call =>
    simp only [Step, World.next, migrateSecrets] at hstep
    split_ifs at hstep
    · exact effect_of_store hstep
        (.rewritten (map_map ..) (map_map ..))
    · exact effect_of_same hstep
  | restart faults => exact .restarted rfl hstep.symm

/-! ## Ids and names -/

structure Distinct (ps : List BackupProfile) : Prop where
  ids : (ps.map (·.id)).Nodup
  names : (ps.map (·.name)).Nodup

/-- A stored update keeps the id it is stored under and takes no other profile's name. -/
def KeepsKeys (ps : List BackupProfile) (id : String) (update : BackupProfile) : Prop :=
  update.id = id ∧ ∀ p ∈ ps, p.id ≠ id → p.name ≠ update.name

def Event.KeepsKeys (w : World) : Event τ → Prop
  | .update _ id update _ => Service.KeepsKeys w.profiles id update
  | _ => True

variable {ps next : List BackupProfile}

theorem Distinct.eq_of_id (h : Distinct ps) {p q : BackupProfile} (hp : p ∈ ps) (hq : q ∈ ps)
    (hid : p.id = q.id) : p = q :=
  inj_on_of_nodup_map h.ids hp hq hid

theorem Distinct.changed (h : Distinct ps) (hp : KeepsKeys ps id p) :
    Distinct (ps.modifyFirst (·.id = id) fun _ => p) := by
  have hother : ∀ a ∈ ps, a.id = id → ∀ b ∈ ps, b ≠ a → b.id ≠ id := fun a ha haid b hb hne hbid =>
    hne (h.eq_of_id hb ha (hbid.trans haid.symm))
  constructor
  · refine nodup_map_modifyFirst h.ids fun a ha haid b hb hne => ?_
    rw [hp.1]
    exact hother a ha (of_decide_eq_true haid) b hb hne
  · refine nodup_map_modifyFirst h.names fun a ha haid b hb hne => ?_
    exact hp.2 b hb (hother a ha (of_decide_eq_true haid) b hb hne)

theorem Distinct.added (h : Distinct ps)
    (hfresh : ∀ q ∈ ps, q.id ≠ p.id ∧ q.name ≠ p.name) : Distinct (ps ++ [p]) := by
  constructor <;> rw [map_append]
  · refine List.Pairwise.concat h.ids fun key hkey => ?_
    obtain ⟨q, hq, rfl⟩ := mem_map.1 hkey
    exact (hfresh q hq).1
  · refine List.Pairwise.concat h.names fun key hkey => ?_
    obtain ⟨q, hq, rfl⟩ := mem_map.1 hkey
    exact (hfresh q hq).2

theorem Distinct.removed (h : Distinct ps) : Distinct (ps.filter (·.id ≠ id)) :=
  ⟨h.ids.sublist (filter_sublist.map _), h.names.sublist (filter_sublist.map _)⟩

omit [LinearOrder τ] in
theorem Distinct.plan (h : Distinct w.profiles) (hplan : Plan e w.profiles next)
    (hkeys : e.KeepsKeys w) : Distinct next := by
  cases hplan with
  | added hfresh => exact h.added hfresh
  | @changed _ id update _ _ p hid hname _ =>
    refine h.changed ⟨hid.trans hkeys.1, fun q hq hne => ?_⟩
    rw [hname]
    exact hkeys.2 q hq hne
  | removed => exact h.removed
  | rewritten hids hnames => exact ⟨hids ▸ h.ids, hnames ▸ h.names⟩

structure KeysInv (json : Json) (w : World) : Prop where
  memory : Distinct w.profiles
  file : ∀ ps, loadProfilesFrom json none w.disk = .ok ps → Distinct ps

theorem keysInv_new {disk : Disk} (faults : Faults)
    (hfile : ∀ ps, loadProfilesFrom json none disk = .ok ps → Distinct ps) :
    KeysInv json (.new json faults disk) := by
  obtain ⟨hcontent, hload⟩ := World.new_spec json faults disk
  constructor
  · rcases hload with ⟨hload, -⟩ | ⟨hempty, -⟩
    · exact hfile _ hload
    · rw [hempty]
      exact ⟨nodup_nil, nodup_nil⟩
  · rw [loadProfilesFrom_congr hcontent]
    exact hfile

omit [LinearOrder τ] in
theorem KeysInv.effect (h : KeysInv json w) (heffect : Effect json w e w') (hkeys : e.KeepsKeys w) :
    KeysInv json w' := by
  cases heffect with
  | kept hprofiles _ hcontent =>
    refine ⟨hprofiles ▸ h.memory, ?_⟩
    rw [loadProfilesFrom_congr hcontent]
    exact h.file
  | replaced hplan _ _ htext hprofiles _ hcontent =>
    have hnext := h.memory.plan hplan hkeys
    refine ⟨hprofiles ▸ hnext, fun ps hps => ?_⟩
    rw [load_encoded htext hcontent] at hps
    exact Except.ok.inj hps ▸ hnext
  | restarted _ hnew => exact hnew ▸ keysInv_new _ h.file

theorem keysInv_run {start : World} {es : List (Event τ)} (hstart : KeysInv json start)
    (hrun : Run (fun w e w' => Step env json w e w' ∧ e.KeepsKeys w) start es w) : KeysInv json w :=
  hrun.inv hstart fun _ _ _ h hstep => h.effect (effect_of_step hstep.1) hstep.2

theorem id_of_find? (h : ps.find? (·.id = id) = some p) : p.id = id := by
  simpa using find?_some h

theorem getProfileInternal_eq_ok :
    w.getProfileInternal id = .ok p ↔ w.profiles.find? (·.id = id) = some p := by
  unfold World.getProfileInternal
  cases w.profiles.find? (·.id = id) <;> simp

theorem updateProfile_cases (env : Env τ) (json : Json) (call : Call τ) (id : String)
    (update : BackupProfile) (w : World) :
    (∃ error, updateProfile env json call id update w = (.error error, w)) ∨
    ∃ checked existing p, checkSubmitted env call update = .ok checked ∧
      w.profiles.find? (·.id = id) = some existing ∧
      prepareUpdate env call checked existing = .ok p ∧
      updateProfile env json call id update w =
        w.store json call.faults (w.profiles.modifyFirst (·.id = id) fun _ => p)
          (p.redacted env.url) := by
  unfold updateProfile World.getProfileInternal updateFrom
  rcases hcheck : checkSubmitted env call update with error | checked
  · exact .inl ⟨error, rfl⟩
  rcases hfind : w.profiles.find? (·.id = id) with _ | existing
  · exact .inl ⟨.notFound id, by simp only [hfind]⟩
  rcases hprepare : prepareUpdate env call checked existing with error | p
  · exact .inl ⟨error, by simp only [hfind, hprepare]⟩
  have hany : w.profiles.any (·.id = id) :=
    any_eq_true.2 ⟨existing, mem_of_find?_eq_some hfind,
      decide_eq_true (id_of_find? hfind)⟩
  refine .inr ⟨checked, existing, p, rfl, hfind, hprepare, ?_⟩
  simp only [hfind, hprepare, commitUpdate, hany, if_true]

omit [LinearOrder τ] in
theorem World.store_stored {α : Type} {faults : Faults} {answer : α} {r : Except BackupError α}
    (h : w.store json faults next answer = (r, w')) (hr : r.isOk ∨ w'.profiles ≠ w.profiles) :
    w'.profiles = next := by
  have hpersisted := persisted json faults next w
  unfold World.store at h
  generalize w.persistProfilesChecked json faults next = saved at h hpersisted
  obtain ⟨persistence, _⟩ := saved
  cases h
  cases hpersisted with
  | kept _ hprofiles => exact absurd hprofiles (hr.resolve_left nofun)
  | replaced _ _ _ _ hprofiles => exact hprofiles

variable {answer : Except BackupError BackupProfile}

theorem updateProfile_stored (h : updateProfile env json call id update w = (answer, w'))
    (hstored : answer.isOk ∨ w'.profiles ≠ w.profiles) :
    ∃ p existing, p.id = update.id ∧ p.name = update.name ∧
      w.profiles.find? (·.id = id) = some existing ∧
      w'.profiles = w.profiles.modifyFirst (·.id = id) fun _ => p := by
  obtain ⟨error, herror⟩ | ⟨checked, existing, p, hcheck, hfind, hprepare, hstore⟩ :=
    updateProfile_cases env json call id update w
  · obtain ⟨rfl, rfl⟩ := Prod.mk.inj (h.symm.trans herror)
    exact absurd rfl (hstored.resolve_left nofun)
  · obtain ⟨hid, hname⟩ := stored_keys hcheck hprepare
    exact ⟨p, existing, hid, hname, hfind, World.store_stored (hstore.symm.trans h) hstored⟩

/-- A stored update keeps ids and names distinct exactly if its record keeps the id and takes no
other's name. -/
theorem updateProfile_keys_iff (hdistinct : Distinct w.profiles)
    (h : updateProfile env json call id update w = (answer, w'))
    (hstored : answer.isOk ∨ w'.profiles ≠ w.profiles) :
    (Distinct w'.profiles ∧ ∃ p ∈ w'.profiles, p.id = id) ↔ KeepsKeys w.profiles id update := by
  obtain ⟨p, existing, hid, hname, hfind, hprofiles⟩ := updateProfile_stored h hstored
  have hmem : p ∈ w'.profiles := hprofiles ▸ mem_modifyFirst_of_find? hfind
  constructor
  · rintro ⟨hafter, q, hq, hqid⟩
    have hpid : p.id = id := by
      rw [hprofiles] at hq
      obtain ⟨-, -, -, rfl⟩ := eq_changed_of_mem_modifyFirst hdistinct.ids
        (fun a _ ha b _ hb => (of_decide_eq_true ha).trans (of_decide_eq_true hb).symm) hq
        (decide_eq_true hqid)
      exact hqid
    refine ⟨hid ▸ hpid, fun b hb hne heq => ?_⟩
    have hb' : b ∈ w'.profiles := by
      rw [hprofiles]
      exact (mem_modifyFirst_of_mem hb).resolve_right fun hfound => hne (id_of_find? hfound)
    obtain rfl := inj_on_of_nodup_map hafter.names hb' hmem (heq.trans hname.symm)
    exact hne hpid
  · intro hkeys
    have hp : KeepsKeys w.profiles id p := ⟨hid.trans hkeys.1, hname ▸ hkeys.2⟩
    exact ⟨hprofiles ▸ hdistinct.changed hp, p, hmem, hp.1⟩

/-- **Distinct profiles.** Ids and names stay distinct as long as updates keep their keys, and no
longer. -/
theorem profile_keys_distinct (env : Env τ) (json : Json) :
    (∀ (faults : Faults) (disk : Disk) (es : List (Event τ)) (w : World),
      (∀ ps, loadProfilesFrom json none disk = .ok ps → Distinct ps) →
      Run (fun w e w' => Step env json w e w' ∧ e.KeepsKeys w) (.new json faults disk) es w →
      Distinct w.profiles) ∧
    ∀ (call : Call τ) (id : String) (update : BackupProfile) (w : World)
      (answer : Except BackupError BackupProfile) (w' : World), Distinct w.profiles →
      updateProfile env json call id update w = (answer, w') →
      (answer.isOk ∨ w'.profiles ≠ w.profiles) →
      ((Distinct w'.profiles ∧ ∃ p ∈ w'.profiles, p.id = id) ↔
        KeepsKeys w.profiles id update) := by
  refine ⟨fun faults disk es w hfile hrun => ?_, fun call id update w answer w' hdistinct h => ?_⟩
  · exact (keysInv_run (keysInv_new faults hfile) hrun).memory
  · exact updateProfile_keys_iff hdistinct h

/-! ## A renamed profile -/

def noUrls : UrlCrate where
  Url := Empty
  parse _ := none
  username := nofun
  password := nofun
  setUsername := nofun
  setPassword := nofun
  text := nofun
  parse_cleared := nofun

def localEnv : Env ℕ := ⟨fun _ => .error "no schedule", noUrls⟩

def threeLists (a b c : List BackupProfile) : Json where
  encode ps :=
    if ps = a then .ok "a" else if ps = b then .ok "b" else if ps = c then .ok "c"
    else .error "unknown list"
  decode text :=
    if text = "a" then .ok a else if text = "b" then .ok b else if text = "c" then .ok c
    else .error "unknown text"
  decode_encode {ps text} h := by
    split_ifs at h with ha hb hc <;> cases h <;> simp_all

def offline : Call ℕ where
  secrets := ⟨fun _ _ => .error "unavailable", fun _ _ => .error "unavailable"⟩
  now := 0
  faults := {}

def nightly : BackupProfile where
  id := "1"
  name := "nightly"
  enabled := true
  sources := ["/fs/data"]
  target := .localPath "/srv/backup"
  schedule := none
  password := some "hunter2"
  passwordEncrypted := none
  repoInitialized := false
  lastRun := none
  trustedCacert := none

def weekly : BackupProfile := { nightly with id := "2", name := "weekly" }

def renamed : BackupProfile := { weekly with name := "nightly" }

def renameJson : Json := threeLists [nightly] [nightly, weekly] [nightly, renamed]

def twoProfiles : World :=
  [Event.create offline "" nightly, .create offline "" weekly].foldl
    (World.next localEnv renameJson) (.new renameJson {} ⟨none, false⟩)

theorem profile_keys_distinct_two :
    Distinct twoProfiles.profiles ∧
      ((Distinct [nightly, renamed] ∧ ∃ p ∈ [nightly, renamed], p.id = "2") ↔
        KeepsKeys twoProfiles.profiles "2" renamed) := by
  have hall := profile_keys_distinct localEnv renameJson
  have hempty : ∀ ps, loadProfilesFrom renameJson none ⟨none, false⟩ = .ok ps → Distinct ps := by
    intro ps hps
    cases hps
    exact ⟨nodup_nil, nodup_nil⟩
  have hcreates : ∀ e ∈ [Event.create offline "" nightly, .create offline "" weekly],
      ∀ w, e.KeepsKeys w := by simp [Event.KeepsKeys]
  have hdistinct :=
    hall.1 {} ⟨none, false⟩ _ twoProfiles hempty ((Run.of_foldl _ _).restrict hcreates)
  refine ⟨hdistinct, ?_⟩
  refine hall.2 offline "2" renamed twoProfiles _ _ hdistinct rfl (.inr ?_)
  decide

/-- The record submitted for one profile may carry the name of another. -/
theorem update_takes_taken_name :
    ∃ w, Run (Step localEnv renameJson) (.new renameJson {} ⟨none, false⟩)
        [.create offline "" nightly, .create offline "" weekly,
          .update offline "2" renamed weekly] w ∧
      w.profiles.map (·.name) = ["nightly", "nightly"] :=
  ⟨_, Run.of_foldl _ _, by decide +kernel⟩

end Nasty.Backup.Service
