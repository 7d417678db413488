import Nasty.Storage.Service

/-!
# Registrations in the state file

Operations on different filesystems run at the same time, and most of them end by reading the whole
state file, changing one entry and writing it back. `Step` interleaves them; a life of the engine
ends with a crash, and the next one starts with the file as it was left.

1. `Known` is what an operation has learnt of the file. `Op.safe`: what an operation fills the file
   with differs from what it last loaded in one entry only.
2. `Inv` carries this through every run in which a save starts from the current contents and is
   finished.
-/

namespace Nasty.Storage

open Proc Lts List Function

/-! ## The file -/

inductive StateFile
  | absent
  | complete (state : FsState)
  /-- Emptied, or partly written. -/
  | damaged

/-- What `load_fs_state_strict` makes of it. -/
def StateFile.contents : StateFile → Option FsState
  | absent => some ∅
  | complete state => some state
  | damaged => none

structure Store where
  file : StateFile
  locked : Bool

def storePost : (c : Cmd) → Store → c.Answer → Store → Prop
  | .lockMutations, s, _, t => s.locked = false ∧ t = { s with locked := true }
  | .unlockMutations, s, _, t => t = { s with locked := false }
  | .readState, s, r, t => t = s ∧ ∀ state, r = .ok state → s.file.contents = some state
  | .openState _, s, .ok _, t => t = { s with file := .damaged }
  | .openState _, s, .error _, t => t = s
  | .fillState _ state, s, .ok _, t => t = { s with file := .complete state }
  | .fillState _ _, s, .error _, t => t = { s with file := .damaged }
  | _, s, _, t => t = s

def storeContract : Contract Cmd Cmd.Answer Store := ⟨fun _ _ => True, storePost⟩

abbrev Sys := Pool Store Cmd Cmd.Answer FilesystemError Unit

abbrev Ev := Event Op Cmd Cmd.Answer

abbrev SysStep : Sys → Ev → Sys → Prop := Step storeContract Op.body

def Cmd.Plain : Cmd → Prop
  | .readState | .openState _ | .fillState .. => False
  | _ => True

theorem Cmd.state_cases (c : Cmd) : c = .readState ∨ (∃ n, c = .openState n) ∨
    (∃ n state, c = .fillState n state) ∨ c.Plain := by
  cases c <;> simp [Cmd.Plain]

variable {c : Cmd}

theorem storePost_plain (hc : c.Plain) {s t : Store} {r : c.Answer}
    (h : storePost c s r t) : t.file = s.file := by
  cases c <;> first
    | exact hc.elim
    | (obtain rfl : t = s := h; rfl)
    | (obtain ⟨-, rfl⟩ := h; rfl)

/-! ## What an operation knows -/

structure Known where
  loaded : Option FsState
  opened : Bool

def Known.state (k : Known) : FsState := k.loaded.getD ∅

def learn : (c : Cmd) → Known → c.Answer → Known
  | .readState, k, .ok state => { k with loaded := some state }
  | .readState, k, .error _ => { k with loaded := none }
  | .openState _, k, .ok _ => { k with opened := true }
  | .openState _, k, .error _ => k
  | .fillState .., k, _ => { k with opened := false }
  | _, k, _ => k

def Known.initial : Known := ⟨none, false⟩

/-- A save changes one entry of what was loaded; `W` says which, and to what. -/
def allowed (W : Name → FsState → Prop) : Cmd → Known → Prop
  | .readState, k => k.opened = false
  | .openState _, k => k.opened = false
  | .fillState n state, k =>
    W n state ∧ k.opened ∧ ∀ m, m ≠ n → state.lookup m = k.state.lookup m
  | _, _ => True

variable {W : Name → FsState → Prop}

theorem learn_plain (hc : c.Plain) (k : Known) (r : c.Answer) : learn c k r = k := by
  cases c <;> first
    | exact hc.elim
    | rfl

theorem allowed_plain (hc : c.Plain) (k : Known) : allowed W c k := by
  cases c <;> first
    | exact hc.elim
    | trivial

abbrev knowing (W : Name → FsState → Prop) : Contract Cmd Cmd.Answer Known :=
  learning learn (allowed W)

def Safe (W : Name → FsState → Prop) {α : Type} (p : Service α) : Prop :=
  ∀ k : Known, k.opened = false → p.wp (knowing W) (fun _ k' => k'.opened = false) k

section Safe

variable {α β : Type} {p : Service α}

theorem Safe.bind {g : α → Service β} (hp : Safe W p) (hg : ∀ a, Safe W (g a)) : Safe W (p >>= g) := by
  intro k hk
  rw [wp_bind]
  refine (hp k hk).imp fun r k' hk' => ?_
  cases r with
  | ok a => exact hg a k' hk'
  | error e => exact hk'

theorem Safe.map {f : α → β} (hp : Safe W p) : Safe W (f <$> p) := fun k hk => wp_map.2 (hp k hk)

theorem Safe.attempt (hp : Safe W p) : Safe W (p.attempt : Service (Except FilesystemError α)) :=
  fun k hk => wp_attempt.2 (hp k hk)

theorem Safe.of_plain (hp : p.Only Cmd.Plain) : Safe W p := fun k hk =>
  hp.wp (J := fun k => k.opened = false)
    (fun c hc k hk => ⟨allowed_plain hc k, fun r t ht => by rw [ht, learn_plain hc, hk]⟩) hk

theorem safe_ofExcept (r : Except FilesystemError α) : Safe W (ofExcept r : Service α) :=
  fun _ hk => hk

theorem safe_pure (a : α) : Safe W (pure a : Service α) := fun _ hk => hk

theorem safe_fail (e : FilesystemError) : Safe W (fail e : Service α) := fun _ hk => hk

theorem safe_run (hc : c.Plain) : Safe W (run c) := .of_plain (only_perform hc)

theorem Safe.after {g : c.Answer → Service β} (hc : c.Plain) (hg : ∀ r, Safe W (g r)) :
    Safe W (run c >>= g) := (safe_run hc).bind hg

theorem safe_refuse {c : Prop} [Decidable c] {e : FilesystemError} :
    Safe W (refuse c e : Service Unit) := safe_ofExcept _

theorem safe_orFail {ε : Type} {error : ε → FilesystemError} (r : Except ε α) :
    Safe W (orFail error r : Service α) := .of_plain (only_orFail r)

theorem Safe.onlyIf {c : Prop} [Decidable c] {body : Service Unit} (h : Safe W body) :
    Safe W (onlyIf c body) := by
  unfold Proc.onlyIf
  split_ifs
  · exact h
  · exact safe_pure ()

theorem safe_each {xs : List β} {body : β → Service Unit} (h : ∀ x, Safe W (body x)) :
    Safe W (each xs body) := by
  induction xs with
  | nil => exact safe_pure ()
  | cons x xs ih => exact (h x).bind fun _ => ih

theorem Safe.mutating (h : Safe W p) : Safe W (mutating p) :=
  .after trivial fun _ => .bind h.attempt fun _ =>
    .after trivial fun _ => safe_ofExcept _

end Safe

/-! ## The operations -/

variable {state : FsState} {n : Name}

section Operations

variable {α : Type} {k : Known} {g : FsState → Service α} {req : UpdateFilesystemOptionsRequest}

theorem safe_loadFsState
    (hg : ∀ k : Known, k.opened = false → (g k.state).wp (knowing W) (fun _ k' => k'.opened = false) k) :
    Safe W (loadFsState >>= g) := by
  intro k hk
  refine ⟨hk, ?_⟩
  rintro (e | state) k' rfl
  · exact hg { k with loaded := none } hk
  · exact hg { k with loaded := some state } hk

theorem safe_loadFsState_any (hg : ∀ state, Safe W (g state)) :
    Safe W (loadFsState >>= g) := safe_loadFsState fun k hk => hg _ k hk

def Sets (W : Name → FsState → Prop) (n : Name) : Prop :=
  ∀ (state : FsState) (opts : FsMountOptions), W n (state.insert n opts)

def Drops (W : Name → FsState → Prop) (n : Name) : Prop := ∀ state : FsState, W n (state.erase n)

theorem saveFsState_wp (hW : W n state) (hk : k.opened = false)
    (h : ∀ m, m ≠ n → state.lookup m = k.state.lookup m) :
    (saveFsState n state).wp (knowing W) (fun _ k' => k'.opened = false) k := by
  refine ⟨hk, ?_⟩
  rintro (e | ⟨⟩) k' rfl
  · exact hk
  refine wp_bind.2 ⟨⟨hW, rfl, h⟩, ?_⟩
  rintro (e | ⟨⟩) k'' rfl
  · rfl
  · rfl

theorem ignore_saveFsState_wp (hW : W n state) (hk : k.opened = false)
    (h : ∀ m, m ≠ n → state.lookup m = k.state.lookup m) :
    (ignore (saveFsState n state) : Service Unit).wp (knowing W) (fun _ k' => k'.opened = false) k :=
  wp_ignore.2 (saveFsState_wp hW hk h)

theorem safe_saveFsMountedWithOpts (hW : Sets W n) (opts : FsMountOptions) :
    Safe W (saveFsMountedWithOpts n opts) :=
  safe_loadFsState fun _ hk => ignore_saveFsState_wp (hW _ _) hk fun _ hm => AList.lookup_insert_ne hm

theorem safe_saveFsUnmounted (hW : Sets W n) (fs : Filesystem) : Safe W (saveFsUnmounted n fs) :=
  safe_loadFsState fun _ hk => ignore_saveFsState_wp (hW _ _) hk fun _ hm => AList.lookup_insert_ne hm

theorem safe_forgetFs (hW : Drops W n) : Safe W (forgetFs n) := by
  refine safe_loadFsState fun k hk => ?_
  rw [wp_onlyIf]
  exact ⟨fun _ => ignore_saveFsState_wp (hW _) hk fun _ hm => AList.lookup_erase_ne hm,
    fun _ => hk⟩

theorem safe_listing : Safe W listing := .after trivial fun _ => safe_ofExcept _

theorem safe_get (n : Name) : Safe W (get n) :=
  safe_loadFsState_any fun _ => .bind (safe_ofExcept _) fun _ =>
    safe_listing.bind fun _ => safe_ofExcept _

theorem safe_verifyDevicePathsUuid (paths : List Name) (uuid : Name) :
    Safe W (verifyDevicePathsUuid paths uuid) :=
  safe_each fun _ => .after trivial fun _ => safe_refuse

theorem safe_verifyMountpointIdentity (path uuid : Name) :
    Safe W (verifyMountpointIdentity path uuid) :=
  .after trivial fun _ => .bind (safe_ofExcept _) fun _ => safe_refuse

theorem safe_plainKey (n : Name) : Safe W (plainKey n) := by
  refine .after trivial fun r => ?_
  rcases r with _ | (e | key)
  · exact safe_pure none
  · exact safe_fail _
  · exact safe_pure (some key)

theorem safe_readUnlockKey (n : Name) : Safe W (readUnlockKey n) := by
  refine .after trivial fun r => ?_
  rcases r with _ | (e | key)
  · exact safe_plainKey n
  · exact safe_plainKey n
  · exact safe_pure (some key)

theorem safe_unlockWithKey (device key : Name) : Safe W (unlockWithKey device key) :=
  .after trivial fun _ => safe_orFail _

theorem safe_tpmBind (n : Name) : Safe W (tpmBind n) := by
  refine (safe_get n).bind fun _ => safe_refuse.bind fun _ => .after trivial fun _ =>
    safe_refuse.bind fun _ => .after trivial fun r => .bind ?_ fun _ =>
    .after trivial fun _ => safe_orFail _
  rcases r with _ | (e | key)
  · exact safe_fail _
  · exact safe_fail _
  · exact safe_pure key

theorem safe_recordMountFailure (n : Name) (text : String) : Safe W (recordMountFailure n text) :=
  .after trivial fun _ => safe_run trivial

theorem safe_unlockIfNeeded (n : Name) (fs : Filesystem) (device : Name) :
    Safe W (unlockIfNeeded n fs device) := by
  refine .after trivial fun r => ?_
  cases r with
  | no | unknown => exact safe_pure false
  | yes =>
  refine (safe_readUnlockKey n).bind fun key => ?_
  cases key with
  | some key => exact (safe_unlockWithKey device key).bind fun _ => safe_pure true
  | none => exact .after trivial fun _ => safe_refuse.bind fun _ => safe_pure false

theorem safe_verifyMounted (n : Name) (fs : Filesystem) (mounted : Option Name) :
    Safe W (verifyMounted n fs mounted) := by
  unfold verifyMounted
  split_ifs
  · exact safe_pure ()
  · exact .after trivial fun _ => (safe_recordMountFailure n _).bind fun _ => safe_fail _

theorem safe_reselect (n : Name) (fs : Filesystem) : Safe W (reselect n fs) :=
  .after trivial fun _ => safe_listing.bind fun _ => safe_ofExcept _

theorem safe_verifyDevices (n : Name) (fs : Filesystem) : Safe W (verifyDevices n fs) := by
  refine (safe_verifyDevicePathsUuid _ _).attempt.bind fun r => ?_
  cases r with
  | ok => exact safe_pure ()
  | error e => exact (safe_recordMountFailure n _).bind fun _ => safe_fail e

theorem safe_mountDevices (n : Name) (opts : FsMountOptions) (fs : Filesystem) :
    Safe W (mountDevices n opts fs) := by
  refine .after trivial fun r => ?_
  rcases r with e | ⟨⟩
  · exact (safe_recordMountFailure n e).bind fun _ => safe_fail _
  · exact safe_pure ()

theorem safe_mountUnmounted (hW : Sets W n) (opts : FsMountOptions)
    (fs : Filesystem) : Safe W (mountUnmounted n opts fs) :=
  .after trivial fun _ => .bind (safe_orFail _) fun _ =>
    (safe_verifyDevices n fs).bind fun _ => (safe_unlockIfNeeded n fs _).bind fun _ =>
    (safe_mountDevices n opts fs).bind fun _ => .after trivial fun _ =>
    (safe_verifyMounted n fs _).bind fun _ => (safe_saveFsMountedWithOpts hW _).bind fun _ =>
    .after trivial fun _ => safe_reselect n fs

theorem safe_adoptMount (n : Name) (fs : Filesystem) : Safe W (adoptMount n fs) := by
  refine .after trivial fun r => ?_
  dsimp only
  split_ifs
  · exact safe_reselect n fs
  · exact (safe_recordMountFailure n _).bind fun _ => safe_fail _

theorem safe_mountWithOpts (hW : Sets W n) (opts : FsMountOptions) :
    Safe W (mountWithOpts n opts) := by
  refine safe_listing.bind fun filesystems => ?_
  cases selectFilesystemForMount filesystems n opts.knownUuid with
  | error e => exact (safe_recordMountFailure n _).onlyIf.bind fun _ => safe_fail e
  | ok fs =>
  dsimp only
  split_ifs
  · exact safe_pure fs
  refine .after trivial fun occupied => ?_
  split_ifs
  · exact safe_adoptMount n fs
  · exact safe_mountUnmounted hW opts fs

theorem safe_mountMaybeDegraded (hW : Sets W n) (force : Bool) :
    Safe W (mountMaybeDegraded n force) :=
  .mutating (safe_loadFsState_any fun _ => .bind (safe_ofExcept _) fun _ =>
    safe_mountWithOpts hW _)

theorem safe_requireNoScrub (n : Name) (verb : String) : Safe W (requireNoScrub n verb) :=
  .after trivial fun _ => .bind (safe_ofExcept _) fun _ => safe_refuse

theorem safe_umountActive (fs : Filesystem) : Safe W (umountActive fs) := by
  unfold umountActive
  split
  · exact safe_pure ()
  · exact (safe_verifyMountpointIdentity _ _).bind fun _ =>
      .after trivial fun _ => safe_orFail _

theorem safe_unmount (hW : Sets W n) : Safe W (unmount n) :=
  .mutating ((safe_get n).bind fun fs => (safe_requireNoScrub n _).bind fun _ =>
    (safe_umountActive fs).bind fun _ => (safe_saveFsUnmounted hW fs).bind fun _ => safe_run trivial)

theorem safe_remountWith (n : Name) (fs : Filesystem) : Safe W (remountWith n fs) := by
  unfold remountWith
  split
  · exact safe_fail _
  · exact (safe_verifyMountpointIdentity _ _).bind fun _ => safe_loadFsState_any fun _ =>
      .after trivial fun _ => safe_orFail _

theorem safe_saveUpdated (hW : Sets W req.name) (fs : Filesystem) :
    Safe W (saveUpdated req fs) := by
  refine safe_loadFsState fun k hk => wp_bind.2 ?_
  refine (ignore_saveFsState_wp (hW _ _) hk fun _ hm => AList.lookup_insert_ne hm).imp
    fun r k' hk' => ?_
  cases r with
  | ok => exact safe_remountWith req.name fs k' hk'
  | error e => exact hk'

theorem safe_writeOpt (uuid : Name) (opt : String × Name) : Safe W (writeOpt uuid opt) :=
  .after trivial fun _ => safe_orFail _

theorem safe_updateOptions (hW : Sets W req.name) : Safe W (updateOptions req) :=
  (safe_get _).bind fun fs => safe_refuse.bind fun _ => .bind (safe_ofExcept _) fun _ =>
    .bind (safe_each (safe_writeOpt _)) fun _ => safe_loadFsState_any fun _ =>
    (safe_saveUpdated hW fs).onlyIf.bind fun _ => .after trivial fun _ => safe_get _

theorem safe_removeMountDir (n : Name) (e : FilesystemError) :
    Safe W (removeMountDir n e : Service α) := .after trivial fun _ => safe_fail e

theorem safe_formatDevices (n : Name) (devices : List Name) (passphrase : Option Name) :
    Safe W (formatDevices n devices passphrase) := by
  refine .after trivial fun r => ?_
  rcases r with e | b
  · exact safe_removeMountDir n _
  · cases b with
    | true => exact safe_pure ()
    | false => exact .after trivial fun _ => (safe_removeMountDir n _).onlyIf

variable (req : CreateFilesystemRequest)

theorem safe_storeKey (passphrase : Name) : Safe W (storeKey req passphrase) :=
  Safe.onlyIf (.after trivial fun _ => safe_orFail _)

theorem safe_unlockCreated (device passphrase : Name) :
    Safe W (unlockCreated req device passphrase) := by
  refine (safe_readUnlockKey req.name).bind fun key => ?_
  cases key with
  | some key => exact safe_unlockWithKey device key
  | none => exact safe_unlockWithKey device passphrase

theorem safe_verifyCreated (n uuid : Name) (mounted : Option Name) :
    Safe W (verifyCreated n uuid mounted) := by
  unfold verifyCreated
  split_ifs
  · exact safe_pure ()
  · exact .after trivial fun _ => safe_fail _

variable {req : CreateFilesystemRequest}

theorem safe_createOn (hW : Sets W req.name) (devices : List Name) :
    Safe W (createOn req devices) :=
  (safe_formatDevices _ _ _).bind fun _ =>
    .bind (safe_each (safe_storeKey req)) fun _ =>
    .after trivial fun _ => .bind (safe_ofExcept _) fun _ =>
    (safe_verifyDevicePathsUuid _ _).bind fun _ =>
    .bind (safe_each fun _ => safe_unlockCreated req _ _) fun _ =>
    .after trivial fun _ => .bind (safe_orFail _) fun _ =>
    .after trivial fun _ => (safe_verifyCreated _ _ _).bind fun _ =>
    (safe_saveFsMountedWithOpts hW _).bind fun _ => .after trivial fun _ =>
    Safe.onlyIf (.bind (safe_tpmBind _).attempt fun _ => safe_ofExcept _)

theorem safe_create (hW : Sets W req.name) : Safe W (create req) := by
  refine .mutating (.after trivial fun _ => .bind (safe_ofExcept _) fun _ =>
    safe_loadFsState_any fun _ => safe_refuse.bind fun _ => .after trivial fun _ =>
    .bind (safe_orFail _) fun _ => .after trivial fun r => ?_)
  rcases r with e | devices
  · exact safe_removeMountDir _ e
  · exact safe_createOn hW devices

theorem safe_destroy {req : DestroyFilesystemRequest} (hW : Drops W req.name) :
    Safe W (destroy req) :=
  safe_refuse.bind fun _ => .mutating ((safe_get _).bind fun _ =>
    (safe_requireNoScrub _ _).bind fun _ => (safe_verifyDevicePathsUuid _ _).bind fun _ =>
    .after trivial fun _ => (safe_verifyMountpointIdentity _ _).onlyIf.bind fun _ =>
    .bind (safe_each fun _ => (safe_verifyMountpointIdentity _ _).bind fun _ =>
      .after trivial fun _ => .bind (safe_ofExcept _) fun _ =>
      .after trivial fun _ => safe_orFail _) fun _ =>
    .after trivial fun _ => .after trivial fun _ => safe_refuse.bind fun _ =>
    .after trivial fun _ =>
    .bind (safe_each fun _ => .after trivial fun _ => safe_orFail _) fun _ =>
    (safe_forgetFs hW).bind fun _ => safe_run trivial)

/-- The one operation that looks at other things between its load and its save. -/
theorem safe_forgetUnavailable {req : ForgetUnavailableRequest} (hW : Drops W req.name) :
    Safe W (forgetUnavailable req) := by
  refine .mutating fun k hk => ?_
  rw [wp_bind, loadFsStateStrict, wp_bind]
  refine ⟨hk, ?_⟩
  rintro (e | state) k' rfl
  · exact hk
  refine wp_bind.2 ?_
  rw [wp_ofExcept]
  cases validateForgetUnavailable state req with
  | error e => exact hk
  | ok =>
  rw [after_ok, run, wp_perform_bind]
  refine ⟨trivial, ?_⟩
  rintro occupied k' rfl
  rw [wp_bind, wp_refuse]
  refine ⟨fun _ => hk, fun _ => ?_⟩
  rw [after_ok, run, wp_perform_bind]
  refine ⟨trivial, ?_⟩
  rintro (e | visible) k' rfl
  · exact hk
  rw [wp_bind, wp_ofExcept, after_ok, wp_bind, wp_refuse]
  refine ⟨fun _ => hk, fun _ => wp_bind.2 ?_⟩
  have hsave : (saveFsState req.name (state.erase req.name)).wp (knowing W)
      (fun _ k' => k'.opened = false) { k with loaded := some state } :=
    saveFsState_wp (hW _) hk fun _ hm => AList.lookup_erase_ne hm
  refine hsave.imp fun r k' hk' => ?_
  cases r with
  | error e => exact hk'
  | ok =>
  have hend : Safe W (do
      run (.note "forgotten" req.name)
      run .dropCache) := .after trivial fun _ => safe_run trivial
  exact hend k' hk'

def Op.ends : Op → Bool
  | destroy _ | forgetUnavailable _ => true
  | _ => false

/-- An operation saves the entry of its own name, and removes it only if it ends its life. -/
def Op.Writes (o : Op) (n : Name) (state : FsState) : Prop :=
  n = o.fsName ∧ (o.ends = false → (state.lookup n).isSome)

theorem Op.sets {o : Op} : Sets o.Writes o.fsName :=
  fun state opts => ⟨rfl, fun _ => by rw [AList.lookup_insert]; rfl⟩

theorem Op.drops {o : Op} (ho : o.ends) : Drops o.Writes o.fsName :=
  fun state => ⟨rfl, fun h => by rw [h] at ho; cases ho⟩

/-- **What operations save.** -/
theorem Op.safe (o : Op) : Safe o.Writes o.body := by
  cases o with
  | create req => exact safe_create (Op.sets (o := .create req))
  | mount n force => exact (safe_mountMaybeDegraded (Op.sets (o := .mount n force)) force).map
  | unmount n => exact safe_unmount (Op.sets (o := .unmount n))
  | updateOptions req => exact (safe_updateOptions (Op.sets (o := .updateOptions req))).map
  | destroy req => exact safe_destroy (Op.drops (o := .destroy req) rfl)
  | forgetUnavailable req =>
    exact safe_forgetUnavailable (Op.drops (o := .forgetUnavailable req) rfl)
  | tpmBind n => exact safe_tpmBind n
  | tpmUnbind n | deleteKey n => exact .after trivial fun _ => safe_orFail _

theorem Op.only (o : Op) : o.body.Only fun c => ∀ n state, c = .fillState n state →
    o.Writes n state := by
  refine (o.safe .initial rfl).only_learning.imp ?_
  rintro c ⟨k, hk⟩ n state rfl
  exact hk.1

end Operations

/-! ## Careful runs -/

abbrev knownTo (i : ℕ) (es : List Ev) : Known := learnt learn .initial i es

/-- A save starts from the contents the operation has loaded, and is finished. -/
def Careful (es : List Ev) (w : Sys) : Ev → Prop
  | .call i (.openState _) r => r = .ok () → w.shared.file.contents.isSome ∧
      (knownTo i es).loaded = w.shared.file.contents
  | .call _ (.fillState ..) r => r = .ok ()
  | _ => True

inductive Life (file : StateFile) : List Ev → Sys → Prop
  | start : Life file [] (.init ⟨file, false⟩)
  | step {es w e w'} : Life file es w → SysStep w e w' → Careful es w e → Life file (es ++ [e]) w'

variable {es : List Ev} {file : StateFile} {w : Sys} {i : ℕ}

theorem Life.run (h : Life file es w) : Run SysStep (.init ⟨file, false⟩) es w := by
  induction h with
  | start => exact .nil
  | step _ hs _ ih => exact .snoc ih hs

theorem Life.spawn (h : Life file es w) (i : ℕ) (o : Op) (hi : w.procs i = none) :
    Life file (es ++ [.spawn i o]) ⟨w.shared, w.put i o.body⟩ :=
  .step h ⟨hi, rfl, rfl⟩ trivial

theorem Life.call (h : Life file es w) {next : c.Answer → Service Unit}
    (hi : w.procs i = some (.call c next)) (r : c.Answer) (t : Store)
    (hpost : storePost c w.shared r t) (hc : Careful es w (.call i c r)) :
    Life file (es ++ [.call i c r]) ⟨t, w.put i (next r)⟩ :=
  .step h ⟨next, hi, hpost, rfl⟩ hc

/-- The entry of each name as it was last saved under that name. -/
def registered (initial : Name → Option FsMountOptions) (es : List Ev) :
    Name → Option FsMountOptions :=
  es.foldl (fun reg e => match e with
    | .call _ (.fillState n state) _ => update reg n (state.lookup n)
    | _ => reg) initial

variable (initial : Name → Option FsMountOptions)

theorem registered_concat (es : List Ev) (e : Ev) : registered initial (es ++ [e]) = match e with
      | .call _ (.fillState n state) _ =>
        update (registered initial es) n (state.lookup n)
      | _ => registered initial es := by
  rw [registered, foldl_append]
  rfl

structure Inv (initial : Name → Option FsMountOptions) (es : List Ev) (w : Sys) : Prop where
  /-- A readable file holds what was last saved. -/
  readable : ∀ state, w.shared.file.contents = some state →
    ∀ n, state.lookup n = registered initial es n
  /-- An operation that has the file open has loaded that. -/
  opened : ∀ i, (knownTo i es).opened → w.shared.file.contents = none ∧
    ∀ n, (knownTo i es).state.lookup n = registered initial es n
  unique : ∀ i j, (knownTo i es).opened → (knownTo j es).opened → i = j
  damaged : w.shared.file.contents = none → ∃ i, (knownTo i es).opened

section Inv

variable {initial : Name → Option FsMountOptions} {es es' : List Ev} {w w' : Sys} {i : ℕ}

theorem knownTo_call (i j : ℕ) (es : List Ev) (c : Cmd) (r : c.Answer) :
    knownTo j (es ++ [.call i c r]) =
      if i = j then learn c (knownTo j es) r else knownTo j es := learnt_concat ..

theorem knownTo_spawn (i j : ℕ) (es : List Ev) (o : Op) :
    knownTo j (es ++ [.spawn i o]) = knownTo j es := learnt_concat ..

theorem registered_call_plain (hc : ∀ n state, c ≠ .fillState n state) (r : c.Answer) :
    registered initial (es ++ [.call i c r]) = registered initial es := by
  rw [registered_concat]
  cases c <;> first
    | rfl
    | exact absurd rfl (hc _ _)

theorem registered_call_fill (n : Name) (state : FsState) (r : Except String Unit) :
    registered initial (es ++ [.call i (.fillState n state) r]) =
      update (registered initial es) n (state.lookup n) := registered_concat ..

theorem Inv.same (h : Inv initial es w) (hknown : ∀ j, knownTo j es' = knownTo j es)
    (hfile : w'.shared.file = w.shared.file)
    (hreg : registered initial es' = registered initial es) : Inv initial es' w' where
  readable := by
    rw [hfile, hreg]
    exact h.readable
  opened j := by
    rw [hknown, hfile, hreg]
    exact h.opened j
  unique j k := by
    rw [hknown, hknown]
    exact h.unique j k
  damaged := by
    rw [hfile]
    simpa only [hknown] using h.damaged

theorem allowed_weaken (h : allowed W c k) : allowed (fun _ _ => True) c k := by
  cases c <;> first
    | exact h
    | exact ⟨trivial, h.2⟩

theorem Op.knows (o : Op) : o.body.wp (knowing fun _ _ => True) (fun _ _ => True) .initial := by
  refine ((o.safe .initial rfl).imp fun _ _ _ => trivial).mono ?_ fun _ _ _ _ h => h
  intro c k h
  exact allowed_weaken h

theorem Inv.read (h : Inv initial es w) (hclosed : (knownTo i es).opened = false)
    (hfile : w'.shared.file = w.shared.file) (r : Except String FsState) :
    Inv initial (es ++ [.call i .readState r]) w' := by
  have hreg : registered initial (es ++ [.call i .readState r]) = registered initial es :=
    registered_call_plain (c := .readState) (fun _ _ => by simp) r
  have hopened (j : ℕ) : (knownTo j (es ++ [.call i .readState r])).opened =
      (knownTo j es).opened := by
    rw [knownTo_call]
    split_ifs
    · cases r <;> rfl
    · rfl
  refine ⟨?_, fun j hj => ?_, fun j k => ?_, ?_⟩
  · rw [hfile, hreg]
    exact h.readable
  · rw [hopened] at hj
    have hne : i ≠ j := by
      rintro rfl
      rw [hclosed] at hj
      cases hj
    rw [hfile, hreg, knownTo_call, if_neg hne]
    exact h.opened j hj
  · rw [hopened, hopened]
    exact h.unique j k
  · rw [hfile]
    simpa only [hopened] using h.damaged

theorem Inv.open (h : Inv initial es w) (n : Name) (hfile : w.shared.file.contents = some state)
    (hloaded : (knownTo i es).loaded = some state) (hfile' : w'.shared.file = .damaged) :
    Inv initial (es ++ [.call i (.openState n) (.ok ())]) w' := by
  have hreg : registered initial (es ++ [.call i (.openState n) (.ok ())]) = registered initial es :=
    registered_call_plain (c := .openState n) (fun _ _ => by simp) _
  have hnone (j : ℕ) : (knownTo j es).opened = false := by
    by_contra hj
    have hdamaged := (h.opened j (by simpa using hj)).1
    rw [hfile] at hdamaged
    cases hdamaged
  have hself (j : ℕ) (hj : (knownTo j (es ++ [.call i (.openState n) (.ok ())])).opened) :
      i = j := by
    by_contra hne
    rw [knownTo_call, if_neg hne, hnone] at hj
    cases hj
  refine ⟨?_, fun j hj => ?_, fun j k hj hk => (hself j hj).symm.trans (hself k hk),
    fun _ => ⟨i, by rw [knownTo_call, if_pos rfl]; rfl⟩⟩
  · rw [hfile']
    intro state hstate
    cases hstate
  obtain rfl := hself j hj
  refine ⟨by rw [hfile']; rfl, fun m => ?_⟩
  rw [hreg, knownTo_call, if_pos rfl, ← h.readable state hfile m]
  change ((knownTo i es).loaded.getD ∅).lookup m = state.lookup m
  rw [hloaded]
  rfl

theorem Inv.fill (h : Inv initial es w) (hopened : (knownTo i es).opened)
    (hsame : ∀ m, m ≠ n → state.lookup m = (knownTo i es).state.lookup m)
    (hfile' : w'.shared.file = .complete state) :
    Inv initial (es ++ [.call i (.fillState n state) (.ok ())]) w' := by
  have hnone (j : ℕ) :
      (knownTo j (es ++ [.call i (.fillState n state) (.ok ())])).opened = false := by
    rw [knownTo_call]
    split_ifs with hj
    · rfl
    · by_contra hopen
      exact hj (h.unique i j hopened (by simpa using hopen))
  refine ⟨?_, fun j hj => ?_, fun j k hj => ?_, ?_⟩
  · rw [hfile']
    rintro _ ⟨⟩ m
    rw [registered_call_fill]
    by_cases hm : m = n
    · rw [hm, update_self]
    · rw [update_of_ne hm, hsame m hm]
      exact (h.opened i hopened).2 m
  · rw [hnone] at hj
    cases hj
  · rw [hnone] at hj
    cases hj
  · rw [hfile']
    intro hnone
    cases hnone

/-- **The invariant of a life.** -/
theorem Life.inv (hfile : file.contents = some state)
    (h : Life file es w) : Inv state.lookup es w := by
  induction h with
  | start =>
    refine ⟨?_, fun i hi => (by cases hi), fun i j hi => (by cases hi), ?_⟩
    · intro s hs n
      rw [show (file.contents = some s) from hs] at hfile
      cases hfile
      rfl
    · intro hnone
      rw [show (file.contents = none) from hnone] at hfile
      cases hfile
  | @step es w e w' hlife hstep hcareful ih =>
    cases e with
    | spawn i o =>
      obtain ⟨-, hshared, -⟩ := hstep
      exact ih.same (fun j => knownTo_spawn i j es o) (by rw [hshared]) (registered_concat ..)
    | call i c r =>
    have hallowed := run_allowed Op.knows hlife.run hstep
    obtain ⟨next, hcall, hpost, -⟩ := hstep
    rcases c.state_cases with rfl | ⟨n, rfl⟩ | ⟨n, s, rfl⟩ | hc
    · exact ih.read hallowed (by rw [hpost.1]) r
    · cases r with
      | error e =>
        refine ih.same (fun j => ?_) (by rw [show w'.shared = w.shared from hpost])
          (registered_call_plain (c := .openState n) (fun _ _ => by simp) _)
        rw [knownTo_call]
        split_ifs <;> rfl
      | ok u =>
        obtain ⟨hsome, hloaded⟩ := hcareful rfl
        obtain ⟨s, hs⟩ := Option.isSome_iff_exists.1 hsome
        exact ih.open n hs (hloaded.trans hs) (by rw [show w'.shared = _ from hpost])
    · obtain rfl : r = .ok () := hcareful
      exact ih.fill hallowed.2.1 hallowed.2.2 (by rw [show w'.shared = _ from hpost])
    · refine ih.same (fun j => ?_) (storePost_plain hc hpost)
        (registered_call_plain (fun n s heq => by rw [heq] at hc; exact hc) r)
      rw [knownTo_call, learn_plain hc, ite_self]

end Inv

/-! ## Lives -/

/-- No save is underway. -/
def Idle (es : List Ev) : Prop := ∀ i, (knownTo i es).opened = false

/-- Lives of the engine, one after another; each ends with a crash outside of a save. -/
inductive Lives (file : StateFile) : List Ev → StateFile → Prop
  | start : Lives file [] file
  | life {es es' file' w} : Lives file es file' → Life file' es' w → Idle es' →
      Lives file (es ++ es') w.shared.file

theorem registered_append (es es' : List Ev) :
    registered initial (es ++ es') = registered (registered initial es) es' := by
  rw [registered, foldl_append]
  rfl

theorem Life.saved (h : Life file es w) {r : Except String Unit}
    (he : .call i (.fillState n state) r ∈ es) : ∃ o, .spawn i o ∈ es ∧ o.Writes n state := by
  induction h with
  | start => cases he
  | @step es w e w' hlife hstep _ ih =>
  rcases mem_append.1 he with he | he
  · obtain ⟨o, ho, hw⟩ := ih he
    exact ⟨o, mem_append_left _ ho, hw⟩
  obtain rfl := mem_singleton.1 he
  obtain ⟨next, hcall, -⟩ := hstep
  obtain ⟨o, ho, honly⟩ := run_only Op.only hlife.run i _ hcall
  exact ⟨o, mem_append_left _ ho, honly.1 n state rfl⟩

theorem Lives.saved {file file' : StateFile} (h : Lives file es file') {r : Except String Unit}
    (he : .call i (.fillState n state) r ∈ es) : ∃ o, .spawn i o ∈ es ∧ o.Writes n state := by
  induction h with
  | start => cases he
  | life _ hlife _ ih =>
  rcases mem_append.1 he with he | he
  · obtain ⟨o, ho, hw⟩ := ih he
    exact ⟨o, mem_append_left _ ho, hw⟩
  · obtain ⟨o, ho, hw⟩ := hlife.saved he
    exact ⟨o, mem_append_right _ ho, hw⟩

theorem registered_of_saves {P : Option FsMountOptions → Prop}
    {initial : Name → Option FsMountOptions} (h0 : P (initial n))
    (h : ∀ i state r, .call i (.fillState n state) r ∈ es → P (state.lookup n)) :
    P (registered initial es n) := by
  induction es using List.reverseRecOn with
  | nil => exact h0
  | append_singleton es e ih =>
  have hes := ih fun i state r he => h i state r (mem_append_left _ he)
  rw [registered_concat]
  split
  · next i m state r =>
    by_cases hm : n = m
    · subst hm
      rw [update_self]
      exact h i state r (mem_append_right _ (mem_singleton_self _))
    · rw [update_of_ne hm]
      exact hes
  · exact hes

theorem Lives.contents {file file' : StateFile}
    (hfile : file.contents = some state) (h : Lives file es file') :
    ∃ state', file'.contents = some state' ∧
      ∀ n, state'.lookup n = registered state.lookup es n := by
  induction h with
  | start => exact ⟨state, hfile, fun _ => rfl⟩
  | @life es es' file' w _ hlife hidle ih =>
  obtain ⟨state', hstate', hlookup⟩ := ih
  have hinv := hlife.inv hstate'
  cases hlast : w.shared.file.contents with
  | none =>
    obtain ⟨i, hi⟩ := hinv.damaged hlast
    rw [hidle i] at hi
    cases hi
  | some last =>
    refine ⟨last, rfl, fun n => ?_⟩
    rw [hinv.readable last hlast n, registered_append, ← funext hlookup]

/-- **Registrations are kept.** Between saves the file holds what was last saved under each name,
until an operation ends its life. -/
theorem registrations_kept {file file' : StateFile} {state : FsState} {es es' : List Ev} {w : Sys}
    (hfile : file.contents = some state) (hlives : Lives file es file') (hlife : Life file' es' w)
    (hidle : Idle es') :
    ∃ state', w.shared.file.contents = some state' ∧
      (∀ n, state'.lookup n = registered state.lookup (es ++ es') n) ∧
      (∀ i n saved r, .call i (.fillState n saved) r ∈ es ++ es' →
        ∃ o, .spawn i o ∈ es ++ es' ∧ o.fsName = n) ∧
      ∀ n, (state.lookup n).isSome →
        (∀ i o, .spawn i o ∈ es ++ es' → o.fsName = n → o.ends = false) →
        (state'.lookup n).isSome := by
  have hall : Lives file (es ++ es') w.shared.file := .life hlives hlife hidle
  obtain ⟨state', hstate', hlookup⟩ := hall.contents hfile
  refine ⟨state', hstate', hlookup, fun i n saved r he => ?_, fun n hreg hlasting => ?_⟩
  · obtain ⟨o, ho, hw⟩ := hall.saved he
    exact ⟨o, ho, hw.1.symm⟩
  rw [hlookup n]
  refine registered_of_saves (P := fun o => o.isSome) hreg fun i s r he => ?_
  obtain ⟨o, ho, hw⟩ := hall.saved he
  exact hw.2 (hlasting i o ho hw.1.symm)

def tank : Name := "tank".toList

def pool : Name := "pool".toList

def optsOf (uuid : Name) : FsMountOptions := { FsMountOptions.default with uuid := some uuid }

def both : FsState := ((∅ : FsState).insert pool (optsOf ['b'])).insert tank (optsOf ['a'])

def forgetEvents : List Ev :=
  [.spawn 0 (.forgetUnavailable ⟨pool, pool, ['b']⟩), .call 0 .lockMutations (),
    .call 0 .readState (.ok both), .call 0 (.isMountpoint "/fs/pool".toList) false,
    .call 0 (.uuidVisible ['b']) (.ok false), .call 0 (.openState pool) (.ok ())]

def saved : Ev := .call 0 (.fillState pool (both.erase pool)) (.ok ())

theorem forget_pool :
    (∃ w, Life (.complete both) forgetEvents w ∧ w.shared.file.contents = none) ∧
      ∃ w, Life (.complete both) (forgetEvents ++ [saved]) w := by
  have h0 : Life (.complete both) [] _ := .start
  have h1 := h0.spawn 0 (.forgetUnavailable ⟨pool, pool, ['b']⟩) rfl
  have h2 := h1.call (i := 0) (c := .lockMutations) rfl () _ ⟨rfl, rfl⟩ trivial
  have h3 := h2.call (i := 0) (c := .readState) rfl (.ok both) ⟨.complete both, true⟩
    ⟨rfl, fun _ h => by cases h; rfl⟩ trivial
  have h4 := h3.call (i := 0) (c := .isMountpoint "/fs/pool".toList) rfl false _ rfl trivial
  have h5 := h4.call (i := 0) (c := .uuidVisible ['b']) rfl (.ok false) _ rfl trivial
  have h6 := h5.call (i := 0) (c := .openState pool) rfl (.ok ()) _ rfl fun _ => ⟨rfl, rfl⟩
  have h7 := h6.call (i := 0) (c := .fillState pool (both.erase pool)) rfl (.ok ()) _ rfl rfl
  exact ⟨⟨_, h6, rfl⟩, ⟨_, h7⟩⟩

theorem forget_idle : Idle (forgetEvents ++ [saved]) := by
  intro i
  by_cases hi : 0 = i
  · subst hi
    rfl
  · simp [learnt, forgetEvents, saved, hi, Known.initial]

theorem registrations_kept_forget : ∃ w state', Life (.complete both) (forgetEvents ++ [saved]) w ∧
    w.shared.file.contents = some state' ∧ state'.lookup tank = both.lookup tank ∧
    state'.lookup pool = none := by
  obtain ⟨-, w, hlife⟩ := forget_pool
  obtain ⟨state', hstate', hlookup, -⟩ := registrations_kept rfl .start hlife forget_idle
  exact ⟨w, state', hlife, hstate', hlookup tank, hlookup pool⟩

/-- A crash of the engine while it forgets the pool loses the registration of the tank. -/
theorem registration_lost : ∃ w, Run SysStep (.init ⟨.complete both, false⟩) forgetEvents w ∧
    (∀ i o, .spawn i o ∈ forgetEvents → o.fsName = pool) ∧ (both.lookup tank).isSome ∧
    w.shared.file.contents = none := by
  obtain ⟨⟨w, hlife, hnone⟩, -⟩ := forget_pool
  refine ⟨w, hlife.run, fun i o ho => ?_, rfl, hnone⟩
  simp only [forgetEvents, mem_cons, Event.spawn.injEq, reduceCtorEq, or_false,
    not_mem_nil] at ho
  rw [ho.2]
  rfl

end Nasty.Storage
