import Nasty.Auth.State
import Nasty.Lib.Lts
import Nasty.Lib.Prog

/-!
# The state file of the authentication service

Every operation commits the state through `save_state_with_temp`: a temporary file is written,
synced and renamed over the state file, and the directory is synced. The rename is the commit point;
memory follows it. The first start creates the file with a hard link instead.

1. `Disk` keeps, besides what is at the path, what a crash may bring back: the entries since the
   last sync of the directory. A file that was not synced may come back with any content.
2. `saveStateWithTemp_wp` says what a save leaves, for every failing stage, and in which states the
   machine may stop during it.
3. `Sys` runs operations, crashes and starts (`state_durable`).
-/

namespace Nasty.Auth.Durable

open Lts Prog List

inductive StateError
  | corrupt (source : String)
  | uninitialized
  | unsafeState (reason : String)
  | io (operation source : String)
  | serialize (source : String)
  | hash (reason : String)

def statePath : String := "/var/lib/nasty/auth.json"

def StateError.message : StateError → String
  | corrupt source => "auth state at " ++ statePath ++ " is corrupt: " ++ source
  | uninitialized => "auth state at " ++ statePath ++ " exists but is not initialized"
  | unsafeState reason => "unsafe auth state at " ++ statePath ++ ": " ++ reason
  | io operation source =>
    "failed to " ++ operation ++ " auth state at " ++ statePath ++ ": " ++ source
  | serialize source => "failed to serialize auth state: " ++ source
  | hash reason => "password hash error: " ++ reason

/-! ## The disk -/

inductive Entry
  /-- A regular file of the engine; `none` is a content that is no complete state. -/
  | file (content : Option AuthState) (synced : Bool)
  /-- A link, a special file, or a file of somebody else or open to others. -/
  | foreign (reason : String)

structure Disk where
  path : Option Entry
  temp : Option Entry
  /-- What may be at the path after a crash. -/
  stable : List (Option Entry)

def Survives : Option Entry → Option Entry → Prop
  | some (.file _ false), e => ∃ content, e = some (.file content true)
  | e, e' => e' = e

def Crashed (d d' : Disk) : Prop := d'.stable = [d'.path] ∧ ∃ e ∈ d.stable, Survives e d'.path

def saved (state : AuthState) : Option Entry := some (.file (some state) true)

def Entry.sync : Entry → Entry
  | .file content _ => .file content true
  | e => e

/-- Assumed of `tokio::fs::File`: `sync_all` waits for the background write and reports its error, so
that what it syncs is whole. -/
def Disk.syncAll (d : Disk) : Disk := { d with temp := d.temp.map Entry.sync }

def Disk.rename (d : Disk) : Disk := { path := d.temp, temp := none, stable := d.stable ++ [d.temp] }

def Disk.link (d : Disk) : Disk := { d with path := d.temp, stable := d.stable ++ [d.temp] }

/-! ## Saving -/

structure Faults where
  openState : Option String := none
  inspect : Option String := none
  read : Option String := none
  serialize : Option String := none
  create : Option String := none
  write : Option String := none
  sync : Option String := none
  install : Option String := none
  cleanup : Option String := none
  removeTemp : Option String := none
  openDirectory : Option String := none
  syncDirectory : Option String := none

structure StatePersistFailure where
  source : StateError
  committed : Bool

def stage (fault : Option String) (operation : String) (action : Disk → Disk) :
    Prog Disk StateError Unit :=
  match fault with
  | some source => fail (.io operation source)
  | none => modify action

def writeTemp (faults : Faults) (state : AuthState) : Prog Disk StateError Unit := do
  stage faults.create "create temporary file for" fun d => { d with temp := some (.file none false) }
  stage faults.write "write temporary file for" fun d =>
    { d with temp := some (.file (some state) false) }
  stage faults.sync "sync temporary file for" Disk.syncAll

def installTemp (faults : Faults) (replace : Bool) : Prog Disk StateError Unit := do
  if replace then stage faults.install "replace" Disk.rename
  else
    if ← Prog.read (·.path.isSome) then fail (.io "create" "File exists (os error 17)")
    else stage faults.install "create" Disk.link

def settle (faults : Faults) (replace : Bool) : Prog Disk StateError Unit := do
  if replace then pure ()
  else stage faults.removeTemp "remove temporary file for" fun d => { d with temp := none }
  stage faults.openDirectory "open parent directory for" id
  stage faults.syncDirectory "sync parent directory for" fun d => { d with stable := [d.path] }

def saveStateWithTemp (faults : Faults) (state : AuthState) (replace : Bool) :
    Prog Disk StatePersistFailure Unit := do
  match faults.serialize with
  | some source => fail ⟨.serialize source, false⟩
  | none =>
    match ← attempt (writeTemp faults state >>= fun _ => installTemp faults replace) with
    | .error source =>
      modify fun d => if faults.cleanup.isSome then d else { d with temp := none }
      fail ⟨source, false⟩
    | .ok () =>
      match ← attempt (settle faults replace) with
      | .error source => fail ⟨source, true⟩
      | .ok () => pure ()

/-! ## Loading -/

def loadStateFrom (faults : Faults) : Prog Disk StateError (Option AuthState) := do
  match faults.openState with
  | some source => fail (.io "open without following symlinks" source)
  | none =>
    match ← Prog.read (·.path) with
    | none => return none
    | some (.foreign reason) => fail (.unsafeState reason)
    | some (.file content _) =>
      match faults.inspect, faults.read, content with
      | some source, _, _ => fail (.io "inspect" source)
      | none, some source, _ => fail (.io "read" source)
      | none, none, none => fail (.corrupt "no complete state")
      | none, none, some state => return some state

def createStateTo (faults : Faults) (state : AuthState) : Prog Disk StateError Unit := do
  match ← attempt (saveStateWithTemp faults state false) with
  | .ok () => pure ()
  | .error failure => fail failure.source

/-- `hash` is the hash of the default password. -/
def initializeState (faults : Faults) (hash : Except String String) :
    Prog Disk StateError AuthState := do
  match ← loadStateFrom faults with
  | some state => if state.initialized then pure state else fail .uninitialized
  | none =>
    match hash with
    | .error reason => fail (.hash reason)
    | .ok hash =>
      createStateTo faults (bootstrapped hash)
      return bootstrapped hash

/-! ## What a save leaves -/

def Faults.writing (faults : Faults) : Bool :=
  faults.create.isSome || faults.write.isSome || faults.sync.isSome

def Faults.early (faults : Faults) : Bool :=
  faults.serialize.isSome || faults.writing || faults.install.isSome

def Faults.late (faults : Faults) (replace : Bool) : Bool :=
  (¬ replace && faults.removeTemp.isSome) || faults.openDirectory.isSome ||
    faults.syncDirectory.isSome

def Before (d t : Disk) : Prop := t.path = d.path ∧ t.stable = d.stable

/-- The new state is at the path, and may be lost in a crash. -/
def After (d : Disk) (state : AuthState) (t : Disk) : Prop :=
  t.path = saved state ∧ t.stable = d.stable ++ [saved state]

/-- The new state is at the path for good. -/
def Settled (state : AuthState) (t : Disk) : Prop := t.path = saved state ∧ t.stable = [saved state]

def Between (d : Disk) (state : AuthState) (t : Disk) : Prop :=
  Before d t ∨ After d state t ∨ Settled state t

def Ends (faults : Faults) (replace : Bool) (d : Disk) (state : AuthState) :
    Except StatePersistFailure Unit → Disk → Prop
  | .ok (), t => Settled state t ∧ faults.early = false ∧ faults.late replace = false
  | .error ⟨_, true⟩, t => After d state t ∧ faults.early = false ∧ faults.late replace = true
  | .error ⟨_, false⟩, t => Before d t ∧ faults.early = true

theorem wp_stage {fault : Option String} {operation : String} {action : Disk → Disk}
    {Q : Except StateError Unit → Disk → Prop} {C : Disk → Prop} {d : Disk} (hC : C d)
    (hfail : ∀ e, fault.isSome → Q (.error e) d)
    (hok : fault = none → C (action d) ∧ Q (.ok ()) (action d)) :
    wp (stage fault operation action) Q C d := by
  cases fault with
  | some source => exact ⟨hC, hfail _ rfl⟩
  | none => exact ⟨hC, hok rfl⟩

theorem writeTemp_wp (faults : Faults) (state : AuthState) (d : Disk) :
    wp (writeTemp faults state) (fun r t => Before d t ∧ match r with
      | .ok () => t.temp = saved state ∧ faults.writing = false
      | .error _ => faults.writing = true) (Before d) d := by
  unfold writeTemp Faults.writing
  rw [wp_bind]
  refine wp_stage ⟨rfl, rfl⟩ (fun e h => ⟨⟨rfl, rfl⟩, by simp [h]⟩) fun hcreate => ⟨⟨rfl, rfl⟩, ?_⟩
  rw [after_ok, wp_bind]
  refine wp_stage ⟨rfl, rfl⟩ (fun e h => ⟨⟨rfl, rfl⟩, by simp [h]⟩) fun hwrite => ⟨⟨rfl, rfl⟩, ?_⟩
  refine wp_stage ⟨rfl, rfl⟩ (fun e h => ⟨⟨rfl, rfl⟩, by simp [h]⟩) fun hsync => ⟨⟨rfl, rfl⟩, ?_⟩
  exact ⟨⟨rfl, rfl⟩, rfl, by simp [hcreate, hwrite, hsync]⟩

variable {state : AuthState} {faults : Faults} {t : Disk} {replace : Bool}

theorem installTemp_wp {d : Disk} (hbefore : Before d t) (htemp : t.temp = saved state)
    (hfree : replace = false → d.path = none) :
    wp (installTemp faults replace) (fun r u => match r with
      | .ok () => After d state u ∧ faults.install = none
      | .error _ => Before d u ∧ faults.install.isSome) (fun u => Before d u ∨ After d state u) t := by
  obtain ⟨hpath, hstable⟩ := hbefore
  have hafter : ∀ u : Disk, u.path = t.temp → u.stable = t.stable ++ [t.temp] → After d state u := by
    intro u hu hus
    rw [htemp] at hu hus
    exact ⟨hu, hus.trans (by rw [hstable])⟩
  unfold installTemp
  cases replace with
  | true =>
    refine wp_stage (.inl ⟨hpath, hstable⟩) (fun e h => ⟨⟨hpath, hstable⟩, h⟩) fun hinstall => ?_
    exact ⟨.inr (hafter _ rfl rfl), hafter _ rfl rfl, hinstall⟩
  | false =>
  have hnone : t.path = none := hpath.trans (hfree rfl)
  rw [if_neg (by simp), wp_bind, wp_read]
  refine ⟨.inl ⟨hpath, hstable⟩, ?_⟩
  rw [hnone]
  refine wp_stage (.inl ⟨hpath, hstable⟩) (fun e h => ⟨⟨hpath, hstable⟩, h⟩) fun hinstall => ?_
  exact ⟨.inr (hafter _ rfl rfl), hafter _ rfl rfl, hinstall⟩

theorem settle_wp {d : Disk} (h : After d state t) :
    wp (settle faults replace) (fun r u => match r with
      | .ok () => Settled state u ∧ faults.late replace = false
      | .error _ => After d state u ∧ faults.late replace = true)
      (fun u => After d state u ∨ Settled state u) t := by
  obtain ⟨hpath, hstable⟩ := h
  have hrest : (replace = false → faults.removeTemp = none) → ∀ t, After d state t →
      wp (stage faults.openDirectory "open parent directory for" id >>= fun _ =>
        stage faults.syncDirectory "sync parent directory for" fun d => { d with stable := [d.path] })
      (fun r u => match r with
        | .ok () => Settled state u ∧ faults.late replace = false
        | .error _ => After d state u ∧ faults.late replace = true)
      (fun u => After d state u ∨ Settled state u) t := by
    intro hremoved t ht
    rw [wp_bind]
    refine wp_stage (.inl ht) (fun e h => ⟨ht, by simp [Faults.late, h]⟩) fun hopen => ⟨.inl ht, ?_⟩
    refine wp_stage (.inl ht) (fun e h => ⟨ht, by simp [Faults.late, h]⟩) fun hsync => ?_
    have hsettled : Settled state { t with stable := [t.path] } := by
      refine ⟨ht.1, ?_⟩
      rw [ht.1]
    refine ⟨.inr hsettled, hsettled, ?_⟩
    cases replace with
    | true => simp [Faults.late, hopen, hsync]
    | false => simp [Faults.late, hopen, hsync, hremoved rfl]
  unfold settle
  cases replace with
  | true =>
    exact hrest (fun h => by cases h) t ⟨hpath, hstable⟩
  | false =>
  rw [if_neg (by simp), wp_bind]
  refine wp_stage (.inl ⟨hpath, hstable⟩)
    (fun e h => ⟨⟨hpath, hstable⟩, by simp [Faults.late, h]⟩) fun hremoved => ?_
  exact ⟨.inl ⟨hpath, hstable⟩, hrest (fun _ => hremoved) _ ⟨hpath, hstable⟩⟩

/-- **A save.** It ends as the stage says that fails, and stops in no other state. -/
theorem saveStateWithTemp_wp (faults : Faults) (state : AuthState) (replace : Bool) (d : Disk)
    (hfree : replace = false → d.path = none) :
    wp (saveStateWithTemp faults state replace) (Ends faults replace d state) (Between d state) d := by
  have hbefore : Before d d := ⟨rfl, rfl⟩
  have hclean : ∀ t, Before d t →
      Before d (if faults.cleanup.isSome then t else { t with temp := none }) := by
    intro t ht
    split_ifs <;> exact ht
  unfold saveStateWithTemp
  cases hserialize : faults.serialize with
  | some source => exact ⟨.inl hbefore, hbefore, by simp [Faults.early, hserialize]⟩
  | none =>
  rw [wp_bind, wp_attempt, wp_bind]
  refine (writeTemp_wp faults state d).imp (fun r t ht => ?_) fun t ht => .inl ht
  obtain ⟨ht, hr⟩ := ht
  cases r with
  | error e =>
    rw [after_error, after_ok, wp_bind]
    exact ⟨.inl ht, .inl (hclean t ht), .inl (hclean t ht), hclean t ht,
      by simp [Faults.early, hr]⟩
  | ok u =>
  obtain ⟨htemp, hfaults⟩ := hr
  refine (installTemp_wp ht htemp hfree).imp (fun r u hu => ?_)
    fun u hu => hu.imp_right .inl
  cases r with
  | error e =>
    obtain ⟨hu, hinstall⟩ := hu
    rw [after_ok, wp_bind]
    exact ⟨.inl hu, .inl (hclean u hu), .inl (hclean u hu), hclean u hu,
      by simp [Faults.early, hinstall]⟩
  | ok v =>
  obtain ⟨hu, hinstall⟩ := hu
  have hearly : faults.early = false := by
    rw [Faults.early, hserialize, hinstall, hfaults]
    rfl
  rw [after_ok, wp_bind, wp_attempt]
  refine (settle_wp hu).imp (fun r t ht => ?_) fun t ht => .inr ht
  cases r with
  | error e => exact ⟨.inr (.inl ht.1), ht.1, hearly, ht.2⟩
  | ok v => exact ⟨.inr (.inr ht.1), ht.1, hearly, ht.2⟩

theorem loadStateFrom_wp (faults : Faults) (d : Disk) :
    wp (loadStateFrom faults) (fun r t => t = d ∧ match r with
      | .ok none => d.path = none
      | .ok (some state) => ∃ synced, d.path = some (.file (some state) synced)
      | .error _ => True) (· = d) d := by
  unfold loadStateFrom
  split
  · exact ⟨rfl, rfl, trivial⟩
  rw [wp_bind, wp_read]
  refine ⟨rfl, ?_⟩
  rw [after_ok]
  split
  · next hpath => exact ⟨rfl, rfl, hpath⟩
  · exact ⟨rfl, rfl, trivial⟩
  next content synced hpath =>
  split
  · exact ⟨rfl, rfl, trivial⟩
  · exact ⟨rfl, rfl, trivial⟩
  · exact ⟨rfl, rfl, trivial⟩
  · exact ⟨rfl, rfl, synced, hpath⟩

/-- What a start may leave: where nothing is at the path, it creates the default state. -/
def Started (d : Disk) (hash : Except String String) (t : Disk) : Prop :=
  match d.path, hash with
  | none, .ok hash => Between d (bootstrapped hash) t
  | _, _ => t = d

theorem started_refl (d : Disk) (hash : Except String String) : Started d hash d := by
  unfold Started
  split
  · exact .inl ⟨rfl, rfl⟩
  · rfl

variable {hash : String}

/-- A start reads what is at the path, or creates the default state. -/
theorem initializeState_wp (faults : Faults) (hash : Except String String) (d : Disk) :
    wp (initializeState faults hash) (fun r t => Started d hash t ∧ ∀ state, r = .ok state →
      (t = d ∧ ∃ synced, d.path = some (.file (some state) synced)) ∨
      ∃ h, d.path = none ∧ state = bootstrapped h ∧ Settled state t) (Started d hash) d := by
  have hd := started_refl d hash
  unfold initializeState
  rw [wp_bind]
  refine (loadStateFrom_wp faults d).imp (fun r t ⟨ht, hr⟩ => ?_) fun t ht => ht ▸ hd
  obtain rfl : t = d := ht
  rcases r with e | _ | state
  · exact ⟨hd, fun _ hr => by cases hr⟩
  · rw [after_ok]
    rcases hash with reason | hash
    · exact ⟨hd, hd, fun _ hr => by cases hr⟩
    have hstarted : Started t (.ok hash) = Between t (bootstrapped hash) := by
      unfold Started
      rw [show t.path = none from hr]
    unfold createStateTo
    rw [hstarted, wp_bind, wp_bind, wp_attempt]
    refine (saveStateWithTemp_wp faults (bootstrapped hash) false t fun _ => hr).imp
      (fun r u hu => ?_) fun _ h => h
    rcases r with ⟨source, _ | _⟩ | ⟨⟩
    · exact ⟨.inl hu.1, .inl hu.1, fun _ hr => by cases hr⟩
    · exact ⟨.inr (.inl hu.1), .inr (.inl hu.1), fun _ hr => by cases hr⟩
    · refine ⟨.inr (.inr hu.1), .inr (.inr hu.1), .inr (.inr hu.1), fun _ hstate => ?_⟩
      cases hstate
      exact .inr ⟨hash, hr, rfl, hu.1⟩
  · rw [after_ok]
    dsimp only
    split_ifs
    · refine ⟨hd, hd, fun _ hstate => ?_⟩
      cases hstate
      exact .inl ⟨rfl, hr⟩
    · exact ⟨hd, hd, fun _ hr => by cases hr⟩

/-! ## Operations, crashes and starts -/

abbrev Op := AuthState → Except AuthError AuthState

def Op.of {α : Type} (op : AuthState → Except AuthError (α × AuthState)) : Op :=
  fun state => (op state).map (·.2)

def Op.apply (op : Op) (state : AuthState) : AuthState :=
  match op state with
  | .ok next => next
  | .error _ => state

/-- The operations that took effect, oldest first, and whether they were reported done. -/
abbrev History := List (Op × Bool)

def after (base : AuthState) (history : History) : AuthState :=
  history.foldl (fun state op => op.1.apply state) base

structure Sys where
  disk : Disk
  memory : Option AuthState
  /-- The state that the last start found or made, and the operations since. -/
  base : Option AuthState
  history : History

def persistOf : Except StatePersistFailure Unit → Persist
  | .ok () => .saved
  | .error failure => .failed (.stateIo failure.source.message) failure.committed

def committed : Except StatePersistFailure Unit → Bool
  | .ok () => true
  | .error failure => failure.committed

def Sys.call (s : Sys) (memory : AuthState) (op : Op) (faults : Faults) :
    Except AuthError Unit × Sys :=
  match op memory with
  | .error e => (.error e, s)
  | .ok next =>
    let saving := (saveStateWithTemp faults next true).exec s.disk
    let (result, memory) := finishStateCommit memory next (persistOf saving.1)
    (result, { s with
      disk := saving.2
      memory := some memory
      history := if committed saving.1 then s.history ++ [(op, result.isOk)] else s.history })

inductive Event
  | start (faults : Faults) (hash : Except String String)
  | call (op : Op) (faults : Faults)
  /-- The machine stops between calls, during a call, or during a start. -/
  | crash
  | crashInCall (op : Op) (faults : Faults)
  | crashInStart (faults : Faults) (hash : Except String String)

def Sys.put (s : Sys) (disk : Disk) : Sys := { s with disk }

def Sys.anew (s : Sys) (hash : Except String String) : Sys :=
  match s.disk.path, hash with
  | none, .ok h => { s with base := some (bootstrapped h), history := [] }
  | _, _ => s

def Sys.start (s : Sys) (faults : Faults) (hash : Except String String) : Sys :=
  match (initializeState faults hash).exec s.disk with
  | (.ok state, disk) => { disk, memory := some state, base := some state, history := [] }
  | (.error _, disk) => (s.anew hash).put disk

def SysStep (s : Sys) : Event → Sys → Prop
  | .start faults hash, s' => s.memory = none ∧ s' = s.start faults hash
  | .call op faults, s' => ∃ memory, s.memory = some memory ∧ s' = (s.call memory op faults).2
  | .crash, s' => ∃ disk, Crashed s.disk disk ∧ s' = { s with disk, memory := none }
  | .crashInCall op faults, s' => ∃ memory next d disk, s.memory = some memory ∧
      op memory = .ok next ∧ d ∈ (saveStateWithTemp faults next true).visits s.disk ∧
      Crashed d disk ∧ s' = { s with disk, memory := none, history := s.history ++ [(op, false)] }
  | .crashInStart faults hash, s' => ∃ d disk, s.memory = none ∧
      d ∈ (initializeState faults hash).visits s.disk ∧ Crashed d disk ∧
      s' = (s.anew hash).put disk

/-! ## What is kept -/

/-- The state after the first operations, all that were reported done among them; or, where a first
start could not sync the directory, nothing. -/
def Kept (base : AuthState) (history : History) (e : Option Entry) : Prop :=
  (∃ done, done <+: history ∧ e = saved (after base done) ∧
      ∀ op ∈ history.drop done.length, op.2 = false) ∨
    e = none ∧ (∃ hash, base = bootstrapped hash) ∧ ∀ op ∈ history, op.2 = false

/-- What may be at the path after a crash has been synced. -/
def Disk.Lasting (d : Disk) : Prop := ∀ e ∈ d.stable, ∀ e', Survives e e' → e' = e

structure Inv (s : Sys) : Prop where
  running : ∀ memory, s.memory = some memory → s.disk.path = saved memory ∧
    ∃ base, s.base = some base ∧ memory = after base s.history
  current : s.disk.path ∈ s.disk.stable
  durable : s.disk.Lasting
  kept : ∀ base, s.base = some base → ∀ e ∈ s.disk.stable, Kept base s.history e
  idle : s.memory = none → ∀ e ∈ s.disk.stable, e = s.disk.path ∨
    e = none ∧ ∃ hash, s.disk.path = saved (bootstrapped hash)

section Kept

variable {base state memory : AuthState} {history : History} {e e' : Option Entry} {op : Op}

theorem after_concat (hafter : memory = after base history) (hop : op memory = .ok state)
    (done : Bool) : after base (history ++ [(op, done)]) = state := by
  rw [after, foldl_append, show List.foldl _ base history = memory from hafter.symm,
    foldl_cons, foldl_nil, Op.apply]
  dsimp only
  rw [hop]

theorem kept_after (base : AuthState) (history : History) :
    Kept base history (saved (after base history)) :=
  .inl ⟨history, prefix_refl _, rfl, fun op hop => by simp at hop⟩

theorem Kept.concat (h : Kept base history e) (op : Op) : Kept base (history ++ [(op, false)]) e := by
  rcases h with ⟨done, hdone, he, hrest⟩ | ⟨he, hbase, hall⟩
  · refine .inl ⟨done, hdone.trans (prefix_append _ _), he, ?_⟩
    rw [drop_append_of_le_length hdone.length_le]
    exact forall_mem_append.2 ⟨hrest, forall_mem_singleton.2 rfl⟩
  exact .inr ⟨he, hbase, forall_mem_append.2 ⟨hall, forall_mem_singleton.2 rfl⟩⟩

theorem saved_durable (state : AuthState) (h : Survives (saved state) e') : e' = saved state := h

end Kept

section Steps

variable {s s' : Sys} {e : Option Entry}

theorem Crashed.path_mem {d d' : Disk} (h : Crashed d d') (hd : d.Lasting) :
    d'.path ∈ d.stable := by
  obtain ⟨-, e, he, hsurvives⟩ := h
  rw [hd e he _ hsurvives]
  exact he

theorem Inv.crash {d disk : Disk} {base : Option AuthState} {history : History}
    (hcrashed : Crashed d disk) (hdurable : d.Lasting)
    (hkept : ∀ b, base = some b → ∀ e ∈ d.stable, Kept b history e) :
    Inv { disk, memory := none, base, history } := by
  have hmem := hcrashed.path_mem hdurable
  have honly : ∀ e ∈ disk.stable, e = disk.path := by
    rw [hcrashed.1]
    exact fun e he => mem_singleton.1 he
  refine ⟨fun _ h => (by cases h), ?_, fun e he => ?_, fun b hb e he => ?_,
    fun _ e he => .inl (honly e he)⟩
  · rw [hcrashed.1]
    exact mem_singleton_self _
  · rw [honly e he]
    exact hdurable _ hmem
  · rw [honly e he]
    exact hkept b hb _ hmem

theorem Between.mem_stable {d : Disk} (h : Between d state t) (he : e ∈ t.stable) :
    e ∈ d.stable ∨ e = saved state := by
  rcases h with ⟨-, hstable⟩ | ⟨-, hstable⟩ | ⟨-, hstable⟩ <;> rw [hstable] at he
  · exact .inl he
  · rwa [mem_append, mem_singleton] at he
  · exact .inr (mem_singleton.1 he)

theorem Between.durable {d : Disk} (h : Between d state t) (hd : d.Lasting) : t.Lasting := by
  intro e he
  rcases h.mem_stable he with he | rfl
  · exact hd e he
  · exact fun _ => saved_durable state

variable {memory next : AuthState} {op : Op}

theorem Inv.crashInCall (h : Inv s) {d disk : Disk} (hmemory : s.memory = some memory)
    (hop : op memory = .ok next) (hvisit : d ∈ (saveStateWithTemp faults next true).visits s.disk)
    (hcrashed : Crashed d disk) :
    Inv { s with disk, memory := none, history := s.history ++ [(op, false)] } := by
  have hbetween := visits_of_wp (saveStateWithTemp_wp faults next true s.disk fun h => by cases h) hvisit
  refine .crash hcrashed (hbetween.durable h.durable) fun base hbase e he => ?_
  rcases hbetween.mem_stable he with he | rfl
  · exact (h.kept base hbase e he).concat op
  obtain ⟨-, b, hb, hafter⟩ := h.running memory hmemory
  obtain rfl : base = b := Option.some.inj (hbase.symm.trans hb)
  rw [← after_concat hafter hop false]
  exact kept_after base _

theorem call_spec {result : Except AuthError Unit} (hop : op memory = .ok next)
    (hcall : s.call memory op faults = (result, s')) : s'.base = s.base ∧
    ((faults.early = true ∧ result.isOk = false ∧ s'.memory = some memory ∧
      Before s.disk s'.disk ∧ s'.history = s.history) ∨
    (faults.early = false ∧ faults.late true = true ∧ result.isOk = false ∧
      s'.memory = some next ∧ After s.disk next s'.disk ∧
      s'.history = s.history ++ [(op, false)]) ∨
    (faults.early = false ∧ faults.late true = false ∧ result.isOk = true ∧
      s'.memory = some next ∧ Settled next s'.disk ∧
      s'.history = s.history ++ [(op, true)])) := by
  have hends := exec_of_wp (saveStateWithTemp_wp faults next true s.disk fun h => by cases h)
  unfold Sys.call at hcall
  rw [hop] at hcall
  dsimp only at hcall
  rcases hsaving : (saveStateWithTemp faults next true).exec s.disk with ⟨⟨source, _ | _⟩ | ⟨⟩, t⟩ <;>
    rw [hsaving] at hends hcall <;> cases hcall
  · exact ⟨rfl, .inl ⟨hends.2, rfl, rfl, hends.1, rfl⟩⟩
  · exact ⟨rfl, .inr (.inl ⟨hends.2.1, hends.2.2, rfl, rfl, hends.1, rfl⟩)⟩
  · exact ⟨rfl, .inr (.inr ⟨hends.2.1, hends.2.2, rfl, rfl, hends.1, rfl⟩)⟩

theorem Inv.committed (h : Inv s) {done : Bool} (hmemory : s.memory = some memory)
    (hop : op memory = .ok next) (hmemory' : s'.memory = some next) (hbase : s'.base = s.base)
    (hhistory : s'.history = s.history ++ [(op, done)]) (hpath : s'.disk.path = saved next)
    (hstable : ∀ e ∈ s'.disk.stable, e = saved next ∨ done = false ∧ e ∈ s.disk.stable)
    (hmem : saved next ∈ s'.disk.stable) : Inv s' := by
  obtain ⟨-, b, hb, hafter⟩ := h.running memory hmemory
  have hnext := after_concat hafter hop done
  refine ⟨fun m hm => ?_, hpath ▸ hmem, fun e he => ?_, fun base hbase' e he => ?_, fun hnone => ?_⟩
  · obtain rfl : m = next := Option.some.inj (hm.symm.trans hmemory')
    exact ⟨hpath, b, hbase.trans hb, by rw [hhistory, hnext]⟩
  · rcases hstable e he with rfl | ⟨-, he⟩
    · exact fun _ => saved_durable next
    · exact h.durable e he
  · obtain rfl : base = b := Option.some.inj ((hbase'.symm.trans hbase).trans hb)
    rw [hhistory]
    rcases hstable e he with rfl | ⟨rfl, he⟩
    · rw [← hnext]
      exact kept_after base _
    · exact (h.kept base hb e he).concat op
  · rw [hmemory'] at hnone
    cases hnone

theorem Inv.call {result : Except AuthError Unit} (h : Inv s) (hmemory : s.memory = some memory)
    (hcall : s.call memory op faults = (result, s')) : Inv s' := by
  rcases hop : op memory with e | next
  · rw [Sys.call, hop] at hcall
    cases hcall
    exact h
  obtain ⟨hbase, ⟨-, -, hm, ⟨hpath, hstable⟩, hhistory⟩ |
    ⟨-, -, -, hm, ⟨hpath, hstable⟩, hhistory⟩ | ⟨-, -, -, hm, ⟨hpath, hstable⟩, hhistory⟩⟩ :=
    call_spec hop hcall
  · obtain ⟨hrunning, hcurrent, hdurable, hkept, hidle⟩ := h
    refine ⟨?_, ?_, ?_, ?_, ?_⟩
    · rw [hpath, hm, hbase, hhistory, ← hmemory]
      exact hrunning
    · rwa [hpath, hstable]
    · rwa [Disk.Lasting, hstable]
    · rwa [hbase, hhistory, hstable]
    · rw [hpath, hm, hstable, ← hmemory]
      exact hidle
  · refine h.committed hmemory hop hm hbase hhistory hpath (fun e he => ?_) ?_
    · rw [hstable, mem_append, mem_singleton] at he
      exact he.symm.imp_right fun he => ⟨rfl, he⟩
    · rw [hstable]
      exact mem_append_right _ (mem_singleton_self _)
  refine h.committed hmemory hop hm hbase hhistory hpath (fun e he => ?_) ?_
  · rw [hstable, mem_singleton] at he
    exact .inl he
  · rw [hstable]
    exact mem_singleton_self _

theorem kept_default (h : e = none ∨ e = saved (bootstrapped hash)) :
    Kept (bootstrapped hash) [] e := by
  rcases h with rfl | rfl
  · exact .inr ⟨rfl, ⟨hash, rfl⟩, fun _ hop => by cases hop⟩
  · exact kept_after _ []

theorem anew_memory (s : Sys) (hash : Except String String) : (s.anew hash).memory = s.memory := by
  unfold Sys.anew
  split <;> rfl

theorem anew_cases {hash : Except String String} (h : Started s.disk hash t) :
    s.anew hash = s ∧ t = s.disk ∨ ∃ h', s.disk.path = none ∧
      s.anew hash = { s with base := some (bootstrapped h'), history := [] } ∧
      Between s.disk (bootstrapped h') t := by
  unfold Sys.anew
  unfold Started at h
  rcases hpath : s.disk.path with _ | entry <;> rw [hpath] at h
  · rcases hash with reason | h'
    · exact .inl ⟨rfl, h⟩
    · exact .inr ⟨h', rfl, rfl, h⟩
  · exact .inl ⟨rfl, h⟩

theorem Inv.synced (h : Inv s) {synced : Bool}
    (hpath : s.disk.path = some (.file (some state) synced)) : s.disk.path = saved state := by
  cases synced with
  | true => exact hpath
  | false =>
    have hlost := h.durable _ h.current (some (.file none true)) (by rw [hpath]; exact ⟨none, rfl⟩)
    rw [hpath] at hlost
    cases hlost

theorem Inv.created (h : Settled (bootstrapped hash) t) :
    Inv { disk := t, memory := some (bootstrapped hash), base := some (bootstrapped hash),
          history := [] } := by
  obtain ⟨hpath, hstable⟩ := h
  have hentry : ∀ e ∈ t.stable, e = saved (bootstrapped hash) := by
    intro e he
    rw [hstable] at he
    exact mem_singleton.1 he
  refine ⟨?_, ?_, fun e he => ?_, ?_, fun hnone => by cases hnone⟩
  · rintro _ ⟨⟩
    exact ⟨hpath, _, rfl, rfl⟩
  · rw [hpath, hstable]
    exact mem_singleton_self _
  · rw [hentry e he]
    exact fun _ => saved_durable _
  · rintro _ ⟨⟩ e he
    exact kept_default (.inr (hentry e he))

section

variable (h : Inv s) (hmemory : s.memory = none)
include h hmemory

theorem Inv.kept_anew (hpath : s.disk.path = none)
    (hbetween : Between s.disk (bootstrapped hash) t) :
    ∀ e ∈ t.stable, e = none ∨ e = saved (bootstrapped hash) := by
  intro e he
  rcases hbetween.mem_stable he with he | he
  · rcases h.idle hmemory e he with he | ⟨he, -⟩
    · exact .inl (he.trans hpath)
    · exact .inl he
  · exact .inr he

theorem Inv.crashInStart {hash : Except String String} {d disk : Disk}
    (hvisit : d ∈ (initializeState faults hash).visits s.disk)
    (hcrashed : Crashed d disk) : Inv ((s.anew hash).put disk) := by
  rcases anew_cases (visits_of_wp (initializeState_wp faults hash s.disk) hvisit) with
    ⟨hanew, rfl⟩ | ⟨h', hpath, hanew, hbetween⟩ <;> rw [hanew, Sys.put, hmemory]
  · exact .crash hcrashed h.durable h.kept
  · refine .crash hcrashed (hbetween.durable h.durable) fun base hbase e he => ?_
    cases hbase
    exact kept_default (h.kept_anew hmemory hpath hbetween e he)

theorem Inv.loaded (hpath : s.disk.path = saved state) :
    Inv { disk := s.disk, memory := some state, base := some state, history := [] } := by
  refine ⟨?_, h.current, h.durable, ?_, fun hnone => by cases hnone⟩
  · rintro _ ⟨⟩
    exact ⟨hpath, state, rfl, rfl⟩
  rintro _ ⟨⟩ e he
  rcases h.idle hmemory e he with heq | ⟨hnone, hash, hdefault⟩
  · rw [heq, hpath]
    exact kept_after state []
  · rw [hpath] at hdefault
    cases hdefault
    exact kept_default (.inl hnone)

theorem Inv.notCreated (hpath : s.disk.path = none)
    (hbetween : Between s.disk (bootstrapped hash) t) :
    Inv { disk := t, memory := none, base := some (bootstrapped hash), history := [] } := by
  have hentry := h.kept_anew hmemory hpath hbetween
  have hcurrent : t.path ∈ t.stable := by
    rcases hbetween with ⟨hp, hs⟩ | ⟨hp, hs⟩ | ⟨hp, hs⟩ <;> rw [hp, hs]
    · exact h.current
    · exact mem_append_right _ (mem_singleton_self _)
    · exact mem_singleton_self _
  refine ⟨fun _ hm => (by cases hm), hcurrent, hbetween.durable h.durable, ?_, fun _ e he => ?_⟩
  · rintro _ ⟨⟩ e he
    exact kept_default (hentry e he)
  rcases hentry _ hcurrent with hnone | hdefault
  · -- nothing was installed
    rcases hbetween with ⟨hp, hs⟩ | ⟨hp, -⟩ | ⟨hp, -⟩
    · rw [hs] at he
      rcases h.idle hmemory e he with he | ⟨-, _, hdefault⟩
      · exact .inl (he.trans hp.symm)
      · rw [hpath] at hdefault
        cases hdefault
    all_goals
      rw [hp] at hnone
      cases hnone
  · rcases hentry e he with he | he
    · exact .inr ⟨he, hash, hdefault⟩
    · exact .inl (he.trans hdefault.symm)

theorem Inv.start (faults : Faults) (hash : Except String String) :
    Inv (s.start faults hash) := by
  have hwp := exec_of_wp (initializeState_wp faults hash s.disk)
  unfold Sys.start
  rcases hexec : (initializeState faults hash).exec s.disk with ⟨e | state, t⟩ <;>
    rw [hexec] at hwp
  · rcases anew_cases hwp.1 with ⟨hanew, ht⟩ | ⟨h', hpath, hanew, hbetween⟩
    · rw [hanew, show t = s.disk from ht]
      exact h
    · rw [hanew, hmemory]
      exact h.notCreated hmemory hpath hbetween
  · rcases hwp.2 state rfl with ⟨ht, synced, hpath⟩ | ⟨h', -, rfl, hsettled⟩
    · rw [show t = s.disk from ht]
      exact h.loaded hmemory (h.synced hpath)
    · exact .created hsettled

end

theorem Inv.step (h : Inv s) {e : Event} (hstep : SysStep s e s') : Inv s' := by
  cases e with
  | start faults hash =>
    obtain ⟨hmemory, rfl⟩ := hstep
    exact h.start hmemory faults hash
  | call op faults =>
    obtain ⟨memory, hmemory, rfl⟩ := hstep
    exact h.call hmemory rfl
  | crash =>
    obtain ⟨disk, hcrashed, rfl⟩ := hstep
    exact .crash hcrashed h.durable h.kept
  | crashInCall op faults =>
    obtain ⟨memory, next, d, disk, hmemory, hop, hvisit, hcrashed, rfl⟩ := hstep
    exact h.crashInCall hmemory hop hvisit hcrashed
  | crashInStart faults hash =>
    obtain ⟨d, disk, hmemory, hvisit, hcrashed, rfl⟩ := hstep
    exact h.crashInStart hmemory hvisit hcrashed

structure Fresh (s : Sys) : Prop where
  memory : s.memory = none
  base : s.base = none
  stable : s.disk.stable = [s.disk.path]
  synced : ∀ content, s.disk.path ≠ some (.file content false)

theorem Fresh.inv (h : Fresh s) : Inv s := by
  refine ⟨fun m hm => ?_, ?_, fun e he e' hsurvives => ?_, fun base hbase => ?_, fun _ e he => ?_⟩
  · rw [h.memory] at hm
    cases hm
  · rw [h.stable]
    exact mem_singleton_self _
  · rw [h.stable, mem_singleton] at he
    subst he
    rcases hpath : s.disk.path with _ | ⟨content, _ | _⟩ | reason
    · rwa [hpath] at hsurvives
    · exact absurd hpath (h.synced content)
    · rwa [hpath] at hsurvives
    · rwa [hpath] at hsurvives
  · rw [h.base] at hbase
    cases hbase
  · rw [h.stable, mem_singleton] at he
    exact .inl he

theorem Inv.start_memory (h : Inv s) (hmemory : s.memory = none) {base : AuthState}
    (hbase : s.base = some base) {hash : Except String String}
    (hstart : (s.start faults hash).memory = some state) :
    (∃ done, done <+: s.history ∧ state = after base done ∧
        ∀ op ∈ s.history.drop done.length, op.2 = false) ∨
      s.disk.path = none ∧ (∀ op ∈ s.history, op.2 = false) ∧
        ∃ h h', base = bootstrapped h ∧ state = bootstrapped h' := by
  have hkept := h.kept base hbase _ h.current
  have hwp := (exec_of_wp (initializeState_wp faults hash s.disk)).2
  unfold Sys.start at hstart
  rcases hexec : (initializeState faults hash).exec s.disk with ⟨e | found, t⟩ <;>
    rw [hexec] at hstart hwp
  · cases (hstart.symm.trans (anew_memory s _)).trans hmemory
  cases hstart
  rcases hwp _ rfl with ⟨-, synced, hpath⟩ | ⟨h', hpath, hfound, -⟩
  · rw [h.synced hpath] at hkept
    rcases hkept with ⟨done, hdone, hsaved, hrest⟩ | ⟨hnone, -⟩
    · exact .inl ⟨done, hdone, by cases hsaved; rfl, hrest⟩
    · cases hnone
  · rw [hpath] at hkept
    rcases hkept with ⟨done, -, hsaved, -⟩ | ⟨-, ⟨h₀, hdefault⟩, hall⟩
    · cases hsaved
    · exact .inr ⟨hpath, hall, h₀, h', hdefault, hfound⟩

/-- **The state file.** Whichever stages fail and wherever the engine stops, memory is what the file
holds, and a start finds the first operations, among them all that were reported done. -/
theorem state_durable {s₀ : Sys} {es : List Event} (h₀ : Fresh s₀) (h : Run SysStep s₀ es s) :
    (∀ memory, s.memory = some memory → s.disk.path = saved memory) ∧
    (∀ memory op next faults, s.memory = some memory → op memory = .ok next →
      (faults.early = true → (s.call memory op faults).1.isOk = false ∧
        (s.call memory op faults).2.memory = some memory ∧
        (s.call memory op faults).2.disk.path = s.disk.path) ∧
      (faults.early = false → ((s.call memory op faults).1.isOk = true ↔ faults.late true = false) ∧
        (s.call memory op faults).2.memory = some next ∧
        (s.call memory op faults).2.disk.path = saved next)) ∧
    (∀ base faults hash state, s.memory = none → s.base = some base →
      (s.start faults hash).memory = some state →
      (∃ done, done <+: s.history ∧ state = after base done ∧
          ∀ op ∈ s.history.drop done.length, op.2 = false) ∨
        s.disk.path = none ∧ (∀ op ∈ s.history, op.2 = false) ∧
          ∃ h h', base = bootstrapped h ∧ state = bootstrapped h') ∧
    ∀ faults hash, s.disk.path.isSome →
      ((initializeState faults hash).exec s.disk).2 = s.disk ∧
        ∀ d ∈ (initializeState faults hash).visits s.disk, d = s.disk := by
  have hinv : Inv s := h.inv h₀.inv fun _ _ _ hs hstep => hs.step hstep
  refine ⟨fun memory hm => (hinv.running memory hm).1, fun memory op next faults hm hop => ?_,
    fun base faults hash state hm hbase hstart => hinv.start_memory hm hbase hstart,
    fun faults hash hpath => ?_⟩
  · rcases hcall : s.call memory op faults with ⟨result, s'⟩
    obtain ⟨-, ⟨hearly, hresult, hmemory, hdisk, -⟩ |
      ⟨hearly, hlate, hresult, hmemory, hdisk, -⟩ |
      ⟨hearly, hlate, hresult, hmemory, hdisk, -⟩⟩ := call_spec hop hcall
    · refine ⟨fun _ => ⟨hresult, hmemory, hdisk.1⟩, fun hnot => ?_⟩
      rw [hearly] at hnot
      cases hnot
    all_goals
      refine ⟨fun hnot => ?_, fun _ => ⟨?_, hmemory, hdisk.1⟩⟩
      · rw [hearly] at hnot
        cases hnot
      · rw [hresult, hlate]
        simp
  · have hsame : ∀ t, Started s.disk hash t → t = s.disk := by
      intro t ht
      rcases anew_cases ht with ⟨-, ht⟩ | ⟨-, hnone, -⟩
      · exact ht
      · simp [hnone] at hpath
    have hwp := initializeState_wp faults hash s.disk
    exact ⟨hsame _ (exec_of_wp hwp).1, fun d hd => hsame d (visits_of_wp hwp hd)⟩

def Sys.blank : Sys := ⟨⟨none, none, [none]⟩, none, none, []⟩

theorem blank_fresh : Fresh Sys.blank := ⟨rfl, rfl, rfl, fun _ h => by cases h⟩

def deleteAdmin : Op :=
  .of (deleteUser (newSession "t" "root" .admin none 0 false "10.0.0.1") "admin")

def unsynced : Faults := { syncDirectory := some "input/output error" }

theorem state_durable_unsynced : ∃ s, Run SysStep Sys.blank
      [.start {} (.ok "argon2:admin"), .call deleteAdmin unsynced] s ∧
    (∃ memory, s.memory = some memory ∧ memory.users = [] ∧ s.disk.path = saved memory) ∧
    s.history = [(deleteAdmin, false)] := by
  have h1 : Run SysStep Sys.blank [.start {} (.ok "argon2:admin")]
      (Sys.blank.start {} (.ok "argon2:admin")) := .snoc .nil ⟨rfl, rfl⟩
  have h2 : Run SysStep Sys.blank [.start {} (.ok "argon2:admin"), .call deleteAdmin unsynced]
      ((Sys.blank.start {} (.ok "argon2:admin")).call (bootstrapped "argon2:admin") deleteAdmin
        unsynced).2 := .snoc h1 ⟨_, rfl, rfl⟩
  exact ⟨_, h2, ⟨_, rfl, rfl, (state_durable blank_fresh h2).1 _ rfl⟩, rfl⟩

end Steps

end Nasty.Auth.Durable
