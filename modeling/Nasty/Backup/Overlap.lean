import Mathlib.Data.List.Perm.Basic
import Nasty.Backup.Service

/-!
# Overlapping calls on one profile

`update_profile`, `init_repo` and the recording of a run read the profile under the lock, work
without it and store under the lock again. What they store depends on the profile they read only
through its definition, the fields of `backup_definition_matches` (`finish_eq_alone`). The last two
calls ask for that match under the lock; an update does not.
-/

namespace Nasty.Backup.Service

open Lts List

variable {τ : Type} [LinearOrder τ]

inductive Request (τ : Type)
  | update (call : Call τ) (update : BackupProfile)
  | init (call : Call τ) (opened : Bool)
  | run (call : Call τ) (result : BackupRunResult)

section Calls

variable (env : Env τ) (json : Json) (id : String)

/-- The second critical section of a call that read `p`, if the repository can be opened. -/
def World.finish (w : World) (p : BackupProfile) : Request τ → World
  | .update call update => w.next env json (.update call id update p)
  | .init call opened => if opened then w.next env json (.recordInit call id p) else w
  | .run call result => w.next env json (.recordRun call id p result)

def World.alone (w : World) (r : Request τ) : World :=
  match w.getProfileInternal id with
  | .error _ => w
  | .ok p => w.finish env json id p r

/-- The stored state, and the calls that have read, each with the profile it read. -/
structure Overlap (τ : Type) where
  world : World
  pending : List (Request τ × BackupProfile)

inductive Move (τ : Type)
  | read (r : Request τ)
  | finish (k : ℕ)

def Overlap.next (s : Overlap τ) : Move τ → Option (Overlap τ)
  | .read r =>
    match s.world.getProfileInternal id with
    | .error _ => some s
    | .ok p => some { s with pending := (r, p) :: s.pending }
  | .finish k =>
    s.pending[k]?.map fun (r, p) => ⟨s.world.finish env json id p r, s.pending.eraseIdx k⟩

/-- The record has its own secrets and no last run: nothing of the stored one goes into it. -/
def TakesNothing (record : BackupProfile) : Prop :=
  record.lastRun = none ∧ ∀ existing, carryForwardExistingSecrets record existing = record

/-- The call that read `p` finds its definition in `current`, or is an update that takes nothing
over. -/
def Request.Current (r : Request τ) (p current : BackupProfile) : Prop :=
  backupDefinitionMatches current p ∨ ∃ call submitted, r = .update call submitted ∧
    ∀ checked, checkSubmitted env call submitted = .ok checked →
      TakesNothing (withNormalizedTarget env checked)

/-- The call that stores is `Request.Current`. -/
def Overlap.Current (s : Overlap τ) : Move τ → Prop
  | .read _ => True
  | .finish k => ∀ r p current, s.pending[k]? = some (r, p) →
    s.world.getProfileInternal id = .ok current → r.Current env p current

def Move.started : Move τ → Option (Request τ)
  | .read r => some r
  | .finish _ => none

end Calls

variable {env : Env τ} {json : Json} {id : String} {w start : World} {p q : BackupProfile}

theorem matches_congr (h : backupDefinitionMatches p q) (u : BackupProfile) :
    backupDefinitionMatches u q = backupDefinitionMatches u p := by
  obtain ⟨hsources, htarget, hpassword, hblob, hcert⟩ := of_decide_eq_true h
  rw [backupDefinitionMatches, backupDefinitionMatches, hsources, htarget, hpassword, hblob, hcert]

theorem prepareUpdate_congr (h : backupDefinitionMatches p q) (call : Call τ)
    (update : BackupProfile) : prepareUpdate env call update q = prepareUpdate env call update p := by
  obtain ⟨-, htarget, hpassword, hblob, -⟩ := of_decide_eq_true h
  simp only [prepareUpdate, invalidateLastRunIfDefinitionChanged, matches_congr h,
    carryForwardExistingSecrets, htarget, hpassword, hblob]

theorem TakesNothing.prepareUpdate {update : BackupProfile}
    (h : TakesNothing (withNormalizedTarget env update)) (call : Call τ) :
    prepareUpdate env call update p = prepareUpdate env call update q := by
  have hsame (existing : BackupProfile) :
      invalidateLastRunIfDefinitionChanged (withNormalizedTarget env update) existing =
        withNormalizedTarget env update := by
    rw [invalidateLastRunIfDefinitionChanged, ← h.1, ite_self]
  simp only [Service.prepareUpdate, h.2, hsame]

theorem finish_missing {e : BackupError} (h : w.getProfileInternal id = .error e) (r : Request τ) :
    w.finish env json id p r = w := by
  have hnone : ∀ x ∈ w.profiles, ¬ x.id = id := by
    rw [World.getProfileInternal] at h
    split at h
    · cases h
    · rename_i hfind
      simpa using hfind
  cases r with
  | update call update =>
    have hany : w.profiles.any (·.id = id) = false := by simpa using hnone
    simp only [World.finish, World.next, updateFrom, commitUpdate, hany]
    split
    · rfl
    · split <;> rfl
  | init call opened =>
    simp only [World.finish, World.next, recordInit, h, ite_self]
  | run call result =>
    simp only [World.finish, World.next, recordRun]
    rw [if_neg]
    simp only [any_eq_true, Bool.and_eq_true, decide_eq_true_eq]
    rintro ⟨x, hx, hid, -⟩
    exact hnone x hx hid

/-- **One call.** What it stores is what it would store had it read the profile just now. -/
theorem finish_eq_alone (r : Request τ)
    (h : ∀ current, w.getProfileInternal id = .ok current → r.Current env p current) :
    w.finish env json id p r = w.alone env json id r := by
  rw [World.alone]
  cases hget : w.getProfileInternal id with
  | error e => exact finish_missing hget r
  | ok current =>
  rcases h current hget with hp | ⟨call, update, rfl, hp⟩
  · cases r with
    | update call update =>
      simp only [World.finish, World.next, updateFrom, prepareUpdate_congr hp]
    | init call opened => simp only [World.finish, World.next, recordInit, matches_congr hp]
    | run call result => simp only [World.finish, World.next, recordRun, matches_congr hp]
  · simp only [World.finish, World.next]
    split
    · rfl
    · next checked hcheck => simp only [updateFrom, (hp checked hcheck).prepareUpdate (q := current)]

/-- The calls that have returned, in the order in which they did, leave the stored state. -/
def Serial (env : Env τ) (json : Json) (id : String) (start : World) (moves : List (Move τ))
    (s : Overlap τ) : Prop :=
  ∃ order, order ++ s.pending.map Prod.fst ~ moves.filterMap Move.started ∧
    s.world = order.foldl (World.alone env json id) start

theorem Serial.step {moves : List (Move τ)} {s t : Overlap τ} {m : Move τ}
    (h : Serial env json id start moves s) (hcurrent : s.Current env id m)
    (hnext : s.next env json id m = some t) : Serial env json id start (moves ++ [m]) t := by
  obtain ⟨order, hperm, hworld⟩ := h
  cases m with
  | read r =>
    simp only [Overlap.next] at hnext
    split at hnext <;> rename_i hget <;> cases hnext
    · refine ⟨order ++ [r], ?_, ?_⟩
      · rw [filterMap_append, append_assoc]
        refine (perm_append_comm.append_left order).trans ?_
        rw [← append_assoc]
        exact hperm.append_right [r]
      · simp only [foldl_append, ← hworld, foldl_cons, foldl_nil, World.alone, hget]
    · refine ⟨order, ?_, hworld⟩
      rw [filterMap_append]
      exact perm_middle.trans ((hperm.cons r).trans (perm_append_singleton r _).symm)
  | finish k =>
    obtain ⟨⟨r, p⟩, hk, rfl⟩ := Option.map_eq_some_iff.1 hnext
    obtain ⟨hlt, hget⟩ := List.getElem?_eq_some_iff.1 hk
    refine ⟨order ++ [r], ?_, ?_⟩
    · have herase := (getElem_cons_eraseIdx_perm hlt).map Prod.fst
      rw [hget] at herase
      rw [append_assoc, filterMap_append, show filterMap Move.started [Move.finish k] = [] from rfl,
        append_nil]
      exact (herase.append_left order).trans hperm
    · rw [foldl_append, ← hworld]
      exact finish_eq_alone r fun current h => hcurrent r p current hk h

/-- **Overlapping calls.** Calls that are `Current` when they store leave what they would leave one
after the other. -/
theorem overlap_serial {moves : List (Move τ)} {s : Overlap τ}
    (hrun : Run (fun s m t => s.Current env id m ∧ s.next env json id m = some t) ⟨start, []⟩
      moves s) (hreturned : s.pending = []) :
    ∃ order, order ~ moves.filterMap Move.started ∧
      s.world = order.foldl (World.alone env json id) start := by
  have hserial : Serial env json id start moves s :=
    hrun.history_inv ⟨[], .refl _, rfl⟩ fun _ _ _ _ h hstep => h.step hstep.1 hstep.2
  obtain ⟨order, hperm, hworld⟩ := hserial
  rw [hreturned, map_nil, append_nil] at hperm
  exact ⟨order, hperm, hworld⟩

/-! ## A rotation that is undone -/

def rotated : BackupProfile := { nightly with password := some "correct horse" }

def rotateJson : Json := threeLists [] [nightly] [rotated]

def oneProfile : World :=
  (World.new rotateJson {} ⟨none, false⟩).next localEnv rotateJson (.create offline "" nightly)

def rotate : Request ℕ := .update offline rotated

def keep : Request ℕ := .update offline { nightly with password := none }

def setBack : Request ℕ := .update offline nightly

/-- Two updates overlap; the one that stores last submits a password of its own. -/
theorem overlap_serial_rotated :
    ∃ order, order ~ [rotate, setBack] ∧
      (order.foldl (World.alone localEnv rotateJson "1") oneProfile).profiles = [nightly] := by
  have hnil : Run (fun (s : Overlap ℕ) m t => s.Current localEnv "1" m ∧
      s.next localEnv rotateJson "1" m = some t) ⟨oneProfile, []⟩ [] ⟨oneProfile, []⟩ := .nil
  have hsetBack : ∀ checked, checkSubmitted localEnv offline nightly = .ok checked →
      TakesNothing (withNormalizedTarget localEnv checked) := by
    rintro checked ⟨⟩
    exact ⟨rfl, fun _ => rfl⟩
  have hrun := (((hnil.next (.read rotate) trivial rfl).next (.read setBack) trivial rfl).next
    (.finish 1) (by rintro r p current ⟨⟩ ⟨⟩; exact .inl (by decide)) rfl).next (.finish 0)
    (by rintro r p current ⟨⟩ ⟨⟩; exact .inr ⟨_, _, rfl, hsetBack⟩) rfl
  obtain ⟨order, hperm, hworld⟩ := overlap_serial hrun rfl
  refine ⟨order, hperm, ?_⟩
  rw [← hworld]
  decide +kernel

/-- The update that omits the password stores the one that it read. -/
theorem rotation_undone :
    ∃ s : Overlap ℕ, Run (fun s m t => s.next localEnv rotateJson "1" m = some t) ⟨oneProfile, []⟩
        [.read rotate, .read keep, .finish 1, .finish 0] s ∧
      s.pending = [] ∧ s.world.profiles = [nightly] ∧
      ∀ order, order ~ [rotate, keep] →
        (order.foldl (World.alone localEnv rotateJson "1") oneProfile).profiles = [rotated] := by
  refine ⟨_, Run.of_foldlM rfl, rfl, by decide +kernel, fun order horder => ?_⟩
  obtain ⟨x, y, rfl⟩ := length_eq_two.1 horder.length_eq
  have hx : x ∈ [rotate, keep] := horder.mem_iff.1 mem_cons_self
  have hy : y ∈ [rotate, keep] := horder.mem_iff.1 (mem_cons_of_mem _ mem_cons_self)
  have hrotate : rotate ∈ [x, y] := horder.mem_iff.2 mem_cons_self
  simp only [mem_cons, not_mem_nil, or_false] at hx hy
  obtain rfl | rfl := hx <;> obtain rfl | rfl := hy
  · decide +kernel
  · decide +kernel
  · decide +kernel
  · simp [rotate, keep, rotated, nightly] at hrotate

end Nasty.Backup.Service
