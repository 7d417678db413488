import Nasty.Network.FailedUpdate
import Nasty.Network.Rollback

/-!
# What rollbacks and restarts keep

Over every run, restarts included. A snapshot is a configuration that was stored, and only what
passes the validator is stored, so the validator never stands in the way of a rollback
(`rollback_accepted`). A confirmation removes the snapshot together with the transaction; what was
confirmed is changed by the next update only (`confirmed_kept`).
-/

namespace Nasty.Network

open Lts

variable {s t u v : State} {e : Event} {es es' : List Event} {config : NetworkConfig}

/-! ## Snapshots pass the validator -/

/-- The stored configuration and the snapshot, where there is one. -/
def ValidFiles (s : State) : Prop :=
  ∀ config, s.config = .value config ∨ s.pendingRevert = .value config → Accepted config

theorem accepted_loadConfig (h : ValidFiles s) : Accepted (loadConfig s) := by
  unfold loadConfig
  rcases hconfig : s.config with _ | _ | _ | config
  case value => exact h config (.inl hconfig)
  -- without a file the defaults are in force
  all_goals exact rfl

theorem accepted_of_persistConfig {write : Option String}
    (h : persistConfig write config = .ok ()) : Accepted config := by
  unfold persistConfig at h
  split at h
  · cases h
  · assumption

theorem ValidFiles.persistAndApply (h : ValidFiles s) (env : UpdateEnv) (config : NetworkConfig) :
    ValidFiles (persistAndApply env config s).2 := by
  fun_cases Network.persistAndApply env config s with
  | case1 => exact h
  | case2 hpersist =>
    have haccepted := accepted_of_persistConfig hpersist
    grind [ValidFiles]

theorem ValidFiles.commitUpdate (h : ValidFiles s) (config : NetworkConfig) (secs : Option UInt64)
    (risk : Option String) (env : UpdateEnv) :
    ValidFiles (commitUpdate s config secs risk env).2 := by
  have haccepted := accepted_loadConfig h
  have hsnapshot : ValidFiles { s with pendingRevert := .value (loadConfig s) } := by
    grind [ValidFiles]
  have hplain := h.persistAndApply env config
  have hwindow := hsnapshot.persistAndApply env config
  fun_cases Network.commitUpdate s config secs risk env <;> simp_all [scheduleRollback, ValidFiles]

theorem ValidFiles.performRollback (h : ValidFiles s) (env : RestoreEnv) :
    ValidFiles (performRollback s env).2 := by
  fun_cases Network.performRollback s env <;> grind [ValidFiles, readSnapshot_ok]

theorem ValidFiles.step (h : ValidFiles s) (hstep : Step s e t) : ValidFiles t := by
  cases e with
  | update request mgmtIface env result =>
    have hcommit := h.commitUpdate
    grind [Step, update]
  | confirm id removeError result =>
    obtain ⟨rfl, -⟩ | ⟨_, -, -, -, rfl⟩ := confirm_cases hstep <;> grind [ValidFiles]
  | timeout id env result =>
    have hrollback := fun s' (h : ValidFiles s') => h.performRollback env
    grind [Step, timeout, ValidFiles]
  | restart env => grind [Step, restart, restorePendingRevert, ValidFiles]

/-- **The validator rejects no rollback.** What is stored is valid, and a snapshot is restored
wherever the steps succeed. -/
theorem rollback_accepted (hs : ValidFiles s) (hrun : Run Step s es t) :
    (∀ config, t.config = .value config → Accepted config) ∧
    ∀ prev errors (env : RestoreEnv), t.pendingRevert = .value prev → env.readError = none →
      env.configWrite = none → env.apply = .ok errors → env.removeError = none →
      performRollback t env = (.ok (), { t with config := .value prev, pendingRevert := .absent }) ∧
        restart t env = ⟨.value prev, .absent, ∅, [], 0⟩ := by
  have hvalid : ValidFiles t := hrun.inv hs fun _ _ _ h => h.step
  refine ⟨fun config h => hvalid config (.inl h), ?_⟩
  intro prev errors env hprev hread hwrite happly hremove
  have hpersist : persistConfig env.configWrite prev = .ok () := by
    have haccepted : Layered.validate (Layered.toLayered prev) = .ok () := hvalid prev (.inr hprev)
    simp only [persistConfig, haccepted, hwrite]
  constructor
  · simp [performRollback, readSnapshot, hprev, hread, hpersist, happly, hremove]
  · simp [restart, restorePendingRevert, hprev, hread, hpersist, happly, hremove]

theorem rollback_accepted_idle :
    restart (update idle raiseMtu none {}).2 {} = ⟨idle.config, .absent, ∅, [], 0⟩ := by
  have hidle : ValidFiles idle := by
    rintro config (h | h) <;> cases h
    decide
  have hstep : Step idle (.update raiseMtu none {} _) (update idle raiseMtu none {}).2 := rfl
  exact ((rollback_accepted hidle (.snoc .nil hstep)).2 _ _ {} rfl rfl rfl rfl rfl).2

/-! ## What was confirmed stays -/

theorem State.One.next (h : s.One) (hstep : Step s e t) : t.One := by
  cases e with
  | restart env =>
    have hfresh : Fresh t := by grind [Step, restart, restorePendingRevert, Fresh]
    exact hfresh.inv.one
  | _ => exact h.step (hstep.effect fun _ h => by cases h)

/-- No transaction is open and no snapshot is left. -/
def Quiet (config : Stored NetworkConfig) (s : State) : Prop :=
  s.transactions = ∅ ∧ s.pendingRevert = .absent ∧ s.config = config

def Event.isUpdate : Event → Bool
  | .update .. => true
  | _ => false

theorem Quiet.step {config : Stored NetworkConfig} (h : Quiet config s) (hstep : Step s e t)
    (hupdate : e.isUpdate = false) : Quiet config t := by
  obtain ⟨htable, hfile, hconfig⟩ := h
  have hlookup (id : String) : s.transactions.lookup id = none := by simp [htable]
  cases e with
  | update => cases hupdate
  | confirm id removeError => cases removeError <;> grind [Step, confirm, Quiet]
  | timeout => grind [Step, timeout, Quiet]
  | restart => grind [Step, restart, restorePendingRevert, Quiet]

/-- **A confirmed configuration is never taken back,** by a timer, a confirmation or a restart,
until the next update. -/
theorem confirmed_kept {id : String} {removeError : Option String} (hfresh : Fresh s)
    (hrun : Run Step s es t) (hconfirm : Step t (.confirm id removeError (.ok ())) u)
    (hlater : Run (fun s e t => Step s e t ∧ e.isUpdate = false) u es' v) :
    v.config = t.config := by
  have hone : t.One := hrun.inv hfresh.inv.one fun _ _ _ h => h.next
  obtain ⟨-, hne⟩ | ⟨txn, hlookup, -, -, rfl⟩ := confirm_cases hconfirm
  · exact absurd rfl hne
  have hquiet : Quiet t.config
      { t with pendingRevert := .absent, transactions := t.transactions.erase id } := by
    refine ⟨head?_keys_eq_none.1 (List.head?_eq_none_iff.2 ?_), rfl, rfl⟩
    -- the confirmed transaction was the only one
    refine List.eq_nil_iff_forall_not_mem.2 fun id' hmem => ?_
    obtain ⟨hid, hmem⟩ := AList.mem_erase.1 hmem
    exact hid (hone.eq_of_mem hmem (mem_of_lookup hlookup))
  exact (hlater.inv hquiet fun _ _ _ h hstep => h.step hstep.1 hstep.2).2.2

theorem confirmed_kept_idle :
    let confirmed := (confirm (update idle raiseMtu none {}).2 "0-0" none).2
    (restart confirmed {}).config = .value raiseMtu.config := by
  intro confirmed
  have hupdate : Step idle (.update raiseMtu none {} _) _ := rfl
  have hconfirm : Step (update idle raiseMtu none {}).2 (.confirm "0-0" none (.ok ()))
      confirmed := by
    have hok : (confirm (update idle raiseMtu none {}).2 "0-0" none).1.toBool = true := by decide
    refine Prod.ext ?_ rfl
    rcases hr : (confirm (update idle raiseMtu none {}).2 "0-0" none).1 with error | _
    · cases hr ▸ hok
    · rfl
  have hrestart : Step confirmed (.restart {}) _ := rfl
  exact confirmed_kept ⟨rfl, rfl, rfl⟩ (.snoc .nil hupdate) hconfirm (.snoc .nil ⟨hrestart, rfl⟩)

end Nasty.Network
