import Nasty.Network.Transaction

/-!
# One outcome per transaction

Within one process at most one transaction is open, each transaction is confirmed or rolled back
but never both, and a rollback restores the configuration from before its update. The invariant
ties the table, the timers and the snapshot file together: ids are never reused, a settled id has
no entry that a confirmation or a timer could act on, and the snapshot of an open transaction
is the one its update wrote.
-/

namespace Nasty.Network

open Lts List AList

/-- The counter of the ids does not overflow at the next one. -/
abbrev State.IdsLeft (s : State) : Prop := s.counter < s.counter + 1

def ProcessStep (s : State) (e : Event) (t : State) : Prop :=
  (∀ env, e ≠ .restart env) ∧ Step s e t ∧ s.IdsLeft

def settles (id : String) : Event → Bool
  | .confirm id' _ (.ok ()) => id' = id
  | .timeout id' _ (some _) => id' = id
  | _ => false

theorem txnId_inj {a b m n : UInt64} (h : txnId a m = txnId b n) : m = n := by
  have hdash : ∀ k, '-' ∉ Nat.toDigits 16 k := by
    intro k hk
    obtain ⟨d, hd, heq⟩ := Text.mem_toDigits (by omega) hk
    revert heq
    exact (show ∀ d < 16, '-' ≠ d.digitChar by decide) d hd
  have hlist := String.ofList_injective h
  exact UInt64.toNat_inj.1 (Text.toDigits_inj (by omega) (by omega)
    (Text.eq_of_append_sep (hdash _) (hdash _) hlist))

/-! ## The effect of a step -/

inductive Effect (s t : State) : Event → Prop
  /-- No transaction is opened or settled. -/
  | quiet {e} (htable : t.transactions = s.transactions) (htimers : t.timers = s.timers)
      (hcounter : t.counter = s.counter)
      (hfile : s.transactions ≠ ∅ → t.pendingRevert = s.pendingRevert)
      (hsettles : ∀ id, settles id e = false) : Effect s t e
  | opened {e} (secs : UInt64) (c : Stored NetworkConfig) (txn : PendingTxn)
      (hempty : s.transactions = ∅) (hsettles : ∀ id, settles id e = false)
      (ht : t = scheduleRollback { s with config := c, pendingRevert := .value (loadConfig s) }
        (txnId secs s.counter) txn) : Effect s t e
  | confirmed (id : String) (removeError : Option String) (txn : PendingTxn)
      (hlookup : s.transactions.lookup id = some txn) (hcancel : txn.cancel = true)
      (ht : t = { s with pendingRevert := .absent, transactions := s.transactions.erase id }) :
      Effect s t (.confirm id removeError (.ok ()))
  | ended (id : String) (env : RestoreEnv) (hlookup : s.transactions.lookup id = none)
      (ht : t = { s with timers := s.timers.erase id }) : Effect s t (.timeout id env none)
  | restored (id : String) (env : RestoreEnv) (prev : NetworkConfig) (htimer : id ∈ s.timers)
      (hlookup : s.transactions.lookup id ≠ none) (hfile : s.pendingRevert = .value prev)
      (ht : t = { s with config := .value prev, pendingRevert := .absent,
                         timers := s.timers.erase id,
                         transactions := s.transactions.erase id }) :
      Effect s t (.timeout id env (some (.ok ())))
  | failed (id : String) (env : RestoreEnv) (e : String) (c : Stored NetworkConfig)
      (txn : PendingTxn) (htimer : id ∈ s.timers) (hlookup : s.transactions.lookup id ≠ none)
      (hcancel : txn.cancel = false)
      (ht : t = { s with config := c, timers := s.timers.erase id,
                         transactions := s.transactions.insert id txn }) :
      Effect s t (.timeout id env (some (.error e)))

theorem Step.effect {s t : State} {e : Event} (hstep : Step s e t)
    (hlocal : ∀ env, e ≠ .restart env) : Effect s t e := by
  cases e with
  | update request mgmtIface env result =>
    have hsettles : ∀ id, settles id (.update request mgmtIface env result) = false :=
      fun _ => rfl
    obtain ⟨rfl, -⟩ | ⟨hempty, ⟨htable, htimers, hcounter, -⟩ | ⟨c, txn, -, -, ht⟩⟩ :=
      update_cases hstep
    · exact .quiet rfl rfl rfl (fun _ => rfl) hsettles
    · exact .quiet htable htimers hcounter (absurd hempty) hsettles
    · exact .opened _ c txn hempty hsettles ht
  | confirm id removeError result =>
    obtain ⟨rfl, hresult⟩ | ⟨txn, hlookup, hcancel, rfl, ht⟩ := confirm_cases hstep
    · refine .quiet rfl rfl rfl (fun _ => rfl) fun id' => ?_
      rcases result with e | _
      · rfl
      · exact absurd rfl hresult
    · exact .confirmed id removeError txn hlookup hcancel ht
  | timeout id env result =>
    obtain ⟨htimer, hstep⟩ := hstep
    obtain ⟨hlookup, rfl, ht⟩ | ⟨hlookup, ⟨prev, hfile, rfl, ht⟩ | ⟨e, c, txn, hcancel, rfl, ht⟩⟩ :=
      timeout_cases hstep
    · exact .ended id env hlookup ht
    · exact .restored id env prev htimer hlookup hfile ht
    · exact .failed id env e c txn htimer hlookup hcancel ht
  | restart env => exact absurd rfl (hlocal env)

/-! ## The invariant -/

def Issued (s : State) (id : String) : Prop := ∃ secs n, n < s.counter ∧ id = txnId secs n

def State.One (s : State) : Prop := s.transactions.keys.length ≤ 1

structure Inv (s : State) : Prop where
  one : s.One
  issued : ∀ id ∈ s.transactions, Issued s id
  nodup : s.timers.Nodup
  timers : ∀ id ∈ s.timers, Issued s id

/-- Nothing can settle the id any more: no entry, or a closed window and a fired timer. -/
def Spent (s : State) (id : String) : Prop :=
  Issued s id ∧ ∀ txn, s.transactions.lookup id = some txn → txn.cancel = false ∧ id ∉ s.timers

section Steps

variable {s t : State} {e : Event} {id : String}

theorem Issued.mono (h : Issued s id) (hle : s.counter ≤ t.counter) : Issued t id := by
  obtain ⟨secs, n, hn, rfl⟩ := h
  exact ⟨secs, n, UInt64.lt_of_lt_of_le hn hle, rfl⟩

theorem Issued.ne_next (h : Issued s id) (secs : UInt64) : id ≠ txnId secs s.counter := by
  obtain ⟨_, n, hn, rfl⟩ := h
  exact fun heq => UInt64.ne_of_lt hn (txnId_inj heq)

theorem Effect.counter_le (h : Effect s t e) (hleft : s.IdsLeft) : s.counter ≤ t.counter := by
  cases h with
  | quiet _ _ hcounter => rw [hcounter]; exact UInt64.le_refl _
  | opened _ _ _ _ _ ht => rw [ht]; exact UInt64.le_of_lt hleft
  | confirmed _ _ _ _ _ ht | ended _ _ _ ht | restored _ _ _ _ _ _ ht
  | failed _ _ _ _ _ _ _ _ ht => rw [ht]; exact UInt64.le_refl _

theorem State.One.eq_of_mem (h : s.One) {id' : String} (hid : id ∈ s.transactions)
    (hid' : id' ∈ s.transactions) : id = id' := by
  unfold One at h
  rw [AList.mem_keys] at hid hid'
  rcases hk : s.transactions.keys with _ | ⟨k, _ | ⟨k', ks⟩⟩ <;> rw [hk] at hid hid' h
  · cases hid
  · rw [mem_singleton.1 hid, mem_singleton.1 hid']
  · simp at h

theorem mem_of_lookup {txn : PendingTxn} (h : s.transactions.lookup id = some txn) :
    id ∈ s.transactions :=
  lookup_isSome.1 (by rw [h]; rfl)

theorem mem_of_lookup_ne (h : s.transactions.lookup id ≠ none) : id ∈ s.transactions :=
  not_not.1 fun hid => h (lookup_eq_none.2 hid)

theorem State.One.step (h : s.One) (he : Effect s t e) : t.One := by
  unfold One at h ⊢
  cases he with
  | quiet htable => rwa [htable]
  | opened secs c txn hempty _ ht => simp [ht, scheduleRollback, hempty]
  | confirmed id _ _ _ _ ht | restored id _ _ _ _ _ ht =>
    rw [ht, keys_erase]
    exact length_erase_le.trans h
  | ended id _ _ ht => rwa [ht]
  | failed id _ _ _ txn _ hlookup _ ht =>
    have hlen : (s.transactions.keys.erase id).length + 1 = s.transactions.keys.length :=
      length_erase_add_one (mem_keys.1 (mem_of_lookup_ne hlookup))
    simpa [ht, hlen] using h

theorem Inv.step (h : Inv s) (he : Effect s t e) (hleft : s.IdsLeft) : Inv t := by
  have hmono := fun id (hid : Issued s id) => hid.mono (he.counter_le hleft)
  have hone := h.one.step he
  cases he with
  | quiet htable htimers =>
    refine ⟨hone, fun id hid => hmono id (h.issued id (htable ▸ hid)),
      htimers ▸ h.nodup, fun id hid => hmono id (h.timers id (htimers ▸ hid))⟩
  | opened secs c txn hempty hsettles ht =>
    subst ht
    have hnew : Issued (scheduleRollback
        { s with config := c, pendingRevert := .value (loadConfig s) } (txnId secs s.counter) txn)
        (txnId secs s.counter) := ⟨secs, s.counter, hleft, rfl⟩
    refine ⟨hone, fun id hid => ?_, ?_, fun id hid => ?_⟩
    · rcases (mem_insert _).1 hid with rfl | hid
      · exact hnew
      · exact absurd (hempty ▸ hid) (notMem_empty id)
    · exact nodup_cons.2 ⟨fun hid => (h.timers _ hid).ne_next secs rfl, h.nodup⟩
    · rcases mem_cons.1 hid with rfl | hid
      · exact hnew
      · exact hmono id (h.timers id hid)
  | confirmed id removeError txn hlookup hcancel ht =>
    subst ht
    exact ⟨hone, fun id' hid => h.issued id' (mem_erase.1 hid).2, h.nodup,
      h.timers⟩
  | ended id env hlookup ht =>
    subst ht
    exact ⟨hone, h.issued, h.nodup.erase id,
      fun id' hid => h.timers id' (mem_of_mem_erase hid)⟩
  | restored id env prev htimer hlookup hfile ht =>
    subst ht
    exact ⟨hone, fun id' hid => h.issued id' (mem_erase.1 hid).2,
      h.nodup.erase id, fun id' hid => h.timers id' (mem_of_mem_erase hid)⟩
  | failed id env e c txn htimer hlookup hcancel ht =>
    subst ht
    have hid := mem_of_lookup_ne hlookup
    refine ⟨hone, fun id' hid' => ?_, h.nodup.erase id,
      fun id' hid => h.timers id' (mem_of_mem_erase hid)⟩
    rcases (mem_insert _).1 hid' with rfl | hid'
    · exact h.issued _ hid
    · exact h.issued id' hid'

theorem Inv.spent_of_settles (h : Inv s) (he : Effect s t e) (hleft : s.IdsLeft)
    (hsettles : settles id e = true) : Spent t id := by
  have hmono := fun id (hid : Issued s id) => hid.mono (he.counter_le hleft)
  cases he with
  | quiet _ _ _ _ hno | opened _ _ _ _ hno => rw [hno] at hsettles; cases hsettles
  | confirmed id' _ txn hlookup hcancel ht =>
    obtain rfl : id' = id := by simpa [settles] using hsettles
    refine ⟨hmono _ (h.issued _ (mem_of_lookup hlookup)), fun txn' htxn' => ?_⟩
    rw [ht, lookup_erase] at htxn'
    cases htxn'
  | ended => cases hsettles
  | restored id' _ _ _ hlookup _ ht =>
    obtain rfl : id' = id := by simpa [settles] using hsettles
    refine ⟨hmono _ (h.issued _ (mem_of_lookup_ne hlookup)), fun txn' htxn' => ?_⟩
    rw [ht, lookup_erase] at htxn'
    cases htxn'
  | failed id' _ _ _ txn htimer hlookup hcancel ht =>
    obtain rfl : id' = id := by simpa [settles] using hsettles
    refine ⟨hmono _ (h.issued _ (mem_of_lookup_ne hlookup)), fun txn' htxn' => ?_⟩
    rw [ht, lookup_insert] at htxn'
    rw [← Option.some.inj htxn', ht]
    exact ⟨hcancel, h.nodup.not_mem_erase⟩

theorem Spent.not_settles (h : Spent s id) (he : Effect s t e) : settles id e = false := by
  rw [← Bool.not_eq_true]
  intro hsettles
  cases he with
  | quiet _ _ _ _ hno | opened _ _ _ _ hno => rw [hno] at hsettles; cases hsettles
  | confirmed id' _ txn hlookup hcancel _ =>
    obtain rfl : id' = id := by simpa [settles] using hsettles
    rw [(h.2 txn hlookup).1] at hcancel
    cases hcancel
  | ended => cases hsettles
  | restored id' _ _ htimer hlookup _ _ | failed id' _ _ _ _ htimer hlookup _ _ =>
    obtain rfl : id' = id := by simpa [settles] using hsettles
    obtain ⟨txn, htxn⟩ := Option.ne_none_iff_exists'.1 hlookup
    exact (h.2 txn htxn).2 htimer

theorem Spent.step (h : Spent s id) (he : Effect s t e) (hleft : s.IdsLeft) : Spent t id := by
  refine ⟨h.1.mono (he.counter_le hleft), fun txn htxn => ?_⟩
  have hno := h.not_settles he
  cases he with
  | quiet htable htimers =>
    rw [htable] at htxn
    exact htimers ▸ h.2 txn htxn
  | opened secs c txn' hempty _ ht =>
    subst ht
    have hne := h.1.ne_next secs
    rw [scheduleRollback, lookup_insert_ne hne, hempty] at htxn
    cases htxn
  | confirmed id' _ _ _ _ ht =>
    have hne : id ≠ id' := by rintro rfl; simp [settles] at hno
    subst ht
    rw [lookup_erase_ne hne] at htxn
    exact h.2 txn htxn
  | ended id' _ _ ht =>
    subst ht
    exact ⟨(h.2 txn htxn).1, fun hid => (h.2 txn htxn).2 (mem_of_mem_erase hid)⟩
  | restored id' _ _ _ _ _ ht =>
    have hne : id ≠ id' := by rintro rfl; simp [settles] at hno
    subst ht
    rw [lookup_erase_ne hne] at htxn
    exact ⟨(h.2 txn htxn).1, fun hid => (h.2 txn htxn).2 (mem_of_mem_erase hid)⟩
  | failed id' _ _ _ _ _ _ _ ht =>
    have hne : id ≠ id' := by rintro rfl; simp [settles] at hno
    subst ht
    rw [lookup_insert_ne hne] at htxn
    exact ⟨(h.2 txn htxn).1, fun hid => (h.2 txn htxn).2 (mem_of_mem_erase hid)⟩

def Held (prev : NetworkConfig) (id : String) (s : State) : Prop :=
  Issued s id ∧ (id ∈ s.transactions → s.pendingRevert = .value prev)

theorem Held.step {prev : NetworkConfig} (hinv : Inv s) (h : Held prev id s) (he : Effect s t e)
    (hleft : s.IdsLeft) : Held prev id t := by
  refine ⟨h.1.mono (he.counter_le hleft), fun hid => ?_⟩
  cases he with
  | quiet htable _ _ hfile =>
    rw [htable] at hid
    have hne : s.transactions ≠ ∅ := fun h0 => notMem_empty id (h0 ▸ hid)
    rw [hfile hne, h.2 hid]
  | opened secs _ _ hempty _ ht =>
    subst ht
    rcases (mem_insert _).1 hid with heq | hid
    · exact absurd heq (h.1.ne_next secs)
    · exact absurd (hempty ▸ hid) (notMem_empty id)
  | confirmed id' _ _ hlookup _ ht =>
    subst ht
    obtain ⟨hne, hid⟩ := mem_erase.1 hid
    exact absurd (hinv.one.eq_of_mem hid (mem_of_lookup hlookup)) hne
  | ended _ _ _ ht =>
    subst ht
    exact h.2 hid
  | restored id' _ _ _ hlookup _ ht =>
    subst ht
    obtain ⟨hne, hid⟩ := mem_erase.1 hid
    exact absurd (hinv.one.eq_of_mem hid (mem_of_lookup_ne hlookup)) hne
  | failed id' _ _ _ _ _ hlookup _ ht =>
    subst ht
    rcases (mem_insert _).1 hid with rfl | hid
    · exact h.2 (mem_of_lookup_ne hlookup)
    · exact h.2 hid

end Steps

/-! ## Runs -/

section

variable {s t : State} {es : List Event} {id : String} {request : UpdateRequest}

theorem Fresh.inv (h : Fresh s) : Inv s := by
  obtain ⟨htable, htimers, -⟩ := h
  refine ⟨?_, ?_, ?_, ?_⟩ <;> simp [State.One, htable, htimers]

theorem Inv.run (h : Inv s) (hrun : Run ProcessStep s es t) : Inv t :=
  hrun.inv h fun _ _ _ hinv ⟨hlocal, hstep, hleft⟩ => hinv.step (hstep.effect hlocal) hleft

theorem countP_settles_le (h : Inv s) (hrun : Run ProcessStep s es t) (id : String) :
    es.countP (settles id) ≤ 1 ∧ (0 < es.countP (settles id) → Spent t id) := by
  suffices hI : Inv t ∧ es.countP (settles id) ≤ 1 ∧
      (0 < es.countP (settles id) → Spent t id) from hI.2
  refine hrun.history_inv (I := fun es t => Inv t ∧ es.countP (settles id) ≤ 1 ∧
    (0 < es.countP (settles id) → Spent t id)) ⟨h, by simp, by simp⟩ ?_
  rintro es t e u ⟨hinv, hle, hspent⟩ ⟨hlocal, hstep, hleft⟩
  have he := hstep.effect hlocal
  refine ⟨hinv.step he hleft, ?_⟩
  rw [countP_append, countP_singleton]
  by_cases hsettles : settles id e = true
  · -- a spent id cannot be settled again, so this is the first time
    have hzero : es.countP (settles id) = 0 := by
      by_contra hne
      rw [(hspent (by omega)).not_settles he] at hsettles
      cases hsettles
    rw [if_pos hsettles, hzero]
    exact ⟨le_refl 1, fun _ => hinv.spent_of_settles he hleft hsettles⟩
  · rw [if_neg hsettles]
    exact ⟨hle, fun hpos => (hspent hpos).step he hleft⟩

theorem confirm_not_mem {es₁ es₂ : List Event} {env : RestoreEnv} {r : Except String Unit}
    (hcount : (es₁ ++ .timeout id env (some r) :: es₂).countP (settles id) ≤ 1)
    (removeError : Option String) : .confirm id removeError (.ok ()) ∉ es₂ := by
  intro hmem
  have htimeout : settles id (.timeout id env (some r)) = true := by simp [settles]
  have hpos : 0 < es₂.countP (settles id) :=
    countP_pos_iff.2 ⟨_, hmem, by simp [settles]⟩
  rw [countP_append, countP_cons_of_pos htimeout] at hcount
  omega

variable {mgmtIface : Option String} {env : UpdateEnv} {response : UpdateResponse}

theorem held_of_update (hstep : ProcessStep s (.update request mgmtIface env (.ok response)) t)
    (hid : response.txnId = some id) : Held (loadConfig s) id t := by
  have hnone : ¬ NoneOpened s t (.ok response) := fun h => by
    rw [h.2.2.2 response rfl] at hid
    cases hid
  obtain ⟨-, hno⟩ | ⟨-, hno | ⟨c, txn, -, hresponse, rfl⟩⟩ := update_cases hstep.2.1
  · exact absurd hno hnone
  · exact absurd hno hnone
  obtain rfl : txnId env.idSecs s.counter = id := by
    rw [hresponse response rfl] at hid
    exact Option.some.inj hid
  exact ⟨⟨_, _, hstep.2.2, rfl⟩, fun _ => rfl⟩

theorem loadConfig_of_rollback {env' : RestoreEnv} {u v : State} (hinv : Inv s)
    (hupdate : ProcessStep s (.update request mgmtIface env (.ok response)) t)
    (hid : response.txnId = some id) (hrun : Run ProcessStep t es u)
    (htimeout : ProcessStep u (.timeout id env' (some (.ok ()))) v) :
    loadConfig v = loadConfig s := by
  have hheld : Inv u ∧ Held (loadConfig s) id u :=
    hrun.inv (I := fun u => Inv u ∧ Held (loadConfig s) id u)
      ⟨hinv.step (hupdate.2.1.effect hupdate.1) hupdate.2.2, held_of_update hupdate hid⟩
      fun _ _ _ h ⟨hlocal, hstep, hleft⟩ => ⟨h.1.step (hstep.effect hlocal) hleft,
        h.2.step h.1 (hstep.effect hlocal) hleft⟩
  obtain ⟨-, hresult, -⟩ | ⟨hlookup, ⟨prev, hfile, -, rfl⟩ | ⟨e, c, txn, -, hresult, -⟩⟩ :=
    timeout_cases htimeout.2.1.2
  · cases hresult
  · rw [hheld.2.2 (mem_of_lookup_ne hlookup)] at hfile
    exact (Stored.value.inj hfile).symm
  · cases hresult

/-- **Transactions.** At most one is open, each is settled once, and a rollback restores what was
persisted before its update. -/
theorem transaction_outcomes (hfresh : Fresh s) (hrun : Run ProcessStep s es t) :
    t.transactions.keys.length ≤ 1 ∧
      (∀ id, es.countP (settles id) ≤ 1) ∧
      (∀ es₁ es₂ id env r, es = es₁ ++ .timeout id env (some r) :: es₂ →
        ∀ removeError, .confirm id removeError (.ok ()) ∉ es₂) ∧
      ∀ request mgmtIface env response id s₁ es' s₂ env' s₃,
        ProcessStep t (.update request mgmtIface env (.ok response)) s₁ →
          response.txnId = some id → Run ProcessStep s₁ es' s₂ →
            ProcessStep s₂ (.timeout id env' (some (.ok ()))) s₃ →
              loadConfig s₃ = loadConfig t := by
  have hcount : ∀ id, es.countP (settles id) ≤ 1 := fun id =>
    (countP_settles_le hfresh.inv hrun id).1
  refine ⟨(hfresh.inv.run hrun).one, hcount, ?_, ?_⟩
  · rintro es₁ es₂ id env r rfl
    exact confirm_not_mem (hcount id)
  · intro request mgmtIface env response id s₁ es' s₂ env' s₃ hupdate hid hrun' htimeout
    exact loadConfig_of_rollback (hfresh.inv.run hrun) hupdate hid hrun' htimeout

end

def idle : State where
  config := .value { interfaces := [{ name := "eth0" }] }
  pendingRevert := .absent
  transactions := ∅
  timers := []
  counter := 0

def raiseMtu : UpdateRequest where
  config := { interfaces := [{ name := "eth0", mtu := some 9000 }] }
  confirmWithinSecs := some 30

theorem transaction_outcomes_idle :
    loadConfig (update idle raiseMtu none {}).2 = raiseMtu.config ∧
      loadConfig (timeout (update idle raiseMtu none {}).2 "0-0" {}).2 = loadConfig idle :=
  ⟨by decide, (transaction_outcomes (s := idle) ⟨rfl, rfl, rfl⟩ .nil).2.2.2 raiseMtu none {}
    { txnId := some "0-0", revertAtUnix := some 30,
      riskReason := some "explicit confirm requested" }
    "0-0" _ [] _ {} _ ⟨nofun, Prod.ext (by decide) rfl, by decide⟩ rfl .nil
    ⟨nofun, ⟨by decide, Prod.ext (by decide) rfl⟩, by decide⟩⟩

end Nasty.Network
