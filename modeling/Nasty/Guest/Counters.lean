import Nasty.Guest.Records

/-!
# Counters and revocation of guest shares

Over every interleaving of the operations, with callers that go away and restarts of the engine:
the download cap holds, the counters only grow, a revoked share stays revoked, and `downloads` is
the number of registrations that were saved, up to the largest `u32`. The files follow the atomic
system, so the records are looked at one saved operation after the other (`Sound`); only the
answers speak about the tasks.
-/

namespace Nasty.Guest

open Lts Locked List Function

variable {File : Type} [DecidableEq File]

theorem toNat_saturatingAdd (a b : UInt32) :
    (saturatingAdd a b).toNat = min (a.toNat + b.toNat) (UInt32.size - 1) := by
  unfold saturatingAdd
  split_ifs with h
  · rw [UInt32.toNat_add, Nat.mod_eq_of_lt h]
    omega
  · rw [UInt32.toNat_ofNat_of_lt' (by decide)]
    omega

theorem le_saturatingAdd (a b : UInt32) : a ≤ saturatingAdd a b := by
  have ha := a.toNat_lt
  rw [UInt32.le_iff_toNat_le, toNat_saturatingAdd]
  simp only [UInt32.size] at ha ⊢
  omega

/-! ## The saved operations -/

def Op.registers (itemPath : String → File) (f : File) : Op → Bool
  | .registerDownloadHolding id .. => itemPath id = f
  | _ => false

def Op.created (itemPath : String → File) : Op → Option File
  | .create new => some (itemPath new.share.id)
  | _ => none

variable (itemPath : String → File)

def registrations (c : List (ℕ × Op)) (f : File) : List (ℕ × Op) :=
  c.filter (·.2.registers itemPath f)

/-- `Uuid::new_v4` does not repeat: the creations among the operations write different files. -/
def FreshIds (c : List (ℕ × Op)) : Prop := (c.filterMap (·.2.created itemPath)).Nodup

instance (c : List (ℕ × Op)) : Decidable (FreshIds itemPath c) :=
  inferInstanceAs (Decidable (List.Nodup _))

structure SoundRecord (c : List (ℕ × Op)) (f : File) (s : GuestShare) : Prop where
  filed : itemPath s.id = f
  created : f ∈ c.filterMap (·.2.created itemPath)
  capped : ∀ m ∈ s.maxDownloads, s.downloads ≤ m
  hidden : s.hidden = true → s.revoked = true
  counted : s.downloads.toNat = min (registrations itemPath c f).length (UInt32.size - 1)
  timely : ∀ t id now held, (t, .registerDownloadHolding id now held) ∈ c → itemPath id = f →
    ∀ e ∈ s.expiresAt, now < e

structure Sound (c : List (ℕ × Op)) (files : File → Option GuestShare) : Prop where
  record : ∀ f s, files f = some s → SoundRecord itemPath c f s
  unregistered : ∀ f, files f = none → registrations itemPath c f = []

variable {itemPath} {c : List (ℕ × Op)} {files files' : File → Option GuestShare} {f : File}
  {s s' : GuestShare} {t : ℕ} {op : Op}

theorem registrations_concat_of_not (h : op.registers itemPath f = false) :
    registrations itemPath (c ++ [(t, op)]) f = registrations itemPath c f := by
  simp [registrations, h]

theorem loads_of_registers (h : op.registers itemPath f = true) : op.loads itemPath = some f := by
  cases op <;> simp_all [Op.registers, Op.loads]

theorem SoundRecord.keep (h : SoundRecord itemPath c f s) (hop : op.registers itemPath f = false) :
    SoundRecord itemPath (c ++ [(t, op)]) f s where
  filed := h.filed
  created := by
    rw [filterMap_append]
    exact mem_append_left _ h.created
  capped := h.capped
  hidden := h.hidden
  counted := by rw [registrations_concat_of_not hop, h.counted]
  timely := by
    intro t' id now held hmem hid
    rcases mem_append.1 hmem with hmem | hmem
    · exact h.timely t' id now held hmem hid
    · cases mem_singleton.1 hmem
      simp [Op.registers, hid] at hop

theorem lt_of_isAccessible {now : ℤ} (h : isAccessible s now = true) :
    s.revoked = false ∧ (∀ e ∈ s.expiresAt, now < e) ∧ ∀ m ∈ s.maxDownloads, s.downloads < m := by
  simp only [isAccessible, Bool.and_eq_true, Bool.not_eq_true', Option.all_eq_true,
    decide_eq_true_eq] at h
  exact ⟨h.1.1, fun e he => h.1.2 e he, fun m hm => h.2 m hm⟩

theorem SoundRecord.touch (h : SoundRecord itemPath c f s) (hloads : op.loads itemPath = some f)
    (htouch : Touch s op s') : SoundRecord itemPath (c ++ [(t, op)]) f s' := by
  cases htouch with
  | revoke id live =>
    exact { h.keep rfl with hidden := fun _ => rfl }
  | remove id revoked =>
    exact { h.keep rfl with hidden := fun _ => revoked }
  | view id => exact { h.keep rfl with }
  | register id now held accessible =>
  obtain ⟨-, hexpires, hcap⟩ := lt_of_isAccessible accessible
  have hid : itemPath id = f := Option.some.inj hloads
  refine ⟨h.filed, ?_, fun m hm => ?_, h.hidden, ?_, ?_⟩
  · rw [filterMap_append]
    exact mem_append_left _ h.created
  · have hlt := UInt32.lt_iff_toNat_lt.1 (hcap m hm)
    rw [UInt32.le_iff_toNat_le, toNat_saturatingAdd, UInt32.toNat_one]
    omega
  · have hlen :
        (registrations itemPath (c ++ [(t, .registerDownloadHolding id now held)]) f).length =
          (registrations itemPath c f).length + 1 := by
      simp [registrations, Op.registers, hid]
    rw [toNat_saturatingAdd, h.counted, UInt32.toNat_one]
    omega
  intro t' id' now' held' hmem hid'
  rcases mem_append.1 hmem with hmem | hmem
  · exact h.timely t' id' now' held' hmem hid'
  · cases mem_singleton.1 hmem
    exact hexpires

theorem SoundRecord.create (new : NewShare)
    (hnone : registrations itemPath c (itemPath new.share.id) = []) :
    SoundRecord itemPath (c ++ [(t, .create new)]) (itemPath new.share.id) new.share where
  filed := rfl
  created := by simp [Op.created]
  capped := fun m _ => by
    rw [new.unused.1]
    exact UInt32.zero_le
  hidden := fun hhidden => by rw [new.live.2] at hhidden; cases hhidden
  counted := by
    rw [registrations_concat_of_not rfl, hnone, new.unused.1]
    rfl
  timely := by
    intro t' id now held hmem hid
    rcases mem_append.1 hmem with hmem | hmem
    · have hreg : (t', Op.registerDownloadHolding id now held) ∈
          registrations itemPath c (itemPath new.share.id) :=
        mem_filter.2 ⟨hmem, by simp [Op.registers, hid]⟩
      rw [hnone] at hreg
      cases hreg
    · cases mem_singleton.1 hmem

theorem Sound.filed (h : Sound itemPath c files) : Filed itemPath files :=
  fun f s hs => (h.record f s hs).filed

/-- A creation meets no file: what is on the disk was created, and its id is not drawn again. -/
theorem Sound.absent (h : Sound itemPath c files) {new : NewShare}
    (hfresh : FreshIds itemPath (c ++ [(t, .create new)])) :
    files (itemPath new.share.id) = none := by
  rw [Option.eq_none_iff_forall_ne_some]
  intro s hs
  have hmem := (h.record _ s hs).created
  unfold FreshIds at hfresh
  rw [filterMap_append, nodup_append] at hfresh
  exact hfresh.2.2 _ hmem _ (by simp [Op.created]) rfl

theorem Sound.step (h : Sound itemPath c files) (hfresh : FreshIds itemPath (c ++ [(t, op)]))
    (hstep : Atomic (stateDir itemPath) files (t, op) files') :
    Sound itemPath (c ++ [(t, op)]) files' := by
  cases change_of_atomic h.filed hstep with
  | create new =>
    have habsent := h.absent hfresh
    refine ⟨fun g s hs => ?_, fun g hg => ?_⟩
    · rw [update_apply] at hs
      split_ifs at hs with heq
      · subst heq
        cases hs
        exact .create new (h.unregistered _ habsent)
      · exact (h.record g s hs).keep rfl
    rw [update_apply] at hg
    split_ifs at hg with heq
    rw [registrations_concat_of_not rfl]
    exact h.unregistered g hg
  | @touch _ f s s' loads stored touch =>
    have hother : ∀ g, g ≠ f → op.registers itemPath g = false := by
      intro g hg
      by_contra hreg
      have hloads := loads_of_registers (eq_true_of_ne_false hreg)
      exact hg (Option.some.inj (hloads.symm.trans loads))
    refine ⟨fun g s₁ hs => ?_, fun g hg => ?_⟩
    · rw [update_apply] at hs
      split_ifs at hs with heq
      · subst heq
        cases hs
        exact (h.record g s stored).touch loads touch
      · exact (h.record g s₁ hs).keep (hother g heq)
    rw [update_apply] at hg
    split_ifs at hg with heq
    rw [registrations_concat_of_not (hother g heq)]
    exact h.unregistered g hg

omit [DecidableEq File] in
theorem FreshIds.of_append {c₁ c₂ : List (ℕ × Op)} (h : FreshIds itemPath (c₁ ++ c₂)) :
    FreshIds itemPath c₁ := by
  unfold FreshIds at h ⊢
  rw [filterMap_append] at h
  exact (nodup_append.1 h).1

variable {c' : List (ℕ × Op)}

theorem Sound.run (h : Sound itemPath c files) (hfresh : FreshIds itemPath (c ++ c'))
    (hrun : Run (Atomic (stateDir itemPath)) files c' files') :
    Sound itemPath (c ++ c') files' := by
  induction hrun with
  | nil => rwa [append_nil]
  | @snoc c' files₁ x files₂ _ hstep ih =>
    rw [← append_assoc] at hfresh ⊢
    exact (ih hfresh.of_append).step hfresh hstep

theorem Sound.empty : Sound itemPath [] (fun _ => none) where
  record _ _ h := absurd h (by simp)
  unregistered _ _ := rfl

/-! ## Records grow -/

structure Grows (s s' : GuestShare) : Prop where
  expiresAt : s'.expiresAt = s.expiresAt
  maxDownloads : s'.maxDownloads = s.maxDownloads
  downloads : s.downloads ≤ s'.downloads
  views : s.views ≤ s'.views
  revoked : s.revoked = true → s'.revoked = true

theorem Grows.refl (s : GuestShare) : Grows s s :=
  ⟨rfl, rfl, UInt32.le_refl _, UInt32.le_refl _, id⟩

theorem Grows.trans {s₁ s₂ s₃ : GuestShare} (h : Grows s₁ s₂) (h' : Grows s₂ s₃) : Grows s₁ s₃ :=
  ⟨h'.expiresAt.trans h.expiresAt, h'.maxDownloads.trans h.maxDownloads,
    UInt32.le_trans h.downloads h'.downloads, UInt32.le_trans h.views h'.views,
    h'.revoked ∘ h.revoked⟩

theorem Touch.grows (h : Touch s op s') : Grows s s' := by
  cases h with
  | revoke => exact { Grows.refl s with revoked := fun _ => rfl }
  | remove => exact { Grows.refl s with }
  | register => exact { Grows.refl s with downloads := le_saturatingAdd .. }
  | view => exact { Grows.refl s with views := le_saturatingAdd .. }

theorem Sound.grows_step (h : Sound itemPath c files) (hfresh : FreshIds itemPath (c ++ [(t, op)]))
    (hstep : Atomic (stateDir itemPath) files (t, op) files') (hs : files f = some s) :
    ∃ s', files' f = some s' ∧ Grows s s' := by
  cases change_of_atomic h.filed hstep with
  | create new =>
    have hne : f ≠ itemPath new.share.id := by
      rintro rfl
      rw [h.absent hfresh] at hs
      cases hs
    exact ⟨s, by rw [update_of_ne hne, hs], .refl s⟩
  | @touch _ g s₁ s₂ loads stored touch =>
  by_cases hg : f = g
  · subst hg
    cases stored.symm.trans hs
    exact ⟨s₂, update_self .., touch.grows⟩
  · exact ⟨s, by rw [update_of_ne hg, hs], .refl s⟩

theorem Sound.grows (h : Sound itemPath c files)
    (hfresh : FreshIds itemPath (c ++ c')) (hrun : Run (Atomic (stateDir itemPath)) files c' files')
    (hs : files f = some s) : ∃ s', files' f = some s' ∧ Grows s s' := by
  induction hrun with
  | nil => exact ⟨s, hs, .refl s⟩
  | @snoc c' files₁ x files₂ hrun hstep ih =>
  rw [← append_assoc] at hfresh
  obtain ⟨s₁, hs₁, hgrows₁⟩ := ih hfresh.of_append
  obtain ⟨s₂, hs₂, hgrows₂⟩ :=
    (h.run hfresh.of_append hrun).grows_step hfresh hstep hs₁
  exact ⟨s₂, hs₂, hgrows₁.trans hgrows₂⟩

theorem Sound.no_registration (h : Sound itemPath c files)
    (hfresh : FreshIds itemPath (c ++ c')) (hrun : Run (Atomic (stateDir itemPath)) files c' files')
    (hs : files f = some s) (hrevoked : s.revoked = true) : registrations itemPath c' f = [] := by
  induction hrun with
  | nil => rfl
  | @snoc c' files₁ x files₂ hrun hstep ih =>
  rw [← append_assoc] at hfresh
  have hnone := ih hfresh.of_append
  obtain ⟨s₁, hs₁, hgrows⟩ := h.grows hfresh.of_append hrun hs
  obtain ⟨t, op⟩ := x
  suffices hop : op.registers itemPath f = false by
    rw [registrations_concat_of_not hop, hnone]
  have hfiled := (h.run hfresh.of_append hrun).filed
  by_contra hreg
  have hloads := loads_of_registers (eq_true_of_ne_false hreg)
  cases change_of_atomic hfiled hstep with
  | create new => cases hloads
  | touch loads stored touch =>
  cases Option.some.inj (hloads.symm.trans loads)
  cases hs₁.symm.trans stored
  cases touch with
  | register id now held accessible =>
    have hlive := (lt_of_isAccessible accessible).1
    rw [hgrows.revoked hrevoked] at hlive
    cases hlive
  | _ => cases hreg rfl

/-! ## Every interleaving -/

abbrev World (File : Type) := State File GuestShare Op Answer
abbrev History := List (Locked.Event Op Answer)
abbrev Step (itemPath : String → File) := Locked.Step (stateDir itemPath)

def World.empty : World File := init fun _ => none

variable (itemPath) in
def registered (h : History) (f : File) : List (ℕ × Op) := registrations itemPath (saves h) f

variable (itemPath) in
def returned (h : History) (f : File) : List (ℕ × Op) :=
  ((answers h).filter fun x => x.2.1.registers itemPath f && x.2.2.isOk).map fun x => (x.1, x.2.1)

/-- The call has saved, but is still on its way, or its caller or the engine has gone away. -/
def Unheard (h : History) (w : World File) (x : ℕ × Op) : Prop :=
  (∃ r, w.tasks x.1 = some ⟨x.2, .done (.ok r), true⟩) ∨ .abandon x.1 ∈ h ∨ .restart ∈ h

variable {h h₁ h₂ : History} {w w₁ w₂ : World File}

omit [DecidableEq File] in
theorem FreshIds.subperm {c₁ c₂ : List (ℕ × Op)} (hsub : c₁.Subperm c₂)
    (h : FreshIds itemPath c₂) : FreshIds itemPath c₁ := by
  obtain ⟨l, hperm, hl⟩ := hsub
  exact (hperm.filterMap _).nodup_iff.1 ((hl.filterMap _).nodup h)

theorem sound_of_run (hrun : Run (Step itemPath) World.empty h w)
    (hfresh : FreshIds itemPath (calls h)) : Sound itemPath (saves h) w.store :=
  Sound.empty.run (hfresh.subperm (run_track hrun).saves_subperm)
    (run_saves (Inv.init _) hrun)

theorem atomic_of_run (hrun₁ : Run (Step itemPath) World.empty h₁ w₁)
    (hrun₂ : Run (Step itemPath) w₁ h₂ w₂) (hfresh : FreshIds itemPath (calls (h₁ ++ h₂))) :
    Sound itemPath (saves h₁) w₁.store ∧ FreshIds itemPath (saves h₁ ++ saves h₂) ∧
      Run (Atomic (stateDir itemPath)) w₁.store (saves h₂) w₂.store := by
  have hsaves := hfresh.subperm (run_track (hrun₁.append hrun₂)).saves_subperm
  rw [saves_append] at hsaves
  rw [calls_append] at hfresh
  exact ⟨sound_of_run hrun₁ hfresh.of_append, hsaves, run_saves ((Inv.init _).run hrun₁) hrun₂⟩

variable {x : ℕ × Op}

theorem mem_returned : x ∈ returned itemPath h f ↔
    ∃ a, .answer x.1 x.2 a ∈ h ∧ x.2.registers itemPath f = true ∧ a.isOk = true := by
  obtain ⟨t, op⟩ := x
  simp only [returned, mem_map, mem_filter, Bool.and_eq_true]
  constructor
  · rintro ⟨⟨t', op', a⟩, ⟨hmem, hreg, hok⟩, heq⟩
    cases heq
    exact ⟨a, mem_answers.1 hmem, hreg, hok⟩
  · rintro ⟨a, hmem, hreg, hok⟩
    exact ⟨(t, op, a), ⟨mem_answers.2 hmem, hreg, hok⟩, rfl⟩

section

variable (hrun : Run (Step itemPath) World.empty h w)
include hrun

theorem registered_of_returned (hx : x ∈ returned itemPath h f) : x ∈ registered itemPath h f := by
  obtain ⟨t, op⟩ := x
  obtain ⟨a, hanswer, hreg, hok⟩ := mem_returned.1 hx
  refine mem_filter.2 ⟨mem_saves.2 ?_, hreg⟩
  obtain ⟨h₁, e, h₂, s₁, s₂, rfl, -, -, -, hends⟩ := run_settled hrun hanswer
  generalize s₂.store = files' at hends
  cases op with
  | registerDownloadHolding id now held =>
    cases hends with
    | answered saw decided =>
      rw [answer_of_register decided] at hok
      cases hok
    | saved saw decided event => exact event ▸ by simp
    | failed saw decided =>
      rw [(save_of_register decided).2] at hok
      cases hok
  | _ => cases hreg

theorem returned_nodup : (returned itemPath h f).Nodup := by
  refine List.Nodup.of_map Prod.fst ?_
  rw [returned, map_map]
  exact (filter_sublist.map _).nodup (run_track hrun).answers_nodup

/-- Every saved registration is a call that returned `Ok`, unless its answer did not arrive. -/
theorem returned_or_unheard (hx : x ∈ registered itemPath h f) :
    x ∈ returned itemPath h f ∨ Unheard h w x := by
  obtain ⟨t, op⟩ := x
  obtain ⟨hsaved, hreg⟩ := mem_filter.1 hx
  obtain ⟨a, ⟨seen, k, r, failed, hv⟩, hreported⟩ := (run_reported hrun).saved _ hsaved
  have hok : ∃ r, a = .ok r := by
    cases op with
    | registerDownloadHolding id now held => exact ⟨_, (save_of_register hv).1⟩
    | _ => cases hreg
  obtain ⟨r, rfl⟩ := hok
  rcases hreported with hanswer | hpending | habandon | hrestart
  · exact .inl (mem_returned.2 ⟨_, hanswer, hreg, rfl⟩)
  · exact .inr (.inl ⟨r, hpending⟩)
  · exact .inr (.inr (.inl habandon))
  · exact .inr (.inr (.inr hrestart))

end

theorem revoked_of_ends {id : String} {r : Reply} {e : Locked.Event Op Answer}
    (hfiled : Filed itemPath files)
    (hends : Ends (stateDir itemPath) t (.revoke id) (.ok r) files e files') :
    ∃ s, files' (itemPath id) = some s ∧ s.revoked = true := by
  have hstored : ∀ {seen s}, Seen (stateDir itemPath) files (.revoke id) seen → seen = some s →
      files (itemPath id) = some s := by
    rintro _ s (rfl | rfl) hsome
    · cases hsome
    · exact hsome
  cases hends with
  | @answered seen saw decided =>
    change (Op.revoke id).decide itemPath seen = _ at decided
    rcases seen with _ | s <;> simp only [Op.decide] at decided
    · cases decided
    · split_ifs at decided with hlive
      exact ⟨s, hstored saw rfl, by simpa using hlive⟩
  | @saved seen k r' failed saw decided event =>
    change (Op.revoke id).decide itemPath seen = _ at decided
    rcases seen with _ | s <;> simp only [Op.decide, reduceCtorEq] at decided
    split_ifs at decided with hlive
    cases decided
    rw [hfiled _ s (hstored saw rfl)]
    exact ⟨_, update_self .., rfl⟩
  | @failed seen k r' saved saw decided =>
    change (Op.revoke id).decide itemPath seen = _ at decided
    rcases seen with _ | s <;> simp only [Op.decide, reduceCtorEq] at decided
    split_ifs at decided
    cases decided

theorem revoked_of_answer {id : String} {r : Reply} (hrun : Run (Step itemPath) World.empty h w)
    (hfresh : FreshIds itemPath (calls h)) (hanswer : .answer t (.revoke id) (.ok r) ∈ h) :
    ∃ s, w.store (itemPath id) = some s ∧ s.revoked = true := by
  obtain ⟨h₁, e, h₂, s₁, s₂, rfl, hrun₁, hstep, hrun₂, hends⟩ := run_settled hrun hanswer
  have hfiled : Filed itemPath s₁.store := by
    rw [calls_append] at hfresh
    exact (sound_of_run hrun₁ hfresh.of_append).filed
  obtain ⟨s, hs, hrevoked⟩ := revoked_of_ends hfiled hends
  rw [append_cons] at hfresh
  obtain ⟨hsound, hsaves, hatomic⟩ := atomic_of_run (hrun₁.snoc hstep) hrun₂ hfresh
  obtain ⟨s', hs', hgrows⟩ := hsound.grows hsaves hatomic hs
  exact ⟨s', hs', hgrows.revoked hrevoked⟩

/-! ## Some runs -/

def round (t : ℕ) (op : Op) (a : Answer) : History :=
  [.call t op, .lock t, .load t op true, .save t op true, .answer t op a]

theorem run_round (id : String) (now : ℤ) (held : Held) (hfree : w.holder = none)
    (hs : w.store (itemPath id) = some s) (haccess : isAccessible s now = true) :
    ∃ w', Run (Step itemPath) w
        (round w.spawned (.registerDownloadHolding id now held) (.ok (.held held))) w' ∧
      w'.holder = none ∧ w'.spawned = w.spawned + 1 ∧
      w'.store = update w.store (itemPath s.id)
        (some { s with downloads := saturatingAdd s.downloads 1 }) := by
  have hplay : (round w.spawned (.registerDownloadHolding id now held) (.ok (.held held))).foldlM
      (next (stateDir itemPath)) w = some
        { store := update w.store (itemPath s.id)
            (some { s with downloads := saturatingAdd s.downloads 1 })
          holder := none
          tasks := update w.tasks w.spawned
            (some ⟨.registerDownloadHolding id now held, .done (.ok (.held held)), false⟩)
          spawned := w.spawned + 1 } := by
    simp [round, Locked.next, stateDir, Op.tries, State.put, hfree, Op.loads, hs, Op.decide, haccess,
      Verdict.phase]
  exact ⟨_, Run.of_foldlM hplay, rfl, rfl, rfl⟩

def openShare : NewShare where
  share := {
    id := "a"
    tokenHash := ""
    paths := ["/fs/tank/a"]
    createdBy := "admin"
    createdAt := 0
    expiresAt := none
    passwordHash := none
    maxDownloads := none
    downloads := 0
    views := 0
    revoked := false
    hidden := false
    note := none }
  unused := ⟨rfl, rfl⟩
  live := ⟨rfl, rfl⟩

def jsonPath (id : String) : String := id ++ ".json"

def openRun : ℕ → History
  | 0 => round 0 (.create openShare) (.ok .unit)
  | n + 1 => openRun n ++ round (n + 1) (registerDownload "a" 10) (.ok (.held .nothing))

theorem run_openRun (n : ℕ) : ∃ w : World String, Run (Step jsonPath) World.empty (openRun n) w ∧
    w.holder = none ∧ w.spawned = n + 1 ∧
    ∃ d, w.store (jsonPath "a") = some { openShare.share with downloads := d } ∧
      d.toNat = min n (UInt32.size - 1) := by
  induction n with
  | zero =>
    refine ⟨((openRun 0).foldlM (next (stateDir jsonPath)) World.empty).get (by decide +kernel),
      Run.of_foldlM (Option.some_get _).symm, ?_, ?_, 0, ?_, rfl⟩ <;> decide +kernel
  | succ n ih =>
  obtain ⟨w, hrun, hfree, hspawned, d, hs, hd⟩ := ih
  obtain ⟨w', hround, hfree', hspawned', hstore⟩ := run_round "a" 10 .nothing hfree hs rfl
  rw [hspawned] at hround hspawned'
  refine ⟨w', hrun.append hround, hfree', hspawned', saturatingAdd d 1, ?_, ?_⟩
  · rw [hstore]
    exact update_self ..
  · rw [toNat_saturatingAdd, UInt32.toNat_one]
    omega

theorem returned_append (h₁ h₂ : History) (f : File) :
    returned itemPath (h₁ ++ h₂) f = returned itemPath h₁ f ++ returned itemPath h₂ f := by
  simp [returned, answers]

theorem openRun_counts (n : ℕ) :
    (returned jsonPath (openRun n) (jsonPath "a")).length = n ∧
      (calls (openRun n)).filterMap (·.2.created jsonPath) = [jsonPath "a"] := by
  induction n with
  | zero => decide +kernel
  | succ n ih =>
    rw [openRun, returned_append, calls_append, length_append, filterMap_append, ih.1,
      ih.2]
    exact ⟨rfl, rfl⟩

def revokedShare : GuestShare := { openShare.share with downloads := 2, revoked := true }

/-- The first caller goes away while it waits; the second saves before the revocation, and answers
late. -/
def lateRun : History :=
  round 0 (.create openShare) (.ok .unit) ++
    [.call 1 (registerDownload "a" 10), .abandon 1, .lock 1,
      .load 1 (registerDownload "a" 10) true, .save 1 (registerDownload "a" 10) true,
      .call 2 (registerDownload "a" 10), .lock 2, .load 2 (registerDownload "a" 10) true,
      .save 2 (registerDownload "a" 10) true] ++
    round 3 (.revoke "a") (.ok (.share revokedShare))

def lateAnswer : History := [.answer 2 (registerDownload "a" 10) (.ok (.held .nothing))]

def beforeAnswer : World String :=
  (lateRun.foldlM (next (stateDir jsonPath)) World.empty).get (by decide +kernel)

def afterAnswer : World String :=
  (lateAnswer.foldlM (next (stateDir jsonPath)) beforeAnswer).get (by decide +kernel)

theorem run_lateRun : Run (Step jsonPath) World.empty lateRun beforeAnswer :=
  Run.of_foldlM (Option.some_get _).symm

theorem run_lateAnswer : Run (Step jsonPath) beforeAnswer lateAnswer afterAnswer :=
  Run.of_foldlM (Option.some_get _).symm

theorem revoke_returned : .answer 3 (.revoke "a") (.ok (.share revokedShare)) ∈ lateRun :=
  mem_append_right _ (by simp [round])

/-! ## The result -/

/-- **Guest share counters.** The cap, the expiry and a revocation hold for every registration, the
counters only grow, and every `Ok` is a saved registration. -/
theorem share_counters (hrun₁ : Run (Step itemPath) World.empty h₁ w₁)
    (hrun₂ : Run (Step itemPath) w₁ h₂ w₂) (hfresh : FreshIds itemPath (calls (h₁ ++ h₂))) :
    (∀ f s, w₂.store f = some s →
      (∀ m ∈ s.maxDownloads, s.downloads ≤ m) ∧ (s.hidden = true → s.revoked = true) ∧
      s.downloads.toNat =
        min (registered itemPath (h₁ ++ h₂) f).length (UInt32.size - 1) ∧
      ∀ t id now held, (t, .registerDownloadHolding id now held) ∈ saves (h₁ ++ h₂) →
        itemPath id = f → ∀ e ∈ s.expiresAt, now < e) ∧
    (∀ f, (returned itemPath (h₁ ++ h₂) f).Subperm (registered itemPath (h₁ ++ h₂) f) ∧
      ∀ x ∈ registered itemPath (h₁ ++ h₂) f,
        x ∈ returned itemPath (h₁ ++ h₂) f ∨ Unheard (h₁ ++ h₂) w₂ x) ∧
    (∀ f s, w₁.store f = some s → ∃ s', w₂.store f = some s' ∧ s.downloads ≤ s'.downloads ∧
      s.views ≤ s'.views ∧ (s.revoked = true → s'.revoked = true)) ∧
    ∀ t id r, .answer t (.revoke id) (.ok r) ∈ h₁ →
      registered itemPath h₂ (itemPath id) = [] ∧
      ∀ x ∈ calls h₂, x ∉ returned itemPath (h₁ ++ h₂) (itemPath id) := by
  have hrun := hrun₁.append hrun₂
  obtain ⟨hsound₁, hsaves, hatomic⟩ := atomic_of_run hrun₁ hrun₂ hfresh
  have hsound := sound_of_run hrun hfresh
  refine ⟨fun f s hs => ?_, fun f => ⟨?_, fun x => returned_or_unheard hrun⟩,
    fun f s hs => ?_, fun t id r hanswer => ?_⟩
  · have hrecord := hsound.record f s hs
    exact ⟨hrecord.capped, hrecord.hidden, hrecord.counted, hrecord.timely⟩
  · exact (returned_nodup hrun).subperm fun x => registered_of_returned hrun
  · obtain ⟨s', hs', hgrows⟩ := hsound₁.grows hsaves hatomic hs
    exact ⟨s', hs', hgrows.downloads, hgrows.views, hgrows.revoked⟩
  have hfresh₁ := hfresh
  rw [calls_append] at hfresh₁
  obtain ⟨s, hs, hrevoked⟩ := revoked_of_answer hrun₁ hfresh₁.of_append hanswer
  have hnone := hsound₁.no_registration hsaves hatomic hs hrevoked
  refine ⟨hnone, fun x hx hreturned => ?_⟩
  -- it would have saved in the first half, before its call
  have hreg := registered_of_returned hrun hreturned
  unfold registered registrations at hreg
  rw [saves_append, filter_append] at hreg
  rcases mem_append.1 hreg with hold | hnew
  · have htrack := run_track hrun₁
    have hlt := htrack.bounded x (htrack.saved x (mem_filter.1 hold).1).1
    have hle := (run_spawned_le hrun₂).2 x hx
    omega
  · have hmem : x ∈ registrations itemPath (saves h₂) (itemPath id) := hnew
    rw [hnone] at hmem
    cases hmem

theorem share_counters_late :
    FreshIds jsonPath (calls (lateRun ++ lateAnswer)) ∧
      registered jsonPath lateAnswer (jsonPath "a") = [] ∧
      afterAnswer.store (jsonPath "a") = some revokedShare ∧
      revokedShare.downloads.toNat =
        min (registered jsonPath (lateRun ++ lateAnswer) (jsonPath "a")).length
          (UInt32.size - 1) := by
  have hfresh : FreshIds jsonPath (calls (lateRun ++ lateAnswer)) := by decide +kernel
  have hstored : afterAnswer.store (jsonPath "a") = some revokedShare := by decide +kernel
  have hall := share_counters run_lateRun run_lateAnswer hfresh
  exact ⟨hfresh, (hall.2.2.2 3 "a" _ revoke_returned).1, hstored,
    (hall.1 (jsonPath "a") revokedShare hstored).2.2.1⟩

/-- `downloads` counts the caller that went away and stops at the largest `u32`; and an `Ok` may
return after the revocation. -/
theorem ok_returns_differ :
    (Run (Step jsonPath) World.empty lateRun beforeAnswer ∧
      Run (Step jsonPath) beforeAnswer lateAnswer afterAnswer ∧
      FreshIds jsonPath (calls (lateRun ++ lateAnswer)) ∧
      .answer 3 (.revoke "a") (.ok (.share revokedShare)) ∈ lateRun ∧
      (2, registerDownload "a" 10) ∈ returned jsonPath lateAnswer (jsonPath "a") ∧
      (afterAnswer.store (jsonPath "a")).map (·.downloads) = some 2 ∧
      (returned jsonPath (lateRun ++ lateAnswer) (jsonPath "a")).length = 1) ∧
    ∃ (h : History) (w : World String) (s : GuestShare),
      Run (Step jsonPath) World.empty h w ∧ FreshIds jsonPath (calls h) ∧
      w.store (jsonPath "a") = some s ∧ s.downloads.toNat = UInt32.size - 1 ∧
      (returned jsonPath h (jsonPath "a")).length = UInt32.size := by
  refine ⟨⟨run_lateRun, run_lateAnswer, by decide +kernel, revoke_returned,
    by decide +kernel, by decide +kernel, by decide +kernel⟩, ?_⟩
  obtain ⟨w, hrun, -, -, d, hs, hd⟩ := run_openRun UInt32.size
  obtain ⟨hreturned, hcreated⟩ := openRun_counts UInt32.size
  refine ⟨_, w, _, hrun, ?_, hs, ?_, hreturned⟩
  · rw [FreshIds, hcreated]
    exact nodup_singleton _
  · rw [hd]
    omega

end Nasty.Guest
