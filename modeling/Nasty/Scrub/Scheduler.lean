import Mathlib.Data.List.AList
import Mathlib.Data.Prod.Lex
import Nasty.Cron.Posix
import Nasty.Lib.Lts

/-!
# The scrub scheduler

`SchedulerCursor` decides on each tick which filesystem, if any, is scrubbed next. For every
stored schedule it keeps the instant up to which occurrences are settled and at most one pending
occurrence. `World` adds what the cursor does not see: the clock and the records of the previous
tick, against which the records of the next one are updates.
-/

namespace Nasty.Scrub

open Cron Lts List Option Function

inductive ScrubActivity
  | idle
  | running
  | unknown
  deriving DecidableEq

structure PoolState where
  uuid : String
  name : String
  mounted : Bool
  activity : ScrubActivity

structure StoredSchedule (τ : Type) where
  schedule : String
  version : String
  updatedAt : τ

structure DueScrub (τ : Type) where
  uuid : String
  name : String
  dueAt : τ
  deriving DecidableEq

structure CursorEntry (τ : Type) where
  version : String
  after : τ
  pending : Option τ

structure SchedulerCursor (τ : Type) where
  entries : String → Option (CursorEntry τ)
  startedAt : τ

abbrev Records (τ : Type) := AList fun _ : String => StoredSchedule τ

def SchedulerCursor.new {τ : Type} (startedAt : τ) : SchedulerCursor τ :=
  { entries := fun _ => none, startedAt }

/-! ## A tick -/

section

variable {τ : Type} [LinearOrder τ] (crate : Crate τ)

/-- The entry of a record seen for the first time, or for the first time in this version. -/
def freshEntry (startedAt : τ) (record : StoredSchedule τ) : CursorEntry τ :=
  { version := record.version, after := max record.updatedAt startedAt, pending := none }

/-- Keep an entry of the record's version, replace any other. -/
def currentEntry (startedAt : τ) (record : StoredSchedule τ) :
    Option (CursorEntry τ) → CursorEntry τ
  | some cursor => if cursor.version ≠ record.version then freshEntry startedAt record else cursor
  | none => freshEntry startedAt record

/-- Look for an occurrence that has come due since the last look, unless one is pending. -/
def advance (now : τ) (record : StoredSchedule τ) (cursor : CursorEntry τ) : CursorEntry τ :=
  if cursor.pending.isSome then { cursor with after := now }
  else
    match Cron.Scrub.parsePosixSchedule crate record.schedule.toList now with
    | .error _ => { cursor with after := now }
    | .ok (_, schedule) =>
      match (schedule.nextAfter cursor.after).filter (· ≤ now) with
      | some dueAt => { cursor with pending := some dueAt, after := now }
      | none => cursor

def poolByUuid (pools : List PoolState) (uuid : String) : Option PoolState :=
  pools.reverse.find? (·.uuid = uuid)

/-- An occurrence whose pool is missing, unmounted or busy is consumed. -/
def consume (pool : Option PoolState) (cursor : CursorEntry τ) : CursorEntry τ :=
  match pool with
  | none => { cursor with pending := none }
  | some pool =>
    if ¬ pool.mounted ∨ pool.activity ≠ .idle then { cursor with pending := none } else cursor

/-- The entries after every record has been looked at; those without a record are dropped. -/
def observed (c : SchedulerCursor τ) (records : Records τ) (pools : List PoolState) (now : τ)
    (uuid : String) : Option (CursorEntry τ) :=
  (records.lookup uuid).map fun record =>
    consume (poolByUuid pools uuid)
      (advance crate now record (currentEntry c.startedAt record (c.entries uuid)))

def candidates (entries : String → Option (CursorEntry τ)) (uuids : List String)
    (pools : List PoolState) : List (DueScrub τ) :=
  uuids.filterMap fun uuid => do
    let cursor ← entries uuid
    let dueAt ← cursor.pending
    let pool ← poolByUuid pools uuid
    some { uuid, name := pool.name, dueAt }

def DueScrub.key (due : DueScrub τ) : Lex (τ × String) := toLex (due.dueAt, due.uuid)

def takePending (entries : String → Option (CursorEntry τ)) (uuid : String) :
    String → Option (CursorEntry τ) :=
  update entries uuid ((entries uuid).map fun cursor => { cursor with pending := none })

def evaluate (c : SchedulerCursor τ) (records : Records τ) (pools : List PoolState) (now : τ) :
    Option (DueScrub τ) × SchedulerCursor τ :=
  let entries := observed crate c records pools now
  if pools.any (·.activity ≠ .idle) then (none, { c with entries })
  else
    match (candidates entries records.keys pools).argmin DueScrub.key with
    | none => (none, { c with entries })
    | some selected => (some selected, { c with entries := takePending entries selected.uuid })

def resumeAfterRestart (c : SchedulerCursor τ) (now : τ) : SchedulerCursor τ where
  startedAt := now
  entries uuid := (c.entries uuid).map fun cursor => { cursor with after := now, pending := none }

end

/-! ## Runs -/

structure World (τ : Type) where
  cursor : SchedulerCursor τ
  records : Records τ
  ticked : Option τ

def World.start {τ : Type} (startedAt : τ) : World τ :=
  { cursor := .new startedAt, records := ∅, ticked := none }

inductive Event (τ : Type)
  | evaluate (records : Records τ) (pools : List PoolState) (now : τ)
      (result : Option (DueScrub τ))
  | resume (now : τ)

section Step

variable {τ : Type} [LinearOrder τ] (crate : Crate τ)

def World.NotBefore (w : World τ) (now : τ) : Prop := ∀ t, w.ticked = some t → t ≤ now

/-- A record that is not the same as at the tick before has been updated since. -/
def World.Follows (w : World τ) (records : Records τ) (now : τ) : Prop :=
  ∀ uuid record, records.lookup uuid = some record → record.updatedAt ≤ now ∧
    (w.records.lookup uuid = some record ∨
      w.NotBefore record.updatedAt ∧
        ∀ old, w.records.lookup uuid = some old → old.version ≠ record.version)

inductive Step : World τ → Event τ → World τ → Prop
  | evaluate {w : World τ} {records : Records τ} {pools : List PoolState} {now : τ}
      {result : Option (DueScrub τ)} {cursor : SchedulerCursor τ} (hnow : w.NotBefore now)
      (hpools : (pools.map (·.uuid)).Nodup) (hrecords : w.Follows records now)
      (heval : evaluate crate w.cursor records pools now = (result, cursor)) :
      Step w (.evaluate records pools now result) { cursor, records, ticked := some now }
  | resume {w : World τ} {now : τ} (hnow : w.NotBefore now) :
      Step w (.resume now) { w with cursor := resumeAfterRestart w.cursor now }

def dues (uuid : String) (es : List (Event τ)) : List τ :=
  es.filterMap fun
    | .evaluate _ _ _ (some due) => if due.uuid = uuid then some due.dueAt else none
    | _ => none

def StoredSchedule.Occurs (record : StoredSchedule τ) (t : τ) : Prop :=
  ∃ compiled, Cron.Scrub.compile crate record.schedule.toList = .ok compiled ∧
    compiled.2.Occurs t

end Step

section Entry

variable {τ : Type} [LinearOrder τ] {crate : Crate τ}

/-- The pending occurrence is a new one, and the search goes on behind all that were returned,
unless the schedule can no longer be parsed. -/
structure Tracks (crate : Crate τ) (startedAt now : τ) (record : StoredSchedule τ) (ds : List τ)
    (entry : CursorEntry τ) : Prop where
  version : entry.version = record.version
  updatedAt_le : record.updatedAt ≤ now
  pending : ∀ d, entry.pending = some d → record.Occurs crate d ∧ startedAt < d ∧
    record.updatedAt < d ∧ (∀ d' ∈ ds, d' < d) ∧ d ≤ entry.after ∧ d ≤ now
  settled : (startedAt ≤ entry.after ∧ record.updatedAt ≤ entry.after ∧ ∀ d ∈ ds, d ≤ entry.after) ∨
    ∀ compiled, Cron.Scrub.parsePosixSchedule crate record.schedule.toList now ≠ .ok compiled

variable {startedAt t now : τ} {record : StoredSchedule τ} {ds : List τ} {entry : CursorEntry τ}

theorem Tracks.mono (h : Tracks crate startedAt t record ds entry) (hle : t ≤ now) :
    Tracks crate startedAt now record ds entry where
  version := h.version
  updatedAt_le := h.updatedAt_le.trans hle
  pending d hd := by
    obtain ⟨hocc, hs, hu, hds, ha, ht⟩ := h.pending d hd
    exact ⟨hocc, hs, hu, hds, ha, ht.trans hle⟩
  settled := h.settled.imp_right fun hnot compiled hok => by
    -- what still has an occurrence after `now` had one after `t`
    obtain ⟨hc, v, hv, hlt⟩ := Cron.Scrub.parsePosixSchedule_eq_ok.1 hok
    exact hnot compiled (Cron.Scrub.parsePosixSchedule_eq_ok.2 ⟨hc, v, hv, hle.trans_lt hlt⟩)

theorem tracks_freshEntry (hu : record.updatedAt ≤ now) (hds : ∀ d ∈ ds, d ≤ record.updatedAt) :
    Tracks crate startedAt now record ds (freshEntry startedAt record) where
  version := rfl
  updatedAt_le := hu
  pending := nofun
  settled := .inl ⟨le_max_right _ _, le_max_left _ _, fun d hd =>
    (hds d hd).trans (le_max_left _ _)⟩

section

variable (h : Tracks crate startedAt now record ds entry)
include h

theorem Tracks.clear : Tracks crate startedAt now record ds { entry with pending := none } :=
  { h with pending := nofun }

theorem Tracks.consume
    (pool : Option PoolState) : Tracks crate startedAt now record ds (consume pool entry) := by
  unfold Scrub.consume
  rcases pool with _ | pool
  · exact h.clear
  dsimp only
  split
  · exact h.clear
  · exact h

theorem Tracks.advance : Tracks crate startedAt now record ds (advance crate now record entry) := by
  unfold Scrub.advance
  rcases hp : entry.pending with _ | d
  · rcases hparse : Cron.Scrub.parsePosixSchedule crate record.schedule.toList now with e | ⟨n, s⟩
    · exact ⟨h.version, h.updatedAt_le, nofun, .inr (by rw [hparse]; nofun)⟩
    dsimp only
    rcases hdue : (s.nextAfter entry.after).filter (· ≤ now) with _ | d
    · exact h
    obtain ⟨hnext, hle⟩ := filter_eq_some_iff.1 hdue
    have hle : d ≤ now := by simpa using hle
    obtain ⟨hocc, hlt, -⟩ := UnionSchedule.nextAfter_some hnext
    obtain ⟨hs, hu, hds⟩ := h.settled.resolve_right fun hnot => hnot _ hparse
    refine ⟨h.version, h.updatedAt_le, ?_, .inl ⟨?_, h.updatedAt_le, ?_⟩⟩
    · rintro _ ⟨⟩
      have hc := (Cron.Scrub.parsePosixSchedule_eq_ok.1 hparse).1
      exact ⟨⟨_, hc, hocc⟩, hs.trans_lt hlt, hu.trans_lt hlt,
        fun d' hd' => (hds d' hd').trans_lt hlt, hle, hle⟩
    · exact (hs.trans_lt hlt).le.trans hle
    · exact fun d' hd' => ((hds d' hd').trans_lt hlt).le.trans hle
  · obtain ⟨hocc, hs, hu, hds, -, hle⟩ := h.pending d hp
    refine ⟨h.version, h.updatedAt_le, ?_, .inl ⟨hs.le.trans hle, h.updatedAt_le, ?_⟩⟩
    · rintro _ ⟨⟩
      exact ⟨hocc, hs, hu, hds, hle, hle⟩
    · exact fun d' hd' => (hds d' hd').le.trans hle

theorem Tracks.take {d : τ} (hd : entry.pending = some d) :
    Tracks crate startedAt now record (ds ++ [d]) { entry with pending := none } := by
  obtain ⟨-, hs, hu, hds, hle, -⟩ := h.pending d hd
  exact ⟨h.version, h.updatedAt_le, nofun, .inl ⟨hs.le.trans hle, hu.le.trans hle,
    forall_mem_append.2 ⟨fun d' hd' => (hds d' hd').le.trans hle,
      forall_mem_singleton.2 hle⟩⟩⟩

end

theorem Tracks.resume {resumed : τ} (h : Tracks crate startedAt t record ds entry)
    (hle : t ≤ resumed) (hds : ∀ d ∈ ds, d ≤ t) :
    Tracks crate resumed t record ds { entry with after := resumed, pending := none } where
  version := h.version
  updatedAt_le := h.updatedAt_le
  pending := nofun
  settled := .inl ⟨le_rfl, h.updatedAt_le.trans hle, fun d hd => (hds d hd).trans hle⟩

end Entry

/-! ## The selection -/

section

variable {τ : Type} {pools : List PoolState} {due : DueScrub τ}

theorem poolByUuid_some {uuid : String} {pool : PoolState} (h : poolByUuid pools uuid = some pool) :
    pool ∈ pools ∧ pool.uuid = uuid :=
  ⟨mem_reverse.1 (mem_of_find?_eq_some h), by simpa using find?_some h⟩

theorem mem_candidates {entries : String → Option (CursorEntry τ)} {uuids : List String} :
    due ∈ candidates entries uuids pools ↔ due.uuid ∈ uuids ∧ ∃ entry pool,
      entries due.uuid = some entry ∧ entry.pending = some due.dueAt ∧
        poolByUuid pools due.uuid = some pool ∧ pool.name = due.name := by
  unfold candidates
  simp only [mem_filterMap, bind_eq_bind, bind_eq_some_iff, some.injEq]
  constructor
  · rintro ⟨uuid, hmem, entry, hentry, d, hd, pool, hpool, rfl⟩
    exact ⟨hmem, entry, pool, hentry, hd, hpool, rfl⟩
  · rintro ⟨hmem, entry, pool, hentry, hd, hpool, hname⟩
    exact ⟨due.uuid, hmem, entry, hentry, due.dueAt, hd, pool, hpool, by rw [hname]⟩

theorem pending_consume {pool : Option PoolState} {entry : CursorEntry τ} {d : τ}
    (h : (consume pool entry).pending = some d) :
    ∃ p, pool = some p ∧ p.mounted ∧ p.activity = .idle := by
  rcases pool with _ | p
  · nomatch h
  by_cases hp : ¬ p.mounted ∨ p.activity ≠ .idle
  · rw [consume, if_pos hp] at h
    nomatch h
  · exact ⟨p, rfl, by simpa using hp⟩

variable [LinearOrder τ] {crate : Crate τ} {c c' : SchedulerCursor τ} {records : Records τ}
  {now : τ} {result : Option (DueScrub τ)}

/-- The scrub is pending, its pool can take it, no pool is busy, and none is due before it. -/
structure Selected (entries : String → Option (CursorEntry τ)) (pools : List PoolState)
    (due : DueScrub τ) : Prop where
  pending : ∃ entry, entries due.uuid = some entry ∧ entry.pending = some due.dueAt
  pool : ∃ pool ∈ pools, pool.uuid = due.uuid ∧ pool.name = due.name ∧ pool.mounted
  idle : ∀ pool ∈ pools, pool.activity = .idle
  least : ∀ uuid entry d, entries uuid = some entry → entry.pending = some d →
    due.key ≤ toLex (d, uuid)

theorem evaluate_cases (h : evaluate crate c records pools now = (result, c')) :
    (result = none ∧ c' = { c with entries := observed crate c records pools now }) ∨
      ∃ due, result = some due ∧ Selected (observed crate c records pools now) pools due ∧
        c' = { c with
          entries := takePending (observed crate c records pools now) due.uuid } := by
  unfold evaluate at h
  by_cases hidle : pools.any (·.activity ≠ .idle)
  · rw [if_pos hidle] at h
    cases h
    exact .inl ⟨rfl, rfl⟩
  rw [if_neg hidle] at h
  rcases hsel : (candidates (observed crate c records pools now) records.keys pools).argmin
    DueScrub.key with _ | due <;> rw [hsel] at h <;> cases h
  · exact .inl ⟨rfl, rfl⟩
  have hpool : ∀ uuid entry d, observed crate c records pools now uuid = some entry →
      entry.pending = some d → ∃ p, poolByUuid pools uuid = some p ∧ p.mounted := by
    intro uuid entry d hentry hd
    obtain ⟨record, -, rfl⟩ := map_eq_some_iff.1 hentry
    obtain ⟨p, hp, hm, -⟩ := pending_consume hd
    exact ⟨p, hp, hm⟩
  obtain ⟨-, entry, pool, hentry, hd, hp, hname⟩ := mem_candidates.1 (argmin_mem hsel)
  refine .inr ⟨due, rfl, ⟨⟨entry, hentry, hd⟩, ?_, by simpa using hidle, ?_⟩, rfl⟩
  · obtain ⟨p, hp', hm⟩ := hpool _ _ _ hentry hd
    cases hp.symm.trans hp'
    obtain ⟨hmem, huuid⟩ := poolByUuid_some hp
    exact ⟨pool, hmem, huuid, hname, hm⟩
  intro uuid entry d hentry hd
  obtain ⟨p, hp, -⟩ := hpool _ _ _ hentry hd
  obtain ⟨record, hrecord, -⟩ := map_eq_some_iff.1 hentry
  have hmem : (⟨uuid, p.name, d⟩ : DueScrub τ) ∈
      candidates (observed crate c records pools now) records.keys pools := by
    refine mem_candidates.2 ⟨?_, entry, p, hentry, hd, hp, rfl⟩
    exact AList.mem_keys.1 (AList.lookup_isSome.1 (by rw [hrecord]; rfl))
  exact le_of_mem_argmin hmem hsel

end

/-! ## Every run -/

section

variable {τ : Type} {es : List (Event τ)} {records : Records τ} {pools : List PoolState} {now : τ}

variable (uuid : String)

theorem dues_append_none : dues uuid (es ++ [.evaluate records pools now none]) = dues uuid es := by
  simp [dues]

theorem dues_append_resume : dues uuid (es ++ [.resume now]) = dues uuid es := by
  simp [dues]

theorem dues_append_some (due : DueScrub τ) :
    dues uuid (es ++ [.evaluate records pools now (some due)]) =
      dues uuid es ++ if due.uuid = uuid then [due.dueAt] else [] := by
  split <;> simp [dues, *]

variable [LinearOrder τ] {crate : Crate τ}

structure Inv (crate : Crate τ) (es : List (Event τ)) (w : World τ) : Prop where
  tracks : ∀ uuid entry, w.cursor.entries uuid = some entry → ∃ t record,
    w.ticked = some t ∧ w.records.lookup uuid = some record ∧
      Tracks crate w.cursor.startedAt t record (dues uuid es) entry
  tracked : ∀ uuid, w.cursor.entries uuid = none → w.records.lookup uuid = none
  ticked : ∀ uuid, ∀ d ∈ dues uuid es, ∃ t, w.ticked = some t ∧ d ≤ t
  increasing : ∀ uuid, (dues uuid es).Pairwise (· < ·)

variable {w w' : World τ} {e : Event τ} {uuid : String} {entry : CursorEntry τ} {due : DueScrub τ}

theorem Inv.tracks_observed (h : Inv crate es w) (hnow : w.NotBefore now)
    (hrecords : w.Follows records now)
    (hentry : observed crate w.cursor records pools now uuid = some entry) :
    ∃ record, records.lookup uuid = some record ∧
      Tracks crate w.cursor.startedAt now record (dues uuid es) entry := by
  obtain ⟨record, hrecord, rfl⟩ := map_eq_some_iff.1 hentry
  refine ⟨record, hrecord, (Tracks.advance ?_).consume _⟩
  obtain ⟨hu, hsame⟩ := hrecords uuid record hrecord
  -- all due times so far precede the update of a record that is new
  have hfresh : w.NotBefore record.updatedAt →
      Tracks crate w.cursor.startedAt now record (dues uuid es)
        (freshEntry w.cursor.startedAt record) := by
    intro hafter
    refine tracks_freshEntry hu fun d hd => ?_
    obtain ⟨t, ht, hle⟩ := h.ticked uuid d hd
    exact hle.trans (hafter t ht)
  rcases hold : w.cursor.entries uuid with _ | old
  · have hnone := h.tracked uuid hold
    exact hfresh (hsame.resolve_left (by rw [hnone]; nofun)).1
  obtain ⟨t, record', ht, hrecord', htracks⟩ := h.tracks uuid old hold
  unfold currentEntry
  dsimp only
  rcases hsame with hsame | ⟨hafter, hversion⟩
  · cases hsame.symm.trans hrecord'
    rw [if_neg (not_not.2 htracks.version)]
    exact htracks.mono (hnow t ht)
  · rw [if_pos (by rw [htracks.version]; exact hversion record' hrecord')]
    exact hfresh hafter

theorem observed_none {c : SchedulerCursor τ} (h : observed crate c records pools now uuid = none) :
    records.lookup uuid = none :=
  map_eq_none_iff.1 h

section

variable (h : Inv crate es w)
include h

section

variable (hnow : w.NotBefore now)
include hnow

theorem Inv.ticked_le {d : τ} (hd : d ∈ dues uuid es) : d ≤ now := by
  obtain ⟨t, ht, hle⟩ := h.ticked uuid d hd
  exact hle.trans (hnow t ht)

theorem Inv.tick_none
    (hrecords : w.Follows records now) :
    Inv crate (es ++ [.evaluate records pools now none])
      ⟨{ w.cursor with entries := observed crate w.cursor records pools now }, records,
        some now⟩ where
  tracks uuid entry hentry := by
    obtain ⟨record, hrecord, htracks⟩ := h.tracks_observed hnow hrecords hentry
    rw [dues_append_none]
    exact ⟨now, record, rfl, hrecord, htracks⟩
  tracked _ := observed_none
  ticked uuid d hd := by
    rw [dues_append_none] at hd
    exact ⟨now, rfl, h.ticked_le hnow hd⟩
  increasing uuid := by
    rw [dues_append_none]
    exact h.increasing uuid

theorem Inv.tick_some (hrecords : w.Follows records now)
    (hentry : observed crate w.cursor records pools now due.uuid = some entry)
    (hpending : entry.pending = some due.dueAt) :
    Inv crate (es ++ [.evaluate records pools now (some due)])
      ⟨{ w.cursor with
          entries := takePending (observed crate w.cursor records pools now) due.uuid },
        records, some now⟩ := by
  obtain ⟨record, hrecord, htracks⟩ := h.tracks_observed hnow hrecords hentry
  obtain ⟨-, -, -, hbefore, -, hle⟩ := htracks.pending _ hpending
  constructor
  · intro uuid e he
    rw [dues_append_some]
    by_cases heq : uuid = due.uuid
    · subst heq
      simp only [takePending, hentry, map_some, update_self,
        some.injEq] at he
      rw [if_pos rfl, ← he]
      exact ⟨now, record, rfl, hrecord, htracks.take hpending⟩
    simp only [takePending, update_of_ne heq] at he
    rw [if_neg (Ne.symm heq), append_nil]
    obtain ⟨record, hrecord, htracks⟩ := h.tracks_observed hnow hrecords he
    exact ⟨now, record, rfl, hrecord, htracks⟩
  · intro uuid hnone
    by_cases heq : uuid = due.uuid
    · subst heq
      simp only [takePending, hentry, update_self] at hnone
      nomatch hnone
    · simp only [takePending, update_of_ne heq] at hnone
      exact observed_none hnone
  · intro uuid d hd
    rw [dues_append_some] at hd
    refine ⟨now, rfl, (mem_append.1 hd).elim (h.ticked_le hnow) fun hd => ?_⟩
    split at hd
    · rwa [mem_singleton.1 hd]
    · nomatch hd
  intro uuid
  rw [dues_append_some]
  split
  · next heq =>
    subst heq
    exact pairwise_append.2 ⟨h.increasing _, pairwise_singleton _ _,
      fun d hd d' hd' => mem_singleton.1 hd' ▸ hbefore d hd⟩
  · rw [append_nil]
    exact h.increasing uuid

theorem Inv.resume :
    Inv crate (es ++ [.resume now]) { w with cursor := resumeAfterRestart w.cursor now } := by
  constructor <;> simp only [dues_append_resume]
  · intro uuid entry hentry
    obtain ⟨entry, hold, rfl⟩ := map_eq_some_iff.1 hentry
    obtain ⟨t, record, ht, hrecord, htracks⟩ := h.tracks uuid entry hold
    refine ⟨t, record, ht, hrecord, htracks.resume (hnow t ht) fun d hd => ?_⟩
    obtain ⟨t', ht', hle⟩ := h.ticked uuid d hd
    cases ht.symm.trans ht'
    exact hle
  · exact fun uuid hnone => h.tracked uuid (map_eq_none_iff.1 hnone)
  · exact h.ticked
  · exact h.increasing

end

theorem Inv.step (hstep : Step crate w e w') : Inv crate (es ++ [e]) w' := by
  cases hstep with
  | evaluate hnow hpools hrecords heval =>
    rcases evaluate_cases heval with ⟨rfl, rfl⟩ | ⟨due, rfl, hsel, rfl⟩
    · exact h.tick_none hnow hrecords
    · obtain ⟨entry, hentry, hpending⟩ := hsel.pending
      exact h.tick_some hnow hrecords hentry hpending
  | resume hnow => exact h.resume hnow

end

theorem inv_run {startedAt : τ} (hrun : Run (Step crate) (.start startedAt) es w) :
    Inv crate es w := by
  refine hrun.history_inv (I := Inv crate) ?_ fun es w e w' h hstep => h.step hstep
  exact ⟨nofun, fun _ _ => rfl, nofun, fun _ => List.Pairwise.nil⟩

/-- **At most once.** Due times increase, and a scrub is the first pending occurrence, of a mounted
and idle pool while none is busy. -/
theorem due_scrubs {startedAt : τ} (hrun : Run (Step crate) (.start startedAt) es w) :
    (∀ uuid, (dues uuid es).Pairwise (· < ·)) ∧
    ∀ records pools now due w', Step crate w (.evaluate records pools now (some due)) w' →
      (∃ record, records.lookup due.uuid = some record ∧ record.Occurs crate due.dueAt ∧
        max w.cursor.startedAt record.updatedAt < due.dueAt ∧ due.dueAt ≤ now) ∧
      (∃ pool ∈ pools, pool.uuid = due.uuid ∧ pool.mounted ∧ pool.activity = .idle) ∧
      (∀ pool ∈ pools, pool.activity ≠ .running ∧ pool.activity ≠ .unknown) ∧
      ∀ uuid entry d, observed crate w.cursor records pools now uuid = some entry →
        entry.pending = some d → toLex (due.dueAt, due.uuid) ≤ toLex (d, uuid) := by
  have hinv := inv_run hrun
  refine ⟨hinv.increasing, ?_⟩
  rintro records pools now due w' ⟨hnow, -, hrecords, heval⟩
  obtain ⟨hnone, -⟩ | ⟨_, ⟨⟩, hsel, -⟩ := evaluate_cases heval
  · nomatch hnone
  obtain ⟨entry, hentry, hpending⟩ := hsel.pending
  obtain ⟨record, hrecord, htracks⟩ := hinv.tracks_observed hnow hrecords hentry
  obtain ⟨hocc, hs, hu, -, -, hle⟩ := htracks.pending _ hpending
  obtain ⟨pool, hmem, huuid, -, hmounted⟩ := hsel.pool
  refine ⟨⟨record, hrecord, hocc, max_lt hs hu, hle⟩,
    ⟨pool, hmem, huuid, hmounted, hsel.idle pool hmem⟩, fun p hp => ?_, hsel.least⟩
  rw [hsel.idle p hp]
  exact ⟨nofun, nofun⟩

end

def nightly (version : String) : Records ℕ :=
  AList.singleton "a" { schedule := "0 0 * * *", version, updatedAt := 0 }

def idlePool : List PoolState :=
  [{ uuid := "a", name := "tank", mounted := true, activity := .idle }]

theorem due_scrubs_nightly : ∃ w w',
    Run (Step midnights) (.start 0)
      [.evaluate (nightly "v1") idlePool 3 (some ⟨"a", "tank", 1⟩)] w ∧
    Step midnights w (.evaluate (nightly "v1") idlePool 5 (some ⟨"a", "tank", 4⟩)) w' ∧
    ∃ record, (nightly "v1").lookup "a" = some record ∧ record.Occurs midnights 4 := by
  have hupdated (uuid : String) (record : StoredSchedule ℕ)
      (h : (nightly "v1").lookup uuid = some record) : record.updatedAt = 0 := by
    obtain ⟨⟩ := mem_singleton.1 (AList.mem_lookup_iff.1 h)
    rfl
  have hfirst : Step midnights (.start 0)
      (.evaluate (nightly "v1") idlePool 3 (some ⟨"a", "tank", 1⟩))
      ⟨(evaluate midnights (.new 0) (nightly "v1") idlePool 3).2, nightly "v1", some 3⟩ := by
    refine .evaluate nofun (by decide) (fun uuid record h => ?_) (Prod.ext (by decide) rfl)
    exact ⟨hupdated uuid record h ▸ Nat.zero_le 3, .inr ⟨nofun, nofun⟩⟩
  obtain ⟨w', hsecond⟩ : ∃ w', Step midnights
      ⟨(evaluate midnights (.new 0) (nightly "v1") idlePool 3).2, nightly "v1", some 3⟩
      (.evaluate (nightly "v1") idlePool 5 (some ⟨"a", "tank", 4⟩)) w' := by
    refine ⟨_, .evaluate (fun t ht => ?_) (by decide) (fun uuid record h => ?_)
      (Prod.ext (by decide) rfl)⟩
    · cases ht
      decide
    · exact ⟨hupdated uuid record h ▸ Nat.zero_le 5, .inl h⟩
  have hrun := Run.snoc .nil hfirst
  obtain ⟨⟨record, hrecord, hocc, -⟩, -⟩ := (due_scrubs hrun).2 _ _ _ _ _ hsecond
  exact ⟨_, w', hrun, hsecond, record, hrecord, hocc⟩

/-- An update stamped before the previous tick, or a resumption before it, returns the same
occurrence again. -/
theorem due_twice :
    (evaluate midnights (.new 0) (nightly "v1") idlePool 3).1 = some ⟨"a", "tank", 1⟩ ∧
    (evaluate midnights (evaluate midnights (.new 0) (nightly "v1") idlePool 3).2
      (nightly "v2") idlePool 4).1 = some ⟨"a", "tank", 1⟩ ∧
    (evaluate midnights
      (resumeAfterRestart (evaluate midnights (.new 0) (nightly "v1") idlePool 3).2 0)
      (nightly "v1") idlePool 4).1 = some ⟨"a", "tank", 1⟩ := by
  decide

end Nasty.Scrub
