import Nasty.Lib.Locked
import Nasty.Lib.Text

/-!
# Guest share records

A guest share is one JSON file. Five operations rewrite it, each as one section under the state
lock: `create`, `revoke`, `remove` and the registration of a download wait for the lock in a
task of their own, so that a request that goes away does not stop them; `recordView` only tries
the lock and drops the view when it is taken.

`change_of_atomic` says once what a section that saves does to the files; everything about the
records is proved from it.
-/

namespace Nasty.Guest

open Lts

structure GuestShare where
  id : String
  tokenHash : String
  paths : List String
  createdBy : String
  createdAt : ℤ
  expiresAt : Option ℤ
  passwordHash : Option String
  maxDownloads : Option UInt32
  downloads : UInt32
  views : UInt32
  revoked : Bool
  hidden : Bool
  note : Option String
  deriving DecidableEq

inductive GuestShareError
  | notFound (id : String)
  | notRevoked (id : String)
  | noPaths
  | tooManyPaths
  | pathNotFound (path : String)
  | pathNotInFilesystem (path : String)
  | invalidPath (path : String)
  | hash (error : String)
  | io
  deriving DecidableEq

def isAccessible (s : GuestShare) (now : ℤ) : Bool :=
  !s.revoked && s.expiresAt.all (now < ·) && s.maxDownloads.all (s.downloads < ·)

def saturatingAdd (a b : UInt32) : UInt32 :=
  if a.toNat + b.toNat < UInt32.size then a + b else UInt32.ofNat (UInt32.size - 1)

def maxShareRoots : ℕ := 32

structure NewShare where
  share : GuestShare
  unused : share.downloads = 0 ∧ share.views = 0
  live : share.revoked = false ∧ share.hidden = false
  deriving DecidableEq

/-! ## Operations -/

inductive Held
  | nothing
  | openedFile
  | archive
  deriving DecidableEq

inductive Op
  | create (new : NewShare)
  | revoke (id : String)
  | remove (id : String)
  | registerDownloadHolding (id : String) (now : ℤ) (held : Held)
  | recordView (id : String)
  deriving DecidableEq

def registerDownload (id : String) (now : ℤ) : Op := .registerDownloadHolding id now .nothing

inductive Reply
  | unit
  | share (s : GuestShare)
  | held (held : Held)
  deriving DecidableEq

abbrev Answer := Except GuestShareError Reply

variable {File : Type} [DecidableEq File]

def Op.loads (itemPath : String → File) : Op → Option File
  | .create _ => none
  | .revoke id | .remove id | .registerDownloadHolding id .. | .recordView id => some (itemPath id)

def Op.decide (itemPath : String → File) :
    Op → Option GuestShare → Locked.Verdict File GuestShare Answer
  | .create new, _ => .save (itemPath new.share.id) new.share (.ok .unit) (.error .io)
  | .revoke id, none | .remove id, none | .registerDownloadHolding id .., none =>
    .answer (.error (.notFound id))
  | .revoke _, some share =>
    if !share.revoked then
      let share := { share with revoked := true }
      .save (itemPath share.id) share (.ok (.share share)) (.error .io)
    else .answer (.ok (.share share))
  | .remove id, some share =>
    if !share.revoked then .answer (.error (.notRevoked id))
    else if !share.hidden then
      .save (itemPath share.id) { share with hidden := true } (.ok .unit) (.error .io)
    else .answer (.ok .unit)
  | .registerDownloadHolding id now held, some share =>
    if !isAccessible share now then .answer (.error (.notFound id))
    else
      .save (itemPath share.id) { share with downloads := saturatingAdd share.downloads 1 }
        (.ok (.held held)) (.error .io)
  | .recordView _, none => .answer (.ok .unit)
  -- the result of the save is ignored
  | .recordView id, some share =>
    .save (itemPath id) { share with views := saturatingAdd share.views 1 } (.ok .unit) (.ok .unit)

def Op.tries : Op → Bool
  | .recordView _ => true
  | _ => false

/-- The share files under the state lock; `itemPath` names the file of an id. -/
def stateDir (itemPath : String → File) : Locked.Protocol File GuestShare Op Answer :=
  ⟨Op.loads itemPath, Op.decide itemPath, Op.tries⟩

/-! ## What a section does -/

def Filed (itemPath : String → File) (files : File → Option GuestShare) : Prop :=
  ∀ f s, files f = some s → itemPath s.id = f

inductive Touch (s : GuestShare) : Op → GuestShare → Prop
  | revoke (id) (live : s.revoked = false) : Touch s (.revoke id) { s with revoked := true }
  | remove (id) (revoked : s.revoked = true) : Touch s (.remove id) { s with hidden := true }
  | register (id now held) (accessible : isAccessible s now = true) :
    Touch s (.registerDownloadHolding id now held)
      { s with downloads := saturatingAdd s.downloads 1 }
  | view (id) : Touch s (.recordView id) { s with views := saturatingAdd s.views 1 }

inductive Change (itemPath : String → File) (files : File → Option GuestShare) :
    Op → (File → Option GuestShare) → Prop
  | create (new) :
    Change itemPath files (.create new)
      (Function.update files (itemPath new.share.id) (some new.share))
  | touch {op f s s'} (loads : op.loads itemPath = some f) (stored : files f = some s)
    (touch : Touch s op s') : Change itemPath files op (Function.update files f (some s'))

variable {itemPath : String → File} {files files' : File → Option GuestShare} {t : ℕ} {op : Op}

variable {seen : Option GuestShare}

omit [DecidableEq File] in
theorem touch_of_decide {k : File} {r : GuestShare}
    {saved failed : Answer} (h : op.decide itemPath seen = .save k r saved failed) :
    (∃ new, op = .create new ∧ k = itemPath new.share.id ∧ r = new.share) ∨
      ∃ s, seen = some s ∧ Touch s op r ∧ (k = itemPath s.id ∨ op.loads itemPath = some k) := by
  cases op with
  | create new =>
    cases h
    exact .inl ⟨new, rfl, rfl, rfl⟩
  | revoke id =>
    rcases seen with _ | s <;> simp only [Op.decide, reduceCtorEq] at h
    split_ifs at h with hlive
    cases h
    exact .inr ⟨s, rfl, .revoke id (by simpa using hlive), .inl rfl⟩
  | remove id =>
    rcases seen with _ | s <;> simp only [Op.decide, reduceCtorEq] at h
    split_ifs at h with hlive hshown
    cases h
    exact .inr ⟨s, rfl, .remove id (by simpa using hlive), .inl rfl⟩
  | registerDownloadHolding id now held =>
    rcases seen with _ | s <;> simp only [Op.decide, reduceCtorEq] at h
    split_ifs at h with hclosed
    cases h
    exact .inr ⟨s, rfl, .register id now held (by simpa using hclosed), .inl rfl⟩
  | recordView id =>
    rcases seen with _ | s <;> simp only [Op.decide, reduceCtorEq] at h
    cases h
    exact .inr ⟨s, rfl, .view id, .inr rfl⟩

variable (itemPath) in
omit [DecidableEq File] in
theorem exists_loads {s s' : GuestShare} (h : Touch s op s') : ∃ f, op.loads itemPath = some f := by
  cases h <;> exact ⟨_, rfl⟩

theorem change_of_atomic (hfiled : Filed itemPath files)
    (h : Locked.Atomic (stateDir itemPath) files (t, op) files') :
    Change itemPath files op files' := by
  obtain ⟨seen, k, r, saved, failed, hseen, hv, rfl⟩ := h
  rcases touch_of_decide hv with ⟨new, rfl, rfl, rfl⟩ | ⟨s, rfl, htouch, hk⟩
  · exact .create new
  obtain ⟨f, hf⟩ := exists_loads itemPath htouch
  have hstored : files f = some s := by
    rcases hseen with hnone | hsome
    · cases hnone
    · change some s = (op.loads itemPath).bind files at hsome
      rw [hf] at hsome
      exact hsome.symm
  have hkf : k = f := by
    rcases hk with rfl | hk
    · exact hfiled f s hstored
    · exact Option.some.inj (hk.symm.trans hf)
  subst hkf
  exact .touch hf hstored htouch

omit [DecidableEq File] in
theorem save_of_register {k : File} {r : GuestShare}
    {id : String} {now : ℤ} {held : Held} {saved failed : Answer}
    (h : (Op.registerDownloadHolding id now held).decide itemPath seen = .save k r saved failed) :
    saved = .ok (.held held) ∧ failed = .error .io := by
  rcases seen with _ | s <;> simp only [Op.decide, reduceCtorEq] at h
  split_ifs at h
  cases h
  exact ⟨rfl, rfl⟩

omit [DecidableEq File] in
theorem answer_of_register {id : String} {now : ℤ} {held : Held}
    {a : Answer} (h : (Op.registerDownloadHolding id now held).decide itemPath seen = .answer a) :
    a.isOk = false := by
  rcases seen with _ | s <;> simp only [Op.decide] at h
  · cases h
    rfl
  · split_ifs at h
    cases h
    rfl

end Nasty.Guest
