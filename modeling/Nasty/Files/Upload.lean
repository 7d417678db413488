import Nasty.Lib.Lts

/-!
# Uploads and edits of one name

An upload and an in-browser edit write their body to a temporary file of their own and then put it
at the name: an upload with a hard link, or with a rename if it may overwrite, an edit with a
rename. `tokio::fs::File` writes in the background: a block is handed over, and the error of its
write is reported by a later operation on the same file only.

1. `Req.next`: what a request does on its own, `Req.publish`: how its file gets to the name.
2. `World`: requests and readers that interleave; `puts` records what was put at the name.
3. `Req.Fine`: what has landed, is underway and is left makes up the body, unless a write failed.
-/

namespace Nasty.Files

open Lts Option List

abbrev Block := List UInt8

inductive Kind
  | upload (overwrite : Bool)
  | edit
  deriving DecidableEq

inductive Inode
  | original
  | temp (i : ℕ)
  deriving DecidableEq

inductive Entry
  | dir
  | link
  | file (inode : Inode)
  deriving DecidableEq

inductive Response
  | ok
  | notFound
  | conflict (error : String)
  | internal (error : String)
  deriving DecidableEq

inductive Stage
  | received
  | checked
  /-- Blocks that are not handed over yet. -/
  | writing (rest : List Block)
  | synced
  /-- The name was taken when the upload was to be published. -/
  | conflicted
  | answered (response : Response)
  deriving DecidableEq

structure Req where
  kind : Kind
  blocks : List Block
  stage : Stage
  landed : Block
  inflight : Option Block
  /-- The error of a background write that was not reported yet. -/
  failed : Option String

def Req.body (r : Req) : Block := r.blocks.flatten

def Req.new (kind : Kind) (blocks : List Block) : Req := ⟨kind, blocks, .received, [], none, none⟩

def Req.at (r : Req) (stage : Stage) : Req := { r with stage }

/-! ## A request on its own -/

def existsText : String := "Destination already exists"

def directoryText : String := "Destination is a directory"

def Kind.look (name : Option Entry) (error : Option String) : Kind → Stage
  | .upload overwrite =>
    match error, name with
    | some e, _ => .answered (.internal e)
    | none, none => .checked
    | none, some .dir => .answered (.conflict directoryText)
    | none, some _ => if overwrite then .checked else .answered (.conflict existsText)
  | .edit =>
    match error, name with
    | none, some (.file _) => .checked
    | none, some _ => .answered (.conflict "Target is not a regular file")
    | _, _ => .answered .notFound

def Kind.writeError (error : String) : Kind → Stage
  | .upload _ => .answered (.internal error)
  | .edit => .answered (.internal ("write failed: " ++ error))

def conflictStage : Option Entry → Stage
  | some .link | some (.file _) => .answered (.conflict existsText)
  | some .dir | none => .answered (.conflict directoryText)

inductive Local
  | look (error : Option String)
  | create (error : Option String)
  /-- Hand over the next block; an earlier write that failed is reported here. -/
  | hand (error : Option String)
  /-- The background write ends; a failed one may have written some bytes. -/
  | settle (error : Option (String × ℕ))
  /-- The body of an upload cannot be received. -/
  | lose (error : String)
  | sync (error : Option String)
  | respond

/-- Assumed of `tokio::fs::File`: the next `write_all` or `sync_all` waits for the background write
and reports its error. -/
def Req.reported (r : Req) (error : Option String) : Option String := r.failed.or error

def Req.next (name : Option Entry) (r : Req) : Local → Option Req
  | .look error =>
    match r.stage with
    | .received => some (r.at (r.kind.look name error))
    | _ => none
  | .create error =>
    match r.stage, error with
    | .checked, none => some (r.at (.writing r.blocks))
    | .checked, some e => some (r.at (r.kind.writeError e))
    | _, _ => none
  | .hand error =>
    match r.stage, r.inflight with
    | .writing (b :: rest), none =>
      match r.reported error with
      | some e => some (r.at (r.kind.writeError e))
      | none => some { r with stage := .writing rest, inflight := some b }
    | _, _ => none
  | .settle error =>
    match r.inflight, error with
    | some b, none => some { r with landed := r.landed ++ b, inflight := none }
    | some b, some (e, n) =>
      some { r with landed := r.landed ++ b.take n, inflight := none, failed := some e }
    | none, _ => none
  | .lose error =>
    match r.kind, r.stage with
    | .upload _, .writing _ => some (r.at (.answered (.internal error)))
    | _, _ => none
  | .sync error =>
    match r.kind, r.stage, r.inflight with
    | .upload _, .writing [], none =>
      match r.reported error with
      | some e => some (r.at (.answered (.internal e)))
      | none => some (r.at .synced)
    | _, _, _ => none
  | .respond =>
    match r.stage with
    | .conflicted => some (r.at (conflictStage name))
    | _ => none

/-! ## Publishing -/

structure PublishError where
  /-- `AlreadyExists`, `IsADirectory` or `NotADirectory`. -/
  conflict : Bool
  text : String

/-- The next stage, which is OK just if the file was put at the name. No file replaces a directory.
-/
def Req.publish (name : Option Entry) (error : Option PublishError) (r : Req) : Option Stage :=
  match r.kind, r.stage, error with
  | .upload true, .synced, some e =>
    some (if e.conflict then .conflicted
      else .answered (.internal ("Failed to finalize upload: " ++ e.text)))
  | .upload true, .synced, none => if name = some .dir then none else some (.answered .ok)
  | .upload false, .synced, some e =>
    some (.answered (.internal ("Failed to finalize upload: " ++ e.text)))
  | .upload false, .synced, none => some (if name.isSome then .conflicted else .answered .ok)
  -- the file was dropped after its last block was handed over, not flushed
  | .edit, .writing [], some e => some (.answered (.internal ("rename failed: " ++ e.text)))
  | .edit, .writing [], none => if name = some .dir then none else some (.answered .ok)
  | _, _, _ => none

/-! ## The name -/

structure Put where
  id : ℕ
  kind : Kind
  /-- What was at the name before. -/
  before : Option Entry
  /-- What the file held when it was put there. -/
  content : Block

structure World where
  name : Option Entry
  reqs : ℕ → Option Req
  /-- The files that readers have opened. -/
  readers : ℕ → Option Inode
  /-- What was put at the name, newest first. -/
  puts : List Put

inductive Event
  | arrive (i : ℕ) (kind : Kind) (blocks : List Block)
  | step (i : ℕ) (l : Local)
  | publish (i : ℕ) (error : Option PublishError)
  | open (k : ℕ)

def World.set (w : World) (i : ℕ) (r : Req) : World :=
  { w with reqs := Function.update w.reqs i (some r) }

def World.put (w : World) (i : ℕ) (r : Req) : World where
  name := some (.file (.temp i))
  reqs := Function.update w.reqs i (some (r.at (.answered .ok)))
  readers := w.readers
  puts := ⟨i, r.kind, w.name, r.landed⟩ :: w.puts

def World.exec (w : World) : Event → Option World
  | .arrive i kind blocks =>
    match w.reqs i with
    | none => some (w.set i (.new kind blocks))
    | some _ => none
  | .step i l => (w.reqs i).bind fun r => (r.next w.name l).map (w.set i)
  | .publish i error =>
    (w.reqs i).bind fun r => (r.publish w.name error).map fun stage =>
      if stage = .answered .ok then w.put i r else w.set i (r.at stage)
  | .open k =>
    match w.name with
    | some (.file inode) => some { w with readers := Function.update w.readers k (some inode) }
    | _ => none

def Step (w : World) (e : Event) (w' : World) : Prop := w.exec e = some w'

inductive Found
  | absent
  | dir
  | link
  | file

def Found.entry : Found → Option Entry
  | absent => none
  | dir => some .dir
  | link => some .link
  | file => some (.file .original)

def World.init (found : Found) : World := ⟨found.entry, fun _ => none, fun _ => none, []⟩

/-! ## What is required -/

/-- A file holds the earlier content, or the whole body of a request that was put. -/
def World.Whole (w : World) : Inode → Prop
  | .original => True
  | .temp i => ∃ r, w.reqs i = some r ∧ r.stage = .answered .ok ∧ r.landed = r.body

structure World.Sound (found : Found) (w : World) : Prop where
  readers : ∀ k inode, w.readers k = some inode → w.Whole inode
  name : ∀ inode, w.name = some (.file inode) → w.Whole inode
  /-- Only what was put changes the name. -/
  last : w.name = (w.puts.head?.map fun p => Entry.file (.temp p.id)).or found.entry
  noReplace : ∀ p ∈ w.puts, p.kind = .upload false → p.before = none
  ok : ∀ i r, w.reqs i = some r → r.stage = .answered .ok →
    ∃ p ∈ w.puts, p.id = i ∧ p.content = r.body
  error : ∀ i r response, w.reqs i = some r → r.stage = .answered response → response ≠ .ok →
    ∀ p ∈ w.puts, p.id ≠ i
  /-- Of the uploads that may not overwrite, not more than one is put at a new name, and one is if
  any is answered without an I/O error and no other upload gets there first. -/
  unique : ∀ i j r s, w.reqs i = some r → w.reqs j = some s → r.kind = .upload false →
    s.kind = .upload false → r.stage = .answered .ok → s.stage = .answered .ok → i = j
  exists_ok : found = .absent → (∀ p ∈ w.puts, p.kind ≠ .upload true) →
    (∃ i r, w.reqs i = some r ∧ r.kind = .upload false ∧
      (r.stage = .answered .ok ∨ ∃ e, r.stage = .answered (.conflict e))) →
    ∃ i r, w.reqs i = some r ∧ r.kind = .upload false ∧ r.stage = .answered .ok

def Careful (w : World) : Event → Prop
  | .publish i none => ∀ r, w.reqs i = some r → r.kind = .edit →
      r.inflight = none ∧ r.failed = none
  | _ => True

def CarefulStep (w : World) (e : Event) (w' : World) : Prop := Careful w e ∧ Step w e w'

/-! ## Requests, step by step -/

open Req

def Req.Fine (r : Req) : Prop :=
  match r.stage with
  | .received | .checked => r.landed = [] ∧ r.inflight = none
  | .writing rest => r.failed = none → r.landed ++ r.inflight.getD [] ++ rest.flatten = r.body
  | .synced | .answered .ok => r.landed = r.body ∧ r.inflight = none
  | .conflicted | .answered _ => True

def Req.Seen (r : Req) : Prop :=
  match r.kind, r.stage with
  | .edit, .checked | .edit, .writing _ | .edit, .answered .ok => True
  | .upload false, .conflicted | .upload false, .answered (.conflict _) => True
  | _, _ => False

section Requests

variable {name : Option Entry} {r r' : Req} {l : Local} (kind : Kind)

theorem Req.fine_new (blocks : List Block) : (new kind blocks).Fine :=
  ⟨rfl, rfl⟩

theorem Kind.look_ne_ok (name : Option Entry) (error : Option String) :
    kind.look name error ≠ .answered .ok := by
  unfold Kind.look
  repeat' split
  all_goals nofun

theorem Kind.writeError_ne_ok (error : String) : kind.writeError error ≠ .answered .ok := by
  cases kind <;> nofun

theorem conflictStage_ne_ok (name : Option Entry) : conflictStage name ≠ .answered .ok := by
  unfold conflictStage
  split <;> nofun

theorem Req.fine_look (h : r.landed = [] ∧ r.inflight = none) (error : Option String) :
    (r.at (r.kind.look name error)).Fine := by
  unfold Kind.look
  repeat' split
  all_goals first | exact h | trivial

theorem Req.fine_writeError (r : Req) (e : String) : (r.at (r.kind.writeError e)).Fine := by
  unfold Fine Req.at Kind.writeError
  cases r.kind <;> trivial

theorem Req.fine_conflictStage (r : Req) (name : Option Entry) :
    (r.at (conflictStage name)).Fine := by
  unfold conflictStage
  split <;> trivial

inductive Req.Next (name : Option Entry) (r : Req) : Req → Prop
  | look (error) : r.stage = .received → Next name r (r.at (r.kind.look name error))
  | create : r.stage = .checked → Next name r (r.at (.writing r.blocks))
  | fail (error) : r.stage = .checked ∨ (∃ rest, r.stage = .writing rest) →
      Next name r (r.at (r.kind.writeError error))
  | hand {b rest} : r.stage = .writing (b :: rest) → r.inflight = none → r.failed = none →
      Next name r { r with stage := .writing rest, inflight := some b }
  | land {b} : r.inflight = some b →
      Next name r { r with landed := r.landed ++ b, inflight := none }
  | tear {b} (e n) : r.inflight = some b → Next name r
      { r with landed := r.landed ++ b.take n, inflight := none, failed := some e }
  | lose {overwrite rest} (error) : r.kind = .upload overwrite → r.stage = .writing rest →
      Next name r (r.at (.answered (.internal error)))
  | sync {overwrite} : r.kind = .upload overwrite → r.stage = .writing [] → r.inflight = none →
      r.failed = none → Next name r (r.at .synced)
  | respond : r.stage = .conflicted → Next name r (r.at (conflictStage name))

theorem Req.next_of_eq (h : r.next name l = some r') : r.Next name r' := by
  cases l with
  | look error =>
    simp only [next] at h
    split at h
    · next hstage => cases h; exact .look error hstage
    · cases h
  | create error =>
    simp only [next] at h
    split at h
    · next hstage => cases h; exact .create hstage
    · next e hstage => cases h; exact .fail e (.inl hstage)
    · cases h
  | hand error =>
    simp only [next] at h
    split at h
    · next b rest hstage hinflight =>
      split at h
      · next e _ => cases h; exact .fail e (.inr ⟨_, hstage⟩)
      · next hor =>
        cases h
        exact .hand hstage hinflight (or_eq_none_iff.1 hor).1
    · cases h
  | settle error =>
    simp only [next] at h
    split at h
    · next b hinflight => cases h; exact .land hinflight
    · next b e n hinflight => cases h; exact .tear e n hinflight
    · cases h
  | lose error =>
    simp only [next] at h
    split at h
    · next hkind hstage => cases h; exact .lose error hkind hstage
    · cases h
  | sync error =>
    simp only [next] at h
    split at h
    · next hkind hstage hinflight =>
      split at h
      · next e _ => cases h; exact .lose e hkind hstage
      · next hor =>
        cases h
        exact .sync hkind hstage hinflight (or_eq_none_iff.1 hor).1
    · cases h
  | respond =>
    simp only [next] at h
    split at h
    · next hstage => cases h; exact .respond hstage
    · cases h

theorem Req.Next.ne_ok (h : r.Next name r') (hr : r.Fine) :
    r.stage ≠ .answered .ok ∧ r'.stage ≠ .answered .ok := by
  have hsettle : ∀ b, r.inflight = some b → r.stage ≠ .answered .ok := by
    intro b hb hok
    unfold Fine at hr
    rw [hok, hb] at hr
    exact nomatch hr.2
  cases h with
  | look error hstage => exact ⟨by rw [hstage]; nofun, r.kind.look_ne_ok name error⟩
  | create hstage => exact ⟨by rw [hstage]; nofun, nofun⟩
  | fail error hstage =>
    refine ⟨?_, r.kind.writeError_ne_ok error⟩
    rcases hstage with hstage | ⟨rest, hstage⟩ <;> rw [hstage] <;> nofun
  | hand hstage => exact ⟨by rw [hstage]; nofun, nofun⟩
  | land hb | tear e n hb => exact ⟨hsettle _ hb, hsettle _ hb⟩
  | lose error _ hstage => exact ⟨by rw [hstage]; nofun, nofun⟩
  | sync _ hstage => exact ⟨by rw [hstage]; nofun, nofun⟩
  | respond hstage => exact ⟨by rw [hstage]; nofun, conflictStage_ne_ok name⟩

theorem Req.fine_of_settled {b landed : Block} {failed : Option String} (hr : r.Fine)
    (hb : r.inflight = some b)
    (h : ∀ rest, r.stage = .writing rest → failed = none → landed ++ rest.flatten = r.body) :
    Fine { r with landed := landed, inflight := none, failed := failed } := by
  unfold Fine at hr ⊢
  rw [hb] at hr
  cases hstage : r.stage with
  | writing rest => simpa [body] using h rest hstage
  | received | checked | synced => rw [hstage] at hr; exact nomatch hr.2
  | conflicted => trivial
  | answered response =>
    cases response with
    | ok => rw [hstage] at hr; exact nomatch hr.2
    | notFound | conflict | internal => trivial

theorem Req.Next.fine (h : r.Next name r') (hr : r.Fine) : r'.Fine := by
  have hfine := hr
  unfold Fine at hr
  cases h with
  | look error hstage =>
    rw [hstage] at hr
    exact fine_look hr error
  | create hstage =>
    rw [hstage] at hr
    intro _
    simp [Req.at, body, hr.1, hr.2]
  | fail error _ => exact r.fine_writeError error
  | hand hstage hinflight hfailed =>
    rw [hstage, hinflight] at hr
    intro _
    simpa [body] using hr hfailed
  | land hb =>
    refine fine_of_settled hfine hb fun rest hstage => ?_
    rw [hstage, hb] at hr
    intro hfailed
    simpa using hr hfailed
  | tear e n hb => exact fine_of_settled hfine hb fun _ _ => nofun
  | lose => trivial
  | sync _ hstage hinflight hfailed =>
    rw [hstage, hinflight] at hr
    refine ⟨?_, hinflight⟩
    show r.landed = r.body
    simpa using hr hfailed
  | respond => exact r.fine_conflictStage name

theorem Req.Next.seen (h : r.Next name r') (hseen : r'.Seen) : r.Seen ∨ name ≠ none := by
  cases h with
  | look error hstage =>
    right
    rintro rfl
    cases hkind : r.kind with
    | upload overwrite =>
      cases overwrite <;> cases error <;> simp [Seen, Req.at, Kind.look, hkind] at hseen
    | edit => cases error <;> simp [Seen, Req.at, Kind.look, hkind] at hseen
  | create hstage =>
    left
    cases hkind : r.kind with
    | upload overwrite => cases overwrite <;> simp [Seen, Req.at, hkind] at hseen
    | edit => simp [Seen, hkind, hstage]
  | fail error hstage =>
    cases hkind : r.kind with
    | upload overwrite =>
      cases overwrite <;> simp [Seen, Req.at, Kind.writeError, hkind] at hseen
    | edit => simp [Seen, Req.at, Kind.writeError, hkind] at hseen
  | hand hstage =>
    left
    cases hkind : r.kind with
    | upload overwrite => cases overwrite <;> simp [Seen, hkind] at hseen
    | edit => simp [Seen, hkind, hstage]
  | land | tear => exact .inl hseen
  | lose error hkind =>
    rename_i overwrite _
    cases overwrite <;> simp [Seen, Req.at] at hseen
  | sync hkind =>
    rename_i overwrite _ _ _
    cases overwrite <;> simp [Seen, Req.at] at hseen
  | respond hstage =>
    left
    cases hkind : r.kind with
    | upload overwrite =>
      cases overwrite with
      | false => simp [Seen, hkind, hstage]
      | true => simp [Seen, Req.at, hkind] at hseen
    | edit =>
      unfold conflictStage at hseen
      split at hseen <;> simp [Seen, Req.at, hkind] at hseen

inductive Req.Ready (name : Option Entry) (r : Req) : Prop
  | link : r.kind = .upload false → r.stage = .synced → name = none → Ready name r
  | replace : r.kind = .upload true → r.stage = .synced → Ready name r
  | edit : r.kind = .edit → r.stage = .writing [] → Ready name r

variable {error : Option PublishError}

theorem Req.publish_ok (h : r.publish name error = some (.answered .ok)) :
    error = none ∧ r.Ready name := by
  unfold publish at h
  split at h
  · next e _ _ => cases hc : e.conflict <;> simp [hc] at h
  · next hkind hstage => exact ⟨rfl, .replace hkind hstage⟩
  · simp at h
  · next hkind hstage =>
    refine ⟨rfl, .link hkind hstage ?_⟩
    cases hname : name with
    | none => rfl
    | some entry => simp [hname] at h
  · simp at h
  · next hkind hstage => exact ⟨rfl, .edit hkind hstage⟩
  · cases h

theorem Req.publish_failed {stage : Stage} (h : r.publish name error = some stage)
    (hstage : stage ≠ .answered .ok) :
    r.stage ≠ .answered .ok ∧ (r.at stage).Fine ∧ ((r.at stage).Seen → r.Seen ∨ name ≠ none) := by
  unfold publish at h
  split at h
  · next e hkind hs =>
    refine ⟨by rw [hs]; nofun, ?_⟩
    cases hc : e.conflict <;> simp only [hc] at h <;>
      cases h <;> exact ⟨trivial, fun hseen => by simp [Seen, Req.at, hkind] at hseen⟩
  · split_ifs at h
    cases h
    exact absurd rfl hstage
  · next e hkind hs =>
    cases h
    exact ⟨by rw [hs]; nofun, trivial, fun hseen => by simp [Seen, Req.at] at hseen⟩
  · next hkind hs =>
    refine ⟨by rw [hs]; nofun, ?_⟩
    cases hname : name with
    | none => exact absurd (by simpa [hname] using h.symm) hstage
    | some entry =>
      obtain rfl : stage = .conflicted := by simpa [hname] using h.symm
      exact ⟨trivial, fun _ => .inr nofun⟩
  · next e hkind hs =>
    cases h
    exact ⟨by rw [hs]; nofun, trivial, fun hseen => by simp [Seen, Req.at] at hseen⟩
  · split_ifs at h
    cases h
    exact absurd rfl hstage
  · cases h

end Requests

/-! ## The invariant -/

def nameAfter (found : Found) : List Put → Option Entry
  | [] => found.entry
  | p :: _ => some (.file (.temp p.id))

def Chained (found : Found) : List Put → Prop
  | [] => True
  | p :: ps => p.before = nameAfter found ps ∧ Chained found ps

structure Inv (found : Found) (w : World) : Prop where
  fine : ∀ i r, w.reqs i = some r → r.Fine
  seen : ∀ i r, w.reqs i = some r → r.Seen → w.name ≠ none
  name : w.name = nameAfter found w.puts
  chained : Chained found w.puts
  put : ∀ p ∈ w.puts, ∃ r, w.reqs p.id = some r ∧ r.stage = .answered .ok ∧ r.kind = p.kind ∧
    p.content = r.body
  ok : ∀ i r, w.reqs i = some r → r.stage = .answered .ok → ∃ p ∈ w.puts, p.id = i
  readers : ∀ k i, w.readers k = some (.temp i) → ∃ p ∈ w.puts, p.id = i
  link : ∀ p ∈ w.puts, p.kind = .upload false → p.before = none
  edit : ∀ p ∈ w.puts, p.kind = .edit → p.before ≠ none

section Runs

variable {found : Found} {w w' : World} {i : ℕ} {r r' : Req} {puts : List Put}

theorem update_eq_some {α : Type} {f : ℕ → Option α} {i j : ℕ} {a b : α} :
    Function.update f i (some a) j = some b ↔ j = i ∧ a = b ∨ j ≠ i ∧ f j = some b := by
  by_cases hj : j = i <;> simp [hj]

theorem inv_init (found : Found) : Inv found (World.init found) where
  fine := nofun
  seen := nofun
  name := rfl
  chained := trivial
  put := nofun
  ok := nofun
  readers := nofun
  link := nofun
  edit := nofun

theorem Inv.set (h : Inv found w) (hfine : r.Fine) (hseen : r.Seen → w.name ≠ none)
    (hstage : r.stage ≠ .answered .ok)
    (hold : ∀ r₀, w.reqs i = some r₀ → r₀.stage ≠ .answered .ok) : Inv found (w.set i r) where
  fine j s hs := by
    obtain ⟨-, rfl⟩ | ⟨-, hs⟩ := update_eq_some.1 hs
    · exact hfine
    · exact h.fine j s hs
  seen j s hs hseen' := by
    obtain ⟨-, rfl⟩ | ⟨-, hs⟩ := update_eq_some.1 hs
    · exact hseen hseen'
    · exact h.seen j s hs hseen'
  name := h.name
  chained := h.chained
  put p hp := by
    obtain ⟨s, hs, hok, hrest⟩ := h.put p hp
    have hne : p.id ≠ i := by
      rintro rfl
      exact hold s hs hok
    exact ⟨s, update_eq_some.2 (.inr ⟨hne, hs⟩), hok, hrest⟩
  ok j s hs hok := by
    obtain ⟨-, rfl⟩ | ⟨-, hs⟩ := update_eq_some.1 hs
    · exact absurd hok hstage
    · exact h.ok j s hs hok
  readers := h.readers
  link := h.link
  edit := h.edit

theorem Inv.putAt (h : Inv found w) (hi : w.reqs i = some r) (hready : r.Ready w.name)
    (hbody : r.landed = r.body ∧ r.inflight = none) : Inv found (w.put i r) where
  fine j s hs := by
    obtain ⟨-, rfl⟩ | ⟨-, hs⟩ := update_eq_some.1 hs
    · exact hbody
    · exact h.fine j s hs
  seen _ _ _ _ := nofun
  name := rfl
  chained := ⟨h.name, h.chained⟩
  put p hp := by
    rcases mem_cons.1 hp with rfl | hp
    · exact ⟨_, update_eq_some.2 (.inl ⟨rfl, rfl⟩), rfl, rfl, hbody.1⟩
    obtain ⟨s, hs, hok, hrest⟩ := h.put p hp
    have hne : p.id ≠ i := by
      rintro rfl
      obtain rfl : r = s := some.inj (hi.symm.trans hs)
      cases hready with
      | link _ hstage | replace _ hstage | edit _ hstage => rw [hstage] at hok; cases hok
    exact ⟨s, update_eq_some.2 (.inr ⟨hne, hs⟩), hok, hrest⟩
  ok j s hs hok := by
    obtain ⟨rfl, -⟩ | ⟨-, hs⟩ := update_eq_some.1 hs
    · exact ⟨_, mem_cons_self, rfl⟩
    · obtain ⟨p, hp, hpj⟩ := h.ok j s hs hok
      exact ⟨p, mem_cons_of_mem _ hp, hpj⟩
  readers k j hk := by
    obtain ⟨p, hp, hpj⟩ := h.readers k j hk
    exact ⟨p, mem_cons_of_mem _ hp, hpj⟩
  link p hp hkind := by
    rcases mem_cons.1 hp with rfl | hp
    · cases hready with
      | link _ _ hname => exact hname
      | replace hk | edit hk => rw [hk] at hkind; cases hkind
    · exact h.link p hp hkind
  edit p hp hkind := by
    rcases mem_cons.1 hp with rfl | hp
    · change r.kind = _ at hkind
      cases hready with
      | link hk | replace hk => rw [hk] at hkind; cases hkind
      | edit _ hstage => exact h.seen i r hi (by simp [Seen, hkind, hstage])
    · exact h.edit p hp hkind

theorem Req.Ready.landed {name : Option Entry} (h : r.Ready name) (hr : r.Fine)
    (hedit : r.kind = .edit → r.inflight = none ∧ r.failed = none) :
    r.landed = r.body ∧ r.inflight = none := by
  unfold Fine at hr
  cases h with
  | link _ hstage | replace _ hstage => rw [hstage] at hr; exact hr
  | edit hkind hstage =>
    obtain ⟨hinflight, hfailed⟩ := hedit hkind
    rw [hstage, hinflight] at hr
    exact ⟨by simpa using hr hfailed, hinflight⟩

theorem Inv.step {e : Event} (h : Inv found w) (hstep : CarefulStep w e w') : Inv found w' := by
  obtain ⟨hcareful, hexec⟩ := hstep
  unfold Step World.exec at hexec
  cases e with
  | arrive i kind blocks =>
    simp only at hexec
    split at hexec
    · next hnone =>
      cases hexec
      refine h.set (fine_new kind blocks) (fun hseen => ?_) nofun fun r₀ hr₀ => ?_
      · cases kind with
        | edit => exact hseen.elim
        | upload overwrite => cases overwrite <;> exact hseen.elim
      · rw [hnone] at hr₀
        cases hr₀
    · cases hexec
  | step i l =>
    obtain ⟨r, hi, hmap⟩ := bind_eq_some_iff.1 hexec
    obtain ⟨r', hr', rfl⟩ := map_eq_some_iff.1 hmap
    have hnext := next_of_eq hr'
    have hfine := h.fine i r hi
    refine h.set (hnext.fine hfine) (fun hseen => ?_) (hnext.ne_ok hfine).2 fun r₀ hr₀ => ?_
    · rcases hnext.seen hseen with hseen | hname
      · exact h.seen i r hi hseen
      · exact hname
    · obtain rfl : r = r₀ := some.inj (hi.symm.trans hr₀)
      exact (hnext.ne_ok hfine).1
  | publish i error =>
    obtain ⟨r, hi, hmap⟩ := bind_eq_some_iff.1 hexec
    obtain ⟨stage, hpublish, hw⟩ := map_eq_some_iff.1 hmap
    have hfine := h.fine i r hi
    split_ifs at hw with hstage
    · subst hstage hw
      obtain ⟨rfl, hready⟩ := publish_ok hpublish
      exact h.putAt hi hready (hready.landed hfine (hcareful r hi))
    subst hw
    obtain ⟨hold, hfine', hseen⟩ := publish_failed hpublish hstage
    refine h.set hfine' (fun hs => ?_) hstage fun r₀ hr₀ => ?_
    · rcases hseen hs with hs | hname
      · exact h.seen i r hi hs
      · exact hname
    · obtain rfl : r = r₀ := some.inj (hi.symm.trans hr₀)
      exact hold
  | «open» k =>
    simp only at hexec
    split at hexec
    · next inode hname =>
      cases hexec
      refine ⟨h.fine, h.seen, h.name, h.chained, h.put, h.ok, fun j i hj => ?_, h.link, h.edit⟩
      obtain ⟨-, rfl⟩ | ⟨-, hj⟩ := update_eq_some.1 hj
      · have hlast := h.name
        rw [hname] at hlast
        cases hputs : w.puts with
        | nil =>
          rw [hputs] at hlast
          cases found <;> cases hlast
        | cons p ps =>
          rw [hputs] at hlast
          cases hlast
          exact ⟨p, mem_cons_self, rfl⟩
      · exact h.readers j i hj
    · cases hexec

theorem Chained.getLast {p : Put} (h : Chained found puts) (hp : p ∈ puts)
    (hbefore : p.before = none) : puts.getLast? = some p := by
  induction puts with
  | nil => cases hp
  | cons q ps ih =>
  rcases mem_cons.1 hp with rfl | hp
  · cases ps with
    | nil => rfl
    | cons q' ps =>
      rw [h.1] at hbefore
      cases hbefore
  cases ps with
  | nil => cases hp
  | cons q' ps =>
    exact ih h.2 hp

theorem Chained.exists_first (h : Chained found puts) (hne : puts ≠ []) :
    ∃ p ∈ puts, p.before = found.entry := by
  induction puts with
  | nil => exact absurd rfl hne
  | cons q ps ih =>
  cases ps with
  | nil => exact ⟨q, mem_cons_self, h.1⟩
  | cons q' ps =>
    obtain ⟨p, hp, hbefore⟩ := ih h.2 nofun
    exact ⟨p, mem_cons_of_mem _ hp, hbefore⟩

theorem Inv.whole (h : Inv found w) {p : Put} (hp : p ∈ w.puts) : w.Whole (.temp p.id) := by
  obtain ⟨r, hr, hok, -⟩ := h.put p hp
  have hfine := h.fine p.id r hr
  unfold Fine at hfine
  rw [hok] at hfine
  exact ⟨r, hr, hok, hfine.1⟩

theorem Inv.sound (h : Inv found w) : w.Sound found where
  readers k inode hk := by
    cases inode with
    | original => trivial
    | temp i =>
      obtain ⟨p, hp, rfl⟩ := h.readers k i hk
      exact h.whole hp
  name inode hname := by
    rw [h.name] at hname
    cases hputs : w.puts with
    | nil =>
      rw [hputs] at hname
      cases found <;> cases hname
      trivial
    | cons p ps =>
      rw [hputs] at hname
      cases hname
      exact h.whole (hputs ▸ mem_cons_self)
  last := by
    rw [h.name]
    cases w.puts <;> rfl
  noReplace := h.link
  ok i r hr hok := by
    obtain ⟨p, hp, rfl⟩ := h.ok i r hr hok
    obtain ⟨s, hs, -, -, hcontent⟩ := h.put p hp
    obtain rfl : r = s := some.inj (hr.symm.trans hs)
    exact ⟨p, hp, rfl, hcontent⟩
  error i r response hr hresponse hne p hp := by
    rintro rfl
    obtain ⟨s, hs, hok, -⟩ := h.put p hp
    obtain rfl : r = s := some.inj (hr.symm.trans hs)
    exact hne (Stage.answered.inj (hresponse.symm.trans hok))
  unique i j r s hr hs hrkind hskind hrok hsok := by
    have hfirst : ∀ i r, w.reqs i = some r → r.kind = .upload false → r.stage = .answered .ok →
        ∃ p, w.puts.getLast? = some p ∧ p.id = i := by
      intro i r hr hkind hok
      obtain ⟨p, hp, rfl⟩ := h.ok i r hr hok
      obtain ⟨s, hs, -, hpkind, -⟩ := h.put p hp
      obtain rfl : r = s := some.inj (hr.symm.trans hs)
      exact ⟨p, h.chained.getLast hp (h.link p hp (hpkind.symm.trans hkind)), rfl⟩
    obtain ⟨p, hp, rfl⟩ := hfirst i r hr hrkind hrok
    obtain ⟨q, hq, rfl⟩ := hfirst j s hs hskind hsok
    rw [some.inj (hp.symm.trans hq)]
  exists_ok := by
    rintro rfl hnone ⟨i, r, hr, hkind, hok | ⟨e, hconflict⟩⟩
    · exact ⟨i, r, hr, hkind, hok⟩
    -- something was there, and the first put was neither an edit nor an overwrite
    have hname := h.seen i r hr (by simp [Seen, hkind, hconflict])
    have hputs : w.puts ≠ [] := by
      intro hnil
      rw [h.name, hnil] at hname
      exact hname rfl
    obtain ⟨p, hp, hbefore⟩ := h.chained.exists_first hputs
    obtain ⟨s, hs, hok, hskind, -⟩ := h.put p hp
    refine ⟨p.id, s, hs, ?_, hok⟩
    rw [hskind]
    cases hpkind : p.kind with
    | edit => exact absurd hbefore (h.edit p hp hpkind)
    | upload overwrite =>
      cases overwrite with
      | true => exact absurd hpkind (hnone p hp)
      | false => rfl

end Runs

/-- **Uploads and edits.** If no edit is renamed too early, readers see whole bodies and the answers
say what was put at the name. -/
theorem names_whole {found : Found} {es : List Event} {w : World}
    (h : Run CarefulStep (World.init found) es w) : w.Sound found :=
  (h.inv (inv_init found) fun _ _ _ => Inv.step).sound

/-- Two edits that write at the same time. -/
def twoEdits : List Event :=
  [.arrive 0 .edit [[104, 105]], .arrive 1 .edit [[104]], .step 0 (.look none),
    .step 1 (.look none), .step 0 (.create none), .step 1 (.create none), .step 0 (.hand none),
    .step 1 (.hand none), .step 1 (.settle none), .step 0 (.settle none)]

theorem names_whole_edited : ∃ es w, Run CarefulStep (World.init .file) es w ∧
    w.readers 7 = some (.temp 1) ∧ w.name = some (.file (.temp 0)) ∧ w.Sound .file := by
  have hwritten : Run CarefulStep (World.init .file) twoEdits _ :=
    ((Run.of_foldlM rfl).restrict (P := Careful) (by simp [twoEdits, Careful])).imp
      fun _ _ _ h => h.symm
  have hfirst := hwritten.next (.publish 1 none) (fun r hr _ => some.inj hr ▸ ⟨rfl, rfl⟩) rfl
  have hopen := hfirst.next (.open 7) trivial rfl
  have hsecond := hopen.next (.publish 0 none) (fun r hr _ => some.inj hr ▸ ⟨rfl, rfl⟩) rfl
  exact ⟨_, _, hsecond, rfl, rfl, names_whole hsecond⟩

/-- The steps of an edit whose last block has not landed when it is renamed. -/
def tornEdit : List Event :=
  [.arrive 0 .edit [[104, 105]], .step 0 (.look none), .step 0 (.create none),
    .step 0 (.hand none), .publish 0 none, .open 7]

/-- The edit is answered OK, and a reader finds an empty file. -/
theorem torn_edit_read : ∃ w, Run Step (World.init .file) tornEdit w ∧
    w.readers 7 = some (.temp 0) ∧ ¬ w.Sound .file := by
  obtain ⟨w, hw, hseen⟩ : ∃ w, tornEdit.foldlM World.exec (World.init .file) = some w ∧
      w.readers 7 = some (.temp 0) ∧
      ∃ r, w.reqs 0 = some r ∧ r.landed = [] ∧ r.body = [104, 105] :=
    ⟨_, rfl, rfl, _, rfl, rfl, rfl⟩
  obtain ⟨hreader, r, hr, hlanded, hbody⟩ := hseen
  refine ⟨w, Run.of_foldlM hw, hreader, fun hsound => ?_⟩
  obtain ⟨s, hs, -, hwhole⟩ := hsound.readers 7 _ hreader
  obtain rfl : r = s := some.inj (hr.symm.trans hs)
  rw [hlanded, hbody] at hwhole
  cases hwhole

end Nasty.Files
