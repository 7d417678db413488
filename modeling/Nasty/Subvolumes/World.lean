import Nasty.Subvolumes.Service

/-!
# What the commands do

A `World` holds the subvolumes of every mounted filesystem, the loop devices and the locks that
are held. `Answers` says what each command may answer and change there; a program that fails may
have had its effect or not.
-/

namespace Nasty.Subvolumes

open Proc List

/-! ## The world -/

structure World where
  filesystems : List Filesystem
  tree : List Entry
  /-- The loop devices with their backing files. -/
  loops : List (Name × Name)
  held : List (Name × Name)
  restoring : Bool

def World.modify (w : World) (fs name : Name) (f : Entry → Entry) : World :=
  { w with tree := w.tree.map fun e => if e.At fs name then f e else e }

def World.add (w : World) (e : Entry) : World := { w with tree := w.tree ++ [e] }

def World.remove (w : World) (fs name : Name) : World :=
  { w with tree := w.tree.filter fun e => ¬ e.At fs name }

def World.attach (w : World) (device image : Name) : World :=
  { w with loops := w.loops ++ [(device, image)] }

def World.detach (w : World) (device : Name) : World :=
  { w with loops := w.loops.filter fun l => l.1 ≠ device }

/-- One line for every path: the path as it is, whitespace and further columns. -/
inductive Listing : List Name → Name → Prop
  | nil : Listing [] []
  | cons {path paths c columns output} : Text.isWhitespace c = true → '\n' ∉ c :: columns →
      Listing paths output → Listing (path :: paths) (path ++ c :: columns ++ '\n' :: output)

/-- One line for every device: the device, spaces and the backing file. -/
inductive LoopListing : List (Name × Name) → Name → Prop
  | nil : LoopListing [] []
  | cons {device back n loops output} : LoopListing loops output →
      LoopListing ((device, back) :: loops)
        (device ++ ' ' :: replicate n ' ' ++ back ++ '\n' :: output)

/-- A subvolume that the filesystem has not given out this id for. -/
def World.FreshId (w : World) (fs : Name) (id : Option ℕ) : Prop :=
  ∀ e ∈ w.tree, e.filesystem = fs → id.isSome → e.subvolid ≠ id

def World.Free (w : World) (fs name : Name) : Prop :=
  fs ∈ w.filesystems.map (·.name) ∧ ∀ e ∈ w.tree, ¬ e.At fs name

/-- The effect of a program. If the program failed it may have had its effect or not. -/
def Effected {α : Type} (w : World) (effect : World → Prop) (r : Except String α) (w' : World) :
    Prop :=
  effect w' ∨ (r.isOk = false ∧ w' = w)

def Answers : (c : Cmd) → World → c.Answer → World → Prop
  | .lockDestination fs name, w, _, w' =>
    (fs, name) ∉ w.held ∧ w' = { w with held := (fs, name) :: w.held }
  | .unlockDestination fs name, w, _, w' => w' = { w with held := w.held.erase (fs, name) }
  | .lockRestore, w, _, w' => w.restoring = false ∧ w' = { w with restoring := true }
  | .unlockRestore, w, _, w' => w' = { w with restoring := false }
  | .filesystem fs, w, r, w' =>
    w' = w ∧ ∀ f, r = .ok f → f ∈ w.filesystems ∧ f.name = fs
  | .mounted, w, r, w' => w' = w ∧ ∀ l, r = .ok l → l = w.filesystems
  | .listSubvolumes fs, w, r, w' =>
    w' = w ∧ ∀ l, r = .ok l → l = w.tree.filter (·.filesystem = fs)
  | .listRecursive fs, w, r, w' =>
    w' = w ∧ ∀ output, r = .ok output → ∃ paths,
      paths.Perm ((w.tree.filter (·.filesystem = fs)).map (·.name)) ∧ Listing paths output
  | .subvolumeCreate fs name, w, r, w' =>
    Effected w (fun w' => w.Free fs name ∧ ∃ id, w.FreshId fs id ∧ w' = w.add (.new fs name id))
      r w'
  | .subvolumeSnapshot fs source destination readOnly, w, r, w' =>
    Effected w (fun w' => w.Free fs destination ∧ ∃ e ∈ w.tree, e.At fs source ∧
      ∃ id, w.FreshId fs id ∧ w' = w.add { e with
        name := destination, snapshotParent := some ('/' :: source), readOnly, subvolid := id })
      r w'
  | .subvolumeDelete fs name, w, r, w' => Effected w (· = w.remove fs name) r w'
  | .losetupList, w, r, w' => w' = w ∧ ∀ output, r = .ok output → LoopListing w.loops output
  | .losetupAttach image _, w, r, w' =>
    Effected w (fun w' => (∃ e ∈ w.tree, e.image ∧ imagePath e.filesystem e.name = image) ∧
      ∃ device, Text.Token device ∧ device ∉ w.loops.map Prod.fst ∧
        (r.isOk → r = .ok (device ++ ['\n'])) ∧ w' = w.attach device image) r w'
  | .losetupDetach device, w, r, w' =>
    Effected w (· = w.detach device) r w' ∧
      ∀ e, r = .error e → isAlreadyDetached e → device ∉ w'.loops.map Prod.fst
  | .pathExists fs name, w, b, w' => w' = w ∧ (b = false → ∀ e ∈ w.tree, ¬ e.At fs name)
  | .imageExists fs name, w, b, w' => w' = w ∧ (b ↔ ∃ e ∈ w.tree, e.At fs name ∧ e.image)
  | .attributes fs name, w, a, w' => w' = w ∧ ∀ e ∈ w.tree, e.At fs name → a = e
  | .createImage fs name, w, r, w' =>
    Effected w (· = w.modify fs name fun e => { e with image := true }) r w'
  | .setXattr fs name value, w, r, w' =>
    Effected w (· = w.modify fs name fun e => value.set e) r w'
  | .pathIdentity .., w, _, w' | .namespaceDirectory .., w, _, w' | .legacyEvidence _, w, _, w'
  | .unixTime, w, _, w' | .other .., w, _, w' => w' = w

def machine : Contract Cmd Cmd.Answer World := ⟨fun _ _ => True, Answers⟩

inductive Change (w : World) : Cmd → World → Prop
  | locks {c} (held : List (Name × Name)) (restoring : Bool) :
      Change w c { w with held, restoring }
  | create {fs name id} : w.Free fs name → w.FreshId fs id →
      Change w (.subvolumeCreate fs name) (w.add (.new fs name id))
  | snapshot {fs source destination readOnly e id} : w.Free fs destination → w.FreshId fs id →
      e ∈ w.tree → e.At fs source →
      Change w (.subvolumeSnapshot fs source destination readOnly) (w.add { e with
        name := destination, snapshotParent := some ('/' :: source), readOnly, subvolid := id })
  | remove {fs name} : Change w (.subvolumeDelete fs name) (w.remove fs name)
  | attach {device image directIo} :
      (∃ e ∈ w.tree, e.image ∧ imagePath e.filesystem e.name = image) →
      Text.Token device → device ∉ w.loops.map Prod.fst →
      Change w (.losetupAttach image directIo) (w.attach device image)
  | detach {device} : Change w (.losetupDetach device) (w.detach device)
  | image {fs name} :
      Change w (.createImage fs name) (w.modify fs name fun e => { e with image := true })
  | xattr {fs name value} :
      Change w (.setXattr fs name value) (w.modify fs name fun e => value.set e)

theorem Change.refl (w : World) (c : Cmd) : Change w c w := .locks w.held w.restoring

variable {c : Cmd} {r : c.Answer}

theorem Answers.change {w w' : World} (h : Answers c w r w') : Change w c w' := by
  cases c with
  | lockDestination | lockRestore =>
    rw [h.2]
    exact .locks ..
  | unlockDestination | unlockRestore =>
    rw [show w' = _ from h]
    exact .locks ..
  | filesystem | mounted | listSubvolumes | listRecursive | losetupList | pathExists | imageExists
  | attributes =>
    rw [h.1]
    exact .refl ..
  | pathIdentity | namespaceDirectory | legacyEvidence | unixTime | other =>
    rw [show w' = w from h]
    exact .refl ..
  | subvolumeCreate =>
    rcases h with ⟨hfree, id, hid, rfl⟩ | ⟨-, rfl⟩
    · exact .create hfree hid
    · exact .refl ..
  | subvolumeSnapshot =>
    rcases h with ⟨hfree, e, he, hat, id, hid, rfl⟩ | ⟨-, rfl⟩
    · exact .snapshot hfree hid he hat
    · exact .refl ..
  | subvolumeDelete =>
    rcases h with rfl | ⟨-, rfl⟩
    · exact .remove
    · exact .refl ..
  | losetupAttach =>
    rcases h with ⟨he, device, htoken, hfresh, -, rfl⟩ | ⟨-, rfl⟩
    · exact .attach he htoken hfresh
    · exact .refl ..
  | losetupDetach =>
    rcases h.1 with rfl | ⟨-, rfl⟩
    · exact .detach
    · exact .refl ..
  | createImage =>
    rcases h with rfl | ⟨-, rfl⟩
    · exact .image
    · exact .refl ..
  | setXattr =>
    rcases h with rfl | ⟨-, rfl⟩
    · exact .xattr
    · exact .refl ..

@[simp] theorem Xattr.set_filesystem (e : Entry) (x : Xattr) :
    (x.set e).filesystem = e.filesystem := by
  cases x <;> rfl

@[simp] theorem Xattr.set_name (e : Entry) (x : Xattr) : (x.set e).name = e.name := by
  cases x <;> rfl

@[simp] theorem Xattr.set_image (e : Entry) (x : Xattr) : (x.set e).image = e.image := by
  cases x <;> rfl

/-! ## What the operations call -/

/-- The commands that leave the world as it is, the listing of children apart. -/
def Cmd.passive : Cmd → Bool
  | filesystem _ | mounted | listSubvolumes _ | losetupList | pathExists .. | imageExists ..
  | attributes .. | pathIdentity .. | namespaceDirectory .. | legacyEvidence _ | unixTime
  | other .. => true
  | _ => false

theorem Answers.passive (hc : c.passive) {w w' : World} (h : Answers c w r w') : w' = w := by
  cases c with
  | filesystem | mounted | listSubvolumes | losetupList | pathExists | imageExists | attributes =>
    exact h.1
  | pathIdentity | namespaceDirectory | legacyEvidence | unixTime | other => exact h
  | _ => nomatch hc

section Rules

variable {σ α : Type} {I : Contract Cmd Cmd.Answer σ} {s : σ}
  {Q : Except SubvolumeError α → σ → Prop}

theorem wp_run_bind {g : c.Answer → Service α} :
    (run c >>= g).wp I Q s ↔ I.pre c s ∧ ∀ r t, I.post c s r t → (g r).wp I Q t := Iff.rfl

end Rules

section Only

variable {P : Cmd → Prop} {α : Type} {device : Option Name}

theorem only_run (h : P c) : (run c).Only P := only_perform h

theorem only_checked {ε β : Type} {error : ε → SubvolumeError} {f : c.Answer → Except ε β}
    {g : β → Service α} (h : P c) (hg : ∀ b, (g b).Only P) :
    (run c >>= fun r => orFail error (f r) >>= g).Only P :=
  .bind (only_run h) fun _ => .bind (only_orFail _) hg

theorem filesystemOf_only (fs : Name) : (filesystemOf fs).Only (·.passive) :=
  .bind (only_run rfl) only_ofExcept

theorem list_only (fs : Name) (ownerFilter : Option Name) :
    (list fs ownerFilter).Only (·.passive) :=
  .bind (filesystemOf_only fs) fun _ => only_checked rfl fun _ =>
    .bind (.bind (only_run rfl) fun _ => only_pure _) fun _ => only_pure _

theorem get_only (fs name : Name) (ownerFilter : Option Name) :
    (get fs name ownerFilter).Only (·.passive) :=
  .bind (list_only fs none) fun _ => .bind (only_ofExcept _) fun _ =>
    .bind (only_ofExcept _) fun _ => only_pure _

theorem flush_only (subvolume : Subvolume) : (flush subvolume).Only (·.passive) := by
  unfold flush
  split
  · exact .bind (only_run rfl) fun _ => only_pure _
  · exact only_pure _

theorem initializeBlockFilesystem_only (device : Name) (filesystem : BlockFilesystem) :
    (initializeBlockFilesystem device filesystem).Only (·.passive) :=
  only_checked rfl fun _ => only_checked rfl fun _ => only_checked rfl fun _ =>
    .bind (only_ofExcept _) fun _ => only_checked rfl fun _ =>
      .bind (only_ofExcept _) fun _ => only_pure _

theorem createExisting_only (req : CreateSubvolumeRequest) (owner : Option Name) :
    (createExisting req owner).Only (·.passive) :=
  .bind (only_run rfl) fun _ => .bind (only_ofExcept _) fun _ => .bind (get_only ..) fun _ =>
    .bind (only_ofExcept _) fun _ =>
      .bind (only_onlyIf (only_checked rfl fun _ => only_pure _)) fun _ => only_pure _

theorem listAll_only : listAll.Only (·.passive) :=
  only_checked rfl fun _ => only_collect fun _ => list_only ..

theorem observeExisting_only (subvolume : Subvolume) :
    (observeExisting subvolume).Only (·.passive) := by
  unfold observeExisting
  split
  · exact only_pure _
  · exact .bind (.bind (.bind (only_run rfl) fun _ => only_pure _) fun _ =>
      .bind (only_run rfl) fun _ => only_pure _) fun _ => only_pure _

theorem locked_only {fs name : Name} {body : Service α} (hlock : P (.lockDestination fs name))
    (hunlock : P (.unlockDestination fs name)) (h : body.Only P) : (locked fs name body).Only P :=
  only_holding hlock hunlock h

theorem quarantineFailedCreate_only (h : ∀ d ∈ device, P (.losetupDetach d)) :
    (quarantineFailedCreate device).Only P := by
  cases device with
  | none => exact only_pure _
  | some device => exact .bind (only_run (h device rfl)) fun _ => only_pure _

theorem orQuarantine_only {ε : Type} {type : SubvolumeType} {error : ε → SubvolumeError}
    {r : Except ε α} (h : ∀ d ∈ device, P (.losetupDetach d)) :
    (orQuarantine type device error r).Only P := by
  cases r with
  | ok a => exact only_pure a
  | error e => exact .bind (only_onlyIf (quarantineFailedCreate_only h)) fun _ => only_fail _

theorem setXattr_only {fs name : Name} {value : Xattr} {error : String}
    (h : P (.setXattr fs name value)) : (setXattr fs name value error).Only P :=
  only_checked h fun _ => only_pure _

end Only

/-! ## A machine -/

def tank : Filesystem := ⟨"tank".toList, "4f7a".toList⟩

def loop0 : Name := "/dev/loop0".toList

def loop1 : Name := "/dev/loop1".toList

def printPaths (paths : List Name) : Name := paths.flatMap (· ++ " 5\n".toList)

def printLoops (loops : List (Name × Name)) : Name :=
  loops.flatMap fun l => l.1 ++ ' ' :: l.2 ++ ['\n']

/-- A machine with two loop devices, on which commands succeed. It has no answer for what the runs
below do not do. -/
def obliging : (c : Cmd) → World → Option (c.Answer × World)
  | .lockDestination fs name, w =>
    if (fs, name) ∉ w.held then some ((), { w with held := (fs, name) :: w.held }) else none
  | .unlockDestination fs name, w => some ((), { w with held := w.held.erase (fs, name) })
  | .filesystem fs, w => (w.filesystems.find? (·.name = fs)).map fun f => (.ok f, w)
  | .listSubvolumes fs, w => some (.ok (w.tree.filter (·.filesystem = fs)), w)
  | .listRecursive fs, w =>
    some (.ok (printPaths ((w.tree.filter (·.filesystem = fs)).map (·.name))), w)
  | .losetupList, w => some (.ok (printLoops w.loops), w)
  | .losetupAttach image _, w =>
    if ∃ e ∈ w.tree, e.image ∧ imagePath e.filesystem e.name = image then
      ([loop0, loop1].find? (· ∉ w.loops.map Prod.fst)).map fun device =>
        (.ok (device ++ ['\n']), w.attach device image)
    else none
  | .pathExists fs name, w => some (w.tree.any (·.At fs name), w)
  | .subvolumeCreate fs name, w =>
    if fs ∈ w.filesystems.map (·.name) ∧ ∀ e ∈ w.tree, ¬ e.At fs name then
      some (.ok [], w.add (.new fs name none))
    else none
  | .subvolumeDelete fs name, w => some (.ok [], w.remove fs name)
  | .other .., w => some (.ok [], w)
  | _, _ => none

theorem listing_printPaths (paths : List Name) : Listing paths (printPaths paths) := by
  induction paths with
  | nil => exact .nil
  | cons path paths ih =>
    have hline : printPaths (path :: paths) = path ++ ' ' :: ['5'] ++ '\n' :: printPaths paths := by
      simp [printPaths]
    rw [hline]
    exact .cons (by decide) (by decide) ih

theorem loopListing_printLoops (loops : List (Name × Name)) :
    LoopListing loops (printLoops loops) := by
  induction loops with
  | nil => exact .nil
  | cons l loops ih =>
    have hline : printLoops (l :: loops) =
        l.1 ++ ' ' :: replicate 0 ' ' ++ l.2 ++ '\n' :: printLoops loops := by
      simp [printLoops]
    rw [hline]
    exact .cons ih

theorem obliging_sound : Sound Answers (fun _ => True) obliging := by
  intro c w r t _ h
  refine ⟨?_, trivial⟩
  cases c with
  | lockDestination fs name =>
    obtain ⟨hfree, h⟩ := Option.ite_none_right_eq_some.1 h
    cases h
    exact ⟨hfree, rfl⟩
  | filesystem fs =>
    obtain ⟨f, hf, h⟩ := Option.map_eq_some_iff.1 h
    cases h
    refine ⟨rfl, ?_⟩
    rintro _ ⟨⟩
    exact ⟨mem_of_find?_eq_some hf, by simpa using find?_some hf⟩
  | listSubvolumes fs =>
    cases h
    refine ⟨rfl, ?_⟩
    rintro _ ⟨⟩
    rfl
  | listRecursive fs =>
    cases h
    refine ⟨rfl, ?_⟩
    rintro _ ⟨⟩
    exact ⟨_, .rfl, listing_printPaths _⟩
  | losetupList =>
    cases h
    refine ⟨rfl, ?_⟩
    rintro _ ⟨⟩
    exact loopListing_printLoops _
  | losetupAttach image directIo =>
    obtain ⟨himage, h⟩ := Option.ite_none_right_eq_some.1 h
    obtain ⟨device, hdevice, h⟩ := Option.map_eq_some_iff.1 h
    cases h
    have htoken : ∀ d ∈ [loop0, loop1], Text.Token d := by
      simp only [forall_mem_cons, not_mem_nil, false_imp_iff, implies_true, and_true]
      exact ⟨Text.token_of_all (by decide) (by decide), Text.token_of_all (by decide) (by decide)⟩
    exact .inl ⟨himage, device, htoken _ (mem_of_find?_eq_some hdevice),
      by simpa using find?_some hdevice, fun _ => rfl, rfl⟩
  | pathExists fs name =>
    cases h
    refine ⟨rfl, fun hnone e he hat => ?_⟩
    exact (any_eq_false.1 hnone) e he (decide_eq_true hat)
  | subvolumeCreate fs name =>
    obtain ⟨hfree, h⟩ := Option.ite_none_right_eq_some.1 h
    cases h
    exact .inl ⟨hfree, none, by simp [World.FreshId], rfl⟩
  | subvolumeDelete fs name =>
    cases h
    exact .inl rfl
  | unlockDestination | other =>
    cases h
    rfl
  | _ => cases h

end Nasty.Subvolumes
