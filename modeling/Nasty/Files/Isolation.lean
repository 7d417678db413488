import Nasty.Files.Scope

/-!
# What a scoped session learns of other filesystems

The restore request changes the disk entry by entry, so it is followed on two disks at once.

1. `…_paired`: on disks that are alike, each operation of a restore fails on both or on none, and
   leaves disks that are alike. One disk is followed as a pair with itself.
2. `Server.Inside`: nothing that a request resolves leads beside the filesystem; for a restore, item
   by item, on the disk as the items before have left it.
-/

namespace Nasty.Files

open FileTree List

/-! ## Two disks -/

/-- Both succeed with results in `S`, or both fail with failures in `F`. -/
inductive Matched {ε α : Type} (S : α → α → Prop) (F : ε → ε → Prop) :
    Except ε α → Except ε α → Prop
  | ok {a₁ a₂ : α} (h : S a₁ a₂) : Matched S F (.ok a₁) (.ok a₂)
  | error {e₁ e₂ : ε} (h : F e₁ e₂) : Matched S F (.error e₁) (.error e₂)

section Matched

variable {ε α : Type} {S S' : α → α → Prop} {F F' : ε → ε → Prop} {o₁ o₂ : Except ε α}

theorem Matched.cases (h : Matched S F o₁ o₂) :
    (∃ a₁ a₂, o₁ = .ok a₁ ∧ o₂ = .ok a₂ ∧ S a₁ a₂) ∨
      ∃ e₁ e₂, o₁ = .error e₁ ∧ o₂ = .error e₂ ∧ F e₁ e₂ := by
  cases h with
  | ok h => exact .inl ⟨_, _, rfl, rfl, h⟩
  | error h => exact .inr ⟨_, _, rfl, rfl, h⟩

theorem Matched.imp (h : Matched S F o₁ o₂) (hS : ∀ a₁ a₂, S a₁ a₂ → S' a₁ a₂)
    (hF : ∀ e₁ e₂, F e₁ e₂ → F' e₁ e₂) : Matched S' F' o₁ o₂ := by
  cases h with
  | ok h => exact .ok (hS _ _ h)
  | error h => exact .error (hF _ _ h)

end Matched

/-- `e` is `d` outside of `root`. -/
def Outside (root : Path) (d e : Disk) : Prop := ∀ q, ¬ Below root q → e.tree.node q = d.tree.node q

/-- What is left of `d` and of a disk like it: they are alike, and `d` has changed below `root`
only. -/
def Paired (root : Path) (d : Disk) : Outcome → Outcome → Prop :=
  Matched (fun e₁ e₂ => d.Step root e₁ ∧ Disk.Twins root e₁ e₂) fun e _ => Outside root d e.2

def StackBelow (root : Path) (stack : Stack) : Prop :=
  ∀ pair ∈ stack, Below root pair.1 ∧ Below root pair.2

def PairedTurn (root : Path) (d : Disk) :
    Except (String × Disk) (Disk × Stack) → Except (String × Disk) (Disk × Stack) → Prop :=
  Matched (fun a₁ a₂ => d.Step root a₁.1 ∧ Disk.Twins root a₁.1 a₂.1 ∧ a₁.2 = a₂.2 ∧
    StackBelow root a₁.2) fun e _ => Outside root d e.2

section Pairs

variable {reason₁ reason₂ what₁ what₂ : String} {root p src dst : Path} {d d₁ d₂ e : Disk}

theorem Outside.refl (root : Path) (d : Disk) : Outside root d d := fun _ _ => rfl

theorem Outside.trans (hd : d.Step root d₁) (h : Outside root d₁ e) : Outside root d e :=
  fun q hq => (h q hq).trans (hd.outside q hq)

theorem Paired.trans {o₁ o₂ : Outcome} (hd : d.Step root d₁) (h : Paired root d₁ o₁ o₂) :
    Paired root d o₁ o₂ :=
  h.imp (fun _ _ h => ⟨hd.trans h.1, h.2⟩) fun _ _ h => h.trans hd

theorem PairedTurn.trans {o₁ o₂ : Except (String × Disk) (Disk × Stack)} (hd : d.Step root d₁)
    (h : PairedTurn root d₁ o₁ o₂) : PairedTurn root d o₁ o₂ :=
  h.imp (fun _ _ h => ⟨hd.trans h.1, h.2⟩) fun _ _ h => h.trans hd

variable (h : Disk.Twins root d₁ d₂)
include h

theorem pinsParent_congr (hp : Below root p) :
    pinsParent d₁.tree p ↔ pinsParent d₂.tree p := by
  unfold pinsParent
  rw [h.alike.node _ hp.along.dropLast]

variable (hdst : Below root dst)
include hdst

theorem removeExisting_paired (reason₁ reason₂ : String) :
    Paired root d₁ (removeExisting reason₁ d₁ dst) (removeExisting reason₂ d₂ dst) := by
  unfold removeExisting
  simp only [pinsParent_congr h hdst, dif_pos hdst.ne_nil]
  split_ifs
  · exact .ok ⟨.erase hdst, h.erase hdst⟩
  · exact .error (.refl root d₁)

theorem createAt_paired {n : Node} (hd : d.Step root d₁) :
    Paired root d (createAt what₁ reason₁ d₁ dst n) (createAt what₂ reason₂ d₂ dst n) := by
  have hcongr := room_congr h.alike.node hdst.along
  unfold createAt
  by_cases hroom : d₂.tree.Room dst
  · rw [dif_pos hroom, dif_pos (hcongr.2 hroom)]
    exact .ok ⟨hd.create hdst (hcongr.2 hroom), h.create hdst (hcongr.2 hroom) hroom⟩
  · rw [dif_neg hroom, dif_neg (mt hcongr.1 hroom)]
    exact .error hd.outside

theorem copySymlink_paired {target : String} (hd : d.Step root d₁) (hsrc : Below root src) :
    Paired root d (copySymlink reason₁ d₁ src dst target)
      (copySymlink reason₂ d₂ src dst target) := by
  unfold copySymlink
  simp only [pinsParent_congr h hsrc, pinsParent_congr h hdst]
  split_ifs
  · exact createAt_paired h hdst hd
  · exact .error hd.outside

theorem copyRegularFile_paired {content : List UInt8} (hsrc : Below root src) :
    Paired root d₁ (copyRegularFile reason₁ d₁ src dst content)
      (copyRegularFile reason₂ d₂ src dst content) := by
  unfold copyRegularFile
  simp only [← h.alike.node dst hdst.along, h.alike.inode src dst hsrc hdst]
  by_cases hfile : isFile (d₁.tree.node dst) = true
  · rw [if_pos hfile, if_pos hfile]
    exact .ok ⟨.write h.left hdst hfile, h.write hdst hfile⟩
  · rw [if_neg hfile, if_neg hfile]
    exact createAt_paired h hdst (.refl root d₁)

theorem copyFile_paired (hsrc : Below root src) :
    Paired root d₁ (copyFile reason₁ d₁ src dst) (copyFile reason₂ d₂ src dst) := by
  unfold copyFile
  simp only [h.alike.node src hsrc.along, pinsParent_congr h hsrc, pinsParent_congr h hdst]
  split
  · split_ifs
    · exact copyRegularFile_paired h hdst hsrc
    · exact .error (.refl root d₁)
  · exact .error (.refl root d₁)

theorem clearForFile_paired (reason₁ reason₂ : String) :
    Paired root d₁ (clearForFile reason₁ d₁ dst) (clearForFile reason₂ d₂ dst) := by
  unfold clearForFile
  simp only [h.alike.node dst hdst.along]
  split
  · exact .ok ⟨.refl root d₁, h⟩
  · exact .ok ⟨.refl root d₁, h⟩
  · exact removeExisting_paired h hdst reason₁ reason₂

theorem restoreLeaf_paired (reason₁ reason₂ : String) (hsrc : Below root src) :
    Paired root d₁ (restoreLeaf reason₁ d₁ src dst) (restoreLeaf reason₂ d₂ src dst) := by
  unfold restoreLeaf
  simp only [h.alike.node src hsrc.along]
  split
  · rcases (removeExisting_paired h hdst reason₁ reason₂).cases with
      ⟨e₁, e₂, h₁, h₂, hstep, he⟩ | ⟨e₁, e₂, h₁, h₂, hstep⟩ <;> simp only [h₁, h₂]
    · exact copySymlink_paired he hdst hstep hsrc
    · exact .error hstep
  rcases (clearForFile_paired h hdst reason₁ reason₂).cases with
    ⟨e₁, e₂, h₁, h₂, hstep, he⟩ | ⟨e₁, e₂, h₁, h₂, hstep⟩ <;> simp only [h₁, h₂]
  · exact (copyFile_paired he hdst hsrc).trans hstep
  · exact .error hstep

theorem placeDir_paired (reason₁ reason₂ : String) :
    Paired root d₁ (placeDir reason₁ d₁ dst) (placeDir reason₂ d₂ dst) := by
  unfold placeDir
  simp only [h.alike.node dst hdst.along, pinsParent_congr h hdst]
  split_ifs
  · split
    · exact .ok ⟨.refl root d₁, h⟩
    · rcases (removeExisting_paired h hdst reason₁ reason₂).cases with
        ⟨e₁, e₂, h₁, h₂, hstep, he⟩ | ⟨e₁, e₂, h₁, h₂, hstep⟩ <;> simp only [h₁, h₂]
      · exact createAt_paired he hdst hstep
      · exact .error hstep
    · exact createAt_paired h hdst (.refl root d₁)
  · exact .error (.refl root d₁)

variable {stack : Stack}

theorem restoreEntries_paired (hsrc : Below root src) (l : List String)
    (hstack : StackBelow root stack) :
    PairedTurn root d₁ (restoreEntries reason₁ src dst l d₁ stack)
      (restoreEntries reason₂ src dst l d₂ stack) := by
  induction l generalizing d₁ d₂ stack with
  | nil => exact .ok ⟨.refl root d₁, h, rfl, hstack⟩
  | cons n l ih =>
  have hsame := h.alike.node _ (hsrc.append [n]).along
  have hleaf := (restoreLeaf_paired h (hdst.append [n]) reason₁ reason₂ (hsrc.append [n])).cases
  simp only [restoreEntries]
  rw [hsame]
  cases d₂.tree.node (src ++ [n]) with
  | none => exact .error (.refl root d₁)
  | some node =>
  cases node with
  | dir =>
    refine ih h fun pair hpair => ?_
    rcases mem_cons.1 hpair with rfl | hpair
    · exact ⟨hsrc.append [n], hdst.append [n]⟩
    · exact hstack pair hpair
  | file _ | link _ =>
  rcases hleaf with ⟨e₁, e₂, h₁, h₂, hstep, he⟩ | ⟨e₁, e₂, h₁, h₂, hstep⟩ <;>
    simp only [h₁, h₂]
  · exact (ih he hstack).trans hstep
  · exact .error hstep

theorem restoreTurn_paired (reason₁ reason₂ : String) (hsrc : Below root src)
    (hstack : StackBelow root stack) :
    PairedTurn root d₁ (restoreTurn reason₁ src dst d₁ stack)
      (restoreTurn reason₂ src dst d₂ stack) := by
  unfold restoreTurn
  rcases (placeDir_paired h hdst reason₁ reason₂).cases with
    ⟨e₁, e₂, h₁, h₂, hstep, he⟩ | ⟨e₁, e₂, h₁, h₂, hstep⟩
  · simp only [h₁, h₂, he.alike.node src hsrc.along, he.alike.names hsrc.1]
    split_ifs
    · exact (restoreEntries_paired he hdst hsrc _ hstack).trans hstep
    · exact .error hstep.outside
  · simp only [h₁, h₂]
    exact .error hstep

omit hdst in
theorem restoreLoop_paired (fuel : ℕ) (hstack : StackBelow root stack) :
    Option.Rel (Paired root d₁) (restoreLoop reason₁ fuel stack d₁)
      (restoreLoop reason₂ fuel stack d₂) := by
  -- the disk that the whole loop started on stays, the loop goes on from `d₁`
  suffices hloop : ∀ d, d.Step root d₁ → Option.Rel (Paired root d)
      (restoreLoop reason₁ fuel stack d₁) (restoreLoop reason₂ fuel stack d₂) from
    hloop d₁ (.refl root d₁)
  induction fuel generalizing d₁ d₂ stack with
  | zero =>
    intro d hd
    cases stack with
    | nil => exact .some (.ok ⟨hd, h⟩)
    | cons pair stack => exact .none
  | succ fuel ih =>
  intro d hd
  cases stack with
  | nil => exact .some (.ok ⟨hd, h⟩)
  | cons pair stack =>
  obtain ⟨src, dst⟩ := pair
  have hpair := hstack (src, dst) mem_cons_self
  rcases (restoreTurn_paired h hpair.2 reason₁ reason₂ hpair.1
    fun pair hpair => hstack pair (mem_cons_of_mem _ hpair)).cases with
    ⟨⟨e₁, stack₁⟩, ⟨e₂, _⟩, h₁, h₂, hstep, he, rfl, hleft⟩ | ⟨e₁, e₂, h₁, h₂, hstep⟩
  · simp only [restoreLoop, h₁, h₂]
    exact ih he hleft d (hd.trans hstep)
  · simp only [restoreLoop, h₁, h₂]
    exact .some (.error (hstep.trans hd))

end Pairs

/-! ## Source and destination -/

section

variable {s : Session} {filesystem item : String} {t t₁ t₂ : Tree} {src dst : Path}

theorem slash_of_scope (hs : s.Scoped filesystem)
    (h : safePathForSession t s item = .ok src) : '/' ∉ filesystem.toList := by
  have hscope : requestedPathInFilesystemScope (rootedRequest s item) filesystem = true := by
    unfold safePathForSession resolveInScope at h
    rw [hs.filesystem] at h
    by_contra hno
    simp [eq_false_of_ne_true hno] at h
  obtain ⟨qs, hparts⟩ := requestParts_of_scope hscope
  have hmem : Part.name filesystem ∈
      (Text.split '/' (clean (rootedRequest s item))).map partOf := by
    have htail := congrArg (List.drop 2) hparts
    change (Text.split '/' (clean (rootedRequest s item))).map partOf =
      .name filesystem :: qs at htail
    rw [htail]
    exact mem_cons_self
  obtain ⟨piece, hpiece, hpart⟩ := mem_map.1 hmem
  unfold partOf at hpart
  split_ifs at hpart
  have hname := Part.name.inj hpart
  rw [← hname, String.toList_ofList]
  intro hslash
  have := Text.not_sep_of_mem_splitBy hpiece '/' hslash
  simp at this

theorem below_of_restoreDest (hs : s.Scoped filesystem)
    (hsafe : safePathForSession t s item = .ok src) (h : restoreDest t s src = .ok dst) :
    Below (mountPoint filesystem) src ∧ Below (mountPoint filesystem) dst := by
  unfold restoreDest at h
  constructor
  · refine ⟨scope_of_safePath hs hsafe, ?_⟩
    rintro rfl
    have hslash := slash_of_scope hs hsafe
    have hdrop : '/' ∉ dropSlashes filesystem.toList :=
      fun hmem => hslash ((dropWhile_sublist _).subset hmem)
    have htext : relText (mountPoint filesystem) = filesystem.toList := by
      simp [relText, mountPoint, filesRoot, Text.join]
    have hderive : deriveRestoreDest (relText (mountPoint filesystem)) =
        .error "not a snapshot path (expected <filesystem>/<subvol>@<snap>/…)" := by
      rw [htext, deriveRestoreDest, Text.split_of_not_mem hdrop]
    rw [hderive] at h
    cases h
  · split at h
    · cases h
    split at h
    · cases h
    split at h
    · cases h
    next hparent =>
    split_ifs at h
    cases h
    exact below_concat (scope_of_safePath hs hparent)

/-- What is resolved for the live place of `src` keeps to the filesystem. -/
def DestInside (filesystem : String) (t : Tree) (s : Session) (src : Path) : Prop :=
  ∀ liveRel parentRel leaf, deriveRestoreDest (relText src) = .ok liveRel →
    Text.rsplitOnce '/' liveRel = some (parentRel, leaf) →
      ResolvesInside filesystem t s (String.ofList parentRel) (BlockInside filesystem t)

theorem Indistinct.restoreDest (h : Indistinct filesystem t₁ t₂) (hs : s.Scoped filesystem)
    (hin : DestInside filesystem t₁ s src) : restoreDest t₁ s src = restoreDest t₂ s src := by
  unfold Nasty.Files.restoreDest
  split
  · rfl
  next liveRel hderive =>
  split
  · rfl
  next parentRel leaf hsplit =>
  obtain ⟨htext, hblock⟩ := hin liveRel parentRel leaf hderive hsplit
  rw [← h.safePath hs htext]
  cases hparent : safePathForSession t₁ s _ with
  | error status => rfl
  | ok parent => simp only [h.block (hblock parent hparent)]

/-- So does what is resolved for an item. -/
def ItemInside (filesystem : String) (t : Tree) (s : Session) (item : String) : Prop :=
  ResolvesInside filesystem t s item fun src =>
    UnblockedInside filesystem t src (DestInside filesystem t s src)

/-- An item is resolved alike in both trees. -/
structure SamePlaces (s : Session) (item : String) (t₁ t₂ : Tree) : Prop where
  safe : safePathForSession t₁ s item = safePathForSession t₂ s item
  block : ∀ src, safePathForSession t₁ s item = .ok src →
    isInsideBlockSubvolume t₁ src = isInsideBlockSubvolume t₂ src
  dest : ∀ src, safePathForSession t₁ s item = .ok src → isInsideBlockSubvolume t₁ src = false →
    restoreDest t₁ s src = restoreDest t₂ s src

theorem Indistinct.samePlaces (h : Indistinct filesystem t₁ t₂) (hs : s.Scoped filesystem)
    (hin : ItemInside filesystem t₁ s item) : SamePlaces s item t₁ t₂ where
  safe := h.safePath hs hin.1
  block src hsafe := h.block (hin.2 src hsafe).1
  dest src hsafe hblock := h.restoreDest hs ((hin.2 src hsafe).2 hblock)

end

/-! ## All items -/

/-- I/O errors of a restore are the same on disks that are alike. -/
def SameFaults (filesystem : String) (host₁ host₂ : Host) : Prop :=
  ∀ d₁ d₂ src dst, Disk.Alike (mountPoint filesystem) d₁ d₂ →
    (host₁.fault d₁ src dst).isSome = (host₂.fault d₂ src dst).isSome

/-- They change nothing outside the filesystem. -/
def FaultsConfined (filesystem : String) (host : Host) : Prop :=
  ∀ d src dst e left, host.fault d src dst = some (e, left) →
    Below (mountPoint filesystem) dst → Confined filesystem d.tree left.tree

section Items

variable {s : Session} {filesystem : String} {host host₁ host₂ : Host} {d d₁ d₂ : Disk} {fuel : ℕ}

theorem restoreTo_paired (fuel : ℕ) {src dst : Path} (h : Disk.Twins (mountPoint filesystem) d₁ d₂)
    (hsame : (host₁.fault d₁ src dst).isSome = (host₂.fault d₂ src dst).isSome)
    (hfault : FaultsConfined filesystem host₁) (hsrc : Below (mountPoint filesystem) src)
    (hdst : Below (mountPoint filesystem) dst) :
    Option.Rel (Paired (mountPoint filesystem) d₁) (restoreTo host₁ fuel d₁ src dst)
      (restoreTo host₂ fuel d₂ src dst) := by
  unfold restoreTo
  cases hio₁ : host₁.fault d₁ src dst with
  | some failure =>
    cases hio₂ : host₂.fault d₂ src dst with
    | some failure' => exact .some (.error (hfault d₁ src dst _ _ hio₁ hdst))
    | none => rw [hio₁, hio₂] at hsame; cases hsame
  | none =>
  cases hio₂ : host₂.fault d₂ src dst with
  | some failure' => rw [hio₁, hio₂] at hsame; cases hsame
  | none =>
  simp only [h.alike.node src hsrc.along]
  split
  · exact .some (.error (.refl _ d₁))
  · refine restoreLoop_paired h fuel fun pair hpair => ?_
    obtain rfl := mem_singleton.1 hpair
    exact ⟨hsrc, hdst⟩
  · exact .some (restoreLeaf_paired h hdst host₁.reason host₂.reason hsrc)

def PairedItem (filesystem : String) (d : Disk) : Except (StatusCode × String × Disk) Disk →
    Except (StatusCode × String × Disk) Disk → Prop :=
  Matched (fun e₁ e₂ => d.Step (mountPoint filesystem) e₁ ∧
    Disk.Twins (mountPoint filesystem) e₁ e₂)
    fun e₁ e₂ => e₁.1 = e₂.1 ∧ Confined filesystem d.tree e₁.2.2.tree

theorem restoreItem_paired (fuel : ℕ) (item : String) (hs : s.Scoped filesystem)
    (h : Disk.Twins (mountPoint filesystem) d₁ d₂) (hplaces : SamePlaces s item d₁.tree d₂.tree)
    (hsame : ∀ src dst, (host₁.fault d₁ src dst).isSome = (host₂.fault d₂ src dst).isSome)
    (hfault : FaultsConfined filesystem host₁) :
    Option.Rel (PairedItem filesystem d₁) (restoreItem host₁ fuel s d₁ item)
      (restoreItem host₂ fuel s d₂ item) := by
  have hrefused : ∀ status e₁ e₂ left, PairedItem filesystem d₁ (.error (status, e₁, d₁))
      (.error (status, e₂, left)) := fun _ _ _ _ => .error ⟨rfl, confined_refl _ _⟩
  unfold restoreItem
  rw [← hplaces.safe]
  cases hsafe : safePathForSession d₁.tree s item with
  | error status => exact .some (hrefused _ _ _ _)
  | ok src =>
  simp only [← hplaces.block src hsafe]
  split_ifs with hblock
  · exact .some (hrefused _ _ _ _)
  rw [← hplaces.dest src hsafe (eq_false_of_ne_true hblock)]
  cases hdest : restoreDest d₁.tree s src with
  | error failure => exact .some (hrefused _ _ _ _)
  | ok dst =>
  obtain ⟨hsrc, hdst⟩ := below_of_restoreDest hs hsafe hdest
  have hto := restoreTo_paired fuel h (hsame src dst) hfault hsrc hdst
  simp only
  generalize restoreTo host₁ fuel d₁ src dst = o₁ at hto ⊢
  generalize restoreTo host₂ fuel d₂ src dst = o₂ at hto ⊢
  cases hto with
  | none => exact .none
  | some hpaired =>
    rcases hpaired.cases with ⟨e₁, e₂, rfl, rfl, he⟩ | ⟨e₁, e₂, rfl, rfl, he⟩
    · exact .some (.ok he)
    · exact .some (.error ⟨rfl, he⟩)

theorem restoreItems_confined (hs : s.Scoped filesystem) (ho : d.Owned (mountPoint filesystem))
    (hfault : FaultsConfined filesystem host) (items : List String) {restored : ℕ} {reply : Reply}
    (h : restoreItems host fuel s restored d items = some reply) :
    Confined filesystem d.tree reply.disk.tree := by
  induction items generalizing d restored with
  | nil =>
    cases h
    exact confined_refl _ _
  | cons item items ih =>
  have hitem := restoreItem_paired fuel item hs (.self ho) ⟨rfl, fun _ _ => rfl, fun _ _ _ => rfl⟩
    (fun _ _ => rfl) hfault
  rw [restoreItems] at h
  generalize restoreItem host fuel s d item = o at h hitem
  cases hitem with
  | none => cases h
  | some hpaired =>
  cases hpaired with
  | error hleft =>
    cases h
    exact hleft.2
  | ok hstep => exact fun q hq => (ih hstep.2.left h q hq).trans (hstep.1.outside q hq)

/-- So does what is resolved for each item, on the disk as the items before have left it. -/
def ItemsInside (filesystem : String) (host : Host) (fuel : ℕ) (s : Session) :
    Disk → List String → Prop
  | _, [] => True
  | d, item :: items => ItemInside filesystem d.tree s item ∧
    ∀ e, restoreItem host fuel s d item = some (.ok e) → ItemsInside filesystem host fuel s e items

theorem restoreItems_status (hs : s.Scoped filesystem)
    (hfault : SameFaults filesystem host₁ host₂) (hconfined : FaultsConfined filesystem host₁)
    (items : List String) {n₁ n₂ : ℕ} (h : Disk.Twins (mountPoint filesystem) d₁ d₂)
    (hin : ItemsInside filesystem host₁ fuel s d₁ items) :
    (restoreItems host₁ fuel s n₁ d₁ items).map Reply.status =
      (restoreItems host₂ fuel s n₂ d₂ items).map Reply.status := by
  induction items generalizing d₁ d₂ n₁ n₂ with
  | nil => rfl
  | cons item items ih =>
  have hitem := restoreItem_paired fuel item hs h (Indistinct.samePlaces h.alike.node hs hin.1)
    (fun src dst => hfault d₁ d₂ src dst h.alike) hconfined
  have hnext := hin.2
  rw [restoreItems, restoreItems]
  generalize restoreItem host₁ fuel s d₁ item = o₁ at hitem hnext ⊢
  generalize restoreItem host₂ fuel s d₂ item = o₂ at hitem ⊢
  cases hitem with
  | none => rfl
  | some hpaired =>
  cases hpaired with
  | error hleft => exact congrArg some hleft.1
  | ok hok => exact ih hok.2 (hnext _ rfl)

end Items

/-! ## All requests -/

/-- They agree on the filesystem, the way to it, the inventory and what the system does there. -/
structure Server.Alike (filesystem : String) (w₁ w₂ : Server) : Prop where
  disk : Disk.Alike (mountPoint filesystem) w₁.disk w₂.disk
  inventory : w₁.inventory = w₂.inventory
  opens : w₁.opens = w₂.opens
  fault : w₁.fault.map (·.1.rawOsError) = w₂.fault.map (·.1.rawOsError)
  restoreFault : SameFaults filesystem w₁.host w₂.host
  du : ∀ p, mountPoint filesystem <+: p → w₁.du p = w₂.du p

/-- Nothing that the request resolves leads beside the filesystem. -/
def Server.Inside (w : Server) (filesystem : String) (fuel : ℕ) (s : Session) : Request → Prop
  | .browse path | .size path => TextInside filesystem w.disk.tree s path
  | .delete path => DeleteInside filesystem w.machine s path
  | .rename src dst => RenameInside filesystem w.machine s src dst
  | .copy src dst => CopyInside filesystem w.machine s src dst
  | .mkdir path => MkdirInside filesystem w.machine s path
  | .restore items => ItemsInside filesystem w.host fuel s w.disk items

section Requests

variable {s : Session} {filesystem : String} {w w₁ w₂ : Server} {fuel : ℕ} {r : Request}

/-- **Nothing outside the filesystem is changed.** -/
theorem respond_confined (hs : s.Scoped filesystem) (hw : w.Sound filesystem) {status : StatusCode}
    {left : Tree} (h : respond fuel w s r = some (status, left)) :
    Confined filesystem w.disk.tree left := by
  have hfault : ∀ e left, w.machine.fault = some (e, left) →
      Confined filesystem w.machine.tree left := hw.fault
  cases r with
  | browse path | size path =>
    cases h
    exact confined_refl _ _
  | delete path =>
    cases h
    exact filesDelete_confined hs hfault
  | rename src dst =>
    cases h
    exact filesRename_confined hs hfault
  | copy src dst =>
    cases h
    exact filesCopy_confined hs hfault
  | mkdir path =>
    cases h
    exact filesMkdir_confined hs hfault
  | restore items =>
    obtain ⟨reply, hreply, heq⟩ := Option.map_eq_some_iff.1 h
    cases heq
    unfold filesRestore at hreply
    split_ifs at hreply
    · cases hreply
      exact confined_refl _ _
    · exact restoreItems_confined hs hw.owned hw.restoreFault items hreply

theorem respond_status (hs : s.Scoped filesystem) (h : w₁.Alike filesystem w₂)
    (hw₁ : w₁.Sound filesystem) (hw₂ : w₂.Sound filesystem) (hin : w₁.Inside filesystem fuel s r) :
    (respond fuel w₁ s r).map Prod.fst = (respond fuel w₂ s r).map Prod.fst := by
  have hmachine : w₁.machine.Alike filesystem w₂.machine :=
    ⟨h.disk.node, h.inventory, h.opens, h.fault⟩
  cases r with
  | browse path => exact congrArg some (filesBrowse_status hmachine hs hin)
  | size path => exact congrArg some (filesSize_status hmachine hs h.du hin)
  | delete path => exact congrArg some (filesDelete_status hmachine hs hin)
  | rename src dst => exact congrArg some (filesRename_status hmachine hs hin)
  | copy src dst => exact congrArg some (filesCopy_status hmachine hs hin)
  | mkdir path => exact congrArg some (filesMkdir_status hmachine hs hin)
  | restore items =>
  unfold respond
  rw [Option.map_map, Option.map_map]
  unfold filesRestore
  split_ifs
  · rfl
  · exact restoreItems_status hs h.restoreFault hw₁.restoreFault items
      ⟨h.disk, hw₁.owned, hw₂.owned⟩ hin

/-- **A scoped session.** It changes nothing outside its filesystem, and no answer depends on it
unless a path resolves to there. -/
theorem scope_isolates (hs : s.Scoped filesystem) (fuel : ℕ) (r : Request) :
    (∀ w, w.Sound filesystem → ∀ status left, respond fuel w s r = some (status, left) →
      Confined filesystem w.disk.tree left) ∧
    ∀ w₁ w₂, w₁.Alike filesystem w₂ → w₁.Sound filesystem → w₂.Sound filesystem →
      w₁.Inside filesystem fuel s r →
        (respond fuel w₁ s r).map Prod.fst = (respond fuel w₂ s r).map Prod.fst :=
  ⟨fun _ hw _ _ h => respond_confined hs hw h,
    fun _ _ h hw₁ hw₂ hin => respond_status hs h hw₁ hw₂ hin⟩

end Requests

def scopedEntries : List (Path × Node) :=
  [(["fs"], .dir), (["fs", "tank"], .dir), (["fs", "tank", "data"], .dir),
    (["fs", "tank", "back"], .link "../sib/door"), (["fs", "sib"], .dir)]

def door : Path := ["fs", "sib", "door"]

def serverOf (t : Tree) : Server where
  disk := ⟨t, fun _ => 0, 1, fun _ => Nat.one_pos⟩
  inventory := .ok []
  opens := true
  fault := none
  host := ⟨"", fun _ _ _ => none⟩
  du _ := .failed
  lower := id

theorem sound_serverOf {t : Tree} (h : ∀ p ∈ t.paths, isFile (t.node p) = false)
    (filesystem : String) : (serverOf t).Sound filesystem where
  owned p q _ _ hp := by
    have := h p (Disk.mem_paths_of_isFile hp)
    rw [show t.node p = (serverOf t).disk.tree.node p from rfl, hp] at this
    cases this
  fault _ _ h := by cases h
  restoreFault _ _ _ _ _ h := by cases h

theorem alike_serverOf {t₁ t₂ : Tree} (hnode : ∀ p, p ≠ door → t₁.node p = t₂.node p)
    (hpaths : t₁.paths.filter (mountPoint "tank" <+: ·) =
      t₂.paths.filter (mountPoint "tank" <+: ·)) : (serverOf t₁).Alike "tank" (serverOf t₂) where
  disk :=
    { node := fun p hp => hnode p (by rintro rfl; exact absurd hp (by decide))
      paths := hpaths
      inode := fun _ _ _ _ => Iff.rfl }
  inventory := rfl
  opens := rfl
  fault := rfl
  restoreFault _ _ _ _ _ := rfl
  du _ _ := rfl

theorem nodeOf_concat {entries : List (Path × Node)} {e : Path × Node} {p : Path} (h : p ≠ e.1) :
    nodeOf (entries ++ [e]) p = nodeOf entries p := by
  unfold nodeOf
  split_ifs
  · rfl
  · have hlast : List.lookup p [e] = none :=
      lookup_eq_none_iff.2 fun x hx => by simpa [mem_singleton.1 hx] using h
    rw [lookup_append, hlast, Option.or_none]

def tankSession : Session := ⟨none, some "tank"⟩

theorem tankSession_scoped : tankSession.Scoped "tank" := ⟨rfl, rfl⟩

def openTree : Tree := Tree.ofEntries
  (scopedEntries ++ [(door, .link "../tank/data")]) (by decide)

def shutTree : Tree := Tree.ofEntries scopedEntries (by decide)

/-- The answer to a request for a link tells whether an entry of the sibling is there. -/
theorem sibling_probed :
    (serverOf openTree).Alike "tank" (serverOf shutTree) ∧ (serverOf openTree).Sound "tank" ∧
      (serverOf shutTree).Sound "tank" ∧ tankSession.Scoped "tank" ∧
      (respond 0 (serverOf openTree) tankSession (.browse "tank/back")).map Prod.fst = some .ok ∧
      (respond 0 (serverOf shutTree) tankSession (.browse "tank/back")).map Prod.fst =
        some .forbidden :=
  ⟨alike_serverOf (fun _ hp => nodeOf_concat hp) (by decide),
    sound_serverOf (by decide) _, sound_serverOf (by decide) _, tankSession_scoped, by decide,
    by decide⟩

/-- In the same states a request that resolves no link is answered alike. -/
theorem scope_isolates_data :
    (serverOf openTree).Inside "tank" 0 tankSession (.delete "tank/data") ∧
      (respond 0 (serverOf openTree) tankSession (.delete "tank/data")).map Prod.fst =
        (respond 0 (serverOf shutTree) tankSession (.delete "tank/data")).map Prod.fst := by
  have hin : (serverOf openTree).Inside "tank" 0 tankSession (.delete "tank/data") := by
    refine fun _ => ⟨fun _ => by decide, fun target hsafe _ => ?_⟩
    have hdata : safePathForSession openTree tankSession "tank/data" =
        .ok ["fs", "tank", "data"] := by decide
    cases hdata.symm.trans hsafe
    exact .inr (by decide)
  exact ⟨hin, (scope_isolates tankSession_scoped 0 (.delete "tank/data")).2 _ _
    (alike_serverOf (fun _ hp => nodeOf_concat hp) (by decide))
    (sound_serverOf (by decide) _) (sound_serverOf (by decide) _) hin⟩

end Nasty.Files
