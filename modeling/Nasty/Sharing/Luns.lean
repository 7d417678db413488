import Nasty.Lib.Lists
import Nasty.Sharing.Portals
import Nasty.Subvolumes.Commands

/-!
# LUNs and their backstores

A LUN of an iSCSI target is a directory of the target that links to a backstore. Backstores live
in a tree of their own, under a host bus adapter (HBA) each, and are looked up there by name. The
name is made from the part of the target's name after the last colon and the number of the LUN.

1. `backstoreName_inj`: the name determines both parts.
2. While no two targets share the last part of their names, `Inv` holds and every removal finds the
   backstore that belongs to the LUN.
-/

namespace Nasty.Sharing

open Lts List Text
open Subvolumes (BlockVolumeId)

/-! ## Targets -/

inductive BackstoreType
  | block
  | fileio
  | other (text : List Char)
  deriving DecidableEq

structure Lun where
  lunId : ℕ
  backstorePath : List Char
  backstoreName : List Char
  backstoreType : BackstoreType
  sizeBytes : Option ℕ
  backingVolume : Option BlockVolumeId
  backingVolumeUnresolved : Bool
  deriving DecidableEq

structure IscsiTarget where
  id : List Char
  iqn : List Char
  luns : List Lun
  deriving DecidableEq

def validateTargetName (name : List Char) : Except IscsiError Unit := do
  .refuse (name = []) (.commandFailed "iSCSI target name is empty")
  .refuse (utf8Len name > 200) (.commandFailed "iSCSI target name exceeds 200 chars")
  .refuse (¬ name.all fun c => c.isAlphanum || c ∈ ['-', '.', ':'])
    (.commandFailed ("iSCSI target name '" ++ .ofList name ++
      "' contains invalid characters (allowed: A-Z, a-z, 0-9, '-', '.', ':'; use '-' instead of '_')"))

def isLowerLabel (label : List Char) : Bool :=
  label ≠ [] ∧ label.all fun c => c.isLower || c.isDigit || c = '-'

def isIqnDate (date : List Char) : Bool :=
  match splitOnce '-' date with
  | some (year, month) => year.length = 4 ∧ year.all Char.isDigit ∧ month.length = 2 ∧
      ((unsigned 255 month).any fun m => 1 ≤ m ∧ m ≤ 12)
  | none => false

def isIqnPrefix (text : List Char) : Bool :=
  "iqn.".toList.isPrefixOf text &&
    match splitOnce '.' (text.drop 4) with
    | some (date, domain) => isIqnDate date ∧ 2 ≤ (split '.' domain).length ∧
        (split '.' domain).all isLowerLabel
    | none => false

def normalizeIqnPrefix (value : List Char) : Except IscsiError (List Char) := do
  let text := (trim value).map Char.toLower
  .refuse (¬ isIqnPrefix text) (.commandFailed
    ("Base IQN must look like iqn.YYYY-MM.reversed.domain " ++
      "(letters, digits, '-' and '.' only)"))
  return text

def buildTargetIqn (base name : List Char) : Except IscsiError (List Char) := do
  validateTargetName name
  let iqn := (← normalizeIqnPrefix base) ++ ':' :: name.map Char.toLower
  .refuse (utf8Len iqn > 223) (.commandFailed "iSCSI target IQN exceeds 223 characters")
  return iqn

/-! ## Backstores -/

inductive HbaType
  | iblock
  | fileio
  deriving DecidableEq

def backstoreHbaType : BackstoreType → HbaType
  | .fileio => .fileio
  | .block | .other _ => .iblock

def iqnSuffix (iqn : List Char) : List Char := ((rsplitOnce ':' iqn).map Prod.snd).getD iqn

def backstoreName (iqn : List Char) (lunId : ℕ) : List Char :=
  "nasty_".toList ++ iqnSuffix iqn ++ "_lun".toList ++ Nat.toDigits 10 lunId

/-- One more than the largest number, as a `u32`. -/
def nextLunId (luns : List Lun) : ℕ :=
  match (luns.map (·.lunId)).max? with
  | some m => (m + 1) % 2 ^ 32
  | none => 0

namespace Luns

structure Backstore where
  hba : HbaType
  idx : ℕ
  name : List Char
  deriving DecidableEq

structure Link where
  iqn : List Char
  lunId : ℕ
  name : List Char
  backstore : Backstore
  deriving DecidableEq

/-- The state files, and what is in configfs: targets, HBAs with backstores, and links to these. -/
structure World where
  targets : List IscsiTarget
  iqns : List (List Char)
  hbas : List (HbaType × ℕ)
  core : List Backstore
  links : List Link
  deriving DecidableEq

def World.initial : World := ⟨[], [], [], [], []⟩

/-! ## The kernel -/

def nextHbaIndex (hba : HbaType) (w : World) : ℕ :=
  match ((w.hbas.filter (·.1 = hba)).map Prod.snd).max? with
  | some m => m + 1
  | none => 0

section Kernel

-- The order in which a directory is listed.
variable (readDir : List (HbaType × ℕ) → List (HbaType × ℕ))

def findBackstoreHba (hba : HbaType) (name : List Char) (w : World) : Option ℕ :=
  ((readDir w.hbas).find? fun h => h.1 = hba ∧ ⟨hba, h.2, name⟩ ∈ w.core).map Prod.snd

def rmdirBackstore (b : Backstore) (w : World) : World :=
  if ∃ k ∈ w.links, k.backstore = b then w else { w with core := w.core.filter (· ≠ b) }

def rmdirHba (hba : HbaType) (idx : ℕ) (w : World) : World :=
  if ∃ b ∈ w.core, b.hba = hba ∧ b.idx = idx then w
  else { w with hbas := w.hbas.filter (· ≠ (hba, idx)) }

def removeBackstore (w : World) (lun : Lun) : World :=
  match findBackstoreHba readDir (backstoreHbaType lun.backstoreType) lun.backstoreName w with
  | none => w
  | some idx => rmdirHba (backstoreHbaType lun.backstoreType) idx
      (rmdirBackstore ⟨backstoreHbaType lun.backstoreType, idx, lun.backstoreName⟩ w)

def unlinkLun (iqn : List Char) (w : World) (lun : Lun) : World :=
  { w with links := w.links.filter fun k =>
      ¬ (k.iqn = iqn ∧ k.lunId = lun.lunId ∧ k.name = lun.backstoreName) }

/-! ## The service -/

def World.load (w : World) (id : List Char) : Except IscsiError IscsiTarget :=
  match w.targets.find? (·.id = id) with
  | some target => .ok target
  | none => .error (.notFound id)

def World.save (w : World) (target : IscsiTarget) : World :=
  { w with targets := if target.id ∈ w.targets.map (·.id) then
      w.targets.map fun t => if t.id = target.id then target else t else w.targets ++ [target] }

/-- What a call finds outside: the kinds of the files, and the kernel's answer to the control
write. -/
structure Host where
  isFile : List Char → Bool
  existing : List Char → Bool
  parent : List Char → Option (List Char)
  control : Backstore → List Char → Except String Unit

structure AddLunRequest where
  targetId : List Char
  backstorePath : List Char
  backstoreType : Option BackstoreType
  sizeBytes : Option ℕ
  backingVolume : Option BlockVolumeId

def checkBackstore (host : Host) (path : List Char) : BackstoreType → Except IscsiError Unit
  | .block => .refuse (¬ host.existing path) (.backstoreNotFound path)
  | .fileio =>
    match host.parent path with
    | some parent => .refuse (¬ host.existing parent) (.backstoreNotFound parent)
    | none => .ok ()
  | .other text => .error (.commandFailed ("Unknown backstore type: " ++ .ofList text))

def linkLun (host : Host) (iqn path : List Char) (lun : Lun) (w : World) :
    Except IscsiError World := do
  let hba := backstoreHbaType lun.backstoreType
  let b : Backstore := ⟨hba, nextHbaIndex hba w, lun.backstoreName⟩
  (host.control b path).mapError .configFs
  .refuse (∃ k ∈ w.links, k.iqn = iqn ∧ k.lunId = lun.lunId)
    (.configFs "symlink: File exists")
  return { w with
    hbas := w.hbas ++ [(hba, b.idx)]
    core := w.core ++ [b]
    links := w.links ++ [⟨iqn, lun.lunId, lun.backstoreName, b⟩] }

def addLun (host : Host) (req : AddLunRequest) (w : World) : Except IscsiError World := do
  let target ← w.load req.targetId
  let type := req.backstoreType.getD (if host.isFile req.backstorePath then .fileio else .block)
  checkBackstore host req.backstorePath type
  let lunId := nextLunId target.luns
  let lun : Lun := ⟨lunId, req.backstorePath, backstoreName target.iqn lunId, type, req.sizeBytes,
    req.backingVolume, false⟩
  let w ← linkLun host target.iqn req.backstorePath lun w
  return w.save { target with luns := target.luns ++ [lun] }

def removeLun (targetId : List Char) (lunId : ℕ) (w : World) : Except IscsiError World := do
  let target ← w.load targetId
  match target.luns.find? (·.lunId = lunId) with
  | none => .error (.notFound ("LUN ".toList ++ Nat.toDigits 10 lunId ++ " not found".toList))
  | some lun =>
    let w := removeBackstore readDir (unlinkLun target.iqn w lun) lun
    .ok (w.save { target with luns := target.luns.eraseP (·.lunId = lunId) })

def rmdirTarget (iqn : List Char) (w : World) : World :=
  if ∃ k ∈ w.links, k.iqn = iqn then w else { w with iqns := w.iqns.filter (· ≠ iqn) }

def delete (targetId : List Char) (w : World) : Except IscsiError World := do
  let target ← w.load targetId
  let w := rmdirTarget target.iqn (target.luns.foldl (unlinkLun target.iqn) w)
  let w := target.luns.foldl (removeBackstore readDir) w
  return { w with targets := w.targets.filter (·.id ≠ targetId) }

structure CreateTargetRequest where
  name : List Char
  devicePath : Option (List Char)
  backingVolume : Option BlockVolumeId

/-- A target of the same name is returned as it is. A new one gets a LUN if a device is given. -/
def create (host : Host) (base id : List Char) (req : CreateTargetRequest) (w : World) :
    Except IscsiError World := do
  let iqn ← buildTargetIqn base req.name
  if ∃ t ∈ w.targets, t.iqn.map Char.toLower = iqn.map Char.toLower then return w
  .refuse (iqn ∈ w.iqns) (.configFs ("mkdir " ++ .ofList iqn ++ ": File exists"))
  let w := { w with iqns := w.iqns ++ [iqn] }.save ⟨id, iqn, []⟩
  match req.devicePath with
  | none => return w
  | some path => addLun host ⟨id, path, some .block, none, req.backingVolume⟩ w

end Kernel

/-! ## Runs -/

inductive Op
  | create (host : Host) (base id : List Char) (req : CreateTargetRequest)
  | addLun (host : Host) (req : AddLunRequest)
  | removeLun (targetId : List Char) (lunId : ℕ)
  | delete (targetId : List Char)

def Op.apply (readDir : List (HbaType × ℕ) → List (HbaType × ℕ)) :
    Op → World → Except IscsiError World
  | .create host base id req => Luns.create host base id req
  | .addLun host req => Luns.addLun host req
  | .removeLun id lunId => Luns.removeLun readDir id lunId
  | .delete id => Luns.delete readDir id

def Step (readDir : List (HbaType × ℕ) → List (HbaType × ℕ)) (w : World) (op : Op) (w' : World) :
    Prop :=
  op.apply readDir w = .ok w' ∧
    match op with
    | .create _ _ id _ => id ∉ w.targets.map (·.id)
    | _ => True

/-! ## Names -/

theorem iqnSuffix_plain {base name iqn : List Char} (h : buildTargetIqn base name = .ok iqn) :
    '_' ∉ iqnSuffix iqn := by
  obtain ⟨⟨⟩, hname, h⟩ := Except.bind_eq_ok.1 h
  obtain ⟨start, h⟩ := Except.rest_ok h
  obtain ⟨⟨⟩, h⟩ := Except.rest_ok h
  cases h
  obtain ⟨-, -, hchars⟩ := Except.seq_eq_ok.1 hname |>.imp_right Except.seq_eq_ok.1
  rw [Except.refuse_eq_ok, not_not] at hchars
  intro hmem
  have hsome : rsplitOnce ':' (start ++ ':' :: name.map Char.toLower) ≠ none := by
    rw [Ne, rsplitOnce_eq_none]
    simp
  obtain ⟨⟨us, vs⟩, hsplit⟩ := Option.ne_none_iff_exists'.1 hsome
  rw [iqnSuffix, hsplit] at hmem
  obtain ⟨c, hc, hlower⟩ := mem_map.1 (mem_of_rsplitOnce hsplit hmem)
  have hallowed := all_eq_true.1 hchars c hc
  rw [eq_of_toLower hlower (by decide)] at hallowed
  exact absurd hallowed (by decide)

theorem backstoreName_inj {iqn iqn' : List Char} {m n : ℕ} (hplain : '_' ∉ iqnSuffix iqn)
    (hplain' : '_' ∉ iqnSuffix iqn') (h : backstoreName iqn m = backstoreName iqn' n) :
    iqnSuffix iqn = iqnSuffix iqn' ∧ m = n := by
  unfold backstoreName at h
  -- The literals are not to be evaluated.
  simp only [append_assoc, append_cancel_left_eq] at h
  obtain ⟨hsuffix, hrest⟩ := append_sep_inj hplain hplain' h
  exact ⟨hsuffix, toDigits_inj (by omega) (by omega) (append_cancel_left hrest)⟩

/-! ## The invariant -/

def Backstore.key (b : Backstore) : HbaType × List Char := (b.hba, b.name)

def key (l : Lun) : HbaType × List Char := (backstoreHbaType l.backstoreType, l.backstoreName)

def keys (t : IscsiTarget) : List (HbaType × List Char) := t.luns.map key

def World.live (w : World) : List (HbaType × List Char) := w.core.map Backstore.key

def World.stored (w : World) : List (HbaType × List Char) := w.targets.flatMap keys

structure Tidy (targets : List IscsiTarget) : Prop where
  ids : (targets.map (·.id)).Nodup
  suffixes : (targets.map (iqnSuffix ·.iqn)).Nodup
  plain : ∀ t ∈ targets, '_' ∉ iqnSuffix t.iqn
  lunIds : ∀ t ∈ targets, (t.luns.map (·.lunId)).Nodup
  named : ∀ t ∈ targets, ∀ l ∈ t.luns, l.backstoreName = backstoreName t.iqn l.lunId

def Link.Belongs (targets : List IscsiTarget) (k : Link) : Prop :=
  ∃ t ∈ targets, ∃ l ∈ t.luns, k.iqn = t.iqn ∧ k.lunId = l.lunId ∧ k.name = l.backstoreName ∧
    k.backstore.name = l.backstoreName

structure Inv (w : World) : Prop where
  tidy : Tidy w.targets
  live : w.live.Perm w.stored
  hbas : ∀ b ∈ w.core, (b.hba, b.idx) ∈ w.hbas
  links : ∀ k ∈ w.links, k.Belongs w.targets

section Invariant

variable {w : World} {targets targets' : List IscsiTarget} {l : Lun} {k : Link}

theorem Tidy.perm (h : Tidy targets) (hperm : targets.Perm targets') : Tidy targets' where
  ids := (hperm.map _).nodup_iff.1 h.ids
  suffixes := (hperm.map _).nodup_iff.1 h.suffixes
  plain t ht := h.plain t (hperm.mem_iff.2 ht)
  lunIds t ht := h.lunIds t (hperm.mem_iff.2 ht)
  named t ht := h.named t (hperm.mem_iff.2 ht)

theorem Tidy.sublist (h : Tidy targets) (hsub : targets'.Sublist targets) : Tidy targets' where
  ids := h.ids.sublist (hsub.map _)
  suffixes := h.suffixes.sublist (hsub.map _)
  plain t ht := h.plain t (hsub.subset ht)
  lunIds t ht := h.lunIds t (hsub.subset ht)
  named t ht := h.named t (hsub.subset ht)

theorem Link.Belongs.subset (h : k.Belongs targets) (hsub : targets ⊆ targets') :
    k.Belongs targets' := by
  obtain ⟨t, ht, hk⟩ := h
  exact ⟨t, hsub ht, hk⟩

/-- **Names are unique.** LUNs with backstores of one name are one LUN. -/
theorem Tidy.eq_of_name (h : Tidy targets) {t t' : IscsiTarget} {l' : Lun} (ht : t ∈ targets)
    (ht' : t' ∈ targets) (hl : l ∈ t.luns) (hl' : l' ∈ t'.luns)
    (hname : l.backstoreName = l'.backstoreName) : t = t' ∧ l = l' := by
  rw [h.named t ht l hl, h.named t' ht' l' hl'] at hname
  obtain ⟨hsuffix, hid⟩ := backstoreName_inj (h.plain t ht) (h.plain t' ht') hname
  obtain rfl : t = t' := inj_on_of_nodup_map h.suffixes ht ht' hsuffix
  exact ⟨rfl, inj_on_of_nodup_map (h.lunIds t ht) hl hl' hid⟩

theorem Tidy.nodup_keys (h : Tidy targets) : (targets.flatMap keys).Nodup := by
  refine nodup_flatMap.2 ⟨fun t ht => ?_, ?_⟩
  · refine List.Nodup.map_on (fun l hl l' hl' heq => ?_) (List.Nodup.of_map _ (h.lunIds t ht))
    exact (h.eq_of_name ht ht hl hl' (Prod.mk.inj heq).2).2
  refine List.Pairwise.imp_of_mem (fun {t t'} ht ht' hne => ?_)
    (List.Nodup.of_map _ h.ids)
  intro k hk hk'
  obtain ⟨l, hl, rfl⟩ := mem_map.1 hk
  obtain ⟨l', hl', heq⟩ := mem_map.1 hk'
  exact hne (h.eq_of_name ht ht' hl hl' (Prod.mk.inj heq).2.symm).1

theorem Inv.nodup_live (h : Inv w) : w.live.Nodup := h.live.nodup_iff.2 h.tidy.nodup_keys

end Invariant

/-! ## Removal of backstores -/

section

variable {readDir : List (HbaType × ℕ) → List (HbaType × ℕ)} {w : World}
  (hread : ∀ hbas, (readDir hbas).Perm hbas)

structure Removed (w : World) (gone : List (HbaType × List Char)) (w' : World) : Prop where
  targets : w'.targets = w.targets
  links : w'.links = w.links
  core : w'.core = w.core.filter (·.key ∉ gone)
  hbas : ∀ b ∈ w'.core, (b.hba, b.idx) ∈ w'.hbas

theorem Removed.live {gone : List (HbaType × List Char)} {w' : World} (h : Removed w gone w') :
    w'.live = w.live.filter (· ∉ gone) := by
  rw [World.live, h.core, World.live, filter_map]
  rfl

include hread

theorem removeBackstore_spec {lun : Lun} (hnodup : w.live.Nodup)
    (hhbas : ∀ b ∈ w.core, (b.hba, b.idx) ∈ w.hbas) (hlive : key lun ∈ w.live)
    (hlinks : ∀ k ∈ w.links, k.backstore.name ≠ lun.backstoreName) :
    Removed w [key lun] (removeBackstore readDir w lun) := by
  obtain ⟨b, hb, hkey⟩ := mem_map.1 hlive
  obtain ⟨hhba, hname⟩ := Prod.mk.inj hkey
  have hsome : ((readDir w.hbas).find? fun h => h.1 = backstoreHbaType lun.backstoreType ∧
      ⟨backstoreHbaType lun.backstoreType, h.2, lun.backstoreName⟩ ∈ w.core) ≠ none := by
    refine fun hnone => find?_eq_none.1 hnone (b.hba, b.idx)
      ((hread _).mem_iff.2 (hhbas b hb)) (decide_eq_true ⟨hhba, ?_⟩)
    rw [← hhba, ← hname]
    exact hb
  obtain ⟨⟨hba, idx⟩, hfind⟩ := Option.ne_none_iff_exists'.1 hsome
  have hfound := find?_some hfind
  obtain ⟨-, hmem⟩ := of_decide_eq_true hfound
  have hcore : w.core.filter (· ≠ ⟨backstoreHbaType lun.backstoreType, idx, lun.backstoreName⟩) =
      w.core.filter (·.key ∉ [key lun]) := by
    refine filter_congr fun c hc => decide_eq_decide.2 (not_congr ?_)
    rw [mem_singleton]
    exact ⟨fun h => h ▸ rfl, fun h => inj_on_of_nodup_map hnodup hc hmem h⟩
  rw [removeBackstore, findBackstoreHba, hfind]
  simp only [Option.map_some]
  rw [rmdirBackstore, if_neg fun ⟨k, hk, heq⟩ => hlinks k hk (heq ▸ rfl), hcore]
  unfold rmdirHba
  split_ifs with hempty
  · exact ⟨rfl, rfl, rfl, fun c hc => hhbas c (mem_filter.1 hc).1⟩
  · refine ⟨rfl, rfl, rfl, fun c hc => mem_filter.2 ⟨hhbas c (mem_filter.1 hc).1, ?_⟩⟩
    refine decide_eq_true fun heq => hempty ⟨c, hc, ?_⟩
    exact ⟨(Prod.mk.inj heq).1, (Prod.mk.inj heq).2⟩

theorem removeBackstores_spec {luns : List Lun} (hnodup : w.live.Nodup)
    (hhbas : ∀ b ∈ w.core, (b.hba, b.idx) ∈ w.hbas) (hlive : ∀ l ∈ luns, key l ∈ w.live)
    (hluns : (luns.map key).Nodup)
    (hlinks : ∀ l ∈ luns, ∀ k ∈ w.links, k.backstore.name ≠ l.backstoreName) :
    Removed w (luns.map key) (luns.foldl (removeBackstore readDir) w) := by
  induction luns generalizing w with
  | nil => exact ⟨rfl, rfl, by simp, hhbas⟩
  | cons l luns ih =>
  obtain ⟨hl, hluns⟩ := nodup_cons.1 hluns
  have hfirst := removeBackstore_spec hread hnodup hhbas (hlive l mem_cons_self)
    (hlinks l mem_cons_self)
  have hlive' := hfirst.live
  have hliveRest : ∀ l' ∈ luns, key l' ∈ (removeBackstore readDir w l).live := by
    intro l' hl'
    rw [hlive', mem_filter]
    refine ⟨hlive l' (mem_cons_of_mem _ hl'), ?_⟩
    simpa using fun h : key l' = key l => hl (h ▸ mem_map_of_mem hl')
  have hlinksRest : ∀ l' ∈ luns, ∀ k ∈ (removeBackstore readDir w l).links,
      k.backstore.name ≠ l'.backstoreName := by
    rw [hfirst.links]
    exact fun l' hl' => hlinks l' (mem_cons_of_mem _ hl')
  have hrest := ih (hlive' ▸ hnodup.filter _) hfirst.hbas hliveRest hluns hlinksRest
  refine ⟨hrest.targets.trans hfirst.targets, hrest.links.trans hfirst.links, ?_, hrest.hbas⟩
  rw [foldl_cons, hrest.core, hfirst.core]
  simp [Bool.and_comm]

end

/-! ## Steps -/

section

variable {readDir : List (HbaType × ℕ) → List (HbaType × ℕ)} {w w' v : World} {t t' : IscsiTarget}

theorem load_eq_ok {id : List Char} (h : w.load id = .ok t) : t ∈ w.targets ∧ t.id = id := by
  unfold World.load at h
  split at h
  · next hfind =>
    cases h
    have hid := find?_some hfind
    exact ⟨mem_of_find?_eq_some hfind, of_decide_eq_true hid⟩
  · cases h

def rest (w : World) (id : List Char) : List IscsiTarget := w.targets.filter (·.id ≠ id)

theorem perm_rest (h : Inv w) (ht : t ∈ w.targets) : w.targets.Perm (t :: rest w t.id) :=
  perm_cons_filter_ne h.tidy.ids ht

theorem save_perm (h : Inv w) (ht : t ∈ w.targets) (hid : t'.id = t.id) :
    (w.save t').targets.Perm (t' :: rest w t.id) := by
  rw [World.save, if_pos (hid ▸ mem_map_of_mem ht)]
  refine ((perm_rest h ht).map _).trans ?_
  rw [map_cons, if_pos hid.symm, map_congr_left (g := id), map_id]
  intro u hu
  have hne : u.id ≠ t.id := by simpa using (mem_filter.1 hu).2
  exact if_neg (hid ▸ hne)

theorem stored_perm (h : Inv w) (ht : t ∈ w.targets) :
    w.live.Perm (keys t ++ (rest w t.id).flatMap keys) :=
  h.live.trans ((perm_rest h ht).flatMap_right keys)

theorem live_filter_perm {gone kept : List (HbaType × List Char)} (hnodup : w.live.Nodup)
    (h : w.live.Perm (gone ++ kept)) : (w.live.filter (· ∉ gone)).Perm kept := by
  refine (h.filter _).trans ?_
  have hdisjoint := disjoint_of_nodup_append (h.nodup_iff.1 hnodup)
  rw [filter_append, filter_eq_nil_iff.2 fun k hk => by simpa using hk,
    filter_eq_self.2 fun k hk => by simpa using fun hgone => hdisjoint hgone hk]
  exact .refl _

theorem Tidy.replace (h : Tidy w.targets) (hperm : w.targets.Perm (t :: rest w t.id))
    (hid : t'.id = t.id) (hiqn : t'.iqn = t.iqn) (hluns : (t'.luns.map (·.lunId)).Nodup)
    (hnamed : ∀ l ∈ t'.luns, l.backstoreName = backstoreName t.iqn l.lunId) :
    Tidy (t' :: rest w t.id) := by
  obtain ⟨hids, hsuffixes, hplain, hlunIds, hnames⟩ := h.perm hperm
  rw [forall_mem_cons] at hplain hlunIds hnames
  refine ⟨?_, ?_, ?_, ?_, ?_⟩
  · rwa [map_cons, hid]
  · rwa [map_cons, hiqn]
  · exact forall_mem_cons.2 ⟨hiqn ▸ hplain.1, hplain.2⟩
  · exact forall_mem_cons.2 ⟨hluns, hlunIds.2⟩
  · exact forall_mem_cons.2 ⟨hiqn ▸ hnamed, hnames.2⟩

theorem mem_unlinkLun {iqn : List Char} : k ∈ (unlinkLun iqn w l).links ↔ k ∈ w.links ∧
      ¬ (k.iqn = iqn ∧ k.lunId = l.lunId ∧ k.name = l.backstoreName) :=
  mem_filter.trans (and_congr_right fun _ => decide_eq_true_iff)

theorem unlinked (h : Inv w) (ht : t ∈ w.targets) (hl : l ∈ t.luns) (hk : k ∈ w.links)
    (hgone : ¬ (k.iqn = t.iqn ∧ k.lunId = l.lunId ∧ k.name = l.backstoreName)) :
    k.backstore.name ≠ l.backstoreName := by
  intro hname
  obtain ⟨t', ht', l', hl', hiqn, hid, hkname, hbname⟩ := h.links k hk
  obtain ⟨rfl, rfl⟩ := h.tidy.eq_of_name ht' ht hl' hl (hbname.symm.trans hname)
  exact hgone ⟨hiqn, hid, hkname⟩

theorem eraseP_perm {luns : List Lun} (hnodup : (luns.map (·.lunId)).Nodup) (hl : l ∈ luns) :
    luns.Perm (l :: luns.eraseP (·.lunId = l.lunId)) := by
  obtain ⟨l', l₁, l₂, -, hid, heq, herase⟩ := exists_of_eraseP (p := (·.lunId = l.lunId)) hl
    (decide_eq_true rfl)
  have hl' : l' ∈ luns := heq ▸ by simp
  obtain rfl := inj_on_of_nodup_map hnodup hl' hl (of_decide_eq_true hid)
  rw [herase]
  exact heq ▸ perm_middle

theorem Inv.replace (h : Inv w) (ht : t ∈ w.targets) (hv : v.targets = w.targets)
    (htidy : Tidy (t' :: rest w t.id)) (hid : t'.id = t.id)
    (hlive : v.live.Perm (keys t' ++ (rest w t.id).flatMap keys))
    (hhbas : ∀ b ∈ v.core, (b.hba, b.idx) ∈ v.hbas)
    (hlinks : ∀ k ∈ v.links, k.Belongs (t' :: rest w t.id)) : Inv (v.save t') := by
  have hperm : (v.save t').targets.Perm (t' :: rest w t.id) := by
    rw [show (v.save t').targets = (w.save t').targets by simp [World.save, hv]]
    exact save_perm h ht hid
  refine ⟨htidy.perm hperm.symm, ?_, hhbas, fun k hk => (hlinks k hk).subset hperm.symm.subset⟩
  exact hlive.trans (hperm.flatMap_right keys).symm

variable (hread : ∀ hbas, (readDir hbas).Perm hbas)

include hread

theorem removeLun_spec {id : List Char} {lunId : ℕ} (h : Inv w)
    (hcall : removeLun readDir id lunId w = .ok w') :
    Inv w' ∧ ∃ t ∈ w.targets, t.id = id ∧ ∃ l ∈ t.luns, l.lunId = lunId ∧
      w'.core = w.core.filter (·.key ∉ [key l]) := by
  obtain ⟨t, hload, hresult⟩ := Except.bind_eq_ok.1 hcall
  obtain ⟨ht, rfl⟩ := load_eq_ok hload
  split at hresult
  · cases hresult
  next l hfind =>
  have hl := mem_of_find?_eq_some hfind
  have hlid := find?_some hfind
  obtain rfl : l.lunId = lunId := of_decide_eq_true hlid
  cases hresult
  have hkeys : key l ∈ w.live := h.live.mem_iff.2
    (mem_flatMap.2 ⟨t, ht, mem_map_of_mem hl⟩)
  have hremoved := removeBackstore_spec (w := unlinkLun t.iqn w l) hread h.nodup_live h.hbas hkeys
    fun k hk => unlinked h ht hl (mem_unlinkLun.1 hk).1 (mem_unlinkLun.1 hk).2
  have herase := eraseP_perm (h.tidy.lunIds t ht) hl
  refine ⟨?_, t, ht, rfl, l, hl, rfl, hremoved.core⟩
  refine h.replace ht hremoved.targets ?_ rfl ?_ hremoved.hbas fun k hk => ?_
  · refine h.tidy.replace (perm_rest h ht) rfl rfl ?_ fun l' hl' =>
      h.tidy.named t ht l' (mem_of_mem_eraseP hl')
    exact (h.tidy.lunIds t ht).sublist (eraseP_sublist.map _)
  · rw [hremoved.live]
    refine live_filter_perm h.nodup_live ((stored_perm h ht).trans ?_)
    exact (herase.map key).append_right _
  rw [hremoved.links] at hk
  obtain ⟨hk, hother⟩ := mem_unlinkLun.1 hk
  obtain ⟨u, hu, l', hl', hiqn, hid, hkname, hbname⟩ := h.links k hk
  rcases mem_cons.1 ((perm_rest h ht).subset hu) with rfl | hu
  · refine ⟨_, mem_cons_self, l', ?_, hiqn, hid, hkname, hbname⟩
    rcases mem_cons.1 (herase.subset hl') with rfl | hl'
    · exact absurd ⟨hiqn, hid, hkname⟩ hother
    · exact hl'
  · exact ⟨u, mem_cons_of_mem _ hu, l', hl', hiqn, hid, hkname, hbname⟩

omit hread in
theorem unlinkLuns_eq (iqn : List Char) (luns : List Lun) : luns.foldl (unlinkLun iqn) w =
    { w with links := w.links.filter fun k => ∀ l ∈ luns,
        ¬ (k.iqn = iqn ∧ k.lunId = l.lunId ∧ k.name = l.backstoreName) } := by
  induction luns generalizing w with
  | nil => simp
  | cons l luns ih =>
  rw [foldl_cons, ih, unlinkLun]
  simp only [filter_filter]
  congr 1
  refine filter_congr fun k _ => ?_
  rw [← Bool.decide_and]
  refine decide_eq_decide.2 ?_
  rw [forall_mem_cons, and_comm]

omit hread in
theorem detached (t : IscsiTarget) (hv : v = rmdirTarget t.iqn (t.luns.foldl (unlinkLun t.iqn) w)) :
    v.targets = w.targets ∧ v.core = w.core ∧ v.hbas = w.hbas ∧ ∀ k ∈ v.links, k ∈ w.links ∧
      ∀ l ∈ t.luns, ¬ (k.iqn = t.iqn ∧ k.lunId = l.lunId ∧ k.name = l.backstoreName) := by
  rw [unlinkLuns_eq, rmdirTarget] at hv
  have hlinks {k : Link} (hk : k ∈ w.links.filter fun k => ∀ l ∈ t.luns,
      ¬ (k.iqn = t.iqn ∧ k.lunId = l.lunId ∧ k.name = l.backstoreName)) :=
    (mem_filter.1 hk).imp_right of_decide_eq_true
  split_ifs at hv <;> subst hv <;> exact ⟨rfl, rfl, rfl, fun k => hlinks⟩

theorem delete_spec {id : List Char} (h : Inv w) (hcall : delete readDir id w = .ok w') :
    Inv w' ∧ ∃ t ∈ w.targets, t.id = id ∧ w'.core = w.core.filter (·.key ∉ keys t) := by
  obtain ⟨t, hload, hresult⟩ := Except.bind_eq_ok.1 hcall
  obtain ⟨ht, rfl⟩ := load_eq_ok hload
  obtain ⟨v, hv⟩ : ∃ v, v = rmdirTarget t.iqn (t.luns.foldl (unlinkLun t.iqn) w) := ⟨_, rfl⟩
  obtain ⟨htargets, hcore, hhbas, hlinks⟩ := detached t hv
  rw [← hv] at hresult
  cases hresult
  have hlive : v.live = w.live := congrArg (List.map Backstore.key) hcore
  have hmem (l : Lun) (hl : l ∈ t.luns) : key l ∈ v.live :=
    hlive ▸ h.live.mem_iff.2 (mem_flatMap.2 ⟨t, ht, mem_map_of_mem hl⟩)
  have hkeys : (keys t).Nodup := (nodup_flatMap.1 h.tidy.nodup_keys).1 t ht
  have hremoved := removeBackstores_spec hread (hlive ▸ h.nodup_live)
    (by rw [hcore, hhbas]; exact h.hbas) hmem hkeys fun l hl k hk =>
      unlinked h ht hl (hlinks k hk).1 ((hlinks k hk).2 l hl)
  have hrest : (t.luns.foldl (removeBackstore readDir) v).targets.filter (·.id ≠ t.id) =
      rest w t.id := by
    rw [hremoved.targets, htargets]
    rfl
  refine ⟨⟨?_, ?_, hremoved.hbas, fun k hk => ?_⟩, t, ht, rfl, hcore ▸ hremoved.core⟩
  · exact hrest ▸ h.tidy.sublist filter_sublist
  · rw [hrest]
    refine List.Perm.trans (.of_eq hremoved.live) ?_
    rw [hlive]
    exact live_filter_perm h.nodup_live (stored_perm h ht)
  obtain ⟨hk, hother⟩ := hlinks k (hremoved.links ▸ hk)
  obtain ⟨u, hu, l, hl, hiqn, hid, hkname, hbname⟩ := h.links k hk
  refine hrest ▸ ⟨u, ?_, l, hl, hiqn, hid, hkname, hbname⟩
  rcases mem_cons.1 ((perm_rest h ht).subset hu) with rfl | hu
  · exact absurd ⟨hiqn, hid, hkname⟩ (hother l hl)
  · exact hu

end

/-! ## Additions -/

section

variable {w w' : World} {host : Host}

theorem nextLunId_fresh {luns : List Lun} (hsmall : ∀ l ∈ luns, l.lunId + 1 < 2 ^ 32) :
    nextLunId luns ∉ luns.map (·.lunId) := by
  intro hmem
  unfold nextLunId at hmem
  split at hmem
  · next m hmax =>
    obtain ⟨hm, hle⟩ := max?_eq_some_iff.1 hmax
    obtain ⟨l, hl, rfl⟩ := mem_map.1 hm
    rw [Nat.mod_eq_of_lt (hsmall l hl)] at hmem
    exact absurd (hle _ hmem) (by omega)
  · next hmax =>
    rw [max?_eq_none_iff.1 hmax] at hmem
    cases hmem

theorem linkLun_eq_ok {iqn path : List Char} {lun : Lun} (h : linkLun host iqn path lun w = .ok w') :
    ∃ b : Backstore, b.key = key lun ∧ w' = { w with
      hbas := w.hbas ++ [(b.hba, b.idx)]
      core := w.core ++ [b]
      links := w.links ++ [⟨iqn, lun.lunId, lun.backstoreName, b⟩] } := by
  obtain ⟨⟨⟩, h⟩ := Except.rest_ok h
  obtain ⟨⟨⟩, h⟩ := Except.rest_ok h
  cases h
  exact ⟨⟨_, _, _⟩, rfl, rfl⟩

theorem addLun_spec {req : AddLunRequest} (h : Inv w)
    (hsmall : ∀ t ∈ w.targets, t.id = req.targetId → ∀ l ∈ t.luns, l.lunId + 1 < 2 ^ 32)
    (hcall : addLun host req w = .ok w') : Inv w' := by
  obtain ⟨t, hload, hcall⟩ := Except.bind_eq_ok.1 hcall
  obtain ⟨ht, hid⟩ := load_eq_ok hload
  obtain ⟨⟨⟩, hcall⟩ := Except.rest_ok hcall
  obtain ⟨v, hlink, hcall⟩ := Except.bind_eq_ok.1 hcall
  cases hcall
  obtain ⟨b, hkey, rfl⟩ := linkLun_eq_ok hlink
  obtain ⟨hhba, hname⟩ := Prod.mk.inj hkey
  have hfresh : nextLunId t.luns ∉ t.luns.map (·.lunId) := nextLunId_fresh (hsmall t ht hid)
  refine h.replace ht rfl ?_ rfl ?_ ?_ ?_
  · refine h.tidy.replace (perm_rest h ht) rfl rfl ?_ ?_
    · rw [map_append]
      exact List.Pairwise.concat (h.tidy.lunIds t ht) fun m hm heq =>
        hfresh ((show m = nextLunId t.luns from heq) ▸ hm)
    · exact forall_mem_append.2 ⟨h.tidy.named t ht, forall_mem_singleton.2 rfl⟩
  · rw [World.live, keys, map_append, map_append, map_singleton, hkey, append_assoc]
    refine ((stored_perm h ht).append_right _).trans ?_
    rw [append_assoc]
    exact perm_append_comm.append_left _
  · refine forall_mem_append.2 ⟨fun c hc => mem_append_left _ (h.hbas c hc), ?_⟩
    exact forall_mem_singleton.2 (mem_append_right _ mem_cons_self)
  refine forall_mem_append.2 ⟨fun k hk => ?_, forall_mem_singleton.2 ?_⟩
  · obtain ⟨u, hu, l, hl, hk⟩ := h.links k hk
    rcases mem_cons.1 ((perm_rest h ht).subset hu) with rfl | hu
    · exact ⟨_, mem_cons_self, l, mem_append_left _ hl, hk⟩
    · exact ⟨u, mem_cons_of_mem _ hu, l, hl, hk⟩
  · exact ⟨_, mem_cons_self, _, mem_append_right _ mem_cons_self, rfl, rfl, rfl, hname⟩

theorem Inv.addTarget {id iqn : List Char} {iqns : List (List Char)} (h : Inv w)
    (hid : id ∉ w.targets.map (·.id)) (hplain : '_' ∉ iqnSuffix iqn)
    (hsuffix : ∀ t ∈ w.targets, iqnSuffix t.iqn ≠ iqnSuffix iqn) :
    Inv ({ w with iqns := iqns }.save ⟨id, iqn, []⟩) := by
  rw [World.save, if_neg hid]
  refine ⟨⟨?_, ?_, ?_, ?_, ?_⟩, ?_, h.hbas, fun k hk =>
    (h.links k hk).subset (subset_append_left _ _)⟩
  · rw [map_append]
    exact List.Pairwise.concat h.tidy.ids fun m hm heq => hid ((show m = id from heq) ▸ hm)
  · rw [map_append]
    refine List.Pairwise.concat h.tidy.suffixes fun m hm heq => ?_
    obtain ⟨t, ht, rfl⟩ := mem_map.1 hm
    exact hsuffix t ht heq
  · exact forall_mem_append.2 ⟨h.tidy.plain, forall_mem_singleton.2 hplain⟩
  · exact forall_mem_append.2 ⟨h.tidy.lunIds, forall_mem_singleton.2 nodup_nil⟩
  · exact forall_mem_append.2 ⟨h.tidy.named, forall_mem_singleton.2 nofun⟩
  have hstored : (w.targets ++ [(⟨id, iqn, []⟩ : IscsiTarget)]).flatMap keys = w.stored := by
    simp [World.stored, keys]
  rw [World.stored, hstored]
  exact h.live

theorem create_spec {base id : List Char} {req : CreateTargetRequest} (h : Inv w)
    (hid : id ∉ w.targets.map (·.id))
    (hsuffix : ∀ iqn, buildTargetIqn base req.name = .ok iqn → ∀ t ∈ w.targets,
      iqnSuffix t.iqn = iqnSuffix iqn → t.iqn = iqn)
    (hcall : create host base id req w = .ok w') : Inv w' := by
  obtain ⟨iqn, hiqn, hcall⟩ := Except.bind_eq_ok.1 hcall
  split_ifs at hcall with hexists
  · cases hcall
    exact h
  obtain ⟨⟨⟩, hcall⟩ := Except.rest_ok hcall
  have hnew : ∀ t ∈ w.targets, iqnSuffix t.iqn ≠ iqnSuffix iqn := fun t ht heq =>
    hexists ⟨t, ht, by rw [hsuffix iqn hiqn t ht heq]⟩
  have hadded : Inv ({ w with iqns := w.iqns ++ [iqn] }.save ⟨id, iqn, []⟩) :=
    h.addTarget hid (iqnSuffix_plain hiqn) hnew
  cases hpath : req.devicePath with
  | none =>
    rw [hpath] at hcall
    cases hcall
    exact hadded
  | some path =>
  rw [hpath] at hcall
  refine addLun_spec hadded (fun t ht heq l hl => ?_) hcall
  rw [World.save, if_neg hid] at ht
  rcases mem_append.1 ht with ht | ht
  · exact absurd ((show t.id = id from heq) ▸ mem_map_of_mem ht) hid
  · rw [mem_singleton.1 ht] at hl
    cases hl

end

/-! ## Every run -/

/-- A new target does not end like another one, and no number of a LUN is the last `u32`. -/
def Op.Apart (w : World) : Op → Prop
  | .create _ base _ req => ∀ iqn, buildTargetIqn base req.name = .ok iqn → ∀ t ∈ w.targets,
      iqnSuffix t.iqn = iqnSuffix iqn → t.iqn = iqn
  | .addLun _ req => ∀ t ∈ w.targets, t.id = req.targetId → ∀ l ∈ t.luns, l.lunId + 1 < 2 ^ 32
  | .removeLun .. | .delete _ => True

theorem Inv.initial : Inv .initial where
  tidy := ⟨nodup_nil, nodup_nil, nofun, nofun, nofun⟩
  live := .refl _
  hbas := nofun
  links := nofun

theorem Inv.step {readDir : List (HbaType × ℕ) → List (HbaType × ℕ)}
    (hread : ∀ hbas, (readDir hbas).Perm hbas) {w w' : World} {op : Op} (h : Inv w)
    (hstep : Step readDir w op w' ∧ op.Apart w) : Inv w' := by
  obtain ⟨⟨hcall, hid⟩, hapart⟩ := hstep
  cases op with
  | create host base id req => exact create_spec h hid hapart hcall
  | addLun host req => exact addLun_spec h hapart hcall
  | removeLun id lunId => exact (removeLun_spec hread h hcall).1
  | delete id => exact (delete_spec hread h hcall).1

/-- **Backstores and LUNs.** If no target ends like another they correspond one to one, and a
removal takes its own backstores only. -/
theorem backstores_correspond {readDir : List (HbaType × ℕ) → List (HbaType × ℕ)}
    (hread : ∀ hbas, (readDir hbas).Perm hbas) {ops : List Op} {w : World}
    (hrun : Run (fun w op w' => Step readDir w op w' ∧ op.Apart w) .initial ops w) :
    (∀ t ∈ w.targets, ∀ t' ∈ w.targets, ∀ l ∈ t.luns, ∀ l' ∈ t'.luns,
      l.backstoreName = l'.backstoreName → t = t' ∧ l = l') ∧
    w.live.Perm w.stored ∧ w.live.Nodup ∧
    (∀ id lunId w', removeLun readDir id lunId w = .ok w' → ∃ t ∈ w.targets, t.id = id ∧
      ∃ l ∈ t.luns, l.lunId = lunId ∧ key l ∈ w.live ∧
        ∀ b, b ∈ w'.core ↔ b ∈ w.core ∧ b.key ≠ key l) ∧
    (∀ id w', delete readDir id w = .ok w' → ∃ t ∈ w.targets, t.id = id ∧ keys t ⊆ w.live ∧
        ∀ b, b ∈ w'.core ↔ b ∈ w.core ∧ b.key ∉ keys t) := by
  have hinv : Inv w := hrun.inv .initial fun _ _ _ h hstep => h.step hread hstep
  have hsub (t : IscsiTarget) (ht : t ∈ w.targets) : keys t ⊆ w.live := fun k hk =>
    hinv.live.mem_iff.2 (mem_flatMap.2 ⟨t, ht, hk⟩)
  refine ⟨fun t ht t' ht' l hl l' hl' => hinv.tidy.eq_of_name ht ht' hl hl', hinv.live,
    hinv.nodup_live, fun id lunId w' hcall => ?_, fun id w' hcall => ?_⟩
  · obtain ⟨-, t, ht, hid, l, hl, hlid, hcore⟩ := removeLun_spec hread hinv hcall
    refine ⟨t, ht, hid, l, hl, hlid, hsub t ht (mem_map_of_mem hl), fun b => ?_⟩
    rw [hcore]
    simp
  obtain ⟨-, t, ht, hid, hcore⟩ := delete_spec hread hinv hcall
  refine ⟨t, ht, hid, hsub t ht, fun b => ?_⟩
  rw [hcore]
  simp

def anyDevice : Host := ⟨fun _ => false, fun _ => true, fun _ => none, fun _ _ => .ok ()⟩

def baseIqn : List Char := "iqn.2137-04.storage.nasty".toList

def createOn (id name path : String) : Op :=
  .create anyDevice baseIqn id.toList ⟨name.toList, some path.toList, none⟩

def oneLun (id target suffix path : String) : IscsiTarget :=
  ⟨id.toList, baseIqn ++ ':' :: target.toList ++ ':' :: suffix.toList,
    [⟨0, path.toList, "nasty_".toList ++ suffix.toList ++ "_lun0".toList, .block, none, none,
      false⟩]⟩

def worldOf (targets : List IscsiTarget) : World :=
  let names := (targets.flatMap (·.luns)).map (·.backstoreName)
  { targets
    iqns := targets.map (·.iqn)
    hbas := (List.range names.length).map (.iblock, ·)
    core := names.zipIdx.map fun (name, idx) => ⟨.iblock, idx, name⟩
    links := (targets.zip names.zipIdx).map fun (t, name, idx) =>
      ⟨t.iqn, 0, name, ⟨.iblock, idx, name⟩⟩ }

def volTarget : IscsiTarget := oneLun "1" "a" "vol" "/dev/loop0"

def otherTarget : IscsiTarget := oneLun "2" "b" "vol" "/dev/loop1"

def dataTarget : IscsiTarget := oneLun "2" "b" "data" "/dev/loop1"

def oneTarget : World := worldOf [volTarget]

def twoTargets : World := worldOf [volTarget, otherTarget]

def apartTargets : World := worldOf [volTarget, dataTarget]

theorem step_oneTarget : Step id .initial (createOn "1" "a:vol" "/dev/loop0") oneTarget :=
  ⟨by decide +kernel, not_mem_nil⟩

theorem second_id : "2".toList ∉ oneTarget.targets.map (·.id) := by decide

theorem backstores_correspond_removed :
    ∃ w', removeLun id "1".toList 0 apartTargets = .ok w' ∧
      w'.live = [(.iblock, "nasty_data_lun0".toList)] ∧ w'.live.Perm w'.stored := by
  have hsecond : Step id oneTarget (createOn "2" "b:data" "/dev/loop1") apartTargets :=
    ⟨by decide +kernel, second_id⟩
  have hapart : (createOn "2" "b:data" "/dev/loop1").Apart oneTarget := by
    intro iqn hiqn t ht heq
    have hdata : buildTargetIqn baseIqn "b:data".toList = .ok dataTarget.iqn := by
      decide +kernel
    cases hdata.symm.trans hiqn
    rw [mem_singleton.1 ht] at heq
    exact absurd heq (by decide +kernel)
  have hrun : Run (fun w op w' => Step id w op w' ∧ op.Apart w) .initial _ apartTargets :=
    .snoc (.snoc .nil ⟨step_oneTarget, nofun⟩) ⟨hsecond, hapart⟩
  have hremove : Step id apartTargets (.removeLun "1".toList 0) _ := ⟨rfl, trivial⟩
  have hremoved := backstores_correspond (fun hbas => .refl _) (hrun.snoc ⟨hremove, trivial⟩)
  exact ⟨_, rfl, by decide, hremoved.2.1⟩

/-- Names that end alike after a colon: both targets have a backstore of one name, and removing the
LUN of the second takes neither away. -/
theorem backstores_shared : ∃ ops, Run (Step id) .initial ops twoTargets ∧
    (∃ l ∈ volTarget.luns, ∃ l' ∈ otherTarget.luns, l.backstoreName = l'.backstoreName) ∧
    volTarget ∈ twoTargets.targets ∧ otherTarget ∈ twoTargets.targets ∧ volTarget ≠ otherTarget ∧
    ∃ w', removeLun id otherTarget.id 0 twoTargets = .ok w' ∧ w'.core = twoTargets.core ∧
      w'.stored.length < w'.live.length := by
  have hsecond : Step id oneTarget (createOn "2" "b:vol" "/dev/loop1") twoTargets :=
    ⟨by decide +kernel, second_id⟩
  refine ⟨_, .snoc (.snoc .nil step_oneTarget) hsecond, by decide, by decide, by decide, by decide,
    ?_⟩
  exact ⟨_, rfl, by decide, by decide⟩

end Luns

end Nasty.Sharing
