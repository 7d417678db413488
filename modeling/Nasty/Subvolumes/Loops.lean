import Nasty.Lib.Lists
import Nasty.Subvolumes.World

/-!
# Loop devices of block subvolumes

Which image has a loop device is read from the words of `losetup --list`. As long as no name of a
block subvolume holds whitespace, the words are the devices and the images
(`LoopListing.filterMap`), so that what `list` reports is what is attached, and `attach`,
`restore_block_devices` and `delete` do the right thing.

`Safe` says in which worlds a command keeps the invariant `Inv`; `safe` is the contract in which
every operation calls only safe commands.
-/

namespace Nasty.Subvolumes

open Proc Lts List Text Function

/-! ## Paths of images -/

theorem imagePath_inj {fs fs' name name' : Name} (h : '/' ∉ fs) (h' : '/' ∉ fs')
    (heq : imagePath fs name = imagePath fs' name') : fs = fs' ∧ name = name' := by
  simp only [imagePath, subvolPath, mountPoint, append_assoc, append_cancel_left_eq] at heq
  obtain ⟨hfs, hrest⟩ := append_sep_inj h h' heq
  exact ⟨hfs, append_cancel_right hrest⟩

theorem token_imagePath {fs name : Name} (hfs : Token fs)
    (hname : hasWhitespace name = false) : Token (imagePath fs name) := by
  refine ⟨by simp [imagePath], fun c hc => ?_⟩
  have hconst : ∀ c ∈ "/fs/".toList ++ '/' :: '/' :: blockFileName,
      isWhitespace c = false := hasWhitespace_eq_false.1 (by decide)
  simp only [imagePath, subvolPath, mountPoint, mem_append, mem_cons] at hc
  rcases hc with ((hc | hc) | hc | hc) | hc | hc
  · exact hconst c (mem_append_left _ hc)
  · exact hfs.2 c hc
  · exact hconst c (by simp [hc])
  · exact hasWhitespace_eq_false.1 hname c hc
  · exact hconst c (by simp [hc])
  · exact hconst c (by simp [hc])

/-! ## The listing -/

theorem splitWhitespace_replicate (n : ℕ) (cs : Name) :
    splitWhitespace (List.replicate n ' ' ++ cs) = splitWhitespace cs := by
  induction n with
  | zero => rfl
  | succ n ih => rw [replicate_succ, cons_append, splitWhitespace_cons rfl, ih]

theorem LoopListing.filterMap {loops : List (Name × Name)} {output : Name}
    (h : LoopListing loops output) (htokens : ∀ l ∈ loops, Token l.1 ∧ Token l.2) :
    (Text.lines output).filterMap deviceAndBack = loops := by
  induction h with
  | nil => rfl
  | @cons device back n loops output h ih =>
  rw [forall_mem_cons] at htokens
  obtain ⟨⟨hdevice, hback⟩, htokens⟩ := htokens
  have hnl : ∀ {cs : Name}, Token cs → '\n' ∉ cs := fun h hc =>
    absurd (h.2 _ hc) (by decide)
  have hline : '\n' ∉ device ++ ' ' :: List.replicate n ' ' ++ back := by
    simp [hnl hdevice, hnl hback]
  rw [lines_append hline, filterMap_cons, deviceAndBack, splitWhitespace_stripCr,
    append_assoc, cons_append, hdevice.splitWhitespace_append rfl,
    splitWhitespace_replicate, hback.splitWhitespace, ih htokens]

/-! ## The invariant -/

def Entry.key (e : Entry) : Name × Name := (e.filesystem, e.name)

def World.deviceOf (w : World) : Name → Option Name := insertAll Prod.snd Prod.fst w.loops

/-- Filesystems and subvolumes, with names of block subvolumes that hold no whitespace. -/
structure WellFormed (w : World) : Prop where
  names : ∀ f ∈ w.filesystems, Token f.name ∧ '/' ∉ f.name
  filesystems : (w.filesystems.map (·.name)).Nodup
  uuids : (w.filesystems.map (·.uuid)).Nodup
  mounted : ∀ e ∈ w.tree, e.filesystem ∈ w.filesystems.map (·.name)
  keys : (w.tree.map Entry.key).Nodup
  ids : w.tree.Pairwise fun e e' =>
    e.filesystem = e'.filesystem → e.subvolid.isSome → e.subvolid ≠ e'.subvolid
  plain : ∀ e ∈ w.tree, e.subvolumeType = .block → hasWhitespace e.name = false

/-- And every loop device is the only one of the image of a block subvolume. -/
structure Inv (w : World) : Prop extends WellFormed w where
  devices : (w.loops.map Prod.fst).Nodup
  tokens : ∀ l ∈ w.loops, Token l.1
  images : (w.loops.map Prod.snd).Nodup
  attached : ∀ l ∈ w.loops, ∃ e ∈ w.tree, e.image ∧ e.subvolumeType = .block ∧
    l.2 = imagePath e.filesystem e.name

variable {w w' : World} {e e' : Entry} {fs name device : Name}

theorem WellFormed.noSlash (h : WellFormed w) (hfs : fs ∈ w.filesystems.map (·.name)) :
    '/' ∉ fs := by
  obtain ⟨f, hf, rfl⟩ := mem_map.1 hfs
  exact (h.names f hf).2

theorem WellFormed.at_of_imagePath (h : WellFormed w) (he : e ∈ w.tree)
    (hfs : fs ∈ w.filesystems.map (·.name))
    (heq : imagePath e.filesystem e.name = imagePath fs name) : e.At fs name :=
  imagePath_inj (h.noSlash (h.mounted e he)) (h.noSlash hfs) heq

theorem WellFormed.eq_of_imagePath (h : WellFormed w) (he : e ∈ w.tree) (he' : e' ∈ w.tree)
    (heq : imagePath e.filesystem e.name = imagePath e'.filesystem e'.name) : e = e' := by
  obtain ⟨hfs, hname⟩ := h.at_of_imagePath he (h.mounted e' he') heq
  exact inj_on_of_nodup_map h.keys he he' (Prod.ext hfs hname)

theorem Inv.losetupMap_eq (h : Inv w) {output : Name} (hout : LoopListing w.loops output) :
    losetupMap output = w.deviceOf := by
  rw [losetupMap, hout.filterMap, World.deviceOf]
  intro l hl
  obtain ⟨e, he, -, hblock, hpath⟩ := h.attached l hl
  obtain ⟨f, hf, hname⟩ := mem_map.1 (h.mounted e he)
  rw [hpath, ← hname]
  exact ⟨h.tokens l hl, token_imagePath (h.names f hf).1 (h.plain e he hblock)⟩

theorem Inv.deviceOf_eq_some (h : Inv w) {image : Name} :
    w.deviceOf image = some device ↔ (device, image) ∈ w.loops := by
  rw [World.deviceOf, insertAll_eq_some h.images]
  exact ⟨fun ⟨l, hl, himage, hdevice⟩ => himage ▸ hdevice ▸ hl, fun hl => ⟨_, hl, rfl, rfl⟩⟩

theorem Inv.blockDevice_eq_some (h : Inv w) (he : e ∈ w.tree) (f : Filesystem) :
    (e.subvolume f w.deviceOf).blockDevice = some device ↔
      (device, imagePath e.filesystem e.name) ∈ w.loops := by
  rw [← h.deviceOf_eq_some]
  constructor
  · intro hd
    simp only [Entry.subvolume] at hd
    split at hd
    · split_ifs at hd
      exact hd
    · nomatch hd
  intro hd
  obtain ⟨e', he', himage, hblock, hpath⟩ := h.attached _ (h.deviceOf_eq_some.1 hd)
  obtain rfl := h.eq_of_imagePath he he' hpath
  simp only [Entry.subvolume, hblock, himage]
  exact hd

/-! ## Safe commands -/

/-- Where an attribute may be set: the type of an image stays that of a block subvolume. -/
def SafeXattr (w : World) (fs name : Name) : Xattr → Prop
  | .type .block => hasWhitespace name = false
  | .type .filesystem => ∀ e ∈ w.tree, e.At fs name → e.image = false
  | _ => True

def Safe (w : World) : Cmd → Prop
  | .subvolumeDelete fs name => imagePath fs name ∉ w.loops.map Prod.snd
  | .losetupAttach image _ => image ∉ w.loops.map Prod.snd ∧
      ∀ e ∈ w.tree, imagePath e.filesystem e.name = image → e.subvolumeType = .block
  | .createImage _ name => hasWhitespace name = false
  | .setXattr fs name value => SafeXattr w fs name value
  | .subvolumeSnapshot .. => False
  | _ => True

theorem Inv.modify (h : Inv w) {f : Entry → Entry} (hkey : ∀ e, (f e).key = e.key)
    (hid : ∀ e, (f e).subvolid = e.subvolid)
    (hplain : ∀ e ∈ w.tree, e.At fs name → (f e).subvolumeType = .block →
      hasWhitespace name = false)
    (hattached : ∀ e ∈ w.tree, e.At fs name → e.image → e.subvolumeType = .block →
      (f e).image ∧ (f e).subvolumeType = .block) : Inv (w.modify fs name f) := by
  have hkey' : ∀ e : Entry, (if e.At fs name then f e else e).key = e.key := by
    intro e
    split_ifs
    · exact hkey e
    · rfl
  have hid' : ∀ e : Entry, (if e.At fs name then f e else e).subvolid = e.subvolid := by
    intro e
    split_ifs
    · exact hid e
    · rfl
  have hfs : ∀ e : Entry, (if e.At fs name then f e else e).filesystem = e.filesystem :=
    fun e => congrArg Prod.fst (hkey' e)
  have hname : ∀ e : Entry, (if e.At fs name then f e else e).name = e.name :=
    fun e => congrArg Prod.snd (hkey' e)
  refine { h with mounted := ?_, keys := ?_, ids := ?_, plain := ?_, attached := ?_ }
  · intro e' he'
    obtain ⟨e, he, rfl⟩ := mem_map.1 he'
    rw [hfs]
    exact h.mounted e he
  · rw [show (w.modify fs name f).tree.map Entry.key = w.tree.map Entry.key by
      rw [World.modify, map_map]
      exact map_congr_left fun e _ => hkey' e]
    exact h.keys
  · refine pairwise_map.2 (h.ids.imp fun hne => ?_)
    simpa only [hfs, hid'] using hne
  · intro e' he' hblock
    obtain ⟨e, he, rfl⟩ := mem_map.1 he'
    rw [hname]
    split_ifs at hblock with hat
    · rw [hat.2]
      exact hplain e he hat hblock
    · exact h.plain e he hblock
  intro l hl
  obtain ⟨e, he, himage, hblock, hpath⟩ := h.attached l hl
  refine ⟨_, mem_map_of_mem he, ?_⟩
  rw [hfs, hname]
  split_ifs with hat
  · obtain ⟨himage, hblock⟩ := hattached e he hat himage hblock
    exact ⟨himage, hblock, hpath⟩
  · exact ⟨himage, hblock, hpath⟩

theorem Inv.create (h : Inv w) {id : Option ℕ} (hfree : w.Free fs name) (hid : w.FreshId fs id) :
    Inv (w.add (.new fs name id)) := by
  refine { h with mounted := ?_, keys := ?_, ids := ?_, plain := ?_, attached := ?_ }
  · exact forall_mem_append.2 ⟨h.mounted, forall_mem_singleton.2 hfree.1⟩
  · rw [World.add, map_append]
    refine List.Pairwise.concat h.keys fun k hk heq => ?_
    obtain ⟨e, he, rfl⟩ := mem_map.1 hk
    exact hfree.2 e he ⟨congrArg Prod.fst heq, congrArg Prod.snd heq⟩
  · refine List.Pairwise.concat h.ids fun e he hfs hsome heq => ?_
    exact hid e he hfs (by rwa [← show e.subvolid = id from heq]) heq
  · exact forall_mem_append.2 ⟨h.plain, forall_mem_singleton.2 nofun⟩
  · intro l hl
    obtain ⟨e, he, hrest⟩ := h.attached l hl
    exact ⟨e, mem_append_left _ he, hrest⟩

theorem Inv.remove (h : Inv w) (hfree : imagePath fs name ∉ w.loops.map Prod.snd) :
    Inv (w.remove fs name) := by
  have hsub : (w.remove fs name).tree.Sublist w.tree := filter_sublist
  refine { h with mounted := ?_, keys := ?_, ids := ?_, plain := ?_, attached := ?_ }
  · exact fun e he => h.mounted e (hsub.subset he)
  · exact h.keys.sublist (hsub.map _)
  · exact h.ids.sublist hsub
  · exact fun e he => h.plain e (hsub.subset he)
  intro l hl
  obtain ⟨e, he, himage, hblock, hpath⟩ := h.attached l hl
  refine ⟨e, mem_filter.2 ⟨he, decide_eq_true fun hat => hfree ?_⟩, himage, hblock, hpath⟩
  rw [← hat.1, ← hat.2, ← hpath]
  exact mem_map_of_mem hl

theorem Inv.attach (h : Inv w) {image : Name} (hdevice : Token device)
    (hfresh : device ∉ w.loops.map Prod.fst)
    (himage : ∃ e ∈ w.tree, e.image ∧ imagePath e.filesystem e.name = image)
    (hsafe : Safe w (.losetupAttach image false)) : Inv (w.attach device image) := by
  refine { h with devices := ?_, tokens := ?_, images := ?_, attached := ?_ }
  · rw [World.attach, map_append]
    exact List.Pairwise.concat h.devices fun d hd (heq : d = device) => hfresh (heq ▸ hd)
  · exact forall_mem_append.2 ⟨h.tokens, forall_mem_singleton.2 hdevice⟩
  · rw [World.attach, map_append]
    exact List.Pairwise.concat h.images fun i hi (heq : i = image) => hsafe.1 (heq ▸ hi)
  obtain ⟨e, he, hi, hpath⟩ := himage
  exact forall_mem_append.2 ⟨h.attached, forall_mem_singleton.2
    ⟨e, he, hi, hsafe.2 e he hpath, hpath.symm⟩⟩

theorem Inv.detach (h : Inv w) (device : Name) : Inv (w.detach device) := by
  have hsub : (w.detach device).loops.Sublist w.loops := filter_sublist
  refine { h with devices := ?_, tokens := ?_, images := ?_, attached := ?_ }
  · exact h.devices.sublist (hsub.map _)
  · exact fun l hl => h.tokens l (hsub.subset hl)
  · exact h.images.sublist (hsub.map _)
  · exact fun l hl => h.attached l (hsub.subset hl)

theorem Inv.change {c : Cmd} (h : Inv w) (hsafe : Safe w c) (hc : Change w c w') : Inv w' := by
  cases hc with
  | locks held restoring => exact { h with }
  | create hfree hid => exact h.create hfree hid
  | snapshot => exact hsafe.elim
  | remove => exact h.remove hsafe
  | attach himage hdevice hfresh => exact h.attach hdevice hfresh himage hsafe
  | detach => exact h.detach _
  | image =>
    refine h.modify (fun _ => rfl) (fun _ => rfl) (fun _ _ _ _ => hsafe) ?_
    intro e _ _ himage hblock
    exact ⟨rfl, by simpa [Entry.subvolumeType, himage] using hblock⟩
  | @xattr fs name value =>
    have hkey : ∀ e, (value.set e).key = e.key := fun e => by simp [Entry.key]
    have hid : ∀ e, (value.set e).subvolid = e.subvolid := fun e => by cases value <;> rfl
    by_cases htype : ∃ type, value = .type type
    · obtain ⟨type, rfl⟩ := htype
      cases type with
      | block => exact h.modify hkey hid (fun _ _ _ _ => hsafe) fun e _ _ himage _ => ⟨himage, rfl⟩
      | filesystem =>
        refine h.modify hkey hid (fun e _ _ hblock => nomatch hblock) fun e he hat himage _ => ?_
        rw [hsafe e he hat] at himage
        nomatch himage
    have hsame : ∀ e, (value.set e).subvolumeType = e.subvolumeType := by
      intro e
      cases value with
      | type value => exact absurd ⟨value, rfl⟩ htype
      | _ => rfl
    refine h.modify hkey hid (fun e he hat hblock => ?_) fun e _ _ himage hblock => ?_
    · rw [hsame] at hblock
      exact hat.2 ▸ h.plain e he hblock
    · rw [hsame, Xattr.set_image]
      exact ⟨himage, hblock⟩

/-! ## The contract -/

def Listed : (c : Cmd) → c.Answer → Prop
  | .losetupList, r => r.isOk
  | _, _ => True

def AnswersListed (c : Cmd) (w : World) (r : c.Answer) (w' : World) : Prop :=
  Answers c w r w' ∧ Listed c r

def safe : Contract Cmd Cmd.Answer World := ⟨fun c w => Safe w c, AnswersListed⟩

variable {α β : Type} {proc : Service α}

theorem safe_of_passive {c : Cmd} (h : c.passive) : Safe w c := by
  cases c with
  | filesystem | mounted | listSubvolumes | losetupList | pathExists | imageExists | attributes
  | pathIdentity | namespaceDirectory | legacyEvidence | unixTime | other => trivial
  | _ => nomatch h

theorem wp_passive (h : proc.Only (·.passive)) : proc.wp safe (fun _ t => t = w ∧ True) w := by
  refine (h.wp (J := (· = w)) (fun c hc s hs => ⟨safe_of_passive hc, fun r t ht => ?_⟩) rfl).imp
    fun _ _ ht => ⟨ht, trivial⟩
  rw [ht.1.passive hc, hs]

theorem wp_inv (h : proc.Only fun c => ∀ w, Safe w c) (hw : Inv w) :
    proc.wp safe (fun _ t => Inv t) w :=
  h.wp (fun _ hc s hs => ⟨hc s, fun _ _ ht => hs.change (hc s) ht.1.change⟩) hw

/-! ## What is listed -/

def World.report (w : World) (f : Filesystem) (filter : Option Name) : List Subvolume :=
  ((w.tree.filter (·.filesystem = f.name)).filter fun e =>
    e.listed ∧ ∀ o ∈ filter, e.owner = some o).map (·.subvolume f w.deviceOf)

theorem buildLosetupMap_safe (h : Inv w) :
    buildLosetupMap.wp safe (fun r t => t = w ∧ r = .ok w.deviceOf) w := by
  refine wp_run_bind.2 ⟨trivial, ?_⟩
  rintro r _ ⟨⟨rfl, hout⟩, hlisted⟩
  cases r with
  | error e => nomatch hlisted
  | ok output => exact ⟨rfl, congrArg Except.ok (h.losetupMap_eq (hout output rfl))⟩

theorem list_safe (h : Inv w) (fs : Name) (filter : Option Name) :
    (list fs filter).wp safe (fun r t => t = w ∧ ∀ svs, r = .ok svs →
      ∃ f ∈ w.filesystems, f.name = fs ∧ svs = w.report f filter) w := by
  refine wp_bind.2 (wp_run_bind.2 ⟨trivial, ?_⟩)
  rintro r _ ⟨⟨rfl, hf⟩, -⟩
  cases r with
  | error e => exact ⟨rfl, nofun⟩
  | ok f =>
  refine wp_run_bind.2 ⟨trivial, ?_⟩
  rintro r _ ⟨⟨rfl, hentries⟩, -⟩
  rw [wp_bind]
  cases r with
  | error e => exact ⟨rfl, nofun⟩
  | ok entries =>
  rw [wp_orFail_ok, after_ok, wp_bind]
  refine (buildLosetupMap_safe h).imp ?_
  rintro _ _ ⟨rfl, rfl⟩
  refine ⟨rfl, ?_⟩
  rintro _ ⟨⟩
  obtain ⟨hmem, rfl⟩ := hf f rfl
  rw [hentries entries rfl]
  exact ⟨f, hmem, rfl, rfl⟩

def World.Reports (w : World) (fs name : Name) (sv : Subvolume) : Prop :=
  ∃ f ∈ w.filesystems, f.name = fs ∧ ∃ e ∈ w.tree, e.At fs name ∧ sv = e.subvolume f w.deviceOf

theorem get_safe (h : Inv w) (fs name : Name) (filter : Option Name) : (get fs name filter).wp safe
      (fun r t => t = w ∧ ∀ sv, r = .ok sv → w.Reports fs name sv) w := by
  refine (list_safe h fs none).look (fun _ => ⟨rfl, nofun⟩) fun svs hsvs => ?_
  obtain ⟨f, hf, rfl, rfl⟩ := hsvs svs rfl
  rw [wp_bind, wp_ofExcept]
  cases hfind : (w.report f none).find? (·.name = name) with
  | none => exact ⟨rfl, nofun⟩
  | some sv =>
  rw [Option.elim_some, after_ok, wp_bind]
  cases requireOwner sv.owner filter with
  | error e => exact ⟨rfl, nofun⟩
  | ok _ =>
  refine ⟨rfl, ?_⟩
  rintro _ ⟨⟩
  obtain ⟨e, he, rfl⟩ := mem_map.1 (mem_of_find?_eq_some hfind)
  have hname := find?_some hfind
  simp only [decide_eq_true_eq] at hname
  have hfs := (mem_filter.1 (mem_of_mem_filter he)).2
  simp only [decide_eq_true_eq] at hfs
  exact ⟨f, hf, rfl, e, mem_of_mem_filter (mem_of_mem_filter he), ⟨hfs, hname⟩, rfl⟩

/-! ## Attach, detach and delete -/

theorem locked_safe {Q : Except SubvolumeError α → World → Prop} {body : Service α}
    (hQ : ∀ r t held, Q r t → Q r { t with held })
    (h : ∀ held, body.wp safe Q { w with held }) : (locked fs name body).wp safe Q w := by
  refine wp_run_bind.2 ⟨trivial, ?_⟩
  rintro r _ ⟨⟨-, rfl⟩, -⟩
  refine wp_bind.2 (wp_attempt.2 ((h _).imp fun r t ht => ?_))
  refine wp_run_bind.2 ⟨trivial, ?_⟩
  rintro _ _ ⟨rfl, -⟩
  exact hQ r t _ ht

variable {sv : Subvolume}

theorem Inv.safe_losetupAttach (h : Inv w) (hsv : w.Reports fs name sv)
    (hblock : sv.subvolumeType = .block) (hnone : sv.blockDevice = none) (directIo : Bool) :
    Safe w (.losetupAttach (imagePath fs name) directIo) := by
  obtain ⟨f, -, -, e, he, ⟨rfl, rfl⟩, rfl⟩ := hsv
  refine ⟨fun hmem => ?_, fun e' he' heq => h.eq_of_imagePath he' he heq ▸ hblock⟩
  obtain ⟨⟨device, image⟩, hl, rfl⟩ := mem_map.1 hmem
  rw [(h.blockDevice_eq_some he f).2 hl] at hnone
  nomatch hnone

theorem attach_safe (h : Inv w) (fs name : Name) (filter : Option Name) :
    (attach fs name filter).wp safe (fun _ t => Inv t) w := by
  refine locked_safe (fun _ _ _ h => { h with }) fun held => ?_
  have h : Inv { w with held } := { h with }
  refine (get_safe h fs name filter).look (fun _ => h) fun sv hsv => ?_
  rw [wp_bind, wp_refuse]
  refine ⟨fun _ => h, fun hblock => ?_⟩
  split
  · exact h
  rename_i hnone
  have hsafe := h.safe_losetupAttach (hsv sv rfl) (not_not.1 hblock) hnone sv.directIo
  refine wp_run_bind.2 ⟨hsafe, fun r t ht => ?_⟩
  have ht := h.change hsafe ht.1.change
  exact wp_inv (.bind (only_orFail _) fun _ =>
    (get_only ..).imp fun _ hc _ => safe_of_passive hc) ht

theorem detach_safe (h : Inv w) (fs name : Name) (filter : Option Name) :
    (detach fs name filter).wp safe (fun _ t => Inv t) w := by
  have hget := (get_only fs name filter).imp fun c hc w => safe_of_passive (w := w) hc
  refine wp_inv (locked_only (fun _ => trivial) (fun _ => trivial) (.bind hget fun sv => ?_)) h
  split
  · exact only_checked (fun _ => trivial) fun _ => hget
  · exact hget

theorem detachForDelete_safe (h : Inv w) (hsv : w.Reports fs name sv) :
    (detachForDelete sv).wp safe (fun r t => Inv t ∧
      (r = .ok () → imagePath fs name ∉ t.loops.map Prod.snd)) w := by
  obtain ⟨f, -, -, e, he, ⟨rfl, rfl⟩, rfl⟩ := hsv
  have hdevice {device : Name} : (e.subvolume f w.deviceOf).blockDevice = some device ↔
      (device, imagePath e.filesystem e.name) ∈ w.loops := h.blockDevice_eq_some he f
  have hblock {device : Name} (hd : (device, imagePath e.filesystem e.name) ∈ w.loops) :
      e.subvolumeType = .block := by
    obtain ⟨e', he', -, hblock, hpath⟩ := h.attached _ hd
    rwa [h.eq_of_imagePath he he' hpath]
  unfold detachForDelete
  split
  · rename_i device _ hreported
    -- every device of this image is the one that is detached
    have honly {t : World} (ht : device ∉ t.loops.map Prod.fst) (hsub : t.loops ⊆ w.loops) :
        imagePath e.filesystem e.name ∉ t.loops.map Prod.snd := by
      intro hmem
      obtain ⟨⟨d, image⟩, hl, rfl⟩ := mem_map.1 hmem
      have hd := hdevice.2 (hsub hl)
      rw [hreported, Option.some.injEq] at hd
      exact ht (mem_map.2 ⟨_, hl, hd.symm⟩)
    refine wp_run_bind.2 ⟨trivial, fun r t ht => ?_⟩
    refine ⟨h.change (c := .losetupDetach device) trivial ht.1.change, fun hok => ?_⟩
    obtain ⟨⟨heffect, hdetached⟩, -⟩ := ht
    have hsub : t.loops ⊆ w.loops := by
      rcases heffect with rfl | ⟨-, rfl⟩
      · exact filter_subset_self _
      · exact List.Subset.refl _
    refine honly ?_ hsub
    cases r with
    | ok output =>
      rcases heffect with rfl | ⟨hfail, -⟩
      · simp [World.detach]
      · nomatch hfail
    | error e =>
      refine hdetached e rfl (by_contra fun hnot => ?_)
      rw [orAlreadyDetached, if_neg hnot] at hok
      nomatch hok
  · rename_i hnot
    refine ⟨h, fun _ hmem => ?_⟩
    obtain ⟨⟨d, image⟩, hl, rfl⟩ := mem_map.1 hmem
    exact hnot d (hblock hl) (hdevice.2 hl)

theorem findChildSubvolumes_safe (fs name : Name) :
    (findChildSubvolumes fs name).wp safe (fun _ t => t = w ∧ True) w := by
  refine wp_run_bind.2 ⟨trivial, ?_⟩
  rintro r _ ⟨⟨rfl, -⟩, -⟩
  exact wp_passive (.bind (only_orFail _) fun _ => only_pure _)

theorem delete_safe (h : Inv w) (fs name : Name) (filter : Option Name) :
    (delete fs name filter).wp safe (fun r t => Inv t ∧
      (r = .ok () → imagePath fs name ∉ t.loops.map Prod.snd)) w := by
  refine locked_safe (fun _ _ _ h => ⟨{ h.1 with }, h.2⟩) fun held => ?_
  have h : Inv { w with held } := { h with }
  have herror {e : SubvolumeError} {t : World} (ht : Inv t) : Inv t ∧
      ((.error e : Except SubvolumeError Unit) = .ok () →
        imagePath fs name ∉ t.loops.map Prod.snd) :=
    ⟨ht, nofun⟩
  refine (get_safe h fs name filter).look (fun _ => herror h) fun sv hsv => ?_
  refine (wp_passive (filesystemOf_only fs)).look (fun _ => herror h) fun f _ => ?_
  refine (findChildSubvolumes_safe fs name).look (fun _ => herror h) fun children _ => ?_
  rw [wp_bind, wp_refuse]
  refine ⟨fun _ => herror h, fun _ => ?_⟩
  refine (detachForDelete_safe h (hsv sv rfl)).bind (fun _ _ ht => herror ht.1)
    fun _ t ⟨ht, hfree⟩ => ?_
  have hfree := hfree rfl
  refine wp_run_bind.2 ⟨hfree, fun r u hu => ?_⟩
  have hinv := ht.change (c := .subvolumeDelete fs name) hfree hu.1.change
  have hloops : u.loops = t.loops := by
    rcases hu.1 with rfl | ⟨-, rfl⟩
    · rfl
    · rfl
  rw [wp_bind]
  cases r with
  | error e => exact herror hinv
  | ok _ =>
  refine (wp_passive (only_onlyIf (.call rfl fun _ => only_pure _))).imp ?_
  rintro r u ⟨rfl, -⟩
  exact ⟨hinv, fun _ => hloops ▸ hfree⟩

/-! ## Create -/

structure Blank (fs name : Name) (w : World) : Prop where
  inv : Inv w
  mounted : fs ∈ w.filesystems.map (·.name)
  blank : ∀ e ∈ w.tree, e.At fs name → e.image = false ∧ e.nastyType = none

theorem Blank.free (h : Blank fs name w) : imagePath fs name ∉ w.loops.map Prod.snd := by
  intro hmem
  obtain ⟨l, hl, hpath⟩ := mem_map.1 hmem
  obtain ⟨e, he, himage, -, heq⟩ := h.inv.attached l hl
  have hat := h.inv.at_of_imagePath he h.mounted (heq.symm.trans hpath)
  rw [(h.blank e he hat).1] at himage
  nomatch himage

variable {r : Except String Name}

theorem Blank.provisioningState (h : Blank fs name w) {creating : Bool}
    (hr : Answers (.setXattr fs name (.provisioningState creating)) w r w') : Blank fs name w' := by
  have hinv := h.inv.change (c := .setXattr fs name (.provisioningState creating)) trivial hr.change
  rcases hr with rfl | ⟨-, rfl⟩
  · refine ⟨hinv, h.mounted, fun e' he' hat => ?_⟩
    obtain ⟨e, he, rfl⟩ := mem_map.1 he'
    split_ifs at hat ⊢ with hat'
    · exact h.blank e he hat'
    · exact h.blank e he hat
  · exact h

theorem Blank.create (h : Inv w)
    (hr : Answers (.subvolumeCreate fs name) w r w') (hok : r.isOk) : Blank fs name w' := by
  have hinv := h.change (c := .subvolumeCreate fs name) trivial hr.change
  rcases hr with ⟨hfree, id, -, rfl⟩ | ⟨hfail, -⟩
  · exact ⟨hinv, hfree.1, forall_mem_append.2 ⟨fun e he hat => absurd hat (hfree.2 e he),
      forall_mem_singleton.2 fun _ => ⟨rfl, rfl⟩⟩⟩
  · rw [hok] at hfail
    nomatch hfail

theorem Blank.image (h : Blank fs name w) (hname : hasWhitespace name = false)
    (hr : Answers (.createImage fs name) w r w') (hok : r.isOk) :
    Inv w' ∧ ∀ directIo, Safe w' (.losetupAttach (imagePath fs name) directIo) := by
  have hinv := h.inv.change (c := .createImage fs name) hname hr.change
  refine ⟨hinv, fun directIo => ⟨?_, fun e' he' heq => ?_⟩⟩
  · rcases hr with rfl | ⟨-, rfl⟩
    · exact h.free
    · exact h.free
  have hmounted : fs ∈ w'.filesystems.map (·.name) := by
    rcases hr with rfl | ⟨-, rfl⟩ <;> exact h.mounted
  have hat := hinv.at_of_imagePath he' hmounted heq
  rcases hr with rfl | ⟨hfail, -⟩
  · obtain ⟨e, he, rfl⟩ := mem_map.1 he'
    split_ifs at hat ⊢ with hat'
    · simp [Entry.subvolumeType, (h.blank e he hat').2]
    · exact absurd hat hat'
  · rw [hok] at hfail
    nomatch hfail

variable {type : SubvolumeType}

section Steps

variable {g : α → Service β}

theorem orQuarantine_seq {ε : Type} {device : Option Name} {error : ε → SubvolumeError}
    {r : Except ε α} (h : Inv w) (hg : ∀ a, r = .ok a → (g a).wp safe (fun _ t => Inv t) w) :
    (orQuarantine type device error r >>= g).wp safe (fun _ t => Inv t) w := by
  rw [wp_bind]
  cases r with
  | ok a => exact hg a rfl
  | error e =>
    exact (wp_inv (only_onlyIf (quarantineFailedCreate_only fun _ _ _ => trivial)) h).bind
      (fun _ _ ht => ht) fun _ _ ht => ht

theorem orFail_seq {error : String → SubvolumeError} {r : Except String α} (h : Inv w)
    (hg : ∀ a, r = .ok a → (g a).wp safe (fun _ t => Inv t) w) :
    (orFail error r >>= g).wp safe (fun _ t => Inv t) w := by
  rw [wp_bind]
  cases r with
  | ok a => exact hg a rfl
  | error e => exact h

theorem passive_seq (hproc : proc.Only (·.passive)) (h : Inv w)
    (hg : ∀ a, (g a).wp safe (fun _ t => Inv t) w) : (proc >>= g).wp safe (fun _ t => Inv t) w :=
  (wp_passive hproc).look (fun _ => h) fun a _ => hg a

theorem inv_seq (hproc : proc.Only fun c => ∀ w, Safe w c) (h : Inv w)
    (hg : ∀ a t, Inv t → (g a).wp safe (fun _ t => Inv t) t) :
    (proc >>= g).wp safe (fun _ t => Inv t) w :=
  (wp_inv hproc h).bind (fun _ _ ht => ht) hg

end Steps

theorem Only.safe (h : proc.Only (·.passive)) : proc.Only fun c => ∀ w, Safe w c :=
  h.imp fun _ hc _ => safe_of_passive hc

variable (req : CreateSubvolumeRequest) (owner : Option Name)

theorem provisionBlock_safe (volsize : ℕ) (h : Blank req.filesystem req.name w)
    (hname : hasWhitespace req.name = false) :
    (provisionBlock req volsize).wp safe (fun _ t => Inv t) w := by
  unfold provisionBlock
  refine wp_run_bind.2 ⟨hname, fun r t ht => ?_⟩
  refine orQuarantine_seq (h.inv.change (c := .createImage _ _) hname ht.1.change) fun _ hok => ?_
  obtain ⟨hinv, hsafe⟩ := h.image hname ht.1 (hok ▸ rfl)
  refine passive_seq (only_run rfl) hinv fun _ => orQuarantine_seq hinv fun _ _ => ?_
  refine passive_seq (only_run rfl) hinv fun _ => ?_
  have hsafe := hsafe (req.directIo.getD false)
  refine wp_run_bind.2 ⟨hsafe, fun r u hu => ?_⟩
  have hinv := hinv.change hsafe hu.1.change
  refine orQuarantine_seq hinv fun output _ => orQuarantine_seq hinv fun _ _ => ?_
  split
  · exact hinv
  · exact inv_seq (Only.safe (initializeBlockFilesystem_only ..)).attempt hinv fun _ t ht =>
      orQuarantine_seq ht fun _ _ => ht

theorem SafeXattr.keep {value : Xattr} (h : SafeXattr w fs name (.type type))
    (hr : Answers (.setXattr fs name value) w r w') : SafeXattr w' fs name (.type type) := by
  cases type with
  | block => exact h
  | filesystem =>
  rcases hr with rfl | ⟨-, rfl⟩
  · intro e' he' hat
    obtain ⟨e, he, rfl⟩ := mem_map.1 he'
    split_ifs at hat ⊢ with hat'
    · rw [Xattr.set_image]
      exact h e he hat'
    · exact absurd hat hat'
  · exact h

theorem safeXattr_of_mem {volsize : Option ℕ}
    {compression comments : Option Name} {owner : Option Name} {directIo : Bool} {filesystem : Option BlockFilesystem}
    {uuid : Option Name} {x : Xattr × String} (h : SafeXattr w fs name (.type type))
    (hx : x ∈ metaXattrs type volsize compression comments owner directIo filesystem uuid) :
    SafeXattr w fs name x.1 := by
  simp only [metaXattrs, mem_append, mem_singleton, Option.mem_toList,
    Option.map_eq_some_iff] at hx
  rcases hx with ((((((rfl | ⟨_, -, rfl⟩) | ⟨_, -, rfl⟩) | ⟨_, -, rfl⟩) | ⟨_, -, rfl⟩) | hx) |
    ⟨_, -, rfl⟩) | ⟨_, -, rfl⟩
  any_goals trivial
  split_ifs at hx
  · rw [mem_singleton.1 hx]
    trivial
  · cases hx

theorem writeMetaXattrs_safe {xattrs : List (Xattr × String)} (h : Inv w)
    (htype : SafeXattr w fs name (.type type))
    (hx : ∀ w, SafeXattr w fs name (.type type) → ∀ x ∈ xattrs, SafeXattr w fs name x.1) :
    (writeMetaXattrs fs name xattrs).wp safe (fun _ t => Inv t) w := by
  refine (wp_each (Q := fun _ t => Inv t ∧ SafeXattr t fs name (.type type))
    (fun x hmem t ⟨ht, htype⟩ => ?_) ⟨h, htype⟩).imp fun _ _ h => h.1
  have hsafe := hx t htype x hmem
  refine wp_run_bind.2 ⟨hsafe, fun r u hu => ?_⟩
  have hu' : Inv u ∧ SafeXattr u fs name (.type type) :=
    ⟨ht.change (c := .setXattr fs name x.1) hsafe hu.1.change, htype.keep hu.1⟩
  rw [wp_bind]
  cases r with
  | ok _ | error _ => exact hu'

theorem createNew_safe (h : Inv w)
    (hname : req.subvolumeType = .block → hasWhitespace req.name = false) :
    (createNew req owner).wp safe (fun _ t => Inv t) w := by
  unfold createNew
  refine passive_seq (only_run rfl) h fun _ => orFail_seq h fun _ _ => ?_
  refine wp_run_bind.2 ⟨trivial, fun r t ht => ?_⟩
  refine orFail_seq (h.change (c := .subvolumeCreate _ _) trivial ht.1.change) fun _ hok => ?_
  have hblank := Blank.create h ht.1 (hok ▸ rfl)
  refine passive_seq (only_run rfl) hblank.inv fun _ => orQuarantine_seq hblank.inv fun _ _ => ?_
  refine wp_run_bind.2 ⟨trivial, fun r u hu => ?_⟩
  have hblank := hblank.provisioningState hu.1
  refine orQuarantine_seq hblank.inv fun _ _ => ?_
  refine passive_seq (only_each fun _ _ => .call rfl fun _ => only_pure _) hblank.inv
    fun _ => ?_
  refine passive_seq (only_onlyIf (.call rfl fun _ => only_pure _)) hblank.inv
    fun _ => ?_
  have hprovision : (provision req).wp safe (fun _ t => Inv t ∧
      SafeXattr t req.filesystem req.name (.type req.subvolumeType)) u := by
    unfold provision
    cases htype : req.subvolumeType with
    | filesystem => exact ⟨hblank.inv, fun e he hat => (hblank.blank e he hat).1⟩
    | block => exact (provisionBlock_safe req _ hblank (hname htype)).imp fun _ _ h =>
        ⟨h, hname htype⟩
  refine hprovision.bind (fun _ _ ht => ht.1) fun provisioned t ⟨ht, htype⟩ => ?_
  refine wp_bind.2 (wp_attempt.2 ((writeMetaXattrs_safe ht htype fun w h x hx =>
    safeXattr_of_mem h hx).imp fun r t ht => ?_))
  refine orQuarantine_seq ht fun _ _ => ?_
  refine inv_seq (only_run fun _ => trivial) ht fun _ t ht => orQuarantine_seq ht fun _ _ => ?_
  refine passive_seq (only_onlyIf (.call rfl fun _ => only_pure _)) ht fun _ => ?_
  exact passive_seq (get_only ..) ht fun _ => ht

theorem createInner_safe (nested : Bool) (h : Inv w)
    (hname : req.subvolumeType = .block → hasWhitespace req.name = false) :
    (createInner req owner nested).wp safe (fun _ t => Inv t) w := by
  refine passive_seq (only_ofExcept _) h fun _ => ?_
  refine locked_safe (fun _ _ _ h => { h with }) fun held => ?_
  have h : Inv { w with held } := { h with }
  refine passive_seq (filesystemOf_only _) h fun _ => ?_
  refine passive_seq (only_onlyIf (.call rfl only_ofExcept)) h fun _ => ?_
  refine passive_seq (only_run rfl) h fun present => ?_
  split
  · exact wp_inv (Only.safe (createExisting_only req owner)) h
  · exact createNew_safe req owner h hname

theorem eq_of_vmDiskSubvolumeName {name nested : Name}
    (h : vmDiskSubvolumeName name = .ok nested) : nested = vms ++ '/' :: name := by
  obtain ⟨_, h⟩ := Except.rest_ok h
  obtain ⟨_, h⟩ := Except.rest_ok h
  obtain ⟨_, h⟩ := Except.rest_ok h
  exact (Except.ok.inj h).symm

theorem createVmDisk_safe (fs name : Name) (bytes : ℕ) (owner : Option Name) (h : Inv w)
    (hname : hasWhitespace name = false) :
    (createVmDisk fs name bytes owner).wp safe (fun _ t => Inv t) w := by
  unfold createVmDisk
  rw [wp_bind]
  cases hvm : vmDiskSubvolumeName name with
  | error e => exact h
  | ok nested =>
  refine locked_safe (fun _ _ _ h => { h with }) fun held => ?_
  have h : Inv { w with held } := { h with }
  refine passive_seq (get_only ..).attempt h fun _ => passive_seq (only_ofExcept _) h fun _ => ?_
  refine createInner_safe _ owner true h fun _ => ?_
  rw [eq_of_vmDiskSubvolumeName hvm]
  simpa [hasWhitespace, vms, isWhitespace] using hname

/-! ## Restore -/

def Apart (sv sv' : Subvolume) : Prop :=
  (∀ id, sv.blockVolumeId = some id → sv'.blockVolumeId ≠ some id) ∧
    imagePath sv.filesystem sv.name ≠ imagePath sv'.filesystem sv'.name

def World.reportAll (w : World) : List Subvolume := w.filesystems.flatMap fun f => w.report f none

theorem mem_report {f : Filesystem} {filter : Option Name} (h : sv ∈ w.report f filter) :
    ∃ e ∈ w.tree, e.filesystem = f.name ∧ sv = e.subvolume f w.deviceOf := by
  obtain ⟨e, he, rfl⟩ := mem_map.1 h
  have hfs := mem_filter.1 (mem_of_mem_filter he)
  exact ⟨e, hfs.1, by simpa using hfs.2, rfl⟩

variable {id : BlockVolumeId}

theorem blockVolumeId_eq_some {f : Filesystem} {map : Name → Option Name}
    (h : (e.subvolume f map).blockVolumeId = some id) :
    id.filesystemUuid = f.uuid ∧ e.subvolid = some id.subvolumeId := by
  simp only [Entry.subvolume] at h
  split at h
  · obtain ⟨n, hn, rfl⟩ := Option.map_eq_some_iff.1 h
    exact ⟨rfl, hn⟩
  · nomatch h

theorem WellFormed.report_apart (h : WellFormed w) (f : Filesystem) :
    (w.report f none).Pairwise Apart := by
  have hkeys : w.tree.Pairwise fun e e' => e.key ≠ e'.key := pairwise_map.1 h.keys
  refine pairwise_map.2 (((h.ids.and hkeys).sublist
    (filter_sublist.trans filter_sublist)).imp_of_mem ?_)
  intro e e' he he' ⟨hids, hkey⟩
  have hmem := mem_filter.1 (mem_of_mem_filter he)
  have hmem' := mem_filter.1 (mem_of_mem_filter he')
  have hfs : e.filesystem = e'.filesystem := by
    rw [show e.filesystem = f.name by simpa using hmem.2]
    exact (by simpa using hmem'.2 : e'.filesystem = f.name).symm
  refine ⟨fun id hid hid' => ?_, fun heq => hkey ?_⟩
  · have hsub := (blockVolumeId_eq_some hid).2
    exact hids hfs (by simp [hsub]) (hsub.trans (blockVolumeId_eq_some hid').2.symm)
  · obtain ⟨hfs, hname⟩ := h.at_of_imagePath hmem.1 (h.mounted e' hmem'.1) heq
    exact Prod.ext hfs hname

theorem WellFormed.reportAll_apart (h : WellFormed w) : w.reportAll.Pairwise Apart := by
  have hnames : w.filesystems.Pairwise fun f f' => f.name ≠ f'.name :=
    pairwise_map.1 h.filesystems
  have huuids : w.filesystems.Pairwise fun f f' => f.uuid ≠ f'.uuid := pairwise_map.1 h.uuids
  refine pairwise_flatMap.2 ⟨fun f _ => h.report_apart f, (hnames.and huuids).imp ?_⟩
  intro f f' ⟨hname, huuid⟩ sv hsv sv' hsv'
  obtain ⟨e, he, hfs, rfl⟩ := mem_report hsv
  obtain ⟨e', he', hfs', rfl⟩ := mem_report hsv'
  refine ⟨fun id hid hid' => huuid ?_, fun heq => hname ?_⟩
  · exact (blockVolumeId_eq_some hid).1.symm.trans (blockVolumeId_eq_some hid').1
  · rw [← hfs, ← hfs']
    exact (h.at_of_imagePath he (h.mounted e' he') heq).1

theorem listAll_safe (h : Inv w) :
    listAll.wp safe (fun r t => t = w ∧ ∀ all, r = .ok all → all = w.reportAll) w := by
  refine wp_run_bind.2 ⟨trivial, ?_⟩
  rintro r w ⟨⟨rfl, hmounted⟩, -⟩
  rw [wp_bind]
  cases r with
  | error e => exact ⟨rfl, nofun⟩
  | ok filesystems =>
  rw [wp_orFail_ok, hmounted filesystems rfl]
  refine wp_collect fun f hf => (list_safe h f.name none).imp ?_
  rintro r w ⟨rfl, hsvs⟩
  refine ⟨rfl, fun svs hr => ?_⟩
  obtain ⟨f', hf', hname, rfl⟩ := hsvs svs hr
  rw [inj_on_of_nodup_map h.filesystems hf' hf hname]

def World.observed (w : World) (sv : Subvolume) : List (BlockVolumeId × Name) :=
  (sv.blockVolumeId.bind fun id =>
    (w.deviceOf (imagePath sv.filesystem sv.name)).map (Prod.mk id)).toList

theorem Inv.deviceOf_eq_none (h : Inv w) (he : e ∈ w.tree) (himage : e.image = false) :
    w.deviceOf (imagePath e.filesystem e.name) = none := by
  rw [Option.eq_none_iff_forall_ne_some]
  intro device hd
  obtain ⟨e', he', himage', -, hpath⟩ := h.attached _ (h.deviceOf_eq_some.1 hd)
  rw [← h.eq_of_imagePath he he' hpath, himage] at himage'
  nomatch himage'

theorem observeExisting_safe (h : Inv w) (hsv : ∃ e ∈ w.tree, e.At sv.filesystem sv.name) :
    (observeExisting sv).wp safe
      (fun r t => t = w ∧ ∀ found, r = .ok found → found = w.observed sv) w := by
  unfold observeExisting
  split
  · rename_i hid
    refine ⟨rfl, ?_⟩
    rintro _ ⟨⟩
    rw [World.observed, hid]
    rfl
  rename_i id hid
  refine wp_bind.2 (wp_bind.2 ((buildLosetupMap_safe h).imp ?_))
  rintro _ w ⟨rfl, rfl⟩
  refine wp_run_bind.2 ⟨trivial, ?_⟩
  rintro found w ⟨⟨rfl, hfound⟩, -⟩
  refine ⟨rfl, ?_⟩
  rintro _ ⟨⟩
  obtain ⟨e, he, hfs, hname⟩ := hsv
  rw [World.observed, hid, ← hfs, ← hname]
  cases found with
  | true => rfl
  | false =>
  have himage : e.image = false := by
    by_contra himage
    exact absurd (hfound.2 ⟨e, he, ⟨hfs, hname⟩, by simpa using himage⟩) (by simp)
  rw [h.deviceOf_eq_none he himage]
  rfl

variable {svs : List Subvolume}

theorem Apart.eq_of_blockVolumeId (h : svs.Pairwise Apart)
    {sv sv' : Subvolume} (hsv : sv ∈ svs) (hsv' : sv' ∈ svs)
    (hid : sv.blockVolumeId = some id) (hid' : sv'.blockVolumeId = some id) : sv = sv' := by
  have hsymm : Std.Symm fun sv sv' : Subvolume => ∀ id, sv.blockVolumeId = some id →
      sv'.blockVolumeId ≠ some id := ⟨fun _ _ h id hid' hid => h id hid hid'⟩
  by_contra hne
  exact (h.imp And.left).forall hsv hsv' hne id hid hid'

theorem insertAll_observed (h : svs.Pairwise Apart)
    (hsv : sv ∈ svs) (hid : sv.blockVolumeId = some id) :
    insertAll Prod.fst Prod.snd (svs.flatMap w.observed) id =
      w.deviceOf (imagePath sv.filesystem sv.name) := by
  have hmem {sv : Subvolume} {x : BlockVolumeId × Name} : x ∈ w.observed sv ↔
      sv.blockVolumeId = some x.1 ∧ w.deviceOf (imagePath sv.filesystem sv.name) = some x.2 := by
    obtain ⟨id, device⟩ := x
    simp [World.observed, Option.bind_eq_some_iff]
  have hnodup : ((svs.flatMap w.observed).map Prod.fst).Nodup := by
    refine pairwise_map.2 (pairwise_flatMap.2 ⟨fun sv _ => ?_, h.imp ?_⟩)
    · rw [World.observed]
      cases sv.blockVolumeId.bind _ with
      | none => exact List.Pairwise.nil
      | some x => exact pairwise_singleton ..
    · intro sv sv' hapart x hx x' hx' heq
      exact hapart.1 x.1 (hmem.1 hx).1 (heq ▸ (hmem.1 hx').1)
  ext device
  rw [Option.mem_def.symm, Option.mem_def, insertAll_eq_some hnodup]
  constructor
  · rintro ⟨x, hx, rfl, rfl⟩
    obtain ⟨sv', hsv', hx⟩ := mem_flatMap.1 hx
    obtain ⟨hid', hdevice⟩ := hmem.1 hx
    obtain rfl : sv' = sv := Apart.eq_of_blockVolumeId h hsv' hsv hid' hid
    exact hdevice
  · intro hdevice
    exact ⟨(id, device), mem_flatMap.2 ⟨sv, hsv, hmem.2 ⟨hid, hdevice⟩⟩, rfl, rfl⟩

theorem World.deviceOf_attach (w : World) (device image : Name) :
    (w.attach device image).deviceOf = update w.deviceOf image (some device) :=
  insertAll_concat _

/-- The loop of `restore_block_devices`: what is known by identity is what is attached, for the
subvolumes that are left. -/
theorem restoreEach_safe (evidence : List (Name × BlockVolumeId))
    (existing : BlockVolumeId → Option Name) (mappings : BlockDeviceMappings)
    (h : Inv w) (hapart : svs.Pairwise Apart)
    (hsvs : ∀ sv ∈ svs, ∃ e ∈ w.tree, e.At sv.filesystem sv.name ∧ e.subvolumeType = .block)
    (hexisting : ∀ sv ∈ svs, ∀ id, sv.blockVolumeId = some id →
      existing id = w.deviceOf (imagePath sv.filesystem sv.name)) :
    (restoreEach evidence existing mappings svs).wp safe (fun _ t => Inv t) w := by
  induction svs generalizing existing mappings w with
  | nil => exact h
  | cons sv rest ih =>
  obtain ⟨hsv, hrest⟩ := forall_mem_cons.1 hsvs
  obtain ⟨hfirst, hothers⟩ := forall_mem_cons.1 hexisting
  obtain ⟨happart, hapart⟩ := pairwise_cons.1 hapart
  unfold restoreEach
  split
  · exact ih existing mappings h hapart hrest hothers
  rename_i id hid
  refine wp_run_bind.2 ⟨trivial, ?_⟩
  rintro found w ⟨⟨rfl, -⟩, -⟩
  split
  · exact ih existing mappings h hapart hrest hothers
  · refine ih _ _ h hapart hrest fun sv' hsv' id' hid' => ?_
    rw [update_of_ne]
    · exact hothers sv' hsv' id' hid'
    · rintro rfl
      exact (happart sv' hsv').1 id' hid hid'
  rename_i hnone
  obtain ⟨e, he, ⟨hfs, hname⟩, hblock⟩ := hsv
  have hsafe : Safe w (.losetupAttach (imagePath sv.filesystem sv.name) sv.directIo) := by
    refine ⟨fun hmem => ?_, fun e' he' heq => ?_⟩
    · obtain ⟨⟨device, _⟩, hl, rfl⟩ := mem_map.1 hmem
      have hdevice := h.deviceOf_eq_some.2 hl
      rw [← hfirst id hid, hnone] at hdevice
      nomatch hdevice
    · rw [← hfs, ← hname] at heq
      exact h.eq_of_imagePath he' he heq ▸ hblock
  refine wp_run_bind.2 ⟨hsafe, fun r t ht => ?_⟩
  have hinv := h.change hsafe ht.1.change
  refine ih _ _ hinv hapart ?_ ?_
  · rcases ht.1 with ⟨-, device, -, -, -, rfl⟩ | ⟨-, rfl⟩
    · exact hrest
    · exact hrest
  intro sv' hsv' id' hid'
  rw [hothers sv' hsv' id' hid']
  rcases ht.1 with ⟨-, device, -, -, -, rfl⟩ | ⟨-, rfl⟩
  · rw [World.deviceOf_attach, update_of_ne (happart sv' hsv').2.symm]
  · rfl

theorem restoreBody_safe (h : Inv w) : restoreBody.wp safe (fun _ t => Inv t) w := by
  refine wp_bind.2 (wp_attempt.2 ((listAll_safe h).imp ?_))
  rintro r w ⟨rfl, hall⟩
  rw [after_ok]
  split
  · exact h
  rename_i all
  obtain rfl := hall all rfl
  have hsvs : ∀ sv ∈ w.reportAll.filter (·.subvolumeType = .block),
      ∃ e ∈ w.tree, e.At sv.filesystem sv.name ∧ e.subvolumeType = .block := by
    intro sv hsv
    obtain ⟨hmem, hblock⟩ := mem_filter.1 hsv
    obtain ⟨f, -, hsv⟩ := mem_flatMap.1 hmem
    obtain ⟨e, he, -, rfl⟩ := mem_report hsv
    exact ⟨e, he, ⟨rfl, rfl⟩, of_decide_eq_true hblock⟩
  have hapart := h.reportAll_apart.sublist (filter_sublist (p := (·.subvolumeType = .block)))
  refine wp_bind.2 ((wp_collect fun sv hsv => observeExisting_safe h ?_).imp ?_)
  · obtain ⟨e, he, hat, -⟩ := hsvs sv hsv
    exact ⟨e, he, hat⟩
  rintro r _ ⟨rfl, hfound⟩
  cases r with
  | error e => exact h
  | ok found =>
  obtain rfl := hfound found rfl
  refine wp_run_bind.2 ⟨trivial, ?_⟩
  intro r t ht
  obtain rfl : t = _ := ht.1
  split
  · exact h
  · exact restoreEach_safe _ _ _ h hapart hsvs fun sv hsv id hid =>
      insertAll_observed hapart hsv hid

theorem restoreBlockDevices_safe (h : Inv w) :
    restoreBlockDevices.wp safe (fun _ t => Inv t) w := by
  refine wp_run_bind.2 ⟨trivial, ?_⟩
  rintro _ _ ⟨⟨-, rfl⟩, -⟩
  have h : Inv { w with restoring := true } := { h with }
  refine wp_bind.2 (wp_attempt.2 ((restoreBody_safe h).imp fun r t ht => ?_))
  refine wp_run_bind.2 ⟨trivial, ?_⟩
  rintro _ _ ⟨rfl, -⟩
  exact { ht with }

/-! ## Sequences of calls -/

def Op.handlesLoops : Op → Bool
  | create .. | createVmDisk .. | delete .. | attach .. | detach .. | restoreBlockDevices => true
  | cloneSnapshot .. | cloneSubvolume .. | rollback .. => false

inductive Call
  | op (o : Op) (r : Except SubvolumeError Unit)
  /-- The engine starts again, and perhaps the machine. -/
  | restart (reboot : Bool)

def CallStep (w : World) : Call → World → Prop
  | .op o r, w' => o.handlesLoops ∧ Exec AnswersListed o.body w r w'
  | .restart reboot, w' =>
    w' = { w with held := [], restoring := false, loops := if reboot then [] else w.loops }

def Call.Plain : Call → Prop
  | op (.create req _) _ => req.subvolumeType = .block → hasWhitespace req.name = false
  | op (.createVmDisk _ name ..) _ => hasWhitespace name = false
  | _ => True

theorem body_safe {o : Op} {r : Except SubvolumeError Unit} (ho : o.handlesLoops)
    (hplain : (Call.op o r).Plain) (h : Inv w) : o.body.wp safe (fun _ t => Inv t) w := by
  cases o with
  | create req owner => exact wp_map.2 (createInner_safe req owner false h hplain)
  | createVmDisk fs name bytes owner =>
    exact wp_map.2 (createVmDisk_safe fs name bytes owner h hplain)
  | delete fs name filter => exact (delete_safe h fs name filter).imp fun _ _ ht => ht.1
  | attach fs name filter => exact wp_map.2 (attach_safe h fs name filter)
  | detach fs name filter => exact wp_map.2 (detach_safe h fs name filter)
  | restoreBlockDevices => exact wp_map.2 (restoreBlockDevices_safe h)
  | cloneSnapshot | cloneSubvolume | rollback => nomatch ho

theorem Inv.of_loops_eq_nil (h : WellFormed w) (hloops : w.loops = []) : Inv w := by
  refine { h with devices := ?_, tokens := ?_, images := ?_, attached := ?_ } <;> simp [hloops]

theorem Inv.step {c : Call} (h : Inv w) (hstep : CallStep w c w') (hplain : c.Plain) : Inv w' := by
  cases c with
  | op o r => exact hstep.2.of_wp (I := safe) (body_safe hstep.1 hplain h)
  | restart reboot =>
  rw [show w' = _ from hstep]
  cases reboot with
  | true => exact .of_loops_eq_nil { h with } rfl
  | false => exact { h with }

structure Reported (w : World) (fs : Name) (svs : List Subvolume) : Prop where
  all : ∀ e ∈ w.tree, e.filesystem = fs → e.listed → ∃ sv ∈ svs, sv.name = e.name
  device : ∀ sv ∈ svs, ∀ device, sv.blockDevice = some device ↔
    (device, imagePath fs sv.name) ∈ w.loops

theorem Inv.reported (h : Inv w) (f : Filesystem) : Reported w f.name (w.report f none) := by
  constructor
  · intro e he hfs hlisted
    refine ⟨_, mem_map_of_mem (mem_filter.2 ⟨mem_filter.2 ⟨he, ?_⟩, ?_⟩), rfl⟩
    · exact decide_eq_true hfs
    · simpa using hlisted
  intro sv hsv device
  obtain ⟨e, he, hfs, rfl⟩ := mem_report hsv
  rw [← hfs]
  exact h.blockDevice_eq_some he f

/-- **One device.** Without whitespace in names every image has at most one device, which `list`
reports and `delete` removes. -/
theorem one_device_of_each_image {w₀ : World} {cs : List Call} (hw₀ : WellFormed w₀)
    (hloops : w₀.loops = []) (hrun : Run (fun w c w' => CallStep w c w' ∧ c.Plain) w₀ cs w) :
    (w.loops.map Prod.snd).Nodup ∧
      (∀ fs svs w', Exec AnswersListed (list fs none) w (.ok svs) w' → Reported w fs svs) ∧
      ∀ fs name filter w', CallStep w (.op (.delete fs name filter) (.ok ())) w' →
        imagePath fs name ∉ w'.loops.map Prod.snd := by
  have h : Inv w := hrun.inv (.of_loops_eq_nil hw₀ hloops) fun _ _ _ h hstep =>
    h.step hstep.1 hstep.2
  refine ⟨h.images, fun fs svs w' hlist => ?_, fun fs name filter w' hdelete => ?_⟩
  · obtain ⟨-, hsvs⟩ := hlist.of_wp (I := safe) (list_safe h fs none)
    obtain ⟨f, -, rfl, rfl⟩ := hsvs svs rfl
    exact h.reported f
  · exact (hdelete.2.of_wp (I := safe) (delete_safe h fs name filter)).2 rfl

/-! ## One disk -/

def diskWorld (name : Name) : World where
  filesystems := [tank]
  tree := [{ Entry.new tank.name name (some 5) with nastyType := some .block, image := true }]
  loops := []
  held := []
  restoring := false

theorem obliging_listed : Sound AnswersListed (fun _ => True) obliging := by
  intro c w r t hw h
  refine ⟨⟨(obliging_sound c w r t hw h).1, ?_⟩, trivial⟩
  cases c with
  | losetupList =>
    cases h
    rfl
  | _ => trivial

/-- What is seen of a call on the machine. -/
theorem exists_call {o : Op} {w : World} {Q : World → Bool} (ho : o.handlesLoops)
    (h : (o.body.play obliging w).any fun a => a.1.isOk && Q a.2) :
    ∃ w', CallStep w (.op o (.ok ())) w' ∧ Q w' := by
  obtain ⟨r, w', hexec, -, hQ⟩ := obliging_listed.exists_exec trivial h
  rw [Bool.and_eq_true] at hQ
  rcases r with e | _
  · nomatch hQ.1
  · exact ⟨w', ⟨ho, hexec⟩, hQ.2⟩

theorem one_device_of_each_image_disk : ∃ cs w,
    Run (fun w c w' => CallStep w c w' ∧ c.Plain) (diskWorld "disk".toList) cs w ∧
    w.loops = [(loop0, imagePath tank.name "disk".toList)] ∧ (w.loops.map Prod.snd).Nodup ∧
    (∀ fs svs w', Exec AnswersListed (list fs none) w (.ok svs) w' → Reported w fs svs) ∧
    ∀ fs name filter w', CallStep w (.op (.delete fs name filter) (.ok ())) w' →
      imagePath fs name ∉ w'.loops.map Prod.snd := by
  have hw₀ : WellFormed (diskWorld "disk".toList) := by
    refine ⟨?_, ?_, ?_, ?_, ?_, ?_, ?_⟩
    · rintro f hf
      rw [mem_singleton.1 hf]
      exact ⟨⟨by decide, hasWhitespace_eq_false.1 (by decide)⟩, by decide⟩
    · exact nodup_singleton _
    · exact nodup_singleton _
    · rintro e he
      rw [mem_singleton.1 he]
      exact mem_singleton_self _
    · exact nodup_singleton _
    · exact pairwise_singleton ..
    · rintro e he -
      rw [mem_singleton.1 he]
      decide
  obtain ⟨w, hattach, hloops⟩ := exists_call (o := .attach tank.name "disk".toList none)
    (w := diskWorld "disk".toList)
    (Q := fun w => w.loops = [(loop0, imagePath tank.name "disk".toList)]) rfl (by decide +kernel)
  have hrun : Run (fun w c w' => CallStep w c w' ∧ c.Plain) (diskWorld "disk".toList) _ w :=
    .snoc .nil ⟨hattach, trivial⟩
  exact ⟨_, w, hrun, of_decide_eq_true hloops, one_device_of_each_image hw₀ rfl hrun⟩

/-- A disk with a blank in its name is attached twice, `list` shows none of its devices, and they
stay when it is deleted. -/
theorem two_devices_of_one_image : validateSubvolumeName "my disk".toList = .ok () ∧
    ∃ cs w, Run CallStep (diskWorld "my disk".toList) cs w ∧
      ¬ (w.loops.map Prod.snd).Nodup ∧
      (∃ svs w', Exec AnswersListed (list tank.name none) w (.ok svs) w' ∧
        ¬ Reported w tank.name svs) ∧
      ∃ w', CallStep w (.op (.delete tank.name "my disk".toList none) (.ok ())) w' ∧
        imagePath tank.name "my disk".toList ∈ w'.loops.map Prod.snd := by
  refine ⟨by decide, ?_⟩
  let attach : Op := .attach tank.name "my disk".toList none
  let delete : Op := .delete tank.name "my disk".toList none
  let shown (w : World) : Bool := ((list tank.name none).play obliging w).any fun a =>
    match a.1 with
    | .ok svs => svs.any fun sv =>
        sv.blockDevice = none ∧ (loop0, imagePath tank.name sv.name) ∈ w.loops
    | .error _ => false
  let left (w : World) : Bool := (delete.body.play obliging w).any fun a =>
    a.1.isOk && decide (imagePath tank.name "my disk".toList ∈ a.2.loops.map Prod.snd)
  let twice (w : World) : Bool := ¬ (w.loops.map Prod.snd).Nodup && shown w && left w
  obtain ⟨w₁, hfirst, hw₁⟩ := exists_call (o := attach) (w := diskWorld "my disk".toList)
    (Q := fun w => (attach.body.play obliging w).any fun a => a.1.isOk && twice a.2) rfl
    (by decide +kernel)
  obtain ⟨w, hsecond, hw⟩ := exists_call (o := attach) (Q := twice) rfl hw₁
  simp only [twice, Bool.and_eq_true, decide_eq_true_eq] at hw
  obtain ⟨⟨htwice, hshown⟩, hleft⟩ := hw
  obtain ⟨r, w', hlist, -, hr⟩ := obliging_listed.exists_exec trivial hshown
  obtain ⟨w'', hdelete, hloops⟩ := exists_call (o := delete)
    (Q := fun w => imagePath tank.name "my disk".toList ∈ w.loops.map Prod.snd) rfl hleft
  rcases r with e | svs
  · nomatch hr
  refine ⟨_, w, .snoc (.snoc .nil hfirst) hsecond, htwice, ⟨svs, w', hlist, fun h => ?_⟩, w'',
    hdelete, of_decide_eq_true hloops⟩
  obtain ⟨sv, hsv, hnone⟩ := any_eq_true.1 hr
  obtain ⟨hnone, hmem⟩ := of_decide_eq_true hnone
  exact nomatch hnone.symm.trans ((h.device sv hsv loop0).2 hmem)

end Nasty.Subvolumes
