import Nasty.Subvolumes.World

/-!
# No deletion above a subvolume

`delete` and `rollback` list the children of a subvolume before they delete it. A process knows
that a name has no children from its own listing only, and each of the two deletes only what it
knows this of (`body_wp`). The knowledge is as good as the listing and as recent:

1. `childrenOf_ne_nil`: the listing shows a child of every name without whitespace that has one.
2. `Disturbed`: another process may have made a subvolume below the name since the listing. The
   locks are those of single names and do not prevent it.
-/

namespace Nasty.Subvolumes

open Proc Lts List Text

/-! ## The listing -/

theorem Listing.exists_line {paths : List Name} {output path : Name} (h : Listing paths output)
    (hmem : path ∈ paths) {start : Name} (hstart : start <+: path) (htoken : Text.Token start) :
    ∃ rest, ∃ line ∈ lines output,
      splitWhitespace line = splitWhitespace (start ++ rest) := by
  induction h with
  | nil => nomatch hmem
  | @cons p ps c columns out hc hline hrest ih =>
  rcases mem_cons.1 hmem with rfl | hmem
  · obtain ⟨rest, rfl⟩ := hstart
    have hnl : '\n' ∉ start := fun hn => absurd (htoken.2 _ hn) (by decide)
    simp only [append_assoc]
    exact lines_head htoken.1 hnl _
  obtain ⟨rest, line, hmem, hwords⟩ := ih hmem
  refine ⟨rest, line, ?_, hwords⟩
  rw [lines_append_newline]
  exact mem_append_right _ hmem

theorem childrenOf_ne_nil {paths : List Name} {output parent child : Name}
    (h : Listing paths output) (hchild : child ∈ paths) (hbelow : Below parent child)
    (hparent : hasWhitespace parent = false) : childrenOf output parent ≠ [] := by
  have htoken : Text.Token (parent ++ ['/']) := ⟨by simp, forall_mem_append.2
    ⟨hasWhitespace_eq_false.1 hparent, forall_mem_singleton.2 (by decide)⟩⟩
  obtain ⟨rest, line, hline, hsame⟩ := h.exists_line hchild hbelow htoken
  obtain ⟨more, words, hwords⟩ := htoken.splitWhitespace_head rest
  refine ne_nil_of_mem (a := parent ++ ['/'] ++ more) (mem_filter.2 ⟨?_, ?_⟩)
  · refine mem_map.2 ⟨_, hline, ?_⟩
    rw [hsame, hwords]
    rfl
  · simp [Below]

/-! ## What a process knows -/

def Cmd.creates : Cmd → Option (Name × Name)
  | subvolumeCreate fs name => some (fs, name)
  | subvolumeSnapshot fs _ destination _ => some (fs, destination)
  | _ => none

def Cmd.deletes : Cmd → Option (Name × Name)
  | subvolumeDelete fs name => some (fs, name)
  | _ => none

def BelowAt (p q : Name × Name) : Prop := p.1 = q.1 ∧ Below p.2 q.2

/-- The names that a process knows to have no children, after one more command. -/
def clears : (c : Cmd) → Set (Name × Name) → c.Answer → Set (Name × Name)
  | .listRecursive fs, _, .ok output => {p | p.1 = fs ∧ childrenOf output p.2 = []}
  | c, known, _ => {p ∈ known | ∀ q ∈ c.creates, ¬ BelowAt p q}

/-- A process deletes what it knows to have no children. -/
def Informed (c : Cmd) (known : Set (Name × Name)) : Prop := ∀ p ∈ c.deletes, p ∈ known

abbrev informed : Contract Cmd Cmd.Answer (Set (Name × Name)) := learning clears Informed

variable {p : Name × Name} {known : Set (Name × Name)} {α : Type} {c : Cmd}

/-- A command that deletes nothing and makes nothing below `p`. -/
structure Cmd.Spares (p : Name × Name) (c : Cmd) : Prop where
  deletes : c.deletes = none
  creates : ∀ q ∈ c.creates, ¬ BelowAt p q
  lists : ∀ fs, c ≠ .listRecursive fs

theorem Cmd.Spares.of_passive (h : c.passive) : c.Spares p := by
  cases c with
  | filesystem | mounted | listSubvolumes | losetupList | pathExists | imageExists | attributes
  | pathIdentity | namespaceDirectory | legacyEvidence | unixTime | other =>
    exact ⟨rfl, fun q hq => absurd hq (Option.not_mem_none q), fun _ => Cmd.noConfusion⟩
  | _ => nomatch h

variable {proc : Service α}

theorem wp_of_spares (h : proc.Only (Cmd.Spares p)) (hp : p ∈ known) :
    proc.wp informed (fun _ known => p ∈ known) known := by
  refine h.wp (fun c hc known hp => ⟨by simp [learning, Informed, hc.deletes], ?_⟩) hp
  rintro r _ rfl
  cases c with
  | listRecursive fs => exact absurd rfl (hc.lists fs)
  | _ => exact ⟨hp, hc.creates⟩

theorem wp_of_no_delete (h : proc.Only (·.deletes = none)) :
    proc.wp informed (fun _ _ => True) known :=
  h.wp
    (fun c hc known _ => ⟨by simp [learning, Informed, hc], fun _ _ _ => trivial⟩) trivial

theorem deletes_of_passive (h : c.passive) : c.deletes = none :=
  (Cmd.Spares.of_passive (p := ([], [])) h).deletes

/-! ## What the operations know when they delete -/

variable {fs name : Name} {body : Service α}

theorem wp_locked (h : body.wp informed (fun _ _ => True) known) :
    (locked fs name body).wp informed (fun _ _ => True) known := by
  have hlock : clears (.lockDestination fs name) known () = known := by simp [clears, Cmd.creates]
  unfold locked
  refine wp.seq (J := fun _ k => k = known) ⟨nofun, ?_⟩ (fun _ _ => trivial) fun _ k hk => ?_
  · rintro r _ rfl a -
    exact hlock
  rw [hk]
  refine wp.seq (J := fun _ _ => True) (wp_attempt.2 (h.imp fun _ _ _ _ _ => trivial))
    (fun _ _ => trivial) fun r k _ => ?_
  exact wp_of_no_delete (.call rfl fun _ => only_ofExcept r)

theorem findChildSubvolumes_wp (fs name : Name) :
    (findChildSubvolumes fs name).wp informed
      (fun r known => ∀ children, r = .ok children → children = [] → (fs, name) ∈ known) known := by
  unfold findChildSubvolumes
  refine wp_bind.2 ⟨nofun, ?_⟩
  rintro r _ rfl
  cases r with
  | error e => exact nofun
  | ok output =>
  rintro _ ⟨⟩ hnil
  have hperm := perm_insertionSort (· ≤ ·) (childrenOf output name)
  rw [hnil] at hperm
  exact ⟨rfl, hperm.nil_eq.symm⟩

section Steps

variable {β : Type} {proc : Service α} {g : α → Service β}

theorem seq_no_delete (h : proc.Only (·.deletes = none))
    (hg : ∀ a known, (g a).wp informed (fun _ _ => True) known) :
    (proc >>= g).wp informed (fun _ _ => True) known :=
  .seq (J := fun _ _ => True) ((wp_of_no_delete h).imp fun _ _ _ _ _ => trivial)
    (fun _ _ => trivial) fun a known _ => hg a known

theorem seq_spares (h : proc.Only (Cmd.Spares p)) (hp : p ∈ known)
    (hg : ∀ a known, p ∈ known → (g a).wp informed (fun _ _ => True) known) :
    (proc >>= g).wp informed (fun _ _ => True) known :=
  .seq (J := fun _ known => p ∈ known) ((wp_of_spares h hp).imp fun _ _ h _ _ => h)
    (fun _ _ => trivial) hg

theorem seq_no_children {error : List Name → SubvolumeError} {rest : Service β}
    (h : ∀ known, (fs, name) ∈ known → rest.wp informed (fun _ _ => True) known) :
    (do
      let children ← findChildSubvolumes fs name
      refuse (children ≠ []) (error children)
      rest : Service β).wp informed (fun _ _ => True) known := by
  refine .seq (findChildSubvolumes_wp fs name) (fun _ _ => trivial) fun children known hknown => ?_
  refine .seq (J := fun _ known => (fs, name) ∈ known) ?_ (fun _ _ => trivial) fun _ => h
  intro _ hrefuse
  exact hknown (not_not.1 (Except.refuse_eq_ok.1 hrefuse))

theorem seq_delete {g : Except String Name → Service β}
    (hp : (fs, name) ∈ known) (hg : ∀ r, (g r).Only (·.deletes = none)) :
    (run (.subvolumeDelete fs name) >>= g).wp informed (fun _ _ => True) known := by
  refine .seq (J := fun _ _ => True) ⟨?_, fun _ _ _ _ _ => trivial⟩ (fun _ _ => trivial)
    fun r _ _ => wp_of_no_delete (hg r)
  rintro _ ⟨⟩
  exact hp

end Steps

theorem Only.no_delete (h : proc.Only (·.passive)) :
    proc.Only (·.deletes = none) := h.imp fun _ => deletes_of_passive

theorem Only.spares (h : proc.Only (·.passive)) : proc.Only (Cmd.Spares p) :=
  h.imp fun _ => .of_passive

theorem delete_wp (fs name : Name) (filter : Option Name) :
    (delete fs name filter).wp informed (fun _ _ => True) known := by
  unfold delete
  refine wp_locked (seq_no_delete (Only.no_delete (get_only fs name filter)) fun subvolume _ => ?_)
  refine seq_no_delete (Only.no_delete (filesystemOf_only fs)) fun _ _ => ?_
  refine seq_no_children fun known hp => ?_
  refine seq_spares (p := (fs, name)) ?_ hp fun _ known hp => seq_delete hp fun r => ?_
  · unfold detachForDelete
    split
    · exact .bind (only_run ⟨rfl, nofun, nofun⟩) fun _ => only_ofExcept _
    · exact only_pure _
  · exact .bind (only_orFail _) fun _ => only_onlyIf (.call rfl fun _ => only_pure _)

theorem not_below_snapName (p name : Name) : ¬ Below p (snapName p name) := by
  rintro ⟨rest, hrest⟩
  rw [snapName, append_assoc, append_cancel_left_eq] at hrest
  nomatch hrest

theorem createSnapshotLocked_only (fs subvolume name : Name) (filter : Option Name) :
    (createSnapshotLocked fs subvolume name filter).Only (Cmd.Spares (fs, subvolume)) := by
  have hget := Only.spares (p := (fs, subvolume)) (get_only fs subvolume filter)
  unfold createSnapshotLocked
  refine .bind hget fun _ => .bind (Only.spares (filesystemOf_only fs)) fun _ => ?_
  refine .bind (only_run (.of_passive rfl)) fun _ => .bind (only_ofExcept _) fun _ => ?_
  refine .bind (only_run (.of_passive rfl)) fun _ => .bind (only_ofExcept _) fun _ => ?_
  refine .bind hget fun live => .bind ?_ fun _ => .bind (only_run ⟨rfl, ?_, nofun⟩) fun _ =>
    .bind (only_orFail _) fun _ => .bind (only_run (.of_passive rfl)) fun _ => only_pure _
  · unfold flush
    split
    · exact .bind (only_run (.of_passive rfl)) fun _ => only_pure _
    · exact only_pure _
  · rintro _ ⟨⟩ hbelow
    exact not_below_snapName subvolume name hbelow.2

/-! ## The operations that delete nothing -/

theorem attachCopy_only (fs name : Name) (type : SubvolumeType) (directIo : Bool) :
    (attachCopy fs name type directIo).Only (·.deletes = none) :=
  only_onlyIf (.call rfl fun _ => only_onlyIf
    (only_checked rfl fun _ => only_pure _))

theorem materializeSubvolFromSnapshot_only (fs snapshot destination : Name) (filter : Option Name) :
    (materializeSubvolFromSnapshot fs snapshot destination filter).Only (·.deletes = none) :=
  only_checked rfl fun _ => .call rfl fun _ =>
    .bind (only_each fun _ _ => setXattr_only rfl) fun _ => attachCopy_only ..

variable (req : CreateSubvolumeRequest) (owner : Option Name) (fs subvolume snapshot : Name)

theorem provisionBlock_only (volsize : ℕ) :
    (provisionBlock req volsize).Only (·.deletes = none) := by
  unfold provisionBlock
  refine .call rfl fun _ => .bind (orQuarantine_only fun _ _ => rfl) fun _ => ?_
  refine .call rfl fun _ => .bind (orQuarantine_only fun _ _ => rfl) fun _ => ?_
  refine .call rfl fun _ => ?_
  refine .call rfl fun _ => .bind (orQuarantine_only fun _ _ => rfl) fun output => ?_
  refine .bind (orQuarantine_only fun _ _ => rfl) fun _ => ?_
  split
  · exact only_pure _
  · exact .bind (Only.no_delete (initializeBlockFilesystem_only ..)).attempt fun _ =>
      .bind (orQuarantine_only fun _ _ => rfl) fun _ => only_pure _

theorem createNew_only : (createNew req owner).Only (·.deletes = none) := by
  unfold createNew
  refine only_checked rfl fun _ => ?_
  refine only_checked rfl fun _ => ?_
  refine .call rfl fun _ => .bind (orQuarantine_only fun _ _ => rfl) fun _ => ?_
  refine .call rfl fun _ => .bind (orQuarantine_only fun _ _ => rfl) fun _ => ?_
  refine .bind (only_each fun _ _ => .call rfl fun _ => only_pure _) fun _ => ?_
  refine .bind (only_onlyIf (.call rfl fun _ => only_pure _)) fun _ => ?_
  refine .bind ?_ fun _ => ?_
  · unfold provision
    split
    · exact only_pure _
    · exact provisionBlock_only ..
  refine .bind (Only.attempt (only_each fun _ _ => setXattr_only rfl)) fun _ =>
    .bind (orQuarantine_only fun _ _ => rfl) fun _ => ?_
  refine .call rfl fun _ => .bind (orQuarantine_only fun _ _ => rfl) fun _ => ?_
  refine .bind (only_onlyIf (.call rfl fun _ => only_pure _)) fun _ => ?_
  exact .bind (Only.no_delete (get_only ..)) fun _ => only_pure _

theorem createInner_only (nested : Bool) :
    (createInner req owner nested).Only (·.deletes = none) := by
  refine .bind (only_ofExcept _) fun _ => locked_only rfl rfl ?_
  refine .bind (Only.no_delete (filesystemOf_only _)) fun _ => ?_
  refine .bind (only_onlyIf (.call rfl only_ofExcept)) fun _ => ?_
  refine .call rfl fun present => ?_
  split
  · exact Only.no_delete (createExisting_only req owner)
  · exact createNew_only req owner

theorem createVmDisk_only (fs name : Name) (bytes : ℕ) (owner : Option Name) :
    (createVmDisk fs name bytes owner).Only (·.deletes = none) :=
  .bind (only_ofExcept _) fun _ => locked_only rfl rfl
    (.bind (Only.no_delete (get_only ..)).attempt fun _ => .bind (only_ofExcept _) fun _ =>
      createInner_only ..)

theorem attach_only (fs name : Name) (filter : Option Name) :
    (attach fs name filter).Only (·.deletes = none) := by
  refine locked_only rfl rfl (.bind (Only.no_delete (get_only ..)) fun subvolume => ?_)
  refine .bind (only_ofExcept _) fun _ => ?_
  split
  · exact only_pure _
  · exact only_checked rfl fun _ => Only.no_delete (get_only ..)

theorem detach_only (fs name : Name) (filter : Option Name) :
    (detach fs name filter).Only (·.deletes = none) := by
  refine locked_only rfl rfl (.bind (Only.no_delete (get_only ..)) fun subvolume => ?_)
  split
  · exact only_checked rfl fun _ => Only.no_delete (get_only ..)
  · exact Only.no_delete (get_only ..)

theorem checkCloneSource_only (fs newName source : Name) :
    (checkCloneSource fs newName source).Only (·.deletes = none) :=
  .call rfl fun _ => only_ofExcept _

theorem checkIdentity_only (fs source newName identity : Name) (what : String) :
    (checkIdentity fs source newName identity what).Only (·.deletes = none) :=
  only_checked rfl fun _ => only_ofExcept _

theorem cloneSnapshotLocked_only (fs subvolume snapshot newName : Name) (filter : Option Name)
    (override : Bool) :
    (cloneSnapshotLocked fs subvolume snapshot newName filter override).Only
      (·.deletes = none) := by
  unfold cloneSnapshotLocked
  refine .bind (Only.no_delete (get_only ..)).attempt fun _ => ?_
  refine .bind (only_ofExcept _) fun parent => .bind (only_ofExcept _) fun _ => ?_
  refine .bind (Only.no_delete (filesystemOf_only fs)) fun _ => ?_
  refine .call rfl fun _ => .bind (only_ofExcept _) fun _ => ?_
  refine .call rfl fun _ => .bind (only_ofExcept _) fun _ => ?_
  refine only_checked rfl fun _ => ?_
  refine .call rfl fun present => ?_
  split
  · exact .bind (Only.no_delete (get_only ..)) fun _ => .bind (checkCloneSource_only ..) fun _ =>
      only_pure _
  · exact .bind (materializeSubvolFromSnapshot_only ..) fun _ =>
      .bind (checkIdentity_only ..) fun _ => .bind (setXattr_only rfl) fun _ =>
        Only.no_delete (get_only ..)

theorem lockedAll_only (fs : Name) (names : List Name) (h : body.Only (·.deletes = none)) :
    (lockedAll fs names body).Only (·.deletes = none) := by
  unfold lockedAll
  induction (names.insertionSort (· ≤ ·)).dedup with
  | nil => exact h
  | cons name names ih => exact locked_only rfl rfl ih

theorem cloneSubvolumeLocked_only (fs name newName : Name) (filter : Option Name) :
    (cloneSubvolumeLocked fs name newName filter).Only (·.deletes = none) := by
  unfold cloneSubvolumeLocked
  refine .bind (Only.no_delete (get_only ..)) fun parent => ?_
  refine .bind (Only.no_delete (filesystemOf_only fs)) fun _ => ?_
  refine .call rfl fun _ => .bind (only_ofExcept _) fun _ => ?_
  refine only_checked rfl fun _ => ?_
  refine .call rfl fun present => ?_
  split
  · exact .bind (checkCloneSource_only ..) fun _ => Only.no_delete (get_only ..)
  refine .bind (Only.no_delete (flush_only parent)) fun _ => ?_
  refine only_checked rfl fun _ => ?_
  refine .bind (checkIdentity_only ..) fun _ => ?_
  refine .bind (only_each fun _ _ => setXattr_only rfl) fun _ => ?_
  refine .bind (setXattr_only rfl) fun _ => ?_
  exact .bind (attachCopy_only ..) fun _ => Only.no_delete (get_only ..)

theorem restoreEach_only (evidence : List (Name × BlockVolumeId))
    (existing : BlockVolumeId → Option Name) (mappings : BlockDeviceMappings)
    (subvolumes : List Subvolume) :
    (restoreEach evidence existing mappings subvolumes).Only (·.deletes = none) := by
  induction subvolumes generalizing existing mappings with
  | nil => exact only_pure _
  | cons subvolume rest ih =>
  unfold restoreEach
  split
  · exact ih ..
  refine .call rfl fun found => ?_
  split
  · exact ih ..
  · exact ih ..
  · exact .call rfl fun _ => ih ..

theorem restoreBlockDevices_only : restoreBlockDevices.Only (·.deletes = none) := by
  refine .call rfl fun _ => .bind (Only.attempt ?_) fun _ =>
    .call rfl fun _ => only_ofExcept _
  refine .bind (Only.no_delete listAll_only).attempt fun all => ?_
  split
  · exact only_pure _
  refine .bind (Only.no_delete (only_collect observeExisting_only)) fun _ =>
    .call rfl fun _ => ?_
  split
  · exact only_pure _
  · exact restoreEach_only ..

/-! ## Rollback and all operations -/

theorem rollbackChecks_only (filter : Option Name) (override : Bool) :
    (rollbackChecks fs subvolume snapshot filter override).Only (·.passive) :=
  .bind (get_only ..) fun _ => .bind (only_ofExcept _) fun _ =>
    .bind (filesystemOf_only fs) fun _ =>
      .call rfl fun _ => .bind (only_ofExcept _) fun _ =>
        .call rfl fun _ => .bind (only_ofExcept _) fun _ => only_pure _

theorem rollback_wp (filter : Option Name) (override : Bool) :
    (rollback fs subvolume snapshot filter override).wp informed (fun _ _ => True) known := by
  unfold rollback
  refine seq_no_delete (only_ofExcept _) fun _ _ => wp_locked ?_
  refine seq_no_delete (Only.no_delete (rollbackChecks_only ..)) fun live _ => ?_
  refine seq_no_children fun known hp => ?_
  refine seq_spares (only_run (.of_passive rfl)) hp fun now known hp => ?_
  refine seq_spares (createSnapshotLocked_only ..) hp fun _ known hp => ?_
  refine seq_delete hp fun _ => .bind (only_orFail _) fun _ => ?_
  exact .bind (materializeSubvolFromSnapshot_only ..).attempt fun _ =>
    .bind (only_ofExcept _) fun _ => .call rfl fun _ =>
      .bind (Only.no_delete (get_only ..)) fun _ => only_pure _

theorem body_wp (op : Op) : op.body.wp informed (fun _ _ => True) known := by
  cases op with
  | create req owner => exact wp_of_no_delete (createInner_only ..).void
  | createVmDisk fs name bytes owner => exact wp_of_no_delete (createVmDisk_only ..).void
  | delete fs name filter => exact delete_wp ..
  | attach fs name filter => exact wp_of_no_delete (attach_only ..).void
  | detach fs name filter => exact wp_of_no_delete (detach_only ..).void
  | cloneSnapshot fs subvolume snapshot newName filter override =>
    exact wp_of_no_delete (Only.void (.bind (only_ofExcept _) fun _ =>
      .bind (only_ofExcept _) fun _ => lockedAll_only fs _ (cloneSnapshotLocked_only ..)))
  | cloneSubvolume fs name newName filter =>
    exact wp_of_no_delete (Only.void (.bind (only_ofExcept _) fun _ =>
      .bind (only_ofExcept _) fun _ => locked_only rfl rfl (cloneSubvolumeLocked_only ..)))
  | rollback fs subvolume snapshot filter override => exact wp_map.2 (rollback_wp ..)
  | restoreBlockDevices => exact wp_of_no_delete restoreBlockDevices_only.void

/-! ## Every interleaving -/

abbrev Event := Proc.Event Op Cmd Cmd.Answer

abbrev Pool := Proc.Pool World Cmd Cmd.Answer SubvolumeError Unit

def Step : Pool → Event → Pool → Prop := Proc.Step machine Op.body

def Lists (i : ℕ) (fs : Name) : Event → Prop
  | .call j (.listRecursive fs') (.ok _) => j = i ∧ fs' = fs
  | _ => False

def Disturbs (i : ℕ) (p : Name × Name) : Event → Prop
  | .call j c _ => j ≠ i ∧ ∃ q ∈ c.creates, BelowAt p q
  | .spawn .. => False

/-- Another process has called for a subvolume strictly below `p` since process `i` last listed
the children. -/
def Disturbed (i : ℕ) (p : Name × Name) (es : List Event) : Prop :=
  ∃ before e after, es = before ++ e :: after ∧ Disturbs i p e ∧ ∀ e ∈ after, ¬ Lists i p.1 e

def World.NoChild (w : World) (p : Name × Name) : Prop :=
  ∀ e ∈ w.tree, ¬ BelowAt p (e.filesystem, e.name)

variable {i : ℕ} {es : List Event} {e : Event} {w w' : World} {r : c.Answer}

theorem Disturbed.concat (h : Disturbed i p es) (he : ¬ Lists i p.1 e) :
    Disturbed i p (es ++ [e]) := by
  obtain ⟨before, d, after, rfl, hd, hafter⟩ := h
  exact ⟨before, d, after ++ [e], by simp, hd,
    forall_mem_append.2 ⟨hafter, forall_mem_singleton.2 he⟩⟩

theorem disturbed_of_disturbs (h : Disturbs i p e) : Disturbed i p (es ++ [e]) :=
  ⟨es, e, [], rfl, h, fun _ he => absurd he not_mem_nil⟩

theorem Answers.mem_tree (h : Answers c w r w') {e : Entry} (he : e ∈ w'.tree) :
    (∃ e' ∈ w.tree, (e'.filesystem, e'.name) = (e.filesystem, e.name)) ∨
      c.creates = some (e.filesystem, e.name) := by
  cases h.change with
  | locks | attach | detach => exact .inl ⟨e, he, rfl⟩
  | create =>
    rcases mem_append.1 he with he | he
    · exact .inl ⟨e, he, rfl⟩
    · rw [mem_singleton.1 he]
      exact .inr rfl
  | snapshot _ _ _ hat =>
    rcases mem_append.1 he with he | he
    · exact .inl ⟨e, he, rfl⟩
    · rw [mem_singleton.1 he, ← hat.1]
      exact .inr rfl
  | remove => exact .inl ⟨e, mem_of_mem_filter he, rfl⟩
  | image | xattr =>
    obtain ⟨e', he', rfl⟩ := mem_map.1 he
    refine .inl ⟨e', he', ?_⟩
    split_ifs <;> simp

theorem World.NoChild.step (h : Answers c w r w') (hw : w.NoChild p)
    (hc : ∀ q ∈ c.creates, ¬ BelowAt p q) : w'.NoChild p := by
  intro e he
  rcases h.mem_tree he with ⟨e', he', heq⟩ | hcreates
  · rw [← heq]
    exact hw e' he'
  · exact hc _ hcreates

theorem of_mem_clears (h : p ∈ clears c known r) (hlists : ¬ Lists i p.1 (.call i c r)) :
    p ∈ known ∧ ∀ q ∈ c.creates, ¬ BelowAt p q := by
  cases c with
  | listRecursive fs =>
    cases r with
    | ok output => exact absurd ⟨rfl, h.1.symm⟩ hlists
    | error e => exact h
  | _ => exact h

theorem noChild_of_listing {fs : Name} {r : Except String Name}
    (h : Answers (.listRecursive fs) w r w') (hp : p ∈ clears (.listRecursive fs) known r)
    (hlists : Lists i p.1 (.call i (.listRecursive fs) r))
    (hname : hasWhitespace p.2 = false) : w'.NoChild p := by
  obtain ⟨rfl, houtput⟩ := h
  cases r with
  | error e => exact absurd hlists id
  | ok output =>
  obtain ⟨paths, hperm, hlisting⟩ := houtput output rfl
  rintro e he ⟨hfs, hbelow⟩
  refine childrenOf_ne_nil hlisting (hperm.mem_iff.2 ?_) hbelow hname hp.2
  exact mem_map_of_mem (mem_filter.2 ⟨he, by simpa [hp.1] using hfs.symm⟩)

/-- What a process knows to have no children has none, as long as the name holds no whitespace
and nobody else disturbs it. -/
theorem run_noChild {w₀ : World} {w : Pool} (h : Run Step (.init w₀) es w)
    (hname : hasWhitespace p.2 = false) (hp : p ∈ learnt clears ∅ i es)
    (hquiet : ¬ Disturbed i p es) : w.shared.NoChild p := by
  induction h with
  | nil => exact absurd hp (Set.notMem_empty p)
  | @snoc es w e w' hrun hstep ih =>
  rw [learnt_concat] at hp
  cases e with
  | spawn j op =>
    rw [hstep.2.1]
    exact ih hp fun hd => hquiet (hd.concat id)
  | call j c r =>
  obtain ⟨next, -, hpost, -⟩ := hstep
  by_cases hj : j = i
  · -- its own call: a new listing, or nothing below `p`
    simp only [hj] at hp
    by_cases hlists : Lists i p.1 (.call i c r)
    · cases c with
      | listRecursive fs => exact noChild_of_listing hpost hp hlists hname
      | _ => exact absurd hlists id
    · obtain ⟨hp, hcreates⟩ := of_mem_clears hp hlists
      refine (ih hp fun hd => hquiet (hd.concat ?_)).step hpost hcreates
      rwa [hj]
  · -- the call of another process: not below `p`
    simp only [hj] at hp
    have hlists : ¬ Lists i p.1 (.call j c r) := by
      intro hlists
      cases c with
      | listRecursive fs =>
        cases r with
        | ok output => exact hj hlists.1
        | error e => exact hlists
      | _ => exact hlists
    refine (ih hp fun hd => hquiet (hd.concat hlists)).step hpost fun q hq hbelow => ?_
    exact hquiet (disturbed_of_disturbs ⟨hj, q, hq, hbelow⟩)

/-- **No deletion above a subvolume,** for a name without whitespace, if no other process has made
one below it since the listing. -/
theorem no_child_at_delete {w₀ : World} {es : List Event} {w w' : Pool} {i : ℕ} {fs name : Name}
    {r : Except String Name} (hrun : Run Step (.init w₀) es w)
    (hdelete : Step w (.call i (.subvolumeDelete fs name) r) w')
    (hname : hasWhitespace name = false)
    (hquiet : ¬ Disturbed i (fs, name) es) : w.shared.NoChild (fs, name) :=
  run_noChild hrun hname (run_allowed (fun op => body_wp op) hrun hdelete (fs, name) rfl) hquiet

/-! ## Runs of one filesystem -/

def worldOf (names : List Name) : World where
  filesystems := [tank]
  tree := names.map fun name => { Entry.new tank.name name none with nastyType := some .filesystem }
  loops := []
  held := []
  restoring := false

theorem not_disturbed_of_forall (h : ∀ e ∈ es, ¬ Disturbs i p e) : ¬ Disturbed i p es := by
  rintro ⟨before, e, after, rfl, he, -⟩
  exact h e (by simp) he

/-- Process 0 is about to delete. -/
def deletesNext (p : Name × Name) (w : Pool) : Bool :=
  match w.procs 0 with
  | some (.call c _) => c.deletes = some p
  | _ => false

theorem step_delete {w : Pool} (h : deletesNext p w) :
    ∃ w' r, Step w (.call 0 (.subvolumeDelete p.1 p.2) r) w' := by
  unfold deletesNext at h
  split at h
  · next c next hi =>
    cases c with
    | subvolumeDelete fs name =>
      cases of_decide_eq_true h
      exact ⟨⟨w.shared.remove fs name, w.put 0 (next (.ok []))⟩, .ok [], next, hi, .inl rfl, rfl⟩
    | _ => nomatch of_decide_eq_true h
  · nomatch h

/-- A deletion up to the command that deletes. -/
def deleteTurns (name : Name) : List (ℕ × Option Op) :=
  (0, some (.delete tank.name name none)) :: List.replicate 6 (0, none)

theorem no_child_at_delete_data : ∃ es w w' r, Run Step (.init (worldOf ["data".toList])) es w ∧
    Step w (.call 0 (.subvolumeDelete tank.name "data".toList) r) w' ∧
    w.shared.NoChild (tank.name, "data".toList) := by
  have hturns : ((deleteTurns "data".toList).foldlM (Pool.turn obliging Op.body)
      (.init (worldOf ["data".toList]))).any (deletesNext (tank.name, "data".toList)) := by
    decide +kernel
  obtain ⟨es, w, hrun, hnext, hprocess⟩ := obliging_sound.exists_run (I := machine) trivial hturns
  obtain ⟨w', r, hstep⟩ := step_delete hnext
  refine ⟨es, w, w', r, hrun, hstep, no_child_at_delete hrun hstep (by decide) ?_⟩
  refine not_disturbed_of_forall fun e he hdisturbs => ?_
  have hzero : e.process = 0 := by simpa [deleteTurns] using hprocess e he
  cases e with
  | spawn => exact hdisturbs
  | call => exact hdisturbs.1 hzero

def createRequest (name : Name) : CreateSubvolumeRequest where
  filesystem := tank.name
  name := name
  subvolumeType := .filesystem
  volsizeBytes := none
  compression := none
  comments := none
  directIo := none
  foregroundTarget := none
  backgroundTarget := none
  promoteTarget := none
  metadataTarget := none
  dataReplicas := none
  blockFilesystem := none

def DeletedAboveChild (name : Name) : Prop :=
  validateSubvolumeName name = .ok () ∧ ∃ names es w w' r, Run Step (.init (worldOf names)) es w ∧
    Step w (.call 0 (.subvolumeDelete tank.name name) r) w' ∧
    ¬ w.shared.NoChild (tank.name, name)

theorem deletedAboveChild_of_turns {name : Name} (names : List Name)
    (turns : List (ℕ × Option Op)) (hname : validateSubvolumeName name = .ok ())
    (h : (turns.foldlM (Pool.turn obliging Op.body) (.init (worldOf names))).any fun w =>
      deletesNext (tank.name, name) w &&
        w.shared.tree.any fun e => tank.name = e.filesystem ∧ Below name e.name) :
    DeletedAboveChild name := by
  obtain ⟨es, w, hrun, hw, -⟩ := obliging_sound.exists_run (I := machine) trivial h
  rw [Bool.and_eq_true, any_eq_true] at hw
  obtain ⟨hnext, e, he, hbelow⟩ := hw
  obtain ⟨w', r, hstep⟩ := step_delete hnext
  have hbelow : tank.name = e.filesystem ∧ Below name e.name := of_decide_eq_true hbelow
  exact ⟨hname, names, es, w, w', r, hrun, hstep, fun h => h e he hbelow⟩

/-- A name with a blank is deleted above its child; and so is one without, if the child is made
after the listing. -/
theorem deleted_above_child :
    DeletedAboveChild "my data".toList ∧ DeletedAboveChild "data".toList := by
  constructor
  · exact deletedAboveChild_of_turns ["my data".toList, "my data/photos".toList]
      (deleteTurns "my data".toList) (by decide) (by decide +kernel)
  · exact deletedAboveChild_of_turns ["data".toList]
      (deleteTurns "data".toList ++
        (1, some (.create (createRequest "data/photos".toList) none)) :: List.replicate 5 (1, none))
      (by decide) (by decide +kernel)

end Nasty.Subvolumes
