import Nasty.Sharing.Nvmeof

/-!
# The ids of NVMe-oF ports

A new port gets an id that no port directory of the kernel has, and the id is stored with the
subsystem. Two things keep the stored ids and the directories together:

1. two stored ports have one id exactly if they listen at one address, and no directory says
   otherwise (`Inv`);
2. a port is added only while every stored port has its directory, for it is the directories that
   the new id is chosen against (`Present`).

Then `restore` puts every link where the stored id says (`restore_spec`). A step of the kernel may
fail at any point.
-/

namespace Nasty.Sharing.Nvmeof

open Proc Lts List Function Text
open Subvolumes (Name)

/-! ## The kernel and the state files -/

structure World where
  enabled : Bool
  subsystems : List NvmeofSubsystem
  live : List Name
  ports : ℕ → Option PortDir

def PortDir.write (a : Attr) (value : Name) (d : PortDir) : PortDir :=
  match splitWhitespace value with
  | [] => d
  | word :: _ => { d with attrs := update d.attrs a (some word) }

namespace World

def setPort (portId : ℕ) (d : Option PortDir) (w : World) : World :=
  { w with ports := update w.ports portId d }

def save (s : NvmeofSubsystem) (w : World) : World :=
  { w with subsystems := s :: w.subsystems.filter (·.id ≠ s.id) }

def remove (id : Name) (w : World) : World :=
  { w with subsystems := w.subsystems.filter (·.id ≠ id) }

def mkdirPort (portId : ℕ) (w : World) : World :=
  if (w.ports portId).isSome then w else w.setPort portId (some .empty)

/-- The address of a port that is in use is fixed. -/
def writePort (portId : ℕ) (a : Attr) (value : Name) (w : World) : Option World :=
  (w.ports portId).bind fun d =>
    if d.links = [] then some (w.setPort portId (some (d.write a value))) else none

def rmdirPort (portId : ℕ) (w : World) : Option World :=
  (w.ports portId).bind fun d => if d.links = [] then some (w.setPort portId none) else none

def link (portId : ℕ) (nqn : Name) (w : World) : Option World :=
  (w.ports portId).bind fun d =>
    if nqn ∈ w.live ∧ nqn ∉ d.links then
      some (w.setPort portId (some { d with links := nqn :: d.links }))
    else none

def unlink (portId : ℕ) (nqn : Name) (w : World) : Option World :=
  (w.ports portId).bind fun d =>
    if nqn ∈ d.links then
      some (w.setPort portId (some { d with links := d.links.filter (· ≠ nqn) }))
    else none

def mkdirSubsystem (nqn : Name) (w : World) : World :=
  if nqn ∈ w.live then w else { w with live := nqn :: w.live }

def rmdirSubsystem (nqn : Name) (w : World) : World :=
  { w with live := w.live.filter (· ≠ nqn) }

def reboot (w : World) : World := { w with live := [], ports := fun _ => none }

end World

/-- A step that leads to `after`, or fails and changes nothing. -/
def Effected (w : World) (after : Option World) (r : Except String Unit) (w' : World) : Prop :=
  r.isOk ∧ after = some w' ∨ ¬ r.isOk ∧ w' = w

def Answers : (c : Cmd) → World → c.Answer → World → Prop
  | .protocolEnabled, w, r, w' => w' = w ∧ r = w.enabled
  | .loadAll, w, r, w' => w' = w ∧ ∀ l, r = .ok l → ∀ s, s ∈ l ↔ s ∈ w.subsystems
  | .load id, w, r, w' => w' = w ∧ ∀ s, r = some s → s ∈ w.subsystems ∧ s.id = id
  | .save s, w, r, w' => Effected w (w.save s) r w'
  | .remove id, w, r, w' => Effected w (w.remove id) r w'
  | .readPorts, w, r, w' => w' = w ∧ ∀ e, e ∈ r ↔ w.ports e.1 = some e.2
  | .mkdirPort portId, w, r, w' => Effected w (w.mkdirPort portId) r w'
  | .writePort portId a value, w, r, w' => Effected w (w.writePort portId a value) r w'
  | .rmdirPort portId, w, r, w' => Effected w (w.rmdirPort portId) r w'
  | .portIsEmpty portId, w, r, w' => w' = w ∧ (r ↔ ∀ d, w.ports portId = some d → d.links = [])
  | .isLinked portId nqn, w, r, w' => w' = w ∧ (r ↔ ∃ d, w.ports portId = some d ∧ nqn ∈ d.links)
  | .link portId nqn, w, r, w' => Effected w (w.link portId nqn) r w'
  | .unlink portId nqn, w, r, w' => Effected w (w.unlink portId nqn) r w'
  | .mkdirSubsystem nqn, w, r, w' => Effected w (w.mkdirSubsystem nqn) r w'
  | .rmdirSubsystem nqn, w, r, w' => Effected w (w.rmdirSubsystem nqn) r w' ∧
      (r.isOk → ∀ portId d, w.ports portId = some d → nqn ∉ d.links)
  | .newId, w, _, w' | .nqnForSubsystem _, w, _, w' | .ipRoute _, w, _, w'
  | .deviceExists _, w, _, w' | .other _, w, _, w' => w' = w

def kernel : Contract Cmd Cmd.Answer World := ⟨fun _ _ => True, Answers⟩

/-! ## Runs -/

inductive Op
  | create (req : CreateSubsystemRequest)
  | addPort (req : AddPortRequest)
  | removePort (subsystemId : Name) (portId : ℕ)
  | delete (id : Name)
  | restore
  | protocol (enabled : Bool)
  | reboot

def Op.Runs {α : Type} (p : Service α) (w w' : World) : Prop := ∃ r, Exec Answers p w r w'

def Step (w : World) : Op → World → Prop
  | .create req, w' => Op.Runs (create req) w w'
  | .addPort req, w' => Op.Runs (addPort req) w w'
  | .removePort id portId, w' => Op.Runs (removePort id portId) w w'
  | .delete id, w' => Op.Runs (delete id) w w'
  | .restore, w' => Op.Runs restore w w'
  | .protocol enabled, w' => w' = { w with enabled }
  | .reboot, w' => w' = w.reboot

def World.Fresh (w : World) : Prop := w.subsystems = [] ∧ ∀ portId, w.ports portId = none

def World.Stored (w : World) (p : Port) : Prop := ∃ s ∈ w.subsystems, p ∈ s.ports

/-- The link of a stored port is where its id says, and the directory there is the one for it. -/
def World.Linked (w : World) (nqn : Name) (p : Port) : Prop :=
  ∃ d, w.ports p.portId = some d ∧ d.isAt (listenOf p) ∧ nqn ∈ d.links

def World.Present (w : World) : Prop :=
  ∀ p, w.Stored p → ∃ d, w.ports p.portId = some d ∧ d.isAt (listenOf p)

def World.Room (k : ℕ) (w : World) : Prop :=
  ∀ portId d, w.ports portId = some d → portId + k < 65536

def AddPortRequest.Plain (req : AddPortRequest) : Prop :=
  (∀ a ∈ req.addr, a ≠ [] → Token a) ∧ ∀ f ∈ req.addrFamily, Token f

/-- A port is added only while every stored port has its directory. -/
def Op.Careful (w : World) : Op → Prop
  | .create req => req.devicePath.isSome →
      w.Present ∧ w.Room 2 ∧ ∀ a ∈ req.addr, a ≠ [] → Token a
  | .addPort req => w.Present ∧ w.Room 1 ∧ req.Plain
  | _ => True

/-! ## Directories -/

def PortDir.Toward (d : PortDir) (l : Listen) : Prop :=
  ∀ a, d.attrs a = none ∨ d.attrs a = some (l a)

section Directories

variable {d d' : PortDir} {l l' : Listen} {a : Attr}

theorem PortDir.isAt_iff : d.isAt l ↔ ∀ a, d.attrs a = some (l a) := by
  rw [isAt, all_eq_true]
  exact ⟨fun h a => of_decide_eq_true (h a (by cases a <;> decide)),
    fun h a _ => decide_eq_true (h a)⟩

theorem PortDir.isAt_congr (h : d.attrs = d'.attrs) : d.isAt l ↔ d'.isAt l := by
  rw [isAt_iff, isAt_iff, h]

theorem PortDir.Toward.of_isAt (h : d.isAt l) : d.Toward l := fun a => .inr (isAt_iff.1 h a)

theorem PortDir.toward_empty : PortDir.empty.Toward l := fun _ => .inl rfl

theorem PortDir.Toward.eq (h : d.Toward l) (h' : d.isAt l') : l' = l := by
  funext a
  have ha := isAt_iff.1 h' a
  rcases h a with hnone | hsome
  · exact nomatch ha.symm.trans hnone
  · exact Option.some.inj (ha.symm.trans hsome)

theorem PortDir.write_attrs {v : Name} (h : Token v) :
    (d.write a v).attrs = update d.attrs a (some v) := by
  rw [write, h.splitWhitespace]

theorem PortDir.write_attrs_self (h : ∀ b, Token (l b)) :
    (d.write a (l a)).attrs a = some (l a) := by
  rw [write_attrs (h a), update_self]

theorem PortDir.write_attrs_of_eq {b : Attr} (h : ∀ b, Token (l b))
    (hb : d.attrs b = some (l b)) : (d.write a (l a)).attrs b = some (l b) := by
  rw [write_attrs (h a), update_apply]
  split_ifs with hab
  · rw [hab]
  · exact hb

theorem PortDir.Toward.write (hd : d.Toward l) (h : ∀ b, Token (l b)) :
    (d.write a (l a)).Toward l := by
  intro b
  rw [write_attrs (h a), update_apply]
  split_ifs with hab
  · exact .inr (by rw [hab])
  · exact hd b

end Directories

/-! ## The invariant -/

open World

def World.Reserved (w : World) (portId : ℕ) (l : Listen) : Prop :=
  ∀ p, w.Stored p → (p.portId = portId ↔ listenOf p = l)

structure Inv (w : World) : Prop where
  token : ∀ p, w.Stored p → ∀ a, Token (listenOf p a)
  wanted : ∀ p, w.Stored p → wantedOf p = listenOf p
  reserved : ∀ p, w.Stored p → w.Reserved p.portId (listenOf p)
  toward : ∀ p, w.Stored p → ∀ d, w.ports p.portId = some d → d.Toward (listenOf p)
  found : ∀ p, w.Stored p → ∀ portId d, w.ports portId = some d → d.isAt (listenOf p) →
    portId = p.portId
  distinct : ∀ l m d n d', w.ports m = some d → w.ports n = some d' → d.isAt l → d'.isAt l → m = n

variable {d : Option PortDir}

section Invariant

variable {w w' : World} {portId n : ℕ} {l : Listen} {p : Port}

@[simp] theorem World.setPort_self : (w.setPort portId d).ports portId = d := update_self ..

theorem World.setPort_of_ne (h : n ≠ portId) :
    (w.setPort portId d).ports n = w.ports n := update_of_ne h ..

theorem World.setPort_eq_some (h : (w.setPort portId d).ports n = some d') :
    n = portId ∧ d = some d' ∨ n ≠ portId ∧ w.ports n = some d' := by
  rcases eq_or_ne n portId with rfl | hn
  · exact .inl ⟨rfl, setPort_self.symm.trans h⟩
  · exact .inr ⟨hn, (setPort_of_ne hn).symm.trans h⟩

theorem Inv.fresh (h : w.Fresh) : Inv w := by
  have hstored : ∀ p, ¬ w.Stored p := by
    rintro p ⟨s, hs, -⟩
    rw [h.1] at hs
    cases hs
  refine ⟨?_, ?_, ?_, ?_, ?_, fun l m d n d' hm => nomatch (h.2 m).symm.trans hm⟩
  all_goals exact fun p hp => absurd hp (hstored p)

theorem Inv.setPort {d : PortDir} (h : Inv w) (hreserved : w.Reserved portId l) (hd : d.Toward l)
    (hothers : ∀ n d', n ≠ portId → w.ports n = some d' → ¬ d'.isAt l) :
    Inv (w.setPort portId (some d)) where
  token := h.token
  wanted := h.wanted
  reserved := h.reserved
  toward p hp e he := by
    rcases setPort_eq_some he with ⟨hid, heq⟩ | ⟨-, he⟩
    · cases heq
      rw [(hreserved p hp).1 hid]
      exact hd
    · exact h.toward p hp e he
  found p hp n e he hat := by
    rcases setPort_eq_some he with ⟨rfl, heq⟩ | ⟨-, he⟩
    · cases heq
      exact ((hreserved p hp).2 (hd.eq hat)).symm
    · exact h.found p hp n e he hat
  distinct k m e n e' he he' hat hat' := by
    rcases setPort_eq_some he with ⟨hm, heq⟩ | ⟨hm, hold⟩ <;>
      rcases setPort_eq_some he' with ⟨hn, heq'⟩ | ⟨hn, hold'⟩
    · exact hm.trans hn.symm
    · cases heq
      exact absurd (hd.eq hat ▸ hat') (hothers n e' hn hold')
    · cases heq'
      exact absurd (hd.eq hat' ▸ hat) (hothers m e hm hold)
    · exact h.distinct k m e n e' hold hold' hat hat'

theorem Inv.store {d : PortDir} (h : Inv w) (hports : w'.ports = w.ports)
    (hstored : ∀ q, w'.Stored q → w.Stored q ∨ q = p) (htoken : ∀ a, Token (listenOf p a))
    (hwanted : wantedOf p = listenOf p) (hreserved : w.Reserved p.portId (listenOf p))
    (hd : w.ports p.portId = some d) (hat : d.isAt (listenOf p)) : Inv w' where
  token q hq := by
    rcases hstored q hq with hq | rfl
    · exact h.token q hq
    · exact htoken
  wanted q hq := by
    rcases hstored q hq with hq | rfl
    · exact h.wanted q hq
    · exact hwanted
  reserved q hq r hr := by
    rcases hstored q hq with hq | rfl <;> rcases hstored r hr with hr | rfl
    · exact h.reserved q hq r hr
    · rw [eq_comm, hreserved q hq, eq_comm]
    · exact hreserved r hr
    · exact iff_of_true rfl rfl
  toward q hq e he := by
    rw [hports] at he
    rcases hstored q hq with hq | rfl
    · exact h.toward q hq e he
    · cases hd.symm.trans he
      exact .of_isAt hat
  found q hq n e he hate := by
    rw [hports] at he
    rcases hstored q hq with hq | rfl
    · exact h.found q hq n e he hate
    · exact h.distinct _ n e _ d he hd hate hat
  distinct := by
    rw [hports]
    exact h.distinct

end Invariant

/-! ## Steps that add no port -/

variable {s : NvmeofSubsystem} {id : Name} {portId : ℕ}

section Shrinking

structure Below (w t : World) : Prop where
  stored : ∀ p, t.Stored p → w.Stored p
  ports : ∀ n d', t.ports n = some d' → ∃ d, w.ports n = some d ∧ d.attrs = d'.attrs

structure Same (w t : World) : Prop where
  stored : ∀ p, t.Stored p → w.Stored p
  ports : t.ports = w.ports

variable {w t u : World} {α : Type} {after : Option World} {J : World → Prop}

theorem Below.refl (w : World) : Below w w := ⟨fun _ => id, fun _ d h => ⟨d, h, rfl⟩⟩

theorem Same.refl (w : World) : Same w w := ⟨fun _ => id, rfl⟩

theorem Same.below (h : Same w t) : Below w t :=
  ⟨h.stored, fun _ d' hd' => ⟨d', h.ports ▸ hd', rfl⟩⟩

theorem Inv.below (h : Inv w) (hbelow : Below w t) : Inv t where
  token p hp := h.token p (hbelow.stored p hp)
  wanted p hp := h.wanted p (hbelow.stored p hp)
  reserved p hp q hq := h.reserved p (hbelow.stored p hp) q (hbelow.stored q hq)
  toward p hp d' hd' := by
    obtain ⟨d, hd, hattrs⟩ := hbelow.ports _ d' hd'
    intro a
    rw [← hattrs]
    exact h.toward p (hbelow.stored p hp) d hd a
  found p hp n d' hd' hat := by
    obtain ⟨d, hd, hattrs⟩ := hbelow.ports n d' hd'
    exact h.found p (hbelow.stored p hp) n d hd ((PortDir.isAt_congr hattrs).2 hat)
  distinct l m d n d' hm hn hd hd' := by
    obtain ⟨e, he, hattrs⟩ := hbelow.ports m d hm
    obtain ⟨e', he', hattrs'⟩ := hbelow.ports n d' hn
    exact h.distinct l m e n e' he he' ((PortDir.isAt_congr hattrs).2 hd)
      ((PortDir.isAt_congr hattrs').2 hd')

theorem World.Present.same (h : w.Present) (hsame : Same w t) : t.Present := by
  intro p hp
  rw [hsame.ports]
  exact h p (hsame.stored p hp)

theorem World.Stored.of_save (h : (w.save s).Stored p) : p ∈ s.ports ∨ w.Stored p := by
  obtain ⟨s', hs', hp⟩ := h
  rcases mem_cons.1 hs' with rfl | hs'
  · exact .inl hp
  · exact .inr ⟨s', mem_of_mem_filter hs', hp⟩

theorem World.Stored.of_remove (h : (w.remove id).Stored p) : w.Stored p := by
  obtain ⟨s, hs, hp⟩ := h
  exact ⟨s, mem_of_mem_filter hs, hp⟩

theorem Below.save (h : Below w t) (hs : ∀ p ∈ s.ports, w.Stored p) : Below w (t.save s) := by
  refine ⟨fun p hp => ?_, h.ports⟩
  rcases hp.of_save with hp | hp
  · exact hs p hp
  · exact h.stored p hp

theorem Below.setPort (h : Below w t)
    (hd : ∀ d', d = some d' → ∃ e, t.ports portId = some e ∧ e.attrs = d'.attrs) :
    Below w (t.setPort portId d) := by
  refine ⟨h.stored, fun n d' hn => ?_⟩
  rcases setPort_eq_some hn with ⟨rfl, heq⟩ | ⟨-, hn⟩
  · obtain ⟨e, he, hattrs⟩ := hd d' heq
    obtain ⟨d₀, hd₀, hattrs₀⟩ := h.ports n e he
    exact ⟨d₀, hd₀, hattrs₀.trans hattrs⟩
  · exact h.ports n d' hn

theorem bind_ite_eq_some {β : Type} {o : Option α} {c : α → Prop} [DecidablePred c] {f : α → β}
    {b : β} (h : (o.bind fun a => if c a then some (f a) else none) = some b) :
    ∃ a, o = some a ∧ c a ∧ f a = b := by
  obtain ⟨a, ha, h⟩ := Option.bind_eq_some_iff.1 h
  obtain ⟨hc, hb⟩ := Option.ite_none_right_eq_some.1 h
  exact ⟨a, ha, hc, Option.some.inj hb⟩

def Shrinks (w : World) : Cmd → Prop
  | .save s => ∀ p ∈ s.ports, w.Stored p
  | .mkdirPort _ | .writePort .. => False
  | _ => True

def Quiet (w : World) : Cmd → Prop
  | .save s => ∀ p ∈ s.ports, w.Stored p
  | .mkdirPort _ | .writePort .. | .rmdirPort _ | .link .. | .unlink .. => False
  | _ => True

theorem Effected.ok (h : Effected w after (.ok ()) t) : after = some t :=
  (h.resolve_right fun hno => hno.1 rfl).2

theorem Effected.error {e : String} (h : Effected w after (.error e) t) : t = w :=
  (h.resolve_left fun hok => nomatch hok.1).2

theorem Effected.keeps {r : Except String Unit} (h : Effected w after r t) (hw : J w)
    (hafter : ∀ u, after = some u → J u) : J t := by
  rcases h with ⟨-, h⟩ | ⟨-, rfl⟩
  · exact hafter t h
  · exact hw

theorem Below.step {c : Cmd} {r : c.Answer} (h : Below w t) (hc : Shrinks w c)
    (hstep : Answers c t r u) : Below w u := by
  cases c with
  | save s =>
    refine Effected.keeps hstep h ?_
    rintro _ ⟨⟩
    exact h.save hc
  | remove id =>
    refine Effected.keeps hstep h ?_
    rintro _ ⟨⟩
    exact ⟨fun p hp => h.stored p hp.of_remove, h.ports⟩
  | mkdirPort portId | writePort portId a value => exact hc.elim
  | rmdirPort portId =>
    refine Effected.keeps hstep h fun v hv => ?_
    obtain ⟨d, -, -, rfl⟩ := bind_ite_eq_some hv
    exact h.setPort (by simp)
  | link portId nqn | unlink portId nqn =>
    refine Effected.keeps hstep h fun v hv => ?_
    obtain ⟨d, hd, -, rfl⟩ := bind_ite_eq_some hv
    refine h.setPort ?_
    rintro d' ⟨⟩
    exact ⟨d, hd, rfl⟩
  | mkdirSubsystem nqn =>
    refine Effected.keeps hstep h ?_
    rintro _ ⟨⟩
    unfold World.mkdirSubsystem
    split_ifs
    · exact h
    · exact ⟨h.stored, h.ports⟩
  | rmdirSubsystem nqn =>
    refine Effected.keeps hstep.1 h ?_
    rintro _ ⟨⟩
    exact ⟨h.stored, h.ports⟩
  | protocolEnabled | loadAll | load | readPorts | portIsEmpty | isLinked =>
    rw [hstep.1]
    exact h
  | newId | nqnForSubsystem | ipRoute | deviceExists | other =>
    cases hstep
    exact h

theorem Same.step {c : Cmd} {r : c.Answer} (h : Same w t) (hc : Quiet w c)
    (hstep : Answers c t r u) : Same w u := by
  have hbelow : Below w u := by
    refine h.below.step (c := c) ?_ hstep
    cases c <;> first | exact hc | exact hc.elim
  refine ⟨hbelow.stored, ?_⟩
  cases c with
  | save s | remove id =>
    refine Effected.keeps (J := fun v => v.ports = w.ports) hstep h.ports ?_
    rintro _ ⟨⟩
    exact h.ports
  | mkdirPort | writePort | rmdirPort | link | unlink => exact hc.elim
  | mkdirSubsystem nqn =>
    refine Effected.keeps (J := fun v => v.ports = w.ports) hstep h.ports ?_
    rintro _ ⟨⟩
    unfold World.mkdirSubsystem
    split_ifs <;> exact h.ports
  | rmdirSubsystem nqn =>
    refine Effected.keeps (J := fun v => v.ports = w.ports) hstep.1 h.ports ?_
    rintro _ ⟨⟩
    exact h.ports
  | protocolEnabled | loadAll | load | readPorts | portIsEmpty | isLinked =>
    rw [hstep.1]
    exact h.ports
  | newId | nqnForSubsystem | ipRoute | deviceExists | other =>
    cases hstep
    exact h.ports

end Shrinking

variable {P : Cmd → Prop}

section Calls

variable {w t : World} {p : Service α} {what : String}

theorem shrinks_wp (h : p.Only (Shrinks w)) (ht : Below w t) :
    p.wp kernel (fun _ u => Below w u) t :=
  h.wp (fun _ hc _ hs => ⟨trivial, fun _ _ hstep => hs.step hc hstep⟩) ht

theorem quiet_wp (h : p.Only (Quiet w)) (ht : Same w t) : p.wp kernel (fun _ u => Same w u) t :=
  h.wp (fun _ hc _ hs => ⟨trivial, fun _ _ hstep => hs.step hc hstep⟩) ht

theorem only_other (h : P (.other what)) : (other what).Only P :=
  .call h only_orFail

theorem load_spec (id : Name) :
    (load id).wp kernel (fun r t => t = w ∧ ∀ s, r = .ok s → s ∈ w.subsystems) w := by
  refine wp_perform_bind.2 ⟨trivial, fun r t ⟨ht, hr⟩ => ?_⟩
  cases r with
  | none => exact ⟨ht, nofun⟩
  | some s =>
    refine ⟨ht, fun s' hs' => ?_⟩
    cases hs'
    exact (hr s rfl).1

theorem save_only (h : P (.save s)) : (save s).Only P := .call h only_orFail

theorem load_quiet {g : NvmeofSubsystem → Service α}
    (hg : ∀ s ∈ w.subsystems, (g s).Only (Quiet w)) :
    (load id >>= g).wp kernel (fun _ t => Same w t) w :=
  (load_spec id).look (fun _ => .refl w) fun s hs => quiet_wp (hg s (hs s rfl)) (.refl w)

theorem addHost_spec (id host : Name) : (addHost id host).wp kernel (fun _ t => Same w t) w := by
  rw [addHost, wp_bind]
  cases validateHostNqn host with
  | error e => exact .refl w
  | ok _ =>
  refine load_quiet fun s hs => ?_
  exact .bind (only_other trivial) fun _ =>
    .bind (only_other trivial) fun _ =>
    .bind (only_other trivial) fun _ => save_only fun p hp => ⟨s, hs, hp⟩

theorem addNamespace_spec (id path : Name) (volume : Option Subvolumes.BlockVolumeId) :
    (addNamespace id path volume).wp kernel (fun _ t => Same w t) w := by
  rw [addNamespace]
  refine wp_perform_bind.2 ⟨trivial, fun r t ht => ?_⟩
  obtain rfl : t = w := ht
  rw [wp_bind, wp_refuse]
  refine ⟨fun _ => .refl t, fun _ => ?_⟩
  refine load_quiet fun s hs => ?_
  exact .bind (only_other trivial) fun _ =>
    .bind (only_other trivial) fun _ =>
    .bind (only_other trivial) fun _ =>
    .bind (only_other trivial) fun _ =>
    .bind (save_only fun p hp => ⟨s, hs, hp⟩) fun _ => only_pure _

theorem removeIfEmpty_only (portId : ℕ) : (removeIfEmpty portId).Only (Shrinks w) :=
  .call trivial fun _ =>
    only_onlyIf (.ignore (.call trivial only_orFail))

theorem removePort_spec (id : Name) (portId : ℕ) :
    (removePort id portId).wp kernel (fun _ t => Below w t) w := by
  refine (load_spec id).look (fun _ => .refl w) fun s hs => shrinks_wp ?_ (.refl w)
  refine .bind (only_ofExcept _) fun _ => .bind (.ignore (.call trivial only_orFail))
    fun _ => .bind (removeIfEmpty_only portId) fun _ => .bind (save_only ?_) fun _ => only_pure _
  exact fun p hp => ⟨s, hs s rfl, mem_of_mem_eraseP hp⟩

theorem delete_spec (id : Name) : (delete id).wp kernel (fun _ t => Below w t) w := by
  refine (load_spec id).look (fun _ => .refl w) fun s _ => shrinks_wp ?_ (.refl w)
  have hother {what : String} : ((other what).ignore : Service Unit).Only (Shrinks w) :=
    .ignore (only_other trivial)
  exact .bind hother fun _ =>
    .bind (only_each fun p _ => .ignore (.call trivial only_orFail)) fun _ =>
    .bind hother fun _ => .bind hother fun _ =>
    .bind (only_each fun p _ => removeIfEmpty_only p.portId) fun _ =>
    .bind (.call trivial only_orFail) fun _ => .call trivial only_orFail

end Calls

/-! ## Choosing a port -/

section

variable {w t u : World} {portId : ℕ} {l : Listen} {written : List Attr}

structure Opening (w : World) (portId : ℕ) (l : Listen) (written : List Attr) (t : World) :
    Prop where
  inv : Inv t
  subsystems : t.subsystems = w.subsystems
  others : ∀ n, n ≠ portId → t.ports n = w.ports n
  dir : ∃ d, t.ports portId = some d ∧ d.Toward l ∧ ∀ a ∈ written, d.attrs a = some (l a)

theorem World.Reserved.of_subsystems (h : w.Reserved portId l)
    (heq : t.subsystems = w.subsystems) : t.Reserved portId l := by
  rintro p ⟨s, hs, hp⟩
  exact h p ⟨s, heq ▸ hs, hp⟩

theorem Opening.write {a : Attr} (h : Opening w portId l written t)
    (hreserved : w.Reserved portId l) (htoken : ∀ b, Token (l b))
    (hnone : ∀ n d, w.ports n = some d → ¬ d.isAt l) (hu : t.writePort portId a (l a) = some u) :
    Opening w portId l (a :: written) u := by
  obtain ⟨d, hd, htoward, hwritten⟩ := h.dir
  obtain ⟨d', hd', -, rfl⟩ := bind_ite_eq_some hu
  cases hd.symm.trans hd'
  refine ⟨?_, h.subsystems, fun n hn => ?_, d.write a (l a), setPort_self,
    htoward.write htoken, ?_⟩
  · refine h.inv.setPort (hreserved.of_subsystems h.subsystems) (htoward.write htoken)
      fun n e hn he => ?_
    exact hnone n e (h.others n hn ▸ he)
  · exact (setPort_of_ne hn).trans (h.others n hn)
  · rw [forall_mem_cons]
    exact ⟨PortDir.write_attrs_self htoken, fun b hb =>
      PortDir.write_attrs_of_eq htoken (hwritten b hb)⟩

theorem writeAll_spec (as : List Attr) (h : Opening w portId l written t)
    (hreserved : w.Reserved portId l) (htoken : ∀ b, Token (l b))
    (hnone : ∀ n d, w.ports n = some d → ¬ d.isAt l) :
    (each as fun a => writePort portId a (l a)).wp kernel (fun r u =>
      ∃ written', Opening w portId l written' u ∧
        (r.isOk → ∀ a, a ∈ as ∨ a ∈ written → a ∈ written')) t := by
  induction as generalizing written t with
  | nil => exact ⟨written, h, fun _ a ha => ha.resolve_left not_mem_nil⟩
  | cons a as ih =>
  rw [each]
  refine wp_perform_bind.2 ⟨trivial, fun r u hu => ?_⟩
  rcases r with e | _
  · obtain rfl := Effected.error hu
    exact ⟨written, h, fun hok => by cases hok⟩
  have hu := Effected.ok hu
  refine (ih (h.write hreserved htoken hnone hu)).imp fun r v hv => ?_
  obtain ⟨written', hv, hall⟩ := hv
  refine ⟨written', hv, fun hok b hb => hall hok b ?_⟩
  rcases hb with hb | hb
  · rcases mem_cons.1 hb with rfl | hb
    · exact .inr mem_cons_self
    · exact .inl hb
  · exact .inr (mem_cons_of_mem _ hb)

structure Opened (w : World) (portId : ℕ) (l : Listen) (ok : Prop) (t : World) : Prop where
  inv : Inv t
  subsystems : t.subsystems = w.subsystems
  others : ∀ n, n ≠ portId → t.ports n = w.ports n
  dir : ok → ∃ d, t.ports portId = some d ∧ d.isAt l

theorem openPort_spec (hw : Inv w) (hreserved : w.Reserved portId l)
    (htoken : ∀ b, Token (l b)) (hnone : ∀ n d, w.ports n = some d → ¬ d.isAt l)
    (htoward : ∀ d, w.ports portId = some d → d.Toward l) :
    (openPort portId l).wp kernel (fun r t => Opened w portId l r.isOk t) w := by
  refine wp_bind.2 (wp_perform_bind.2 ⟨trivial, fun r t ht => ?_⟩)
  rcases r with e | _
  · obtain rfl := Effected.error ht
    exact ⟨hw, rfl, fun _ _ => rfl, nofun⟩
  obtain rfl : w.mkdirPort portId = t := Option.some.inj (Effected.ok ht)
  have hopening : Opening w portId l [] (w.mkdirPort portId) := by
    unfold World.mkdirPort
    split_ifs with hsome
    · obtain ⟨d, hd⟩ := Option.isSome_iff_exists.1 hsome
      exact ⟨hw, rfl, fun _ _ => rfl, d, hd, htoward d hd, nofun⟩
    · exact ⟨hw.setPort hreserved PortDir.toward_empty fun n d _ => hnone n d, rfl,
        fun _ => setPort_of_ne, .empty, setPort_self, PortDir.toward_empty, nofun⟩
  refine (writeAll_spec Attr.all hopening hreserved htoken hnone).imp
    fun r u ⟨written, hu, hall⟩ => ⟨hu.inv, hu.subsystems, hu.others, fun hok => ?_⟩
  obtain ⟨d, hd, -, hwritten⟩ := hu.dir
  refine ⟨d, hd, PortDir.isAt_iff.2 fun a => hwritten a (hall hok a (.inl ?_))⟩
  cases a <;> decide

theorem findExistingPort_spec (l : Listen) : (findExistingPort l).wp kernel (fun r t => t = w ∧
      (∀ n, r = .ok (some n) → ∃ d, w.ports n = some d ∧ d.isAt l) ∧
      (r = .ok none → ∀ n d, w.ports n = some d → ¬ d.isAt l)) w := by
  refine wp_perform_bind.2 ⟨trivial, fun dirs t ⟨ht, hdirs⟩ => ⟨ht, fun n hn => ?_, fun hn => ?_⟩⟩
  · obtain ⟨e, he, rfl⟩ := Option.map_eq_some_iff.1 (Except.ok.inj hn)
    exact ⟨e.2, (hdirs e).1 (mem_of_find?_eq_some he),
      by simpa using find?_some he⟩
  · intro n d hd
    exact find?_eq_none.1 (Option.map_eq_none_iff.1 (Except.ok.inj hn)) (n, d)
      ((hdirs (n, d)).2 hd)

theorem nextPortId_spec {k : ℕ} (hroom : w.Room (k + 1)) (hk : k + 1 < 65536) :
    nextPortId.wp kernel (fun r t => t = w ∧
      ∀ n, r = .ok n → n + k < 65536 ∧ ∀ m d, w.ports m = some d → m < n) w := by
  refine wp_perform_bind.2 ⟨trivial, fun dirs t ⟨ht, hdirs⟩ => ⟨ht, fun n hn => ?_⟩⟩
  cases hn
  have hmax : (dirs.map (·.1)).max?.getD 0 + (k + 1) < 65536 := by
    cases h : (dirs.map (·.1)).max? with
    | none => simpa using hk
    | some m =>
      obtain ⟨e, he, rfl⟩ := mem_map.1 (max?_mem h)
      exact hroom e.1 e.2 ((hdirs e).1 he)
  rw [Nat.mod_eq_of_lt (by omega)]
  refine ⟨by omega, fun m d hm => ?_⟩
  have hle : m ≤ (dirs.map (·.1)).max?.getD 0 :=
    le_max?_getD_of_mem (mem_map_of_mem ((hdirs (m, d)).2 hm))
  omega

end

/-! ## Adding a port -/

section

variable {w t : World} {k : ℕ} {l : Listen}

structure Ready (k : ℕ) (w : World) : Prop where
  inv : Inv w
  present : w.Present
  room : w.Room k

theorem Ready.same (h : Ready k w) (hsame : Same w t) : Ready k t :=
  ⟨h.inv.below hsame.below, h.present.same hsame, fun n d hd => h.room n d (hsame.ports ▸ hd)⟩

theorem Ready.mono {k' : ℕ} (h : Ready k w) (hk : k' ≤ k) : Ready k' w :=
  ⟨h.inv, h.present, fun n d hd => Nat.lt_of_le_of_lt (Nat.add_le_add_left hk n) (h.room n d hd)⟩

theorem Ready.link {nqn : Name} (h : Ready k w) (ht : w.link portId nqn = some t) :
    Ready k t ∧ t.subsystems = w.subsystems ∧ ∀ n d, w.ports n = some d →
      ∃ d', t.ports n = some d' ∧ d'.attrs = d.attrs := by
  obtain ⟨d, hd, -, rfl⟩ := bind_ite_eq_some ht
  have hkept : ∀ n e, w.ports n = some e → ∃ e',
      (w.setPort portId (some { d with links := nqn :: d.links })).ports n = some e' ∧
        e'.attrs = e.attrs := by
    intro n e he
    rcases eq_or_ne n portId with rfl | hn
    · cases hd.symm.trans he
      exact ⟨_, setPort_self, rfl⟩
    · exact ⟨e, (setPort_of_ne hn).trans he, rfl⟩
  refine ⟨⟨?_, fun p hp => ?_, fun n e he => ?_⟩, rfl, hkept⟩
  · refine h.inv.below (.setPort (.refl w) ?_)
    rintro _ ⟨⟩
    exact ⟨d, hd, rfl⟩
  · obtain ⟨e, he, hat⟩ := h.present p hp
    obtain ⟨e', he', hattrs⟩ := hkept _ e he
    exact ⟨e', he', (PortDir.isAt_congr hattrs).2 hat⟩
  · rcases setPort_eq_some he with ⟨rfl, -⟩ | ⟨-, he⟩
    · exact h.room n d hd
    · exact h.room n e he

theorem Ready.store {d : PortDir} (h : Ready k w) (hs : s ∈ w.subsystems)
    (htoken : ∀ a, Token (listenOf p a)) (hwanted : wantedOf p = listenOf p)
    (hreserved : w.Reserved p.portId (listenOf p)) (hd : w.ports p.portId = some d)
    (hat : d.isAt (listenOf p)) : Ready k (w.save { s with ports := s.ports ++ [p] }) := by
  have hstored : ∀ q, (w.save { s with ports := s.ports ++ [p] }).Stored q →
      w.Stored q ∨ q = p := by
    intro q hq
    rcases hq.of_save with hq | hq
    · rcases mem_append.1 hq with hq | hq
      · exact .inl ⟨s, hs, hq⟩
      · exact .inr (mem_singleton.1 hq)
    · exact .inl hq
  refine ⟨h.inv.store rfl hstored htoken hwanted hreserved hd hat, fun q hq => ?_, h.room⟩
  rcases hstored q hq with hq | rfl
  · exact h.present q hq
  · exact ⟨d, hd, hat⟩

/-- The port that is found, or the one that is opened, is nobody else's. -/
theorem portFor_spec (hw : Ready (k + 1) w) (hk : k + 1 < 65536) (htoken : ∀ a, Token (l a)) :
    (portFor l).wp kernel (fun r t => Ready k t ∧ t.subsystems = w.subsystems ∧
      ∀ n, r = .ok n → t.Reserved n l ∧ ∃ d, t.ports n = some d ∧ d.isAt l) w := by
  have hkept : Ready k w := hw.mono (by omega)
  refine (findExistingPort_spec l).look (fun _ => ⟨hkept, rfl, nofun⟩)
    fun found ⟨hsome, hnone⟩ => ?_
  cases found with
  | some n =>
    obtain ⟨d, hd, hat⟩ := hsome n rfl
    refine ⟨hkept, rfl, ?_⟩
    rintro _ ⟨⟩
    refine ⟨fun p hp => ⟨fun hid => ?_, fun hl => ?_⟩, d, hd, hat⟩
    · obtain ⟨d', hd', hat'⟩ := hw.present p hp
      cases hd.symm.trans (hid ▸ hd')
      exact PortDir.Toward.eq (.of_isAt hat) hat'
    · exact (hw.inv.found p hp n d hd (hl ▸ hat)).symm
  | none =>
    have hfree := hnone rfl
    refine (nextPortId_spec hw.room hk).look (fun _ => ⟨hkept, rfl, nofun⟩) fun n hr => ?_
    obtain ⟨hn, hnew⟩ := hr n rfl
    have hunused : ∀ d, w.ports n ≠ some d := fun d hd => Nat.lt_irrefl n (hnew n d hd)
    -- Every stored port has a directory, so neither the id nor the address is stored.
    have hreserved : w.Reserved n l := by
      intro p hp
      obtain ⟨d, hd, hat⟩ := hw.present p hp
      exact iff_of_false (fun hid => hunused d (hid ▸ hd)) fun hl => hfree _ d hd (hl ▸ hat)
    have hready {ok : Prop} {t : World} (ht : Opened w n l ok t) : Ready k t := by
      refine ⟨ht.inv, ?_, fun m d hm => ?_⟩
      · rintro p ⟨s, hs, hp⟩
        obtain ⟨d, hd, hat⟩ := hw.present p ⟨s, ht.subsystems ▸ hs, hp⟩
        have hne : p.portId ≠ n := fun hid => hunused d (hid ▸ hd)
        exact ⟨d, (ht.others _ hne).trans hd, hat⟩
      rcases eq_or_ne m n with rfl | hmn
      · exact hn
      · have hroom := hw.room m d (ht.others m hmn ▸ hm)
        omega
    refine (openPort_spec hw.inv hreserved htoken hfree fun d hd => absurd hd (hunused d)).bind
      (fun _ _ ht => ⟨hready ht, ht.subsystems, nofun⟩) fun _ t ht => ⟨hready ht, ht.subsystems, ?_⟩
    rintro _ ⟨⟩
    exact ⟨hreserved.of_subsystems ht.subsystems, ht.dir rfl⟩

theorem token_srcAddress {text address : Name} (h : srcAddress text = some address) :
    Token address :=
  token_of_mem_splitWhitespace
    ((dropWhile_sublist _).subset (mem_of_mem_tail (mem_of_head? h)))

theorem listenAddr_spec {addr : Option Name} (haddr : ∀ a ∈ addr, a ≠ [] → Token a) :
    (listenAddr addr).wp kernel (fun r t => t = w ∧ ∀ a, r = .ok a → Token a) w := by
  have hprimary : listenAddr.primary.wp kernel
      (fun r t => t = w ∧ ∀ a, r = .ok a → Token a) w := by
    refine wp_bind.2 (wp_perform_bind.2 ⟨trivial, fun r t ht => ⟨ht, ?_⟩⟩)
    rintro _ ⟨⟩
    cases h : r.bind srcAddress with
    | none => exact token_of_all (by decide) (by decide)
    | some a =>
      obtain ⟨text, -, ha⟩ := Option.bind_eq_some_iff.1 h
      exact token_srcAddress ha
  cases addr with
  | none => exact hprimary
  | some a =>
  simp only [listenAddr]
  split_ifs with ha
  · refine ⟨rfl, ?_⟩
    rintro _ ⟨⟩
    exact haddr a rfl ha.1
  · exact hprimary

theorem wantedOf_serviceText (portId : ℕ) (transport addr family : Name) (service : UInt16) :
    wantedOf ⟨portId, transport, addr, serviceText service, family⟩ =
      listenOf ⟨portId, transport, addr, serviceText service, family⟩ := by
  have hle : service.toNat ≤ 65535 := Nat.le_of_lt_succ service.toNat_lt
  rw [wantedOf, listenOf, serviceText, unsigned_toDigits hle, Option.getD_some]

theorem token_transport {transport : Name} (h : validateTransport transport = .ok ()) :
    Token transport := by
  rw [validateTransport, Except.refuse_eq_ok, not_and_or, not_not, not_not] at h
  rcases h with rfl | rfl <;> exact token_of_all (by decide) (by decide)

/-- **Adding a port.** While every stored port has its directory, an attempt keeps the ids and the
addresses together. -/
theorem addPort_spec {req : AddPortRequest} (hw : Ready (k + 1) w) (hk : k + 1 < 65536)
    (hreq : req.Plain) : (addPort req).wp kernel (fun _ t => Ready k t) w := by
  have hkept : Ready k w := hw.mono (by omega)
  refine (load_spec req.subsystemId).look (fun _ => hkept) fun s hs => ?_
  refine wp_bind.2 (wp_ofExcept.2 ?_)
  cases htransport : validateTransport (req.transport.getD "tcp".toList) with
  | error e => exact hkept
  | ok _ =>
  refine (listenAddr_spec hreq.1).look (fun _ => hkept) fun addr hr => ?_
  have hfamily : Token (req.addrFamily.getD "ipv4".toList) := by
    cases hf : req.addrFamily with
    | none => exact token_of_all (by decide) (by decide)
    | some f => exact hreq.2 f hf
  have htoken : ∀ a, Token (listen (req.transport.getD "tcp".toList) addr
      (serviceText (req.serviceId.getD 4420)) (req.addrFamily.getD "ipv4".toList) a) := by
    intro a
    cases a with
    | trtype => exact token_transport htransport
    | traddr => exact hr addr rfl
    | trsvcid => exact token_toDigits _
    | adrfam => exact hfamily
  refine (portFor_spec hw hk htoken).bind (fun _ _ ht => ht.1)
    fun n t ⟨hready, hsubsystems, hport⟩ => ?_
  obtain ⟨hreserved, d, hd, hat⟩ := hport n rfl
  refine wp_bind.2 (wp_perform_bind.2 ⟨trivial, fun r u hu => ?_⟩)
  rcases r with e | _
  · obtain rfl := Effected.error hu
    exact hready
  obtain ⟨hlinked, hsame, hkept⟩ := hready.link (Effected.ok hu)
  obtain ⟨d', hd', hattrs⟩ := hkept n d hd
  have hat' := (PortDir.isAt_congr hattrs).2 hat
  refine wp_bind.2 (wp_perform_bind.2 ⟨trivial, fun r v hv => ?_⟩)
  rcases r with e | _
  · obtain rfl := Effected.error hv
    exact hlinked
  cases Effected.ok hv
  have hmem : s ∈ u.subsystems := by
    rw [hsame, hsubsystems]
    exact hs s rfl
  exact hlinked.store hmem htoken (wantedOf_serviceText ..) (hreserved.of_subsystems hsame) hd' hat'

end

section Creating

variable {w : World}

theorem createEmpty_only (req : CreateSubsystemRequest) : (createEmpty req).Only (Quiet w) := by
  refine .bind (only_ofExcept _) fun _ => .bind (only_each fun _ _ => only_ofExcept _) fun _ =>
    .bind (.call trivial only_orFail) fun subsystems => .bind ?_ fun nqn => ?_
  · unfold resolveNqn
    cases req.resolvedNqn with
    | some nqn => exact only_pure nqn
    | none => exact .call trivial only_orFail
  split_ifs
  · exact only_pure none
  · exact .bind (.call trivial only_orFail) fun _ =>
      .bind (only_other trivial) fun _ => .call trivial fun _ =>
      .bind (save_only nofun) fun _ => only_pure _

variable {req : CreateSubsystemRequest}

theorem plain_addPort (h : ∀ a ∈ req.addr, a ≠ [] → Token a) : (req.addPort id).Plain := by
  refine ⟨?_, ?_⟩
  · rintro _ ⟨⟩ hne
    cases haddr : req.addr with
    | none => exact token_of_all (by decide) (by decide)
    | some a =>
      rw [haddr] at h hne
      exact h a rfl hne
  · rintro _ ⟨⟩
    exact token_of_all (by decide) (by decide)

theorem addSibling_spec (hw : Ready 1 w) : (addSibling req id).wp kernel (fun _ t => Inv t) w := by
  refine wp_bind.2 (wp_bind.2 (wp_perform.2 ⟨trivial, fun r t ht => ?_⟩))
  cases ht
  rw [after_ok, wp_pure, after_ok]
  cases h : r.bind srcAddress with
  | none => exact hw.inv
  | some v6 =>
  rw [wp_ignore]
  obtain ⟨text, -, hv6⟩ := Option.bind_eq_some_iff.1 h
  refine (addPort_spec hw (by omega) ⟨?_, ?_⟩).imp fun _ _ ht => ht.inv
  · rintro _ ⟨⟩ -
    exact token_srcAddress hv6
  · rintro _ ⟨⟩
    exact token_of_all (by decide) (by decide)

theorem attachDevice_spec {path : Option Name} (hw : Inv w) (hready : path.isSome → Ready 2 w)
    (haddr : path.isSome → ∀ a ∈ req.addr, a ≠ [] → Token a) :
    (attachDevice req id path).wp kernel (fun _ t => Inv t) w := by
  cases path with
  | none => exact hw
  | some path =>
  have hsame {t : World} (ht : Same w t) : Ready 2 t := (hready rfl).same ht
  refine (addNamespace_spec id path _).bind (fun _ _ ht => (hsame ht).inv) fun _ t ht => ?_
  refine (addPort_spec (hsame ht) (by omega) (plain_addPort (haddr rfl))).bind
    (fun _ _ hu => hu.inv) fun _ u hu => ?_
  exact wp_onlyIf.2 ⟨fun _ => addSibling_spec hu, fun _ => hu.inv⟩

theorem create_spec (hw : Inv w)
    (hreq : (Op.create req).Careful w) : (create req).wp kernel (fun _ t => Inv t) w := by
  refine wp_bind.2 ((quiet_wp (createEmpty_only req) (.refl w)).imp fun r t ht => ?_)
  have hinv := hw.below ht.below
  match r with
  | .error e | .ok none => exact hinv
  | .ok (some id) =>
    have hready : req.devicePath.isSome → Ready 2 t := fun h =>
      Ready.same ⟨hw, (hreq h).1, (hreq h).2.1⟩ ht
    exact (attachDevice_spec hinv hready fun h => (hreq h).2.2).bind (fun _ _ hu => hu)
      fun _ u hu => wp_each (fun host _ v hv => (addHost_spec id host).imp fun _ _ hsame =>
        hv.below hsame.below) hu

end Creating

/-! ## Restoring -/

section

variable {w t : World} {nqn : Name} {p : Port} {step : Service Unit}

structure Kept (w t : World) : Prop where
  subsystems : t.subsystems = w.subsystems
  linked : ∀ nqn p, w.Linked nqn p → t.Linked nqn p

theorem Kept.refl (w : World) : Kept w w := ⟨rfl, fun _ _ h => h⟩

theorem Kept.trans (h : Kept w t) (h' : Kept t u) : Kept w u :=
  ⟨h'.subsystems.trans h.subsystems, fun n q hq => h'.linked n q (h.linked n q hq)⟩

theorem Kept.stored (h : Kept w t) (hp : w.Stored p) : t.Stored p := by
  obtain ⟨s, hs, hp⟩ := hp
  exact ⟨s, h.subsystems ▸ hs, hp⟩

theorem wp_failureOf {Q : Except NvmeofError (List String) → World → Prop} :
    (failureOf what step).wp kernel Q w ↔ step.wp kernel (fun r u =>
      match r with
      | .ok _ => Q (.ok []) u
      | .error e => Q (.ok [what ++ ": " ++ e.message]) u) w := by
  rw [failureOf, wp_bind, wp_attempt]
  exact ⟨fun h => h.imp fun r u hu => by cases r <;> exact hu,
    fun h => h.imp fun r u hu => by cases r <;> exact hu⟩

theorem World.link_linked (ht : w.link portId nqn = some t) :
    Kept w t ∧ ∀ d, w.ports portId = some d → d.isAt (listenOf p) → portId = p.portId →
      t.Linked nqn p := by
  obtain ⟨d, hd, -, rfl⟩ := bind_ite_eq_some ht
  refine ⟨⟨rfl, ?_⟩, ?_⟩
  · rintro n q ⟨e, he, hat, hmem⟩
    rcases eq_or_ne q.portId portId with rfl | hid
    · cases hd.symm.trans he
      exact ⟨_, setPort_self, hat, mem_cons_of_mem _ hmem⟩
    · exact ⟨e, (setPort_of_ne hid).trans he, hat, hmem⟩
  · rintro e he hat rfl
    cases hd.symm.trans he
    exact ⟨_, setPort_self, hat, mem_cons_self⟩

theorem bindPort_spec {d : PortDir} (hw : Inv w) (hp : w.Stored p)
    (hd : w.ports portId = some d) (hat : d.isAt (listenOf p)) :
    (restorePort.bindPort nqn portId).wp kernel
      (fun r t => Inv t ∧ Kept w t ∧ (r = .ok [] → t.Linked nqn p)) w := by
  have hid : portId = p.portId := hw.found p hp portId d hd hat
  refine wp_failureOf.2 (wp_perform_bind.2 ⟨trivial, fun r t ⟨ht, hr⟩ => ?_⟩)
  rw [ht]
  cases r with
  | true =>
    obtain ⟨d', hd', hmem⟩ := hr.1 rfl
    cases hd.symm.trans hd'
    exact ⟨hw, .refl w, fun _ => ⟨d, hid ▸ hd, hat, hmem⟩⟩
  | false =>
  refine wp_perform_bind.2 ⟨trivial, fun r u hu => ?_⟩
  have hinv : Inv u := hw.below ((Below.refl w).step (c := .link portId nqn) trivial hu)
  rcases r with e | _
  · obtain rfl := Effected.error hu
    exact ⟨hinv, .refl u, nofun⟩
  · obtain ⟨hkept, hlinked⟩ := link_linked (Effected.ok hu)
    exact ⟨hinv, hkept, fun _ => hlinked d hd hat hid⟩

/-- A directory that was not there, or not complete, had no link that counts. -/
theorem Opened.kept {ok : Prop} (h : Opened w p.portId (listenOf p) ok t)
    (hnone : ∀ n d, w.ports n = some d → ¬ d.isAt (listenOf p))
    (htoward : ∀ d, w.ports p.portId = some d → d.Toward (listenOf p)) : Kept w t := by
  refine ⟨h.subsystems, ?_⟩
  rintro n q ⟨d, hd, hat, hmem⟩
  have hne : q.portId ≠ p.portId := by
    intro hid
    rw [hid] at hd
    exact hnone _ d hd ((htoward d hd).eq hat ▸ hat)
  exact ⟨d, (h.others _ hne).trans hd, hat, hmem⟩

theorem restorePort_spec (hw : Inv w) (hp : w.Stored p) : (restorePort nqn p).wp kernel
      (fun r t => Inv t ∧ Kept w t ∧ (r = .ok [] → t.Linked nqn p)) w := by
  refine (findExistingPort_spec _).look (fun _ => ⟨hw, .refl w, nofun⟩)
    fun found ⟨hsome, hnone⟩ => ?_
  rw [hw.wanted p hp] at hsome hnone
  cases found with
  | some n =>
    obtain ⟨d, hd, hat⟩ := hsome n rfl
    exact bindPort_spec hw hp hd hat
  | none =>
  have hfree := hnone rfl
  have htoward := hw.toward p hp
  refine wp_bind.2 (wp_failureOf.2 ((openPort_spec hw (hw.reserved p hp) (hw.token p hp) hfree
    htoward).imp fun r u hu => ?_))
  have hkept : Kept w u := hu.kept hfree htoward
  cases r with
  | error e => exact ⟨hu.inv, hkept, nofun⟩
  | ok _ =>
    obtain ⟨d, hd, hat⟩ := hu.dir rfl
    exact (bindPort_spec hu.inv (hkept.stored hp) hd hat).imp fun r v ⟨hv, hkept', hlinked⟩ =>
      ⟨hv, hkept.trans hkept', hlinked⟩

def Elsewhere : Cmd → Prop
  | .other _ | .deviceExists _ => True
  | _ => False

theorem elsewhere_wp {step : Service α} (h : step.Only Elsewhere) :
    step.wp kernel (fun _ t => t = w ∧ True) w := by
  refine (h.wp (J := (· = w)) (fun c hc s hs => ⟨trivial, fun r t ht => ?_⟩) rfl).imp
    fun _ _ ht => ⟨ht, trivial⟩
  cases c with
  | other | deviceExists => exact ht.trans hs
  | _ => exact hc.elim

theorem only_failureOf (h : step.Only P) : (failureOf what step).Only P := by
  refine .bind h.attempt fun r => ?_
  cases r <;> trivial

theorem restoreNamespace_only (nqn : Name) (ns : Namespace) :
    (restoreNamespace nqn ns).Only Elsewhere := by
  have hother {what : String} : (other what).Only Elsewhere := only_other trivial
  exact only_failureOf (.bind hother fun _ => .bind hother fun _ =>
    .call trivial fun _ => .bind (only_ofExcept _) fun _ =>
    .bind hother fun _ => .bind hother fun _ => only_onlyIf hother)

theorem restoreHost_only (nqn host : Name) : (restoreHost nqn host).Only Elsewhere :=
  only_failureOf (.bind (only_other trivial) fun _ =>
    only_other trivial)

theorem restoreSubsystem_spec (hw : Inv w) (hs : s ∈ w.subsystems) :
    (restoreSubsystem s).wp kernel (fun r t => Inv t ∧ Kept w t ∧
      (r = .ok [] → ∀ p ∈ s.ports, t.Linked s.nqn p)) w := by
  refine wp_bind.2 (wp_failureOf.2 (wp_perform_bind.2 ⟨trivial, fun r t ht => ?_⟩))
  have hinv : Inv t := hw.below ((Below.refl w).step (c := .mkdirSubsystem s.nqn) trivial ht)
  have hkept : Kept w t := by
    refine Effected.keeps ht (.refl w) ?_
    rintro _ ⟨⟩
    unfold World.mkdirSubsystem
    split_ifs
    · exact .refl w
    · exact ⟨rfl, fun _ _ h => h⟩
  rcases r with e | _
  · exact ⟨hinv, hkept, nofun⟩
  refine (elsewhere_wp (only_failureOf (only_other trivial))).look
    (fun _ => ⟨hinv, hkept, nofun⟩) fun failures _ => ?_
  cases failures with
  | cons failure failures => exact ⟨hinv, hkept, nofun⟩
  | nil =>
  refine (elsewhere_wp (only_collect (restoreNamespace_only s.nqn))).look
    (fun _ => ⟨hinv, hkept, nofun⟩) fun namespaces _ => ?_
  refine (elsewhere_wp (only_collect (restoreHost_only s.nqn))).look
    (fun _ => ⟨hinv, hkept, nofun⟩) fun hosts _ => ?_
  have hports := wp_collect_parts (I := kernel) (s := t) (l := s.ports)
    (J := fun u => Inv u ∧ Kept w u) (K := Kept) (P := fun p u => u.Linked s.nqn p)
    (f := restorePort s.nqn) Kept.refl (fun _ _ _ => Kept.trans)
    (fun p _ _ hK => hK.linked s.nqn p)
    (fun p hp u ⟨hu, hwu⟩ => (restorePort_spec hu (hwu.stored ⟨s, hs, hp⟩)).imp
      fun r v ⟨hv, huv, hl⟩ => ⟨⟨hv, hwu.trans huv⟩, huv, hl⟩) ⟨hinv, hkept⟩
  refine hports.bind (fun _ _ ⟨⟨hu, hwu⟩, _⟩ => ⟨hu, hwu, nofun⟩) fun ports u ⟨⟨hu, hwu⟩, _, hl⟩ =>
    ⟨hu, hwu, fun hr => hl ?_⟩
  rw [(append_eq_nil_iff.1 (Except.ok.inj hr)).2]

/-- **Restoring.** The ids and addresses stay together, and if nothing fails every link is where the
stored id says. -/
theorem restore_spec (hw : Inv w) : restore.wp kernel (fun r t => Inv t ∧ (r.isOk → w.enabled →
      ∀ s ∈ t.subsystems, ∀ p ∈ s.ports, t.Linked s.nqn p)) w := by
  refine wp_perform_bind.2 ⟨trivial, fun enabled t ⟨ht, henabled⟩ => ?_⟩
  rw [ht]
  refine wp_onlyIf.2 ⟨fun _ => ?_, fun hoff => ⟨hw, fun _ hon => absurd (henabled.trans hon) hoff⟩⟩
  refine wp_bind.2 (wp_perform_bind.2 ⟨trivial, fun r t ⟨ht, hr⟩ => ?_⟩)
  rw [ht]
  rcases r with e | subsystems
  · exact ⟨hw, nofun⟩
  have hmem := hr subsystems rfl
  have hall := wp_collect_parts (I := kernel) (s := w) (l := subsystems)
    (J := fun u => Inv u ∧ Kept w u) (K := Kept)
    (P := fun s u => ∀ p ∈ s.ports, u.Linked s.nqn p) (f := restoreSubsystem) Kept.refl
    (fun _ _ _ => Kept.trans) (fun s _ _ hK h p hp => hK.linked s.nqn p (h p hp))
    (fun s hs u ⟨hu, hwu⟩ => (restoreSubsystem_spec hu (hwu.subsystems ▸ (hmem s).1 hs)).imp
      fun r v ⟨hv, huv, hl⟩ => ⟨⟨hv, hwu.trans huv⟩, huv, hl⟩) ⟨hw, .refl w⟩
  refine hall.bind (fun _ _ hu => ⟨hu.1.1, nofun⟩) fun failures u ⟨⟨hu, hwu⟩, _, hl⟩ => ?_
  rw [wp_refuse]
  refine ⟨fun _ => ⟨hu, nofun⟩, fun hnone => ⟨hu, fun _ _ s hs => ?_⟩⟩
  obtain rfl : failures = [] := not_not.1 hnone
  exact hl rfl s ((hmem s).2 (hwu.subsystems ▸ hs))

end

/-! ## A machine -/

/-- The kernel with directories for these ids only, on which every step succeeds that the runs take.
-/
def machine (ids : List ℕ) : (c : Cmd) → World → Option (c.Answer × World)
  | .protocolEnabled, w => some (w.enabled, w)
  | .loadAll, w => some (.ok w.subsystems, w)
  | .load id, w => some (w.subsystems.find? (·.id = id), w)
  | .save s, w => some (.ok (), w.save s)
  | .newId, w => some (Nat.toDigits 10 w.subsystems.length, w)
  | .nqnForSubsystem name, w => some (.ok name, w)
  | .ipRoute _, w => some (none, w)
  | .deviceExists _, w => some (true, w)
  | .readPorts, w => some (ids.filterMap fun n => (w.ports n).map (n, ·), w)
  | .mkdirPort n, w => if n ∈ ids then some (.ok (), w.mkdirPort n) else none
  | .writePort n a value, w => (w.writePort n a value).map (.ok (), ·)
  | .isLinked n nqn, w => some ((w.ports n).any (nqn ∈ ·.links), w)
  | .link n nqn, w => (w.link n nqn).map (.ok (), ·)
  | .mkdirSubsystem nqn, w => some (.ok (), w.mkdirSubsystem nqn)
  | .other _, w => some (.ok (), w)
  | _, _ => none

def World.Within (ids : List ℕ) (w : World) : Prop := ∀ n, (w.ports n).isSome → n ∈ ids

theorem World.Within.setPort {ids : List ℕ} {w : World} (h : w.Within ids) (hn : n ∈ ids) :
    (w.setPort n d).Within ids := by
  intro m hm
  rcases eq_or_ne m n with rfl | hne
  · exact hn
  · rw [setPort_of_ne hne] at hm
    exact h m hm

theorem machine_sound (ids : List ℕ) : Sound Answers (World.Within ids) (machine ids) := by
  intro c w r t hw h
  cases c with
  | protocolEnabled =>
    cases h
    exact ⟨⟨rfl, rfl⟩, hw⟩
  | loadAll =>
    cases h
    refine ⟨⟨rfl, ?_⟩, hw⟩
    rintro _ ⟨⟩ s
    exact Iff.rfl
  | load id =>
    cases h
    refine ⟨⟨rfl, fun s hs => ⟨mem_of_find?_eq_some hs, ?_⟩⟩, hw⟩
    simpa using find?_some hs
  | readPorts =>
    cases h
    refine ⟨⟨rfl, fun e => ?_⟩, hw⟩
    obtain ⟨n, d⟩ := e
    simp only [mem_filterMap, Option.map_eq_some_iff, Prod.mk.injEq, exists_eq_right_right]
    exact and_iff_right_of_imp fun hn => hw n (hn ▸ rfl)
  | isLinked n nqn =>
    cases h
    refine ⟨⟨rfl, ?_⟩, hw⟩
    cases w.ports n <;> simp
  | newId | nqnForSubsystem | ipRoute | deviceExists | other =>
    cases h
    exact ⟨rfl, hw⟩
  | save s =>
    cases h
    exact ⟨.inl ⟨rfl, rfl⟩, hw⟩
  | mkdirSubsystem nqn =>
    cases h
    refine ⟨.inl ⟨rfl, rfl⟩, ?_⟩
    unfold World.mkdirSubsystem
    split_ifs <;> exact hw
  | mkdirPort n =>
    obtain ⟨hn, h⟩ := Option.ite_none_right_eq_some.1 h
    cases h
    refine ⟨.inl ⟨rfl, rfl⟩, ?_⟩
    unfold World.mkdirPort
    split_ifs
    · exact hw
    · exact hw.setPort hn
  | writePort n | link n =>
    obtain ⟨u, hu, h⟩ := Option.map_eq_some_iff.1 h
    cases h
    refine ⟨.inl ⟨rfl, hu⟩, ?_⟩
    obtain ⟨d, hd, -, rfl⟩ := bind_ite_eq_some hu
    exact hw.setPort (hw n (hd ▸ rfl))
  | remove | rmdirPort | portIsEmpty | unlink | rmdirSubsystem => cases h

def World.initial : World := ⟨true, [], [], fun _ => none⟩

theorem initial_within {ids : List ℕ} : initial.Within ids := nofun

def request (name addr : String) : CreateSubsystemRequest where
  name := name.toList
  allowAnyHost := none
  devicePath := some "/dev/loop0".toList
  backingVolume := none
  resolvedNqn := some name.toList
  addr := some addr.toList
  port := none
  allowedHosts := none

/-! ## The ids in every run -/

theorem Op.Runs.of_wp {w w' : World} (h : Op.Runs p w w') (hp : p.wp kernel (fun _ => J) w) :
    J w' := by
  obtain ⟨r, h⟩ := h
  exact Exec.of_wp (I := kernel) h hp

theorem Inv.step {w w' : World} {op : Op} (hw : Inv w) (hstep : Step w op w')
    (hop : op.Careful w) : Inv w' := by
  cases op with
  | create req => exact hstep.of_wp (create_spec hw hop)
  | addPort req =>
    have hready : Ready 0 w' :=
      hstep.of_wp (addPort_spec ⟨hw, hop.1, hop.2.1⟩ (by omega) hop.2.2)
    exact hready.inv
  | removePort id portId => exact hw.below (hstep.of_wp (removePort_spec id portId))
  | delete id => exact hw.below (hstep.of_wp (delete_spec id))
  | restore => exact hstep.of_wp ((restore_spec hw).imp fun _ _ h => h.1)
  | protocol enabled =>
    cases hstep
    exact hw.below ⟨fun _ => id, fun _ d hd => ⟨d, hd, rfl⟩⟩
  | reboot =>
    cases hstep
    exact hw.below ⟨fun _ => id, nofun⟩

theorem Inv.same_id {w : World} (hw : Inv w) {q : Port} (hp : w.Stored p) (hq : w.Stored q)
    (hid : p.portId = q.portId) : p.transport = q.transport ∧ p.addr = q.addr ∧
      p.serviceId = q.serviceId ∧ p.addrFamily = q.addrFamily := by
  have hlisten : listenOf p = listenOf q := (hw.reserved q hq p hp).1 hid
  exact ⟨congrFun hlisten .trtype, congrFun hlisten .traddr, congrFun hlisten .trsvcid,
    congrFun hlisten .adrfam⟩

/-- **Port ids and addresses.** If ports are only added while all stored ones have their
directories, one id always means one address. -/
theorem ports_agree {w₀ w : World} {ops : List Op} (hfresh : w₀.Fresh)
    (hrun : Run (fun w op w' => Step w op w' ∧ op.Careful w) w₀ ops w) :
    (∀ p q, w.Stored p → w.Stored q → p.portId = q.portId → p.transport = q.transport ∧
      p.addr = q.addr ∧ p.serviceId = q.serviceId ∧ p.addrFamily = q.addrFamily) ∧
    ∀ w', w.enabled → Exec Answers restore w (.ok ()) w' →
      ∀ s ∈ w'.subsystems, ∀ p ∈ s.ports, w'.Linked s.nqn p := by
  have hw : Inv w := hrun.inv (.fresh hfresh) fun _ _ _ h hstep => h.step hstep.1 hstep.2
  refine ⟨fun p q hp hq => hw.same_id hp hq, fun w' hon hexec => ?_⟩
  exact (Exec.of_wp (I := kernel) hexec (restore_spec hw)).2 rfl hon

theorem ports_agree_restored : ∃ w w', w.subsystems ≠ [] ∧ Exec Answers restore w (.ok ()) w' ∧
    ∀ s ∈ w'.subsystems, ∀ p ∈ s.ports, w'.Linked s.nqn p := by
  obtain ⟨_, w, hcreate, hwithin, hw⟩ := (machine_sound [1]).exists_exec
    (p := create (request "a" "10.0.0.1")) (s := .initial) (initial_within)
    (Q := fun a => a.2.enabled && a.2.subsystems ≠ [] &&
      ((restore.play (machine [1]) a.2.reboot).any fun b => b.1.isOk)) (by decide +kernel)
  simp only [Bool.and_eq_true, decide_eq_true_eq] at hw
  obtain ⟨r, w', hrestore, -, hr⟩ := (machine_sound [1]).exists_exec
    (s := w.reboot) nofun hw.2
  have hrun : Run (fun w op w' => Step w op w' ∧ op.Careful w) .initial
      [.create (request "a" "10.0.0.1"), .reboot] w.reboot := by
    refine .snoc (.snoc .nil ⟨⟨_, hcreate⟩, fun _ => ⟨nofun, nofun, ?_⟩⟩) ⟨rfl, trivial⟩
    rintro _ ⟨⟩ -
    exact token_of_all (by decide) (by decide)
  rcases r with e | _
  · nomatch hr
  · exact ⟨w.reboot, w', hw.1.2, hrestore,
      (ports_agree ⟨rfl, fun _ => rfl⟩ hrun).2 w' hw.1.1 hrestore⟩

/-- **One id, two addresses.** The restore after a reboot is skipped, and the next subsystem gets
the id that the first one has stored. -/
theorem ports_disagree : ∃ w, Run Step .initial
      [.create (request "a" "10.0.0.1"), .reboot, .create (request "b" "10.0.0.2")] w ∧
    ∃ p q, w.Stored p ∧ w.Stored q ∧ p.portId = q.portId ∧ p.addr ≠ q.addr := by
  let clash (w : World) : Bool := w.subsystems.any fun s => s.ports.any fun p =>
    w.subsystems.any fun s' => s'.ports.any fun q => p.portId = q.portId ∧ p.addr ≠ q.addr
  obtain ⟨_, w, hfirst, -, hw⟩ := (machine_sound [1]).exists_exec
    (p := create (request "a" "10.0.0.1")) (s := .initial) (initial_within)
    (Q := fun a => ((create (request "b" "10.0.0.2")).play (machine [1]) a.2.reboot).any
      fun b => clash b.2) (by decide +kernel)
  obtain ⟨_, w', hsecond, -, hclash⟩ := (machine_sound [1]).exists_exec (s := w.reboot) nofun hw
  refine ⟨w', .snoc (.snoc (.snoc .nil ⟨_, hfirst⟩) rfl) ⟨_, hsecond⟩, ?_⟩
  obtain ⟨s, hs, hclash⟩ := any_eq_true.1 hclash
  obtain ⟨p, hp, hclash⟩ := any_eq_true.1 hclash
  obtain ⟨s', hs', hclash⟩ := any_eq_true.1 hclash
  obtain ⟨q, hq, hclash⟩ := any_eq_true.1 hclash
  obtain ⟨hid, haddr⟩ := of_decide_eq_true hclash
  exact ⟨p, q, ⟨s, hs, hp⟩, ⟨s', hs', hq⟩, hid, haddr⟩

end Nasty.Sharing.Nvmeof
