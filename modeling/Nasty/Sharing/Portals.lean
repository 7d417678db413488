import Mathlib.Data.List.Pairwise
import Nasty.Lib.Prog
import Nasty.Network.DhcpRelay

/-!
# The portals of an iSCSI target

`set_portals` replaces the portals of a target one after the other. The kernel refuses a portal
whose port is taken, for the same address family, by an equal address or by the wildcard, so
`plan_portal_transition` puts the steps in an order: what can be added is added, then the old
portals go, then the rest is added. The plan compares addresses as texts, the kernel by value.

1. `performSteps_spec` says when the steps of a plan all succeed.
2. `applySteps_back` says that the unwinding after a failed step leads back.
-/

namespace Nasty.Sharing

open List Except

/-! ## Addresses -/

inductive IpAddr
  | v4 (ip : BitVec 32)
  | v6 (ip : BitVec 128)
  deriving DecidableEq

def hexDigit (c : Char) : Option ℕ :=
  if c.isDigit then some (c.toNat - '0'.toNat)
  else if 'a' ≤ c ∧ c ≤ 'f' then some (c.toNat - 'a'.toNat + 10)
  else if 'A' ≤ c ∧ c ≤ 'F' then some (c.toNat - 'A'.toNat + 10)
  else none

def readGroup (cs : List Char) : Option (ℕ × List Char) :=
  let digits := cs.takeWhile fun c => (hexDigit c).isSome
  if 1 ≤ digits.length ∧ digits.length ≤ 4 then
    some (digits.foldl (fun n c => n * 16 + (hexDigit c).getD 0) 0, cs.drop digits.length)
  else none

/-- At most so many groups between colons; an IPv4 address may stand for the last two. -/
def readGroups : ℕ → Bool → List Char → List ℕ × Bool × List Char
  | 0, _, cs => ([], false, cs)
  | limit + 1, first, cs =>
    match (if first then some cs else cs.head?.bind fun c => if c = ':' then some cs.tail else none) with
    | none => ([], false, cs)
    | some ds =>
      match (if limit = 0 then none else Network.DhcpRelay.parseIpv4 ds) with
      | some ip => ([ip.toNat / 65536, ip.toNat % 65536], true, [])
      | none =>
        match readGroup ds with
        | none => ([], false, cs)
        | some (group, rest) =>
          let (groups, v4, rest) := readGroups limit false rest
          (group :: groups, v4, rest)

def ofGroups (groups : List ℕ) : BitVec 128 :=
  BitVec.ofNat 128 (groups.foldl (fun n g => n * 65536 + g) 0)

def parseIpv6 (cs : List Char) : Option (BitVec 128) :=
  match readGroups 8 true cs with
  | (head, v4, rest) =>
    if head.length = 8 then if rest = [] then some (ofGroups head) else none
    else if v4 then none
    else match rest with
      | ':' :: ':' :: rest =>
        match readGroups (7 - head.length) true rest with
        | (tail, _, []) =>
          some (ofGroups (head ++ List.replicate (8 - head.length - tail.length) 0 ++ tail))
        | _ => none
      | _ => none

def parseIpAddr (cs : List Char) : Option IpAddr :=
  ((Network.DhcpRelay.parseIpv4 cs).map .v4).or ((parseIpv6 cs).map .v6)

example : (parseIpAddr "fd00::1".toList).isSome ∧
    parseIpAddr "fd00::1".toList = parseIpAddr "FD00:0:0:0:0:0:0.0.0.1".toList := by
  decide

/-! ## The plan -/

inductive IscsiError
  | notFound (id : List Char)
  | backstoreNotFound (path : List Char)
  | commandFailed (text : String)
  | configFs (text : String)
  | io (text : String)
  deriving DecidableEq

structure Portal where
  ip : List Char
  port : ℕ
  iser : Bool
  deriving DecidableEq

def Portal.SameNp (p q : Portal) : Prop := p.ip = q.ip ∧ p.port = q.port

instance (p q : Portal) : Decidable (p.SameNp q) := inferInstanceAs (Decidable (_ ∧ _))

def unwrapBrackets (cs : List Char) : List Char :=
  match cs with
  | '[' :: rest => if rest.getLast? = some ']' then rest.dropLast else cs
  | _ => cs

def validatePortalIp (ip : List Char) : Except IscsiError (List Char) := do
  let trimmed := Text.trim ip
  .refuse (trimmed = []) (.commandFailed "portal IP is empty")
  let unwrapped := unwrapBrackets trimmed
  .refuse (parseIpAddr unwrapped = none)
    (.commandFailed ("portal IP '" ++ .ofList ip ++ "' is not a valid IPv4 or IPv6 address"))
  return unwrapped

/-- The desired portals with plain addresses; no two have the same address and port. -/
def normalizePortals : List Portal → List Portal → Except IscsiError (List Portal)
  | [], normalized => .ok normalized
  | p :: desired, normalized => do
    let ip ← validatePortalIp p.ip
    .refuse (p.port = 0) (.commandFailed "portal port must be non-zero")
    .refuse (∃ q ∈ normalized, q.ip = ip ∧ q.port = p.port)
      (.commandFailed ("duplicate portal " ++ .ofList ip ++ ":" ++ toString p.port ++
        " in requested set"))
    normalizePortals desired (normalized ++ [⟨ip, p.port, p.iser⟩])

inductive PortalStep
  | add (p : Portal)
  | remove (p : Portal)
  deriving DecidableEq

def isV6 (ip : List Char) : Bool := ip.contains ':'

def isWildcard (ip : List Char) : Bool := ip = "0.0.0.0".toList ∨ ip = "::".toList

def conflicts (a r : Portal) : Bool :=
  a.port = r.port ∧ isV6 a.ip = isV6 r.ip ∧ (a.ip = r.ip ∨ isWildcard a.ip ∨ isWildcard r.ip)

def removes (current normalized : List Portal) : List Portal := current.filter (· ∉ normalized)

def adds (current normalized : List Portal) : List Portal := normalized.filter (· ∉ current)

def isDeferred (current normalized : List Portal) (a : Portal) : Bool :=
  (removes current normalized).any (conflicts a)

def immediate (current normalized : List Portal) : List Portal :=
  (adds current normalized).filter (¬ isDeferred current normalized ·)

def deferred (current normalized : List Portal) : List Portal :=
  (adds current normalized).filter (isDeferred current normalized ·)

def planSteps (current normalized : List Portal) : List PortalStep :=
  (immediate current normalized).map .add ++ (removes current normalized).map .remove ++
    (deferred current normalized).map .add

def planPortalTransition (current desired : List Portal) : Except IscsiError (List PortalStep) := do
  .refuse (desired = [])
    (.commandFailed "portal set cannot be empty — target would become unreachable")
  let normalized ← normalizePortals desired []
  return planSteps current normalized

/-! ## The kernel -/

/-- Addresses of one family that cannot both be bound: equal ones, and the wildcard with any. -/
def IpAddr.Clashes : IpAddr → IpAddr → Prop
  | .v4 a, .v4 b => a = b ∨ a = 0 ∨ b = 0
  | .v6 a, .v6 b => a = b ∨ a = 0 ∨ b = 0
  | _, _ => False

instance : DecidableRel IpAddr.Clashes
  | .v4 a, .v4 b => inferInstanceAs (Decidable (a = b ∨ a = 0 ∨ b = 0))
  | .v6 a, .v6 b => inferInstanceAs (Decidable (a = b ∨ a = 0 ∨ b = 0))
  | .v4 _, .v6 _ | .v6 _, .v4 _ => inferInstanceAs (Decidable False)

def Portal.Clashes (p q : Portal) : Prop :=
  p.port = q.port ∧ ∃ a ∈ parseIpAddr p.ip, ∃ b ∈ parseIpAddr q.ip, a.Clashes b

instance (p q : Portal) : Decidable (p.Clashes q) := inferInstanceAs (Decidable (_ ∧ _))

/-- The portals of a target. `calls` counts the calls to configfs; `undoFailed`: a step could not be
taken back. -/
structure Tpg where
  live : List Portal
  calls : ℕ
  undoFailed : Bool
  deriving DecidableEq

/-- A directory that exists already is not made again. -/
def mkdirNp (p : Portal) (live : List Portal) : Except String (List Portal) :=
  if ∃ q ∈ live, q.SameNp p then .ok live
  else if parseIpAddr p.ip = none then .error "Invalid argument"
  else if ∃ q ∈ live, p.Clashes q then .error "Address already in use"
  else .ok (live ++ [⟨p.ip, p.port, false⟩])

def writeIser (p : Portal) (live : List Portal) : Except String (List Portal) :=
  if ∃ q ∈ live, q.SameNp p then
    .ok (live.map fun q => if q.SameNp p then { q with iser := true } else q)
  else .error "No such file or directory"

def rmdirNp (p : Portal) (live : List Portal) : Except String (List Portal) :=
  if ∃ q ∈ live, q.SameNp p then .ok (live.filter fun q => ¬ q.SameNp p)
  else .error "No such file or directory"

/-! ## The service -/

def npPathFor (tpgPath : String) (p : Portal) : String :=
  if isV6 p.ip then tpgPath ++ "/np/[" ++ .ofList p.ip ++ "]:" ++ toString p.port
  else tpgPath ++ "/np/" ++ .ofList p.ip ++ ":" ++ toString p.port

/-- The calls to configfs that fail, by their number, and the write of the state file. -/
structure Env where
  fault : ℕ → Option String
  save : Option String

section Service

variable (env : Env) (tpgPath : String)

def Tpg.answer (op : List Portal → Except String (List Portal)) (t : Tpg) :
    Except String (List Portal) :=
  match env.fault t.calls with
  | some e => .error e
  | none => op t.live

def configfs (what : String) (op : List Portal → Except String (List Portal)) :
    Prog Tpg IscsiError Unit :=
  .act (fun t => { t with
      live := match t.answer env op with | .ok live => live | .error _ => t.live
      calls := t.calls + 1 })
    fun t => match t.answer env op with
      | .ok _ => .done (.ok ())
      | .error e => .done (.error (.configFs (what ++ ": " ++ e)))

def configfsRmdir (p : Portal) : Prog Tpg IscsiError Unit :=
  configfs env ("rmdir " ++ npPathFor tpgPath p) (rmdirNp p)

def stepBack (p : Prog Tpg IscsiError Unit) : Prog Tpg IscsiError Unit := do
  let result ← p.attempt
  .modify fun t => { t with undoFailed := t.undoFailed || !result.isOk }

def setIser (p : Portal) : Prog Tpg IscsiError Unit := do
  let result ← (configfs env ("write " ++ npPathFor tpgPath p ++ "/iser=1") (writeIser p)).attempt
  match result with
  | .ok _ => pure ()
  | .error e => do
    stepBack (configfsRmdir env tpgPath p)
    .fail e

def createNp (p : Portal) : Prog Tpg IscsiError Unit := do
  configfs env ("mkdir " ++ npPathFor tpgPath p) (mkdirNp p)
  if p.iser then setIser env tpgPath p else pure ()

def performStep : PortalStep → Prog Tpg IscsiError Unit
  | .add p => createNp env tpgPath p
  | .remove p => configfsRmdir env tpgPath p

def undoStep : PortalStep → Prog Tpg IscsiError Unit
  | .add p => configfsRmdir env tpgPath p
  | .remove p => createNp env tpgPath p

def unwind : List PortalStep → Prog Tpg IscsiError Unit
  | [] => pure ()
  | done :: applied => do
    stepBack (undoStep env tpgPath done)
    unwind applied

def track (portals : List Portal) : PortalStep → List Portal
  | .add p => portals ++ [p]
  | .remove p => portals.filter fun q => ¬ q.SameNp p

/-- The loop of `set_portals`, with the portals to be stored. -/
def applySteps : List PortalStep → List PortalStep → List Portal →
    Prog Tpg IscsiError (List Portal)
  | [], _, portals => pure portals
  | step :: steps, applied, portals => do
    let result ← (performStep env tpgPath step).attempt
    match result with
    | .ok _ => applySteps steps (step :: applied) (track portals step)
    | .error e => do
      unwind env tpgPath applied
      .fail e

/-- The portals that are stored after the call, the answer, and the kernel. -/
def setPortals (id : List Char) (stored : Option (List Portal)) (desired : List Portal) (t : Tpg) :
    Option (List Portal) × Except IscsiError (List Portal) × Tpg :=
  match stored with
  | none => (none, .error (.notFound id), t)
  | some portals =>
    match planPortalTransition portals desired with
    | .error e => (some portals, .error e, t)
    | .ok [] => (some portals, .ok portals, t)
    | .ok steps =>
      match (applySteps env tpgPath steps [] portals).exec t with
      | (.error e, t) => (some portals, .error e, t)
      | (.ok portals', t) =>
        match env.save with
        | some e => (some portals, .error (.io e), t)
        | none => (some portals', .ok portals', t)

end Service

/-! ## Single calls -/

open Prog

section

variable {env : Env} {tpgPath : String} {t : Tpg} {p q : Portal} {Q : Except IscsiError Unit → Tpg → Prop}

theorem IpAddr.Clashes.symm {a b : IpAddr} (h : a.Clashes b) : b.Clashes a := by
  cases a <;> cases b <;> simp only [IpAddr.Clashes] at h ⊢ <;> tauto

theorem Portal.Clashes.symm (h : p.Clashes q) : q.Clashes p := by
  obtain ⟨hport, a, ha, b, hb, hab⟩ := h
  exact ⟨hport.symm, b, hb, a, ha, hab.symm⟩

theorem IpAddr.Clashes.refl (a : IpAddr) : a.Clashes a := by
  cases a <;> exact .inl rfl

theorem Portal.SameNp.symm (h : p.SameNp q) : q.SameNp p := ⟨h.1.symm, h.2.symm⟩

theorem Portal.SameNp.clashes (h : p.SameNp q) (hp : parseIpAddr p.ip ≠ none) : p.Clashes q := by
  obtain ⟨a, ha⟩ := Option.ne_none_iff_exists'.1 hp
  exact ⟨h.2, a, ha, a, h.1 ▸ ha, .refl a⟩

variable {op : List Portal → Except String (List Portal)} {what : String}

theorem wp_configfs : (configfs env what op).wp Q (fun _ => True) t ↔
      match t.answer env op with
      | .ok live => Q (.ok ()) { t with live, calls := t.calls + 1 }
      | .error e => Q (.error (.configFs (what ++ ": " ++ e))) { t with calls := t.calls + 1 } := by
  unfold configfs
  cases h : t.answer env op <;> simp [wp, h]

def Env.Faulty (env : Env) : Prop := ∃ n e, env.fault n = some e

theorem configfs_spec : (configfs env what op).wp (fun r u => u.undoFailed = t.undoFailed ∧
      ((∃ live, op t.live = .ok live ∧ r = .ok () ∧ u.live = live) ∨
        ((∃ e, r = .error e) ∧ u.live = t.live ∧ (env.Faulty ∨ ∃ e, op t.live = .error e))))
      (fun _ => True) t := by
  rw [wp_configfs]
  unfold Tpg.answer
  cases hfault : env.fault t.calls with
  | some e => exact ⟨rfl, .inr ⟨⟨_, rfl⟩, rfl, .inl ⟨_, _, hfault⟩⟩⟩
  | none =>
    cases hop : op t.live with
    | error e => exact ⟨rfl, .inr ⟨⟨_, rfl⟩, rfl, .inr ⟨e, rfl⟩⟩⟩
    | ok live => exact ⟨rfl, .inl ⟨live, rfl, rfl, rfl⟩⟩

theorem configfsRmdir_spec (hp : ∃ q ∈ t.live, q.SameNp p) :
    (configfsRmdir env tpgPath p).wp (fun r u => u.undoFailed = t.undoFailed ∧
      ((r = .ok () ∧ u.live = t.live.filter fun q => ¬ q.SameNp p) ∨
        ((∃ e, r = .error e) ∧ u.live = t.live ∧ env.Faulty))) (fun _ => True) t := by
  refine configfs_spec.post fun r u h => ?_
  rw [rmdirNp, if_pos hp] at h
  obtain ⟨hundo, ⟨live, hlive, hr, hu⟩ | ⟨hr, hu, hfault | ⟨e, he⟩⟩⟩ := h
  · cases hlive
    exact ⟨hundo, .inl ⟨hr, hu⟩⟩
  · exact ⟨hundo, .inr ⟨hr, hu, hfault⟩⟩
  · cases he

theorem stepBack_spec {prog : Prog Tpg IscsiError Unit} {R : Except IscsiError Unit → Tpg → Prop}
    (h : prog.wp R (fun _ => True) t)
    (hQ : ∀ r u, R r u → Q (.ok ()) { u with undoFailed := u.undoFailed || !r.isOk }) :
    (stepBack prog).wp Q (fun _ => True) t := by
  rw [stepBack, wp_bind, wp_attempt]
  refine h.post fun r u hu => ?_
  exact ⟨trivial, trivial, hQ r u hu⟩

/-- If everything could be taken back, nothing has changed. -/
def Undone (t u : Tpg) : Prop := u.undoFailed = false → u.live = t.live ∧ t.undoFailed = false

def Opens (live : List Portal) (p : Portal) : Prop :=
  parseIpAddr p.ip ≠ none ∧ ∀ q ∈ live, ¬ p.Clashes q

def Fresh (live : List Portal) (p : Portal) : Prop := ∀ q ∈ live, ¬ q.SameNp p

variable {live : List Portal}

theorem Fresh.filter_concat (h : Fresh live p) (hq : q.SameNp p) :
    (live ++ [q]).filter (fun r => ¬ r.SameNp p) = live := by
  rw [filter_append, filter_eq_self.2 fun r hr => by simpa using h r hr]
  simp [hq]

theorem mkdirNp_spec (hfresh : Fresh live p) :
    (Opens live p ∧ mkdirNp p live = .ok (live ++ [⟨p.ip, p.port, false⟩])) ∨
      (¬ Opens live p ∧ ∃ e, mkdirNp p live = .error e) := by
  unfold mkdirNp
  rw [if_neg fun ⟨q, hq, h⟩ => hfresh q hq h]
  by_cases hparse : parseIpAddr p.ip = none
  · rw [if_pos hparse]
    exact .inr ⟨fun h => h.1 hparse, _, rfl⟩
  rw [if_neg hparse]
  by_cases hclash : ∃ q ∈ live, p.Clashes q
  · rw [if_pos hclash]
    exact .inr ⟨fun h => hclash.elim fun q hq => h.2 q hq.1 hq.2, _, rfl⟩
  · rw [if_neg hclash]
    exact .inl ⟨⟨hparse, fun q hq h => hclash ⟨q, hq, h⟩⟩, rfl⟩

theorem setIser_spec (hfresh : Fresh live p) (hlive : t.live = live ++ [⟨p.ip, p.port, false⟩]) :
    (setIser env tpgPath p).wp (fun r u =>
      (r = .ok () ∧ u.live = live ++ [⟨p.ip, p.port, true⟩] ∧ u.undoFailed = t.undoFailed) ∨
        ((∃ e, r = .error e) ∧ env.Faulty ∧
          (u.undoFailed = false → u.live = live ∧ t.undoFailed = false))) (fun _ => True) t := by
  have hsame : (⟨p.ip, p.port, false⟩ : Portal).SameNp p := ⟨rfl, rfl⟩
  have hexists : ∃ q ∈ t.live, q.SameNp p := ⟨_, hlive ▸ by simp, hsame⟩
  have hmap : (t.live.map fun q => if q.SameNp p then { q with iser := true } else q) =
      live ++ [⟨p.ip, p.port, true⟩] := by
    rw [hlive, map_append, map_congr_left fun q hq => if_neg (hfresh q hq)]
    simp [hsame]
  rw [setIser, wp_bind, wp_attempt]
  refine configfs_spec.post fun r u h => ?_
  rw [writeIser, if_pos hexists, hmap] at h
  obtain ⟨hundo, ⟨new, hnew, rfl, hu⟩ | ⟨⟨e, rfl⟩, hu, hfault | ⟨e, he⟩⟩⟩ := h
  · cases hnew
    exact ⟨trivial, .inl ⟨rfl, hu, hundo⟩⟩
  · rw [after_ok, wp_bind]
    refine stepBack_spec (configfsRmdir_spec (hu ▸ hexists)) fun r v hv => ?_
    refine ⟨trivial, .inr ⟨⟨_, rfl⟩, hfault, ?_⟩⟩
    obtain ⟨hundo', ⟨rfl, hv⟩ | ⟨⟨e, rfl⟩, -⟩⟩ := hv <;> intro hfalse
    · rw [hundo', hundo] at hfalse
      refine ⟨?_, (Bool.or_eq_false_iff.1 hfalse).1⟩
      rw [hv, hu, hlive, hfresh.filter_concat hsame]
    · simp [Except.toBool] at hfalse
  · cases he

theorem createNp_spec (hfresh : Fresh t.live p) :
    (createNp env tpgPath p).wp (fun r u =>
      (r = .ok () ∧ Opens t.live p ∧ u.live = t.live ++ [p] ∧ u.undoFailed = t.undoFailed) ∨
        ((∃ e, r = .error e) ∧ (env.Faulty ∨ ¬ Opens t.live p) ∧ Undone t u)) (fun _ => True) t := by
  rw [createNp, wp_bind]
  refine configfs_spec.post fun r u h => ?_
  rcases mkdirNp_spec hfresh with ⟨hopens, hmk⟩ | ⟨hopens, e', hmk⟩ <;> rw [hmk] at h
  · obtain ⟨hundo, ⟨new, hnew, rfl, hu⟩ | ⟨⟨e, rfl⟩, hu, hfault⟩⟩ := h
    · cases hnew
      split_ifs with hiser
      · refine (setIser_spec hfresh hu).post fun r v hv => ?_
        rcases hv with ⟨hr, hv, hundo'⟩ | ⟨hr, hfault, hv⟩
        · rw [show (⟨p.ip, p.port, true⟩ : Portal) = p by cases p; simp_all] at hv
          exact .inl ⟨hr, hopens, hv, hundo'.trans hundo⟩
        · exact .inr ⟨hr, .inl hfault, fun hfalse => hundo ▸ hv hfalse⟩
      · rw [show (⟨p.ip, p.port, false⟩ : Portal) = p by cases p; simp_all] at hu
        exact ⟨trivial, .inl ⟨rfl, hopens, hu, hundo⟩⟩
    · refine .inr ⟨⟨e, rfl⟩, .inl (hfault.resolve_right ?_), fun hfalse => ⟨hu, hundo ▸ hfalse⟩⟩
      rintro ⟨e, he⟩
      cases he
  · obtain ⟨hundo, ⟨new, hnew, -⟩ | ⟨⟨e, rfl⟩, hu, -⟩⟩ := h
    · cases hnew
    · exact .inr ⟨⟨e, rfl⟩, .inr hopens, fun hfalse => ⟨hu, hundo ▸ hfalse⟩⟩

end

/-! ## The steps of a plan -/

variable {p : Portal}

section Steps

variable {env : Env} {tpgPath : String} {t : Tpg} {live : List Portal} {steps : List PortalStep}

def performSteps (env : Env) (tpgPath : String) : List PortalStep → Prog Tpg IscsiError Unit
  | [] => pure ()
  | step :: steps => do
    performStep env tpgPath step
    performSteps env tpgPath steps

/-- Each step suits the portals that are there in its turn. -/
def InTurn (suits : List Portal → PortalStep → Prop) (live : List Portal) : List PortalStep → Prop
  | [] => True
  | step :: steps => suits live step ∧ InTurn suits (track live step) steps

def Fits : List Portal → List PortalStep → Prop :=
  InTurn fun live step => match step with
    | .add p => Fresh live p
    | .remove p => p ∈ live

def AllOpen : List Portal → List PortalStep → Prop :=
  InTurn fun live step => match step with
    | .add p => Opens live p
    | .remove _ => True

theorem sameNp_of_mem (h : p ∈ live) : ∃ q ∈ live, q.SameNp p := ⟨p, h, rfl, rfl⟩

theorem performStep_spec {step : PortalStep} (hfits : Fits t.live (step :: steps)) :
    (performStep env tpgPath step).wp (fun r u =>
      (r = .ok () ∧ u.live = track t.live step ∧ u.undoFailed = t.undoFailed ∧
        (AllOpen t.live (step :: steps) ↔ AllOpen u.live steps)) ∨
      ((∃ e, r = .error e) ∧ (env.Faulty ∨ ¬ AllOpen t.live (step :: steps)) ∧ Undone t u))
      (fun _ => True) t := by
  cases step with
  | add p =>
    refine (createNp_spec hfits.1).post fun r u h => ?_
    rcases h with ⟨hr, hopens, hu, hundo⟩ | ⟨hr, hfault, hu⟩
    · refine .inl ⟨hr, hu, hundo, ?_⟩
      rw [hu]
      exact and_iff_right hopens
    · exact .inr ⟨hr, hfault.imp_right fun hnot hall => hnot hall.1, hu⟩
  | remove p =>
  refine (configfsRmdir_spec (sameNp_of_mem hfits.1)).post fun r u h => ?_
  obtain ⟨hundo, ⟨hr, hu⟩ | ⟨hr, hu, hfault⟩⟩ := h
  · refine .inl ⟨hr, hu, hundo, ?_⟩
    rw [hu]
    exact and_iff_right trivial
  · exact .inr ⟨hr, .inl hfault, fun hfalse => ⟨hu, hundo ▸ hfalse⟩⟩

theorem Fits.tail {step : PortalStep} (h : Fits live (step :: steps)) :
    Fits (track live step) steps := h.2

/-- **The steps of a plan.** Without faults they succeed if and only if the kernel opens every
portal in its turn. -/
theorem performSteps_spec (hfits : Fits t.live steps) :
    (performSteps env tpgPath steps).wp (fun r u =>
      (r = .ok () ∧ u.live = steps.foldl track t.live ∧ AllOpen t.live steps) ∨
      ((∃ e, r = .error e) ∧ (env.Faulty ∨ ¬ AllOpen t.live steps))) (fun _ => True) t := by
  induction steps generalizing t with
  | nil => exact ⟨trivial, .inl ⟨rfl, rfl, trivial⟩⟩
  | cons step steps ih =>
  rw [performSteps, wp_bind]
  refine (performStep_spec hfits).post fun r u h => ?_
  rcases h with ⟨rfl, hu, -, hopen⟩ | ⟨⟨e, rfl⟩, hfault, -⟩
  · rw [hopen, foldl_cons, ← hu]
    exact ih (hu ▸ hfits.tail)
  · exact .inr ⟨⟨e, rfl⟩, hfault⟩

/-! ## Unwinding -/

def Back (before : List Portal) : List PortalStep → List Portal → Prop
  | [], live => live.Perm before
  | .add p :: applied, live => (∃ q ∈ live, q.SameNp p) ∧
      Back before applied (live.filter fun q => ¬ q.SameNp p)
  | .remove p :: applied, live => Fresh live p ∧ Back before applied (live ++ [p])

variable {live' : List Portal}

theorem Fresh.perm (h : Fresh live p) (hperm : live.Perm live') :
    Fresh live' p := fun q hq => h q (hperm.mem_iff.2 hq)

variable {applied : List PortalStep}

theorem Back.perm {before : List Portal} (h : Back before applied live) (hperm : live.Perm live') :
    Back before applied live' := by
  induction applied generalizing live live' with
  | nil => exact hperm.symm.trans h
  | cons step applied ih =>
  cases step with
  | add p =>
    obtain ⟨⟨q, hq, hsame⟩, hback⟩ := h
    exact ⟨⟨q, hperm.mem_iff.1 hq, hsame⟩, ih hback (hperm.filter _)⟩
  | remove p => exact ⟨h.1.perm hperm, ih h.2 (hperm.append_right _)⟩

def Distinct (live : List Portal) : Prop := live.Pairwise fun p q => ¬ p.SameNp q

instance : Std.Symm fun p q : Portal => ¬ p.SameNp q := ⟨fun _ _ h hsame => h hsame.symm⟩

theorem Distinct.eq_of_sameNp {p q : Portal} (h : Distinct live) (hp : p ∈ live) (hq : q ∈ live)
    (hsame : p.SameNp q) : p = q := by
  by_contra hne
  exact List.Pairwise.forall h hp hq hne hsame

theorem Distinct.track {step : PortalStep} (h : Distinct live) (hfits : Fits live (step :: steps)) :
    Distinct (track live step) := by
  cases step with
  | add p =>
    refine pairwise_append.2 ⟨h, pairwise_singleton _ _, fun q hq r hr => ?_⟩
    rw [mem_singleton.1 hr]
    exact hfits.1 q hq
  | remove p => exact h.filter _

theorem Distinct.perm_remove (h : Distinct live) (hp : p ∈ live) :
    live.Perm (Sharing.track live (.remove p) ++ [p]) := by
  obtain ⟨l, l', rfl⟩ := append_of_mem hp
  obtain ⟨-, htail, hcross⟩ := pairwise_append.1 h
  have hl : l.filter (fun q => ¬ q.SameNp p) = l := filter_eq_self.2 fun q hq => by
    simpa using hcross q hq p mem_cons_self
  have hl' : l'.filter (fun q => ¬ q.SameNp p) = l' := filter_eq_self.2 fun q hq => by
    simpa using fun hsame : q.SameNp p => (pairwise_cons.1 htail).1 q hq hsame.symm
  have hself : p.SameNp p := ⟨rfl, rfl⟩
  rw [Sharing.track, filter_append, filter_cons_of_neg (by simp [hself]), hl, hl']
  exact perm_middle.trans (perm_append_singleton p _).symm

variable {before ps : List Portal} {steps' : List PortalStep}

theorem Back.step {step : PortalStep}
    (h : Back before applied live) (hfits : Fits live (step :: steps)) (hdistinct : Distinct live) :
    Back before (step :: applied) (track live step) := by
  cases step with
  | add p =>
    refine ⟨⟨p, mem_append_right _ mem_cons_self, rfl, rfl⟩, ?_⟩
    rw [track, hfits.1.filter_concat ⟨rfl, rfl⟩]
    exact h
  | remove p =>
    refine ⟨fun q hq => by simpa using (mem_filter.1 hq).2, h.perm ?_⟩
    exact hdistinct.perm_remove hfits.1

theorem undoStep_undoFailed {step : PortalStep} (h : t.undoFailed = true) :
    (undoStep env tpgPath step).wp (fun _ u => u.undoFailed = true) (fun _ => True) t := by
  have hcall {u : Tpg} (hu : u.undoFailed = true) {what op} :
      (configfs env what op).wp (fun _ v => v.undoFailed = true) (fun _ => True) u :=
    configfs_spec.post fun _ _ hv => hv.1.trans hu
  cases step with
  | add p => exact hcall h
  | remove p =>
  rw [undoStep, createNp, wp_bind]
  refine (hcall h).post fun r u hu => ?_
  cases r with
  | error e => exact hu
  | ok _ =>
  rw [after_ok]
  split_ifs
  · rw [setIser, wp_bind, wp_attempt]
    refine (hcall hu).post fun r v hv => ?_
    cases r with
    | ok _ => exact ⟨trivial, hv⟩
    | error e =>
      rw [after_ok, wp_bind]
      refine stepBack_spec (hcall hv) fun r x hx => ⟨trivial, ?_⟩
      rw [hx, Bool.true_or]
  · exact ⟨trivial, hu⟩

theorem undoStep_spec {step : PortalStep} (h : Back before (step :: applied) t.live) :
    (undoStep env tpgPath step).wp (fun r u => r.isOk → u.undoFailed = false →
      Back before applied u.live) (fun _ => True) t := by
  cases step with
  | add p =>
    refine (configfsRmdir_spec h.1).post fun r u hu => ?_
    obtain ⟨-, ⟨rfl, hu⟩ | ⟨⟨e, rfl⟩, -⟩⟩ := hu
    · exact fun _ _ => hu ▸ h.2
    · exact nofun
  | remove p =>
  refine (createNp_spec h.1).post fun r u hu => ?_
  rcases hu with ⟨rfl, -, hu, -⟩ | ⟨⟨e, rfl⟩, -⟩
  · exact fun _ _ => hu ▸ h.2
  · exact nofun

theorem unwind_spec (h : t.undoFailed = false → Back before applied t.live) :
    (unwind env tpgPath applied).wp (fun r u => r = .ok () ∧
      (u.undoFailed = false → u.live.Perm before)) (fun _ => True) t := by
  induction applied generalizing t with
  | nil => exact ⟨trivial, rfl, h⟩
  | cons step applied ih =>
  rw [unwind, wp_bind]
  cases hundo : t.undoFailed with
  | true =>
    refine stepBack_spec (undoStep_undoFailed hundo) fun r u hu => ?_
    refine ih fun hfalse => ?_
    rw [hu] at hfalse
    cases hfalse
  | false =>
  refine stepBack_spec (undoStep_spec (h hundo)) fun r u hu => ?_
  refine ih fun hfalse => ?_
  obtain ⟨hfalse, hok⟩ := Bool.or_eq_false_iff.1 hfalse
  exact hu (by simpa using hok) hfalse

/-- **Unwinding.** If a step fails and all it takes to go back succeeds, the portals are those
before the first step. -/
theorem applySteps_back {before portals : List Portal} (hfits : Fits t.live steps)
    (hdistinct : Distinct t.live) (hback : t.undoFailed = false → Back before applied t.live) :
    (applySteps env tpgPath steps applied portals).wp (fun r u => ∀ e, r = .error e →
      u.undoFailed = false → u.live.Perm before) (fun _ => True) t := by
  induction steps generalizing t applied portals with
  | nil => exact ⟨trivial, nofun⟩
  | cons step steps ih =>
  rw [applySteps, wp_bind, wp_attempt]
  refine (performStep_spec hfits).post fun r u hu => ?_
  rcases hu with ⟨rfl, hu, hundo, -⟩ | ⟨⟨e, rfl⟩, -, hu⟩
  · refine ih (hu ▸ hfits.tail) (hu ▸ hdistinct.track hfits) fun hfalse => ?_
    rw [hu]
    exact (hback (hundo ▸ hfalse)).step hfits hdistinct
  rw [after_ok, wp_bind]
  have hback' : u.undoFailed = false → Back before applied u.live := by
    intro hfalse
    rw [(hu hfalse).1]
    exact hback (hu hfalse).2
  refine (unwind_spec hback').post ?_
  rintro _ v ⟨rfl, hv⟩
  exact ⟨trivial, fun _ _ => hv⟩

/-! ## Plans -/

theorem foldl_track_add (ps : List Portal) :
    (ps.map PortalStep.add).foldl track live = live ++ ps := by
  induction ps generalizing live with
  | nil => simp
  | cons p ps ih =>
    rw [map_cons, foldl_cons, ih]
    simp [track]

theorem foldl_track_remove (ps : List Portal) :
    (ps.map PortalStep.remove).foldl track live = live.filter fun q => ∀ p ∈ ps, ¬ q.SameNp p := by
  induction ps generalizing live with
  | nil => simp
  | cons p ps ih =>
    rw [map_cons, foldl_cons, ih, track, filter_filter]
    refine filter_congr fun q _ => ?_
    simp [Bool.and_comm]

theorem inTurn_append {suits : List Portal → PortalStep → Prop} :
    InTurn suits live (steps ++ steps') ↔
      InTurn suits live steps ∧ InTurn suits (steps.foldl track live) steps' := by
  induction steps generalizing live with
  | nil => simp [InTurn]
  | cons step steps ih => simp [InTurn, ih, and_assoc]

theorem fits_add (hfresh : ∀ p ∈ ps, Fresh live p) (hps : Distinct ps) :
    Fits live (ps.map .add) := by
  induction ps generalizing live with
  | nil => trivial
  | cons p ps ih =>
  obtain ⟨hp, hps⟩ := pairwise_cons.1 hps
  exact ⟨hfresh p mem_cons_self, ih (fun q hq => forall_mem_append.2
    ⟨hfresh q (mem_cons_of_mem _ hq), forall_mem_singleton.2 (hp q hq)⟩) hps⟩

theorem fits_remove (hmem : ∀ p ∈ ps, p ∈ live) (hps : Distinct ps) :
    Fits live (ps.map .remove) := by
  induction ps generalizing live with
  | nil => trivial
  | cons p ps ih =>
  obtain ⟨hp, hps⟩ := pairwise_cons.1 hps
  refine ⟨hmem p mem_cons_self, ih (fun q hq => mem_filter.2 ⟨?_, ?_⟩) hps⟩
  · exact hmem q (mem_cons_of_mem _ hq)
  · simpa using fun h : q.SameNp p => hp q hq h.symm

theorem allOpen_remove (ps : List Portal) : AllOpen live (ps.map .remove) := by
  induction ps generalizing live with
  | nil => trivial
  | cons p ps ih => exact ⟨trivial, ih⟩

def Apart (live : List Portal) : Prop := live.Pairwise fun p q => ¬ p.Clashes q

instance : Std.Symm fun p q : Portal => ¬ p.Clashes q := ⟨fun _ _ h hclash => h hclash.symm⟩

/-- The kernel opens portals one after the other if and only if no two clash in the end. -/
theorem allOpen_add (hlive : Apart live) (hps : ∀ p ∈ ps, parseIpAddr p.ip ≠ none) :
    AllOpen live (ps.map .add) ↔ Apart (live ++ ps) := by
  induction ps generalizing live with
  | nil => simpa [AllOpen, InTurn] using hlive
  | cons p ps ih =>
  obtain ⟨hp, hps⟩ := forall_mem_cons.1 hps
  have hconcat : Opens live p ↔ Apart (live ++ [p]) := by
    constructor
    · rintro ⟨-, hopen⟩
      refine pairwise_append.2 ⟨hlive, pairwise_singleton _ _, fun q hq r hr => ?_⟩
      rw [mem_singleton.1 hr]
      exact fun hclash => hopen q hq hclash.symm
    · intro h
      refine ⟨hp, fun q hq hclash => ?_⟩
      exact (pairwise_append.1 h).2.2 q hq p mem_cons_self hclash.symm
  rw [append_cons]
  constructor
  · rintro ⟨hopen, hrest⟩
    exact (ih (hconcat.1 hopen) hps).1 hrest
  · intro h
    have hfirst : Apart (live ++ [p]) := (pairwise_append.1 h).1
    exact ⟨hconcat.2 hfirst, (ih hfirst hps).2 h⟩

theorem Distinct.nodup (h : Distinct live) : live.Nodup := by
  refine List.Pairwise.imp (fun {p q} hne heq => hne ?_) h
  rw [heq]
  exact ⟨rfl, rfl⟩

theorem Distinct.foldl (h : Distinct live) (hfits : Fits live steps) :
    Distinct (steps.foldl Sharing.track live) := by
  induction steps generalizing live with
  | nil => exact h
  | cons step steps ih => exact ih (h.track hfits) hfits.tail

theorem Distinct.perm (h : Distinct live) (hperm : live.Perm live') :
    Distinct live' := hperm.pairwise h fun hne hsame => hne hsame.symm

end Steps

section Plan

variable {current normalized live : List Portal}

theorem mem_removes : p ∈ removes current normalized ↔ p ∈ current ∧ p ∉ normalized := by
  simp [removes]

theorem mem_immediate : p ∈ immediate current normalized ↔
    p ∈ normalized ∧ p ∉ current ∧ isDeferred current normalized p = false := by
  simp [immediate, adds, and_comm]

theorem mem_deferred : p ∈ deferred current normalized ↔
    p ∈ normalized ∧ p ∉ current ∧ isDeferred current normalized p = true := by
  simp [deferred, adds, and_comm]

theorem Portal.SameNp.isDeferred {p q : Portal} (h : p.SameNp q)
    (hq : q ∈ removes current normalized) : isDeferred current normalized p = true := by
  refine any_eq_true.2 ⟨q, hq, ?_⟩
  simp [conflicts, h.1, h.2]

structure Known (current normalized live : List Portal) : Prop where
  perm : live.Perm current
  apart : Apart live
  parsed : ∀ p ∈ live, parseIpAddr p.ip ≠ none
  distinct : Distinct normalized
  valid : ∀ p ∈ normalized, parseIpAddr p.ip ≠ none

theorem foldl_planSteps : (planSteps current normalized).foldl track live =
    (live ++ immediate current normalized).filter
        (fun q => ∀ r ∈ removes current normalized, ¬ q.SameNp r) ++ deferred current normalized := by
  rw [planSteps, foldl_append, foldl_append, foldl_track_add, foldl_track_remove,
    foldl_track_add]

variable (h : Known current normalized live)

include h

theorem Known.distinct_live : Distinct live :=
  List.Pairwise.imp_of_mem (fun hp _ hne hsame => hne (hsame.clashes (h.parsed _ hp))) h.apart

theorem Known.distinct_current : Distinct current := h.distinct_live.perm h.perm

theorem Known.mem_live : p ∈ live ↔ p ∈ current := h.perm.mem_iff

theorem Known.mem_kept :
    p ∈ (live ++ immediate current normalized).filter
        (fun q => ∀ r ∈ removes current normalized, ¬ q.SameNp r) ↔
      p ∈ normalized ∧ (p ∈ current ∨ isDeferred current normalized p = false) := by
  rw [mem_filter, mem_append, h.mem_live, mem_immediate, decide_eq_true_iff]
  constructor
  · rintro ⟨hp | ⟨hp, -, hdefer⟩, hremoved⟩
    · refine ⟨?_, .inl hp⟩
      by_contra hnot
      exact hremoved p (mem_removes.2 ⟨hp, hnot⟩) ⟨rfl, rfl⟩
    · exact ⟨hp, .inr hdefer⟩
  rintro ⟨hp, hor⟩
  by_cases hcurrent : p ∈ current
  · refine ⟨.inl hcurrent, fun r hr hsame => ?_⟩
    obtain ⟨hr, hnot⟩ := mem_removes.1 hr
    rw [h.distinct_current.eq_of_sameNp hcurrent hr hsame] at hp
    exact hnot hp
  have hdefer := hor.resolve_left hcurrent
  refine ⟨.inr ⟨hp, hcurrent, hdefer⟩, fun r hr hsame => ?_⟩
  rw [hsame.isDeferred hr] at hdefer
  cases hdefer

theorem Known.fresh_immediate (hp : p ∈ immediate current normalized) : Fresh live p := by
  intro q hq hsame
  obtain ⟨hp, hnew, hdefer⟩ := mem_immediate.1 hp
  by_cases hq' : q ∈ normalized
  · rw [h.distinct.eq_of_sameNp hq' hp hsame] at hq
    exact hnew (h.mem_live.1 hq)
  · rw [hsame.symm.isDeferred (mem_removes.2 ⟨h.mem_live.1 hq, hq'⟩)] at hdefer
    cases hdefer

theorem Known.fits : Fits live (planSteps current normalized) := by
  have hadds : Distinct (adds current normalized) := h.distinct.filter _
  refine inTurn_append.2 ⟨inTurn_append.2 ⟨fits_add (fun p => h.fresh_immediate) (hadds.filter _), ?_⟩, ?_⟩
  · rw [foldl_track_add]
    refine fits_remove (fun p hp => ?_) (h.distinct_current.filter _)
    exact mem_append_left _ (h.mem_live.2 (mem_removes.1 hp).1)
  rw [foldl_append, foldl_track_add, foldl_track_remove]
  refine fits_add (fun p hp q hq hsame => ?_) (hadds.filter _)
  obtain ⟨hp, hnew, hdefer⟩ := mem_deferred.1 hp
  obtain ⟨hq, hor⟩ := h.mem_kept.1 hq
  rw [h.distinct.eq_of_sameNp hq hp hsame, hdefer] at hor
  exact hor.elim hnew nofun

theorem Known.foldl_perm : ((planSteps current normalized).foldl track live).Perm normalized := by
  have hdistinct := h.distinct_live.foldl h.fits
  refine (perm_ext_iff_of_nodup hdistinct.nodup h.distinct.nodup).2 fun p => ?_
  rw [foldl_planSteps, mem_append, h.mem_kept, mem_deferred]
  by_cases hcurrent : p ∈ current <;> cases isDeferred current normalized p <;> simp [hcurrent]

/-- The desired portals can be open together, and one that meets an old one waits until it is gone.
-/
structure Compatible (current normalized : List Portal) : Prop where
  apart : Apart normalized
  waits : ∀ a ∈ normalized, a ∉ current → ∀ r ∈ current, r ∉ normalized → a.Clashes r →
    isDeferred current normalized a

theorem Known.allOpen_iff : AllOpen live (planSteps current normalized) ↔
    Compatible current normalized := by
  have himmediate (p : Portal) (hp : p ∈ immediate current normalized) :
      parseIpAddr p.ip ≠ none := h.valid p (mem_immediate.1 hp).1
  have hdeferred (p : Portal) (hp : p ∈ deferred current normalized) :
      parseIpAddr p.ip ≠ none := h.valid p (mem_deferred.1 hp).1
  rw [planSteps, AllOpen, inTurn_append, inTurn_append, ← AllOpen, and_iff_left (allOpen_remove _),
    foldl_append, foldl_track_add, foldl_track_remove, allOpen_add h.apart himmediate]
  constructor
  · rintro ⟨hfirst, hlast⟩
    rw [allOpen_add (hfirst.filter _) hdeferred, ← foldl_planSteps] at hlast
    refine ⟨h.foldl_perm.pairwise hlast fun hne hclash => hne hclash.symm, ?_⟩
    intro a ha hnew r hr hold hclash
    by_contra hdefer
    have ha : a ∈ immediate current normalized := mem_immediate.2 ⟨ha, hnew, by simpa using hdefer⟩
    exact (pairwise_append.1 hfirst).2.2 r (h.mem_live.2 hr) a ha hclash.symm
  rintro ⟨hapart, hwaits⟩
  have hlast := h.foldl_perm.symm.pairwise hapart fun hne hclash => hne hclash.symm
  rw [foldl_planSteps] at hlast
  have hfirst : Apart (live ++ immediate current normalized) := by
    refine pairwise_append.2 ⟨h.apart, hapart.sublist ?_, fun q hq p hp hclash => ?_⟩
    · exact filter_sublist.trans filter_sublist
    obtain ⟨hp, hnew, hdefer⟩ := mem_immediate.1 hp
    by_cases hkept : q ∈ normalized
    · refine List.Pairwise.forall hapart hkept hp ?_ hclash
      rintro rfl
      exact hnew (h.mem_live.1 hq)
    · have := hwaits p hp hnew q (h.mem_live.1 hq) hkept hclash.symm
      rw [hdefer] at this
      cases this
  exact ⟨hfirst, (allOpen_add (hfirst.filter _) hdeferred).2 hlast⟩

end Plan

theorem normalizePortals_spec {desired acc normalized : List Portal}
    (h : normalizePortals desired acc = .ok normalized) (hacc : Distinct acc)
    (hvalid : ∀ p ∈ acc, parseIpAddr p.ip ≠ none) :
    Distinct normalized ∧ ∀ p ∈ normalized, parseIpAddr p.ip ≠ none := by
  induction desired generalizing acc with
  | nil =>
    cases h
    exact ⟨hacc, hvalid⟩
  | cons p desired ih =>
  obtain ⟨ip, hip, h⟩ := bind_eq_ok.1 h
  obtain ⟨-, h⟩ := rest_ok h
  obtain ⟨⟨⟩, hnew, h⟩ := bind_eq_ok.1 h
  rw [refuse_eq_ok] at hnew
  refine ih h ?_ ?_
  · refine pairwise_append.2 ⟨hacc, pairwise_singleton _ _, fun q hq r hr hsame => ?_⟩
    rw [mem_singleton.1 hr] at hsame
    exact hnew ⟨q, hq, hsame⟩
  refine forall_mem_append.2 ⟨hvalid, ?_⟩
  rw [forall_mem_singleton]
  obtain ⟨-, hip⟩ := rest_ok hip
  obtain ⟨⟨⟩, hparse, hip⟩ := bind_eq_ok.1 hip
  rw [refuse_eq_ok] at hparse
  cases hip
  exact hparse

theorem planPortalTransition_eq_ok {current desired : List Portal} {steps : List PortalStep} :
    planPortalTransition current desired = .ok steps ↔ desired ≠ [] ∧
      ∃ normalized, normalizePortals desired [] = .ok normalized ∧
        steps = planSteps current normalized := by
  constructor
  · intro h
    obtain ⟨⟨⟩, hne, h⟩ := bind_eq_ok.1 h
    obtain ⟨normalized, hnormalized, h⟩ := bind_eq_ok.1 h
    cases h
    exact ⟨refuse_eq_ok.1 hne, normalized, hnormalized, rfl⟩
  · rintro ⟨hne, normalized, hnormalized, rfl⟩
    refine bind_eq_ok.2 ⟨(), refuse_eq_ok.2 hne, ?_⟩
    exact bind_eq_ok.2 ⟨normalized, hnormalized, rfl⟩

/-! ## The call -/

def StepsSucceed (env : Env) (tpgPath : String) (current desired : List Portal) (t : Tpg) : Prop :=
  ∃ steps, planPortalTransition current desired = .ok steps ∧
    ((performSteps env tpgPath steps).exec t).1 = .ok ()

section Call

variable {env : Env} {tpgPath : String} {t u : Tpg} {current normalized desired : List Portal}
  {steps applied : List PortalStep} {portals : List Portal}

theorem applySteps_ok (hfits : Fits t.live steps) :
    (((applySteps env tpgPath steps applied portals).exec t).1.isOk ↔
      ((performSteps env tpgPath steps).exec t).1 = .ok ()) ∧
    (((applySteps env tpgPath steps applied portals).exec t).1.isOk →
      ((applySteps env tpgPath steps applied portals).exec t).2.live =
        steps.foldl track t.live) := by
  induction steps generalizing t applied portals with
  | nil => exact ⟨iff_of_true rfl rfl, fun _ => rfl⟩
  | cons step steps ih =>
  have hspec := exec_of_wp (p := performStep env tpgPath step) (performStep_spec hfits)
  rw [applySteps, performSteps, exec_bind, exec_bind, exec_attempt]
  generalize (performStep env tpgPath step).exec t = result at hspec ⊢
  obtain ⟨r, u⟩ := result
  rcases hspec with ⟨hr, hu, -⟩ | ⟨⟨e, hr⟩, -⟩
  · obtain rfl : r = .ok () := hr
    rw [foldl_cons, ← hu]
    exact ih (hu ▸ hfits.tail)
  obtain rfl : r = .error e := hr
  have hfail : ((unwind env tpgPath applied >>= fun _ =>
      (.fail e : Prog Tpg IscsiError (List Portal))).exec u).1.isOk = false := by
    rw [exec_bind]
    obtain ⟨_ | _, v⟩ := (unwind env tpgPath applied).exec u <;> rfl
  exact ⟨iff_of_false (by simp [hfail]) nofun, fun hok => absurd hok (by simp [hfail])⟩

theorem performSteps_iff (h : Known current normalized t.live) (hsilent : ¬ env.Faulty) :
    (∃ u, (performSteps env tpgPath (planSteps current normalized)).exec t = (.ok (), u) ∧
      u.live.Perm normalized) ↔ Compatible current normalized := by
  have hspec := exec_of_wp (p := performSteps env tpgPath _) (performSteps_spec h.fits)
  generalize (performSteps env tpgPath (planSteps current normalized)).exec t = result at hspec ⊢
  obtain ⟨r, u⟩ := result
  rw [← h.allOpen_iff]
  rcases hspec with ⟨hr, hu, hopen⟩ | ⟨⟨e, hr⟩, hnot⟩
  · refine iff_of_true ⟨u, Prod.ext hr rfl, ?_⟩ hopen
    rw [show u.live = _ from hu]
    exact h.foldl_perm
  refine iff_of_false ?_ (hnot.resolve_left hsilent)
  rintro ⟨v, hv, -⟩
  rw [(Prod.mk.inj hv).1] at hr
  cases hr

theorem not_perm_of_steps (hsteps : planSteps current normalized ≠ []) :
    ¬ normalized.Perm current := by
  intro hperm
  have hmem (p : Portal) : p ∈ normalized ↔ p ∈ current := hperm.mem_iff
  have hadds : adds current normalized = [] :=
    filter_eq_nil_iff.2 fun p hp => by simpa using (hmem p).1 hp
  have hremoves : removes current normalized = [] :=
    filter_eq_nil_iff.2 fun p hp => by simpa using (hmem p).2 hp
  exact hsteps (by simp [planSteps, immediate, deferred, hadds, hremoves])

theorem setPortals_error (h : Known current normalized t.live)
    (hplan : planPortalTransition current desired = .ok (planSteps current normalized))
    {id : List Char} {stored : Option (List Portal)} {e : IscsiError}
    (hcall : setPortals env tpgPath id (some current) desired t = (stored, .error e, u))
    (hundo : u.undoFailed = false) :
    stored = some current ∧
      (u.live.Perm t.live ↔ env.save = none ∨ ¬ StepsSucceed env tpgPath current desired t) := by
  have hsucceed : StepsSucceed env tpgPath current desired t ↔
      ((applySteps env tpgPath (planSteps current normalized) [] current).exec t).1.isOk := by
    rw [(applySteps_ok h.fits).1, StepsSucceed, hplan]
    exact ⟨fun ⟨_, heq, hok⟩ => Except.ok.inj heq ▸ hok, fun hok => ⟨_, rfl, hok⟩⟩
  have hstart : Back t.live [] t.live := List.Perm.refl _
  have hback := exec_of_wp (p := applySteps env tpgPath (planSteps current normalized) [] current)
    (applySteps_back h.fits h.distinct_live fun _ => hstart)
  have hlive : ((applySteps env tpgPath (planSteps current normalized) [] current).exec t).1.isOk →
      ((applySteps env tpgPath (planSteps current normalized) [] current).exec t).2.live = _ :=
    (applySteps_ok h.fits).2
  unfold setPortals at hcall
  simp only [hplan] at hcall
  split at hcall
  · next heq => cases heq
  · cases hcall
  next steps hne heq =>
  obtain rfl : planSteps current normalized = steps := Except.ok.inj heq
  generalize (applySteps env tpgPath (planSteps current normalized) [] current).exec t = result
    at hsucceed hback hlive hcall
  obtain ⟨r, v⟩ := result
  cases r with
  | error e' =>
    cases hcall
    exact ⟨rfl, iff_of_true (hback _ rfl hundo) (.inr fun hs => nomatch hsucceed.1 hs)⟩
  | ok portals =>
  simp only at hcall
  split at hcall
  · next hsave =>
    cases hcall
    refine ⟨rfl, iff_of_false (fun hperm => ?_) ?_⟩
    · rw [show u.live = _ from hlive rfl] at hperm
      exact not_perm_of_steps (fun hnil => hne (hnil ▸ rfl))
        (h.foldl_perm.symm.trans (hperm.trans h.perm))
    rintro (hnone | hnot)
    · rw [hsave] at hnone
      cases hnone
    · exact hnot (hsucceed.2 rfl)
  · cases hcall

end Call

def Env.silent : Env := ⟨fun _ => none, none⟩

/-- **The portals of a target.** A plan ends in the desired portals exactly if they are compatible,
and a failed call is undone exactly if it did not fail on the state file alone. -/
theorem setPortals_correct (t : Tpg) (current desired : List Portal)
    (hperm : t.live.Perm current) (hapart : Apart t.live) (hparsed : ∀ p ∈ t.live, parseIpAddr p.ip ≠ none) :
    (∀ steps normalized tpgPath, planPortalTransition current desired = .ok steps →
      normalizePortals desired [] = .ok normalized →
      ((∃ u, (performSteps .silent tpgPath steps).exec t = (.ok (), u) ∧ u.live.Perm normalized) ↔
        Compatible current normalized)) ∧
    (∀ env tpgPath id stored e u,
      setPortals env tpgPath id (some current) desired t = (stored, .error e, u) →
      u.undoFailed = false →
      ((u.live.Perm t.live ∧ ∃ portals, stored = some portals ∧ u.live.Perm portals) ↔
        (env.save = none ∨ ¬ StepsSucceed env tpgPath current desired t))) := by
  have hknown (normalized : List Portal) (h : normalizePortals desired [] = .ok normalized) :
      Known current normalized t.live := by
    obtain ⟨hdistinct, hvalid⟩ := normalizePortals_spec h List.Pairwise.nil nofun
    exact ⟨hperm, hapart, hparsed, hdistinct, hvalid⟩
  refine ⟨fun steps normalized tpgPath hplan hnormalized => ?_, ?_⟩
  · obtain ⟨-, normalized', hnormalized', rfl⟩ := planPortalTransition_eq_ok.1 hplan
    cases hnormalized.symm.trans hnormalized'
    exact performSteps_iff (hknown _ hnormalized) nofun
  intro env tpgPath id stored e u hcall hundo
  cases hplan : planPortalTransition current desired with
  | error e =>
    simp only [setPortals, hplan] at hcall
    obtain ⟨rfl, -, rfl⟩ := hcall
    refine iff_of_true ⟨.refl _, current, rfl, hperm⟩ (.inr ?_)
    rintro ⟨steps, hsteps, -⟩
    cases hplan.symm.trans hsteps
  | ok steps =>
  obtain ⟨-, normalized, hnormalized, rfl⟩ := planPortalTransition_eq_ok.1 hplan
  obtain ⟨rfl, hiff⟩ := setPortals_error (hknown _ hnormalized) hplan hcall hundo
  rw [← hiff]
  exact ⟨And.left, fun h => ⟨h, current, rfl, h.trans hperm⟩⟩

def anyV4 : Portal := ⟨"0.0.0.0".toList, 3260, false⟩

def lanV4 : Portal := ⟨"10.0.0.5".toList, 3260, false⟩

theorem setPortals_swap : ∃ u, (performSteps .silent "tpgt_1" [.remove anyV4, .add lanV4]).exec
    ⟨[anyV4], 0, false⟩ = (.ok (), u) ∧ u.live.Perm [lanV4] := by
  have hcompatible : Compatible [anyV4] [lanV4] := ⟨by unfold Apart; decide, by decide⟩
  exact ((setPortals_correct ⟨[anyV4], 0, false⟩ [anyV4] [lanV4] (.refl _) (by unfold Apart; decide)
    (by decide)).1 [.remove anyV4, .add lanV4] [lanV4] "tpgt_1" (by decide) (by decide)).2 hcompatible

/-- The wildcard and an address of its family are accepted though the kernel refuses them; a failed
save leaves the new portals. -/
theorem setPortals_refused :
    (planPortalTransition [anyV4] [anyV4, lanV4] = .ok [.add lanV4] ∧
      ((performSteps .silent "tpgt_1" [.add lanV4]).exec ⟨[anyV4], 0, false⟩).1 =
        .error (.configFs "mkdir tpgt_1/np/10.0.0.5:3260: Address already in use")) ∧
    setPortals ⟨fun _ => none, some "No space left on device"⟩ "tpgt_1" [] (some [anyV4]) [lanV4]
        ⟨[anyV4], 0, false⟩ =
      (some [anyV4], .error (.io "No space left on device"), ⟨[lanV4], 2, false⟩) := by
  decide

end Nasty.Sharing
