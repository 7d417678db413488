import Mathlib.Data.List.Dedup
import Mathlib.Data.List.Sort
import Nasty.Lib.Checks
import Nasty.Network.Risk

/-!
# PCI passthrough

`system.passthrough.update` claims PCI devices for `vfio-pci` at the next boot. It refuses to claim
the device behind the link that the client is connected through, which it finds in three steps:
`ip route get` for the client, the topmost master of that link, and the `device` link of that
master in sysfs. Bridges, bonds and VLANs have no such link.

1. `resolve`: the devices that a request names, by address or by vendor and device.
2. `saveAndApply`, `passthroughUpdate`: the check, and what is written.
3. `Carries`: the functions of the ports that the connection really uses; `Guards`: the one that
   the check compares.
-/

namespace Nasty.System.Passthrough

open Network (Ipv4Addr mgmtIfaceForPeer walkToTopmostMaster)

/-! ## Requests -/

structure DeviceId where
  vendor : String
  device : String
  deriving DecidableEq

structure PassthroughEntry where
  address : String
  vendor : String
  device : String
  deriving DecidableEq

structure PassthroughConfig where
  devices : List PassthroughEntry
  ids : List DeviceId
  deriving DecidableEq

structure PassthroughUpdate where
  addresses : List String
  ids : List DeviceId

structure PciInventoryEntry where
  address : String
  vendor : String
  device : String

def isHex4 (s : String) : Bool := s.toList.length = 4 && s.toList.all Text.isAsciiHexdigit

def isBdf (s : String) : Bool :=
  s.toList.length = 12 && s.toList.zipIdx.all fun (c, i) =>
    if i = 4 ∨ i = 7 then c = ':' else if i = 10 then c = '.' else Text.isAsciiHexdigit c

def toAsciiLowercase (s : String) : String := String.ofList (s.toList.map Char.toLower)

/-- Malformed pairs are dropped. The set is only asked for its members, so it stays a list. -/
def normalizeIds (ids : List DeviceId) : List DeviceId :=
  (ids.map fun id => ⟨toAsciiLowercase id.vendor, toAsciiLowercase id.device⟩).filter
    fun id => isHex4 id.vendor && isHex4 id.device

def resolvePairs (ids : List DeviceId) (inventory : List PciInventoryEntry) :
    List PassthroughEntry :=
  (inventory.filter fun e => ⟨e.vendor, e.device⟩ ∈ ids).map
    fun e => ⟨e.address, e.vendor, e.device⟩

def resolveAddress (inventory : List PciInventoryEntry) (text : String) :
    Except String PassthroughEntry :=
  let addr := toAsciiLowercase (String.ofList (Text.trim text.toList))
  if isBdf addr then
    match inventory.find? (·.address = addr) with
    | some inv => .ok ⟨addr, inv.vendor, inv.device⟩
    | none => .error ("no PCI device at " ++ addr ++
        " — it may have moved slots; refresh the hardware page and re-select it")
  else
    .error ("'" ++ addr ++ "' is not a PCI address (expected dddd:bb:dd.f, e.g. 0000:06:00.1)")

/-- The devices a request claims. Entries of one address are equal, so the set is ordered by the
address. -/
def resolve (inventory : List PciInventoryEntry) (update : PassthroughUpdate) :
    Except String (List PassthroughEntry) :=
  if update.addresses.isEmpty then
    .ok (resolvePairs (normalizeIds update.ids) inventory)
  else
    (update.addresses.mapM (resolveAddress inventory)).map fun entries =>
      entries.dedup.insertionSort (·.address ≤ ·.address)

def deriveIds (devices : List PassthroughEntry) : List DeviceId :=
  (devices.map fun d => (⟨d.vendor, d.device⟩ : DeviceId)).dedup.insertionSort
    fun a b => a.vendor < b.vendor ∨ a.vendor = b.vendor ∧ a.device ≤ b.device

/-! ## The check -/

structure Links where
  /-- The names on the canonical path of the `device` link; bridges, bonds and VLANs have none. -/
  device : String → Option (List String)
  master : String → Option String
  /-- The link that a VLAN is on. -/
  parent : String → Option String

def bdfFromDevicePath (path : List String) : Option String :=
  (path.reverse.map toAsciiLowercase).find? (isBdf ·)

def Links.ifaceBdf (links : Links) (iface : String) : Option String :=
  (links.device iface).bind bdfFromDevicePath

def refusal (hit : PassthroughEntry) (iface : String) : String :=
  "refusing to claim " ++ hit.address ++ " (" ++ hit.vendor ++ ":" ++ hit.device ++
    ") for passthrough — that is the PCI device behind the management interface '" ++ iface ++
    "', so vfio-pci would steal it at boot and lock you out. Reach the box on a different " ++
    "interface (or console) and retry."

def validateRequest (links : Links) (devices : List PassthroughEntry) :
    Option String → Except String Unit
  | none => .ok ()
  | some iface =>
    match links.ifaceBdf iface with
    | none => .ok ()
    | some bdf =>
      match devices.find? (·.address = bdf) with
      | some hit => .error (refusal hit iface)
      | none => .ok ()

structure Machine where
  inventory : List PciInventoryEntry
  links : Links
  /-- The device in the answer of `ip route get`. -/
  routeDev : String → Option String
  /-- The errors of the two writes. -/
  stateWrite : Option String
  nixDirExists : Bool
  nixWrite : Option String

structure Outcome where
  result : Except String PassthroughConfig
  stored : Option PassthroughConfig

def writeNixFile (m : Machine) : Except String Unit :=
  match m.nixDirExists, m.nixWrite with
  | true, some e => .error ("write /etc/nixos/passthrough.nix: " ++ e)
  | _, _ => .ok ()

def saveAndApply (m : Machine) (update : PassthroughUpdate) (mgmtIface : Option String) :
    Outcome :=
  match resolve m.inventory update with
  | .error e => ⟨.error e, none⟩
  | .ok devices =>
    match validateRequest m.links devices mgmtIface with
    | .error e => ⟨.error e, none⟩
    | .ok _ =>
      match m.stateWrite with
      | some e => ⟨.error ("write /var/lib/nasty/passthrough.json: " ++ e), none⟩
      | none =>
        let cfg := ⟨devices, deriveIds devices⟩
        ⟨(writeNixFile m).map fun _ => cfg, some cfg⟩

def passthroughUpdate (m : Machine) (clientIp : Option String) (update : PassthroughUpdate) :
    Outcome :=
  saveAndApply m update (clientIp.bind (mgmtIfaceForPeer m.routeDev m.links.master))

/-! ## What the connection uses -/

/-- `lower` is a member of `upper`, or the link that the VLAN `upper` is on. -/
def Links.Under (links : Links) (lower upper : String) : Prop :=
  links.master lower = some upper ∨ links.parent upper = some lower

def Links.AtOrBelow (links : Links) : String → String → Prop :=
  Relation.ReflTransGen links.Under

/-- The PCI function of a port: the last PCI address on its device path. -/
def Links.Function (links : Links) (port bdf : String) : Prop :=
  ∃ above name below, links.device port = some (above ++ name :: below) ∧
    toAsciiLowercase name = bdf ∧ isBdf bdf ∧ ∀ n ∈ below, ¬ isBdf (toAsciiLowercase n)

/-- The PCI function `bdf` is that of a port at or below the link of the client's route. -/
def Machine.Carries (m : Machine) (client bdf : String) : Prop :=
  ∃ dev port, m.routeDev client = some dev ∧ m.links.AtOrBelow port dev ∧
    m.links.Function port bdf

/-- What is stored claims no function that carries the client's connection. -/
def Machine.Spares (m : Machine) (client : String) (cfg : PassthroughConfig) : Prop :=
  ∀ d ∈ cfg.devices, ¬ m.Carries client d.address

/-! ## What the check guards -/

/-- The text up to its last colon, or all of it. -/
def HostOf (client host : String) : Prop :=
  ':' ∉ client.toList ∧ host = client ∨
    ∃ port, client.toList = host.toList ++ ':' :: port ∧ ':' ∉ port

/-- `top` is `n` masters above `link`, and has none itself unless `n` is the eighth. -/
def Links.Topmost (links : Links) (link top : String) : Prop :=
  ∃ n ≤ 8, (Option.bind · links.master)^[n] (some link) = some top ∧
    (n = 8 ∨ links.master top = none)

/-- The function of the topmost master of the link used for the text before the last colon. -/
def Machine.Guards (m : Machine) (client bdf : String) : Prop :=
  client ≠ "" ∧ client ≠ "unknown" ∧ ∃ host dev top, HostOf client host ∧
    m.routeDev host = some dev ∧ m.links.Topmost dev top ∧ m.links.Function top bdf

/-- A link that is no member, has no members and is no VLAN. -/
def Links.Plain (links : Links) (link : String) : Prop :=
  links.master link = none ∧ ∀ lower, ¬ links.Under lower link

theorem iterate_bind_none {α : Type} (f : α → Option α) (n : ℕ) :
    (Option.bind · f)^[n] none = none :=
  Function.iterate_fixed rfl n

theorem walk_eq {master : String → Option String} {k : ℕ} {link top : String} :
    walkToTopmostMaster master k link = top ↔
      ∃ n ≤ k, (Option.bind · master)^[n] (some link) = some top ∧
        (n = k ∨ master top = none) := by
  induction k generalizing link with
  | zero => simp [walkToTopmostMaster]
  | succ k ih =>
    rw [walkToTopmostMaster]
    cases hmaster : master link with
    | none =>
      constructor
      · rintro rfl
        exact ⟨0, by omega, rfl, .inr hmaster⟩
      · rintro ⟨_ | n, -, hn, -⟩
        · exact Option.some.inj hn
        · rw [Function.iterate_succ_apply, Option.bind_some, hmaster, iterate_bind_none] at hn
          cases hn
    | some name =>
      rw [ih]
      constructor
      · rintro ⟨n, hle, hn, htop⟩
        refine ⟨n + 1, by omega, ?_, htop.imp_left (congrArg (· + 1))⟩
        rwa [Function.iterate_succ_apply, Option.bind_some, hmaster]
      · rintro ⟨_ | n, hle, hn, htop⟩
        · cases hn
          rw [hmaster] at htop
          rcases htop with htop | htop <;> cases htop
        · rw [Function.iterate_succ_apply, Option.bind_some, hmaster] at hn
          exact ⟨n, by omega, hn, htop.imp_left Nat.succ.inj⟩

theorem peerHost_eq {client host : String} :
    Network.peerHost client = host ↔ HostOf client host := by
  unfold Network.peerHost HostOf
  constructor
  · rintro rfl
    split
    · next before port hsplit =>
      obtain ⟨heq, hport⟩ := Text.eq_of_rsplitOnce hsplit
      exact .inr ⟨port, by rw [heq, String.toList_ofList], hport⟩
    · next hsplit => exact .inl ⟨Text.rsplitOnce_eq_none.1 hsplit, rfl⟩
  · rintro (⟨hnot, rfl⟩ | ⟨port, heq, hport⟩)
    · rw [Text.rsplitOnce_eq_none.2 hnot]
    · rw [heq, Text.rsplitOnce_append hport]
      exact String.ofList_toList

theorem ifaceBdf_eq_some {links : Links} {port bdf : String} :
    links.ifaceBdf port = some bdf ↔ links.Function port bdf := by
  unfold Links.ifaceBdf Links.Function bdfFromDevicePath
  rw [Option.bind_eq_some_iff]
  constructor
  · rintro ⟨path, hpath, hfind⟩
    obtain ⟨hbdf, below, above, heq, hbelow⟩ := List.find?_eq_some_iff_append.1 hfind
    obtain ⟨below', rest, hsplit, rfl, hrest⟩ := List.map_eq_append_iff.1 heq
    obtain ⟨name, above', rfl, rfl, rfl⟩ := List.map_eq_cons_iff.1 hrest
    refine ⟨above'.reverse, name, below'.reverse, ?_, rfl, hbdf, fun n hn => ?_⟩
    · rw [hpath, ← List.reverse_reverse path, hsplit]
      simp
    · simpa using hbelow _ (List.mem_map_of_mem (List.mem_reverse.1 hn))
  · rintro ⟨above, name, below, hdevice, rfl, hbdf, hbelow⟩
    refine ⟨_, hdevice, List.find?_eq_some_iff_append.2 ⟨hbdf, below.reverse.map toAsciiLowercase,
      above.reverse.map toAsciiLowercase, by simp, fun n hn => ?_⟩⟩
    obtain ⟨n, hmem, rfl⟩ := List.mem_map.1 hn
    simpa using hbelow n (List.mem_reverse.1 hmem)

section

variable {m : Machine} {update : PassthroughUpdate} {client : String}
  {devices : List PassthroughEntry} {cfg : PassthroughConfig}

theorem validateRequest_eq_ok {iface : Option String} :
    validateRequest m.links devices iface = .ok () ↔
      ∀ d ∈ devices, iface.bind m.links.ifaceBdf ≠ some d.address := by
  unfold validateRequest
  cases iface with
  | none => simp
  | some iface =>
  cases hbdf : m.links.ifaceBdf iface with
  | none => simp [hbdf]
  | some bdf =>
  cases hhit : devices.find? (·.address = bdf) with
  | some hit =>
    have hmem := List.mem_of_find?_eq_some hhit
    have haddr : hit.address = bdf := by simpa using List.find?_some hhit
    simp only [Option.bind_some, hbdf, hhit, reduceCtorEq, false_iff]
    intro h
    exact h hit hmem (by rw [haddr])
  | none =>
  have hnone := List.find?_eq_none.1 hhit
  simp only [Option.bind_some, hbdf, hhit, true_iff]
  intro d hd heq
  exact hnone d hd (by simpa using (Option.some.inj heq).symm)

theorem found_eq_some {bdf : String} :
    ((some client).bind (mgmtIfaceForPeer m.routeDev m.links.master)).bind m.links.ifaceBdf =
      some bdf ↔ m.Guards client bdf := by
  simp only [Option.bind_some, Option.bind_eq_some_iff, ifaceBdf_eq_some]
  unfold mgmtIfaceForPeer Machine.Guards
  split_ifs with hskipped
  · rw [String.isEmpty_iff] at hskipped
    simp only [false_and, exists_false, false_iff]
    exact fun h => hskipped.elim h.1 h.2.1
  rw [String.isEmpty_iff, not_or] at hskipped
  simp only [Option.map_eq_some_iff, ne_eq, hskipped, not_false_eq_true, true_and, ← peerHost_eq,
    Links.Topmost, ← walk_eq]
  grind

theorem stored_eq_some : (passthroughUpdate m (some client) update).stored = some cfg ↔
    m.stateWrite = none ∧ ∃ devices, resolve m.inventory update = .ok devices ∧
      (∀ d ∈ devices, ¬ m.Guards client d.address) ∧ cfg = ⟨devices, deriveIds devices⟩ := by
  unfold passthroughUpdate saveAndApply
  cases hresolve : resolve m.inventory update with
  | error e => simp
  | ok devices =>
  simp only [Except.ok.injEq, exists_eq_left', ← found_eq_some]
  rw [← validateRequest_eq_ok]
  cases validateRequest m.links devices
      ((some client).bind (mgmtIfaceForPeer m.routeDev m.links.master)) with
  | error e => simp
  | ok _ =>
    cases m.stateWrite with
    | some e => simp
    | none => simp [eq_comm]

theorem Machine.Carries.guards {dev bdf : String} (h : m.Carries client bdf)
    (hcolon : ':' ∉ client.toList) (hempty : client ≠ "") (hunknown : client ≠ "unknown")
    (hroute : m.routeDev client = some dev) (hplain : m.links.Plain dev) :
    m.Guards client bdf := by
  obtain ⟨dev', port, hroute', hbelow, hfunction⟩ := h
  cases hroute.symm.trans hroute'
  obtain rfl | ⟨lower, -, hunder⟩ := Relation.ReflTransGen.cases_tail hbelow
  · exact ⟨hempty, hunknown, client, dev, dev, .inl ⟨hcolon, rfl⟩, hroute,
      ⟨0, by omega, rfl, .inr hplain.1⟩, hfunction⟩
  · exact absurd hunder (hplain.2 lower)

/-- **The check.** A request spares the functions that carry the connection exactly if it fails,
names none of them, or also names the guarded one; on a plain port all are guarded. -/
theorem stored_spares_iff (m : Machine) (client : String) :
    (∀ update, (∀ cfg, (passthroughUpdate m (some client) update).stored = some cfg →
        m.Spares client cfg) ↔
      (m.stateWrite = none → ∀ devices, resolve m.inventory update = .ok devices →
        (∃ d ∈ devices, m.Carries client d.address) → ∃ d ∈ devices, m.Guards client d.address)) ∧
    (':' ∉ client.toList → client ≠ "" → client ≠ "unknown" →
      ∀ dev, m.routeDev client = some dev → m.links.Plain dev →
        ∀ bdf, m.Carries client bdf → m.Guards client bdf) := by
  refine ⟨fun update => ⟨?_, ?_⟩, fun hcolon hempty hunknown dev hroute hplain bdf h =>
    h.guards hcolon hempty hunknown hroute hplain⟩
  · rintro h hwrite devices hresolve ⟨d, hd, hcarries⟩
    by_contra hguards
    have hstored := stored_eq_some.2 ⟨hwrite, devices, hresolve,
      fun d hd hguarded => hguards ⟨d, hd, hguarded⟩, rfl⟩
    exact h _ hstored d hd hcarries
  · intro h cfg hstored d hd hcarries
    obtain ⟨hwrite, devices, hresolve, hunguarded, rfl⟩ := stored_eq_some.1 hstored
    obtain ⟨d', hd', hguards⟩ := h hwrite devices hresolve ⟨d, hd, hcarries⟩
    exact hunguarded d' hd' hguards

end

/-! ## A bridge -/

/-- `eth0`, a port at `0000:03:00.0`, is the member of `br0`; all routes use `br0`. -/
def bridgedMachine : Machine where
  inventory := [⟨"0000:03:00.0", "8086", "1533"⟩]
  links :=
    { device := fun l => if l = "eth0" then
        some ["sys", "devices", "pci0000:00", "0000:03:00.0"] else none
      master := fun l => if l = "eth0" then some "br0" else none
      parent := fun _ => none }
  routeDev := fun _ => some "br0"
  stateWrite := none
  nixDirExists := true
  nixWrite := none

/-- The check asks sysfs for the device of the bridge, which has none. -/
theorem bridge_port_claimed : ∃ cfg, (passthroughUpdate bridgedMachine (some "10.0.0.7")
      ⟨["0000:03:00.0"], []⟩).stored = some cfg ∧ ¬ bridgedMachine.Spares "10.0.0.7" cfg := by
  refine ⟨⟨[⟨"0000:03:00.0", "8086", "1533"⟩], [⟨"8086", "1533"⟩]⟩, by decide +kernel, ?_⟩
  intro h
  refine h _ List.mem_cons_self ⟨"br0", "eth0", rfl, .single (.inl rfl), ?_⟩
  exact ifaceBdf_eq_some.1 (by decide +kernel)

end Nasty.System.Passthrough
