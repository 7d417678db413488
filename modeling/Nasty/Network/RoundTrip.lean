import Nasty.Network.Validate

/-!
# The round trip through the layered model

For a configuration whose layered form validates, `fromLayered ∘ toLayered` gives the
configuration back, with one default interface appended for every bond or bridge member that
nothing declares. The converters regroup addresses and routes by link name, so what the round
trip needs of validation is that names are distinct.
-/

namespace Nasty.Network.Layered

open List Function

def memberNames (c : NetworkConfig) : List String :=
  c.bonds.flatMap (·.members) ++ c.bridges.flatMap (·.members)

def declaredNames (c : NetworkConfig) : List String :=
  c.interfaces.map (·.name) ++ c.bonds.map (·.name) ++ c.bridges.map (·.name) ++
    c.vlans.map (·.name) ++ c.macvlans.map (·.name)

def undeclaredMembers (c : NetworkConfig) : List String :=
  ((memberNames c).filter (· ∉ declaredNames c)).eraseDups

def defaultInterface (name : String) : InterfaceConfig := { name }

/-! ## The links -/

variable (c : NetworkConfig)

theorem declaredLinks_names : (declaredLinks c).map (·.name) = declaredNames c := by
  simp [declaredLinks, declaredNames, comp_def, interfaceLink, bondLink, bridgeLink,
    vlanLink, macvlanLink]

theorem declaredLinks_members : (declaredLinks c).flatMap Link.members = memberNames c := by
  have hnil : ∀ {α : Type} (xs : List α), xs.flatMap (fun _ => ([] : List String)) = [] :=
    fun xs => by simp
  simp [declaredLinks, memberNames, flatMap_map, interfaceLink, bondLink, bridgeLink,
    vlanLink, macvlanLink, Link.members, hnil]

theorem synthesize_eq (declared : List String) (ms seen : List String) :
    synthesize declared ms seen =
      ((ms.filter fun m => m ∉ declared ∧ m ∉ seen).eraseDups).map synthesizedLink := by
  induction ms generalizing seen with
  | nil => rfl
  | cons m ms ih =>
  rw [synthesize]
  split_ifs with h
  · rw [ih, filter_cons_of_neg (by simpa [or_iff_not_imp_left] using h)]
  have hm : m ∉ declared ∧ m ∉ seen := not_or.1 h
  rw [ih, filter_cons_of_pos (by simpa using hm), eraseDups_cons, filter_filter]
  congr 3
  refine filter_congr fun x _ => ?_
  by_cases hx : x = m <;> simp [hx]

theorem toLayered_links :
    (toLayered c).links = declaredLinks c ++ (undeclaredMembers c).map synthesizedLink := by
  show declaredLinks c ++ synthesize _ _ _ = _
  rw [synthesize_eq, declaredLinks_names, declaredLinks_members]
  simp [undeclaredMembers]

theorem l3Settings_names : (l3Settings c).map (·.1) = declaredNames c := by
  simp [l3Settings, declaredNames, comp_def]

/-! ## Regrouping addresses and routes -/

theorem eq_default_of_isEmptyIp {ip : IpConfig} (h : isEmptyIp ip) : ip = {} := by
  cases ip
  simp_all [isEmptyIp]

theorem foldl_addressRow {out : L3Map} {name : String} (family : Family) (ip : IpConfig)
    (hout : (match family with | .v4 => (out name).1 | .v6 => (out name).2) = {}) :
    (addressRow name family ip).foldl addAddress out =
      update out name
        (match family with | .v4 => (ip, (out name).2) | .v6 => ((out name).1, ip)) := by
  unfold addressRow
  split_ifs with h
  · -- an empty setting writes nothing and reads back as the default
    have hip := eq_default_of_isEmptyIp h
    subst hip
    refine (update_eq_self_iff.2 ?_).symm
    cases family <;> simp only at hout <;> simp [← hout]
  · cases family <;> rfl

theorem foldl_pushAddresses {out : L3Map} {name : String} (v4 v6 : IpConfig)
    (hout : out name = ({}, {})) :
    (pushAddresses name v4 v6).foldl addAddress out = update out name (v4, v6) := by
  unfold pushAddresses
  rw [foldl_append, foldl_addressRow .v4 v4 (by rw [hout]),
    foldl_addressRow .v6 v6 (by simp [hout])]
  simp

theorem foldl_addresses (settings : List (String × IpConfig × IpConfig)) (out : L3Map)
    (hnd : (settings.map (·.1)).Nodup) (hout : ∀ n ∈ settings.map (·.1), out n = ({}, {})) :
    (∀ s ∈ settings, (settings.flatMap fun (n, v4, v6) => pushAddresses n v4 v6).foldl
        addAddress out s.1 = s.2) ∧
      ∀ n ∉ settings.map (·.1), (settings.flatMap fun (n, v4, v6) => pushAddresses n v4 v6).foldl
        addAddress out n = out n := by
  induction settings generalizing out with
  | nil => simp
  | cons s rest ih =>
  obtain ⟨name, v4, v6⟩ := s
  rw [map_cons, nodup_cons] at hnd
  rw [map_cons, forall_mem_cons] at hout
  rw [flatMap_cons, foldl_append, foldl_pushAddresses v4 v6 hout.1]
  obtain ⟨hin, hnot⟩ := ih (update out name (v4, v6)) hnd.2 fun n hn => by
    have hne : n ≠ name := fun h => hnd.1 (h ▸ hn)
    rw [update_of_ne hne, hout.2 n hn]
  refine ⟨forall_mem_cons.2 ⟨?_, hin⟩, fun n hn => ?_⟩
  · rw [hnot name hnd.1, update_self]
  · rw [map_cons, mem_cons, not_or] at hn
    rw [hnot n hn.2, update_of_ne hn.1]

theorem routesByDev_of_ne {routes : List Route} {dev : String} (h : ∀ r ∈ routes, r.dev ≠ dev) :
    routesByDev routes dev = [] := by
  unfold routesByDev
  rw [filter_eq_nil_iff.2 (by simpa using h), map_nil]

theorem macvlanRoutes_dev {m : MacvlanConfig} {r : Route} (h : r ∈ macvlanRoutes m) :
    r.dev = m.name := by
  obtain ⟨dst, -, rfl⟩ := mem_map.1 h
  rfl

theorem routesByDev_append (rs rs' : List Route) (dev : String) :
    routesByDev (rs ++ rs') dev = routesByDev rs dev ++ routesByDev rs' dev := by
  simp [routesByDev]

theorem routesByDev_self (m : MacvlanConfig) : routesByDev (macvlanRoutes m) m.name = m.routes := by
  simp [routesByDev, macvlanRoutes, filter_map, comp_def]

theorem routesByDev_macvlans {ms : List MacvlanConfig} (hnd : (ms.map (·.name)).Nodup) :
    ∀ m ∈ ms, routesByDev (ms.flatMap macvlanRoutes) m.name = m.routes := by
  induction ms with
  | nil => simp
  | cons m ms ih =>
  rw [map_cons, nodup_cons] at hnd
  have hrest : routesByDev (ms.flatMap macvlanRoutes) m.name = [] := by
    refine routesByDev_of_ne fun r hr heq => hnd.1 ?_
    obtain ⟨m', hm', hr'⟩ := mem_flatMap.1 hr
    exact (macvlanRoutes_dev hr').symm.trans heq ▸ mem_map_of_mem hm'
  refine forall_mem_cons.2 ⟨?_, fun m' hm' => ?_⟩
  · rw [flatMap_cons, routesByDev_append, routesByDev_self, hrest, append_nil]
  have hne : ∀ r ∈ macvlanRoutes m, r.dev ≠ m'.name := fun r hr heq =>
    hnd.1 ((macvlanRoutes_dev hr).symm.trans heq ▸ mem_map_of_mem hm')
  rw [flatMap_cons, routesByDev_append, routesByDev_of_ne hne]
  exact ih hnd.2 m' hm'

/-! ## Rebuilding the lists -/

/-- **Push step to push run.** A kind of link whose push appends one element to its own list
appends the whole list over a run. -/
theorem foldl_pushLink {α : Type} {l3 : L3Map} {routes : List Route} (link : α → Link)
    (append : NetworkConfig → List α → NetworkConfig) (hnil : ∀ out, append out [] = out)
    (happ : ∀ out xs ys, append (append out xs) ys = append out (xs ++ ys)) (xs : List α)
    (hstep : ∀ out, ∀ x ∈ xs, pushLink l3 routes out (link x) = append out [x])
    (out : NetworkConfig) : (xs.map link).foldl (pushLink l3 routes) out = append out xs := by
  induction xs generalizing out with
  | nil => exact (hnil out).symm
  | cons x xs ih =>
    have hx := hstep out x mem_cons_self
    rw [map_cons, foldl_cons, hx,
      ih (fun out y hy => hstep out y (mem_cons_of_mem x hy)), happ, singleton_append]

/-! ## The round trip -/

variable {c : NetworkConfig}

theorem mem_undeclaredMembers {m : String} :
    m ∈ undeclaredMembers c ↔ m ∈ memberNames c ∧ m ∉ declaredNames c := by
  simp [undeclaredMembers]

theorem nodup_eraseDups : ∀ xs : List String, xs.eraseDups.Nodup
  | [] => by simp
  | x :: xs => by
    rw [eraseDups_cons, nodup_cons]
    exact ⟨by simp, nodup_eraseDups _⟩
termination_by xs => xs.length
decreasing_by exact Nat.lt_succ_of_le (length_filter_le _ _)

theorem groupAddresses_toLayered (hnd : (declaredNames c).Nodup) :
    (∀ s ∈ l3Settings c, groupAddresses (toLayered c).addresses s.1 = s.2) ∧
      ∀ n ∉ declaredNames c, groupAddresses (toLayered c).addresses n = ({}, {}) := by
  rw [← l3Settings_names] at hnd ⊢
  exact foldl_addresses (l3Settings c) (fun _ => ({}, {})) hnd fun _ _ => rfl

theorem fromLayered_toLayered_of_nodup (hnd : (declaredNames c).Nodup) :
    fromLayered (toLayered c) =
      { c with interfaces := c.interfaces ++ (undeclaredMembers c).map defaultInterface } := by
  obtain ⟨hset, hdef⟩ := groupAddresses_toLayered hnd
  have hmac : (c.macvlans.map (·.name)).Nodup := hnd.sublist (sublist_append_right _ _)
  have hroutes : ∀ m ∈ c.macvlans, routesByDev (toLayered c).routes m.name = m.routes :=
    routesByDev_macvlans hmac
  have hsynth : (undeclaredMembers c).map synthesizedLink =
      ((undeclaredMembers c).map defaultInterface).map interfaceLink := by
    rw [map_map]
    rfl
  unfold fromLayered
  generalize groupAddresses (toLayered c).addresses = l3 at hset hdef ⊢
  simp only [l3Settings, forall_mem_append, forall_mem_map] at hset
  obtain ⟨⟨⟨⟨hi, hb⟩, hbr⟩, hv⟩, hm⟩ := hset
  have hundeclared : ∀ i ∈ (undeclaredMembers c).map defaultInterface,
      l3 i.name = (i.ipv4, i.ipv6) := by
    intro i hi
    obtain ⟨n, hn, rfl⟩ := mem_map.1 hi
    exact hdef n (mem_undeclaredMembers.1 hn).2
  have hinterfaces (is : List InterfaceConfig) (h : ∀ i ∈ is, l3 i.name = (i.ipv4, i.ipv6))
      (out : NetworkConfig) : (is.map interfaceLink).foldl (pushLink l3 (toLayered c).routes) out =
        { out with interfaces := out.interfaces ++ is } :=
    foldl_pushLink interfaceLink (fun out is => { out with interfaces := out.interfaces ++ is })
      (by simp) (by simp) is (fun out i hi => by simp only [pushLink, interfaceLink, h i hi]) out
  rw [toLayered_links, hsynth, declaredLinks]
  simp only [foldl_append]
  rw [hinterfaces c.interfaces hi,
    foldl_pushLink bondLink (fun out bs => { out with bonds := out.bonds ++ bs }) (by simp)
      (by simp) c.bonds fun out b h => by simp only [pushLink, bondLink, hb b h],
    foldl_pushLink bridgeLink (fun out bs => { out with bridges := out.bridges ++ bs }) (by simp)
      (by simp) c.bridges fun out b h => by simp only [pushLink, bridgeLink, hbr b h],
    foldl_pushLink vlanLink (fun out vs => { out with vlans := out.vlans ++ vs }) (by simp)
      (by simp) c.vlans fun out v h => by simp only [pushLink, vlanLink, hv v h],
    foldl_pushLink macvlanLink (fun out ms => { out with macvlans := out.macvlans ++ ms })
      (by simp) (by simp) c.macvlans
      fun out m h => by simp only [pushLink, macvlanLink, hm m h, hroutes m h],
    hinterfaces _ hundeclared]
  rfl

theorem declaredNames_nodup (h : validate (toLayered c) = .ok ()) : (declaredNames c).Nodup := by
  have hnd := validate_nodup h
  rw [toLayered_links, map_append, declaredLinks_names] at hnd
  exact hnd.sublist (sublist_append_left _ _)

/-- **Round trip.** A valid configuration comes back unchanged, with every undeclared member
appended as a default interface. -/
theorem fromLayered_toLayered (c : NetworkConfig) (h : validate (toLayered c) = .ok ()) :
    fromLayered (toLayered c) =
        { c with interfaces := c.interfaces ++ (undeclaredMembers c).map defaultInterface } ∧
      (undeclaredMembers c).Nodup ∧
      (∀ m, m ∈ undeclaredMembers c ↔ m ∈ memberNames c ∧ m ∉ declaredNames c) ∧
      ((∀ m ∈ memberNames c, m ∈ declaredNames c) → fromLayered (toLayered c) = c) := by
  have hround := fromLayered_toLayered_of_nodup (declaredNames_nodup h)
  refine ⟨hround, nodup_eraseDups _, fun m => mem_undeclaredMembers, fun hall => ?_⟩
  have hnone : undeclaredMembers c = [] :=
    eq_nil_iff_forall_not_mem.2 fun m hm =>
      (mem_undeclaredMembers.1 hm).2 (hall m (mem_undeclaredMembers.1 hm).1)
  rw [hround, hnone, map_nil, append_nil]

def bondOverUndeclared : NetworkConfig where
  interfaces := [{ name := "eth0", mtu := some 9000 }]
  dns := ["10.0.0.1"]
  bonds := [{ name := "bond0", members := ["eth0", "eth1", "eth0.5"], mode := .activeBackup,
              ipv4 := { method := .dhcp }, ipv6 := {} }]
  vlans := [{ parent := "eth0", vlanId := 5, ipv4 := {}, ipv6 := {} }]
  macvlans := [{ name := "mv0", parent := "bond0", mode := "bridge",
                 ipv4 := { method := .static, addresses := ["10.0.0.9/24"] },
                 routes := ["10.9.0.0/16"] }]

theorem fromLayered_toLayered_bond :
    fromLayered (toLayered bondOverUndeclared) =
      { bondOverUndeclared with
        interfaces := bondOverUndeclared.interfaces ++ [defaultInterface "eth1"] } :=
  (fromLayered_toLayered bondOverUndeclared (by decide)).1

end Nasty.Network.Layered
