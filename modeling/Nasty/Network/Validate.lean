import Nasty.Lib.Checks
import Nasty.Lib.ColorDfs
import Nasty.Network.Layered

/-!
# Structural validation

`layered::validate` makes five checks in a row: distinct names, resolving references, resolving
addresses, one master per link, and a three-colour search for dependency cycles. `WellFormed` is
the declarative reading of the five together; `validate_ok_iff` says that the code decides it.

The search is recursive on a graph that may be cyclic, so the model gives it fuel.
`visitForCycles_terminates` shows that the fuel never runs out once it exceeds the number of
names in the configuration, on any link list.
-/

namespace Nasty.Network.Layered

open Relation List Except ColorDfs

/-! ## The checks -/

/-- Check 1: every name is new to the set of names met before. -/
def checkDuplicates : List Link → List String → Except String Unit
  | [], _ => .ok ()
  | l :: ls, names =>
    if l.name ∈ names then .error s!"duplicate link name '{l.name}'"
    else checkDuplicates ls (l.name :: names)

def checkMember (names : List String) (link : Link) (m : String) : Except String Unit := do
  .refuse (m = link.name) s!"link '{link.name}' enslaves itself"
  .refuse (m ∉ names) s!"link '{link.name}' references missing member '{m}'"

/-- Check 2, for one link: its members or its parent exist and are not the link itself. -/
def checkReferences (names : List String) (link : Link) : Except String Unit :=
  match link.kind with
  | .bond members _ _ => .checkAll (checkMember names link) members
  | .bridge members _ _ _ _ => .checkAll (checkMember names link) members
  | .vlan parent _ => do
    .refuse (parent = link.name) s!"vlan '{link.name}' is its own parent"
    .refuse (parent ∉ names) s!"vlan '{link.name}' references missing parent '{parent}'"
  | .macvlan parent _ => do
    .refuse (parent = link.name) s!"macvlan '{link.name}' is its own parent"
    .refuse (parent ∉ names) (s!"macvlan '{link.name}' references missing parent '{parent}' " ++
      "(declare the parent interface/bridge first)")
  | .physical => .ok ()

def checkAddress (names : List String) (a : Address) : Except String Unit :=
  .refuse (a.link ∉ names) s!"address references missing link '{a.link}'"

/-- Check 4: walk the (member, master) pairs, remembering the master each member was given. -/
def checkMasters : List (String × String) → List (String × String) → Except String Unit
  | [], _ => .ok ()
  | (m, master) :: rest, masterOf =>
    match masterOf.lookup m with
    | some existing =>
      .error s!"link '{m}' is a member of both '{existing}' and '{master}'"
    | none => checkMasters rest ((m, master) :: masterOf)

/-- The (member, master) pairs of all bonds and bridges, in the order they are walked. -/
def enslavements (links : List Link) : List (String × String) :=
  links.flatMap fun l => l.members.map fun m => (m, l.name)

def deps (link : Link) : List String :=
  match link.kind with
  | .bond members _ _ => members
  | .bridge members _ _ _ _ => members
  | .vlan parent _ => [parent]
  | .macvlan parent _ => [parent]
  | .physical => []

/-- The link a name stands for. Collecting into a map lets a later link of the same name win. -/
def byName (links : List Link) (name : String) : Option Link :=
  links.reverse.find? (·.name = name)

abbrev ColorMap := ColorDfs.Coloring String

/-- The recursive search. `none` is a search that has run out of fuel. -/
def visitForCycles (byName : String → Option Link) :
    ℕ → String → ColorMap → Option (Except String ColorMap)
  | 0, _, _ => none
  | fuel + 1, node, color =>
    match color node with
    | some .black => some (.ok color)
    | some .gray => some (.error s!"cycle detected through link '{node}'")
    | none =>
      let color := Function.update color node (some .gray)
      match byName node with
      | none => some (.ok (Function.update color node (some .black)))
      | some link =>
        match visitList (visitForCycles byName fuel) (deps link) color with
        | none => none
        | some (.error e) => some (.error e)
        | some (.ok color) => some (.ok (Function.update color node (some .black)))

/-! ## The search terminates -/

def succOf (byName : String → Option Link) (node : String) : List String :=
  match byName node with
  | some link => deps link
  | none => []

def cycleMessage (node : String) : String := s!"cycle detected through link '{node}'"

def withMessage : Except String ColorMap → Except String ColorMap
  | .ok color => .ok color
  | .error node => .error (cycleMessage node)

theorem visitList_withMessage {f g : String → ColorMap → Option (Except String ColorMap)}
    (h : ∀ n c, f n c = (g n c).map withMessage) (ns : List String) (c : ColorMap) :
    visitList f ns c = (visitList g ns c).map withMessage := by
  induction ns generalizing c with
  | nil => rfl
  | cons n ns ih =>
  rw [visitList, visitList, h]
  rcases g n c with _ | _ | c'
  · rfl
  · rfl
  · exact ih c'

/-- The search is the library's search over `succOf`, with the source's error text. -/
theorem visitForCycles_eq (byName : String → Option Link) (fuel : ℕ) (node : String)
    (color : ColorMap) :
    visitForCycles byName fuel node color =
      (visit (succOf byName) fuel node color).map withMessage := by
  induction fuel generalizing node color with
  | zero => rfl
  | succ fuel ih =>
  rw [visitForCycles, visit]
  rcases color node with _ | _ | _
  · rw [succOf]
    rcases byName node with _ | link
    · rfl
    · dsimp only
      rw [visitList_withMessage ih]
      rcases visitList _ _ _ with _ | _ | _ <;> rfl
  · rfl
  · rfl

variable {link : Link} {links : List Link} {node : String}

theorem byName_mem (h : byName links node = some link) : link ∈ links ∧ link.name = node := by
  have hmem := mem_of_find?_eq_some h
  have hname := find?_some h
  exact ⟨mem_reverse.1 hmem, by simpa using hname⟩

def mentioned (links : List Link) : List String := links.flatMap deps

theorem succOf_mentioned {a b : String} (h : b ∈ succOf (byName links) a) :
    b ∈ mentioned links := by
  unfold succOf at h
  split at h
  · next link hl => exact mem_flatMap.2 ⟨link, (byName_mem hl).1, h⟩
  · cases h

variable (links : List Link)

/-- **Termination.** The search ends, and fuel beyond the number of names it can meet changes
nothing. -/
theorem visitForCycles_terminates (node : String) (color : ColorMap) :
    ∃ r, ∀ fuel > (mentioned links).length + 1,
      visitForCycles (byName links) fuel node color = some r := by
  let N : Finset String := insert node (mentioned links).toFinset
  have hN : ∀ a ∈ N, ∀ b ∈ succOf (byName links) a, b ∈ N := fun _ _ b hb =>
    Finset.mem_insert_of_mem (mem_toFinset.2 (succOf_mentioned hb))
  have hcard : (uncolored N color).card ≤ (mentioned links).length + 1 :=
    calc (uncolored N color).card ≤ N.card := Finset.card_filter_le _ _
      _ ≤ (mentioned links).toFinset.card + 1 := Finset.card_insert_le _ _
      _ ≤ (mentioned links).length + 1 := Nat.add_le_add_right (toFinset_card_le _) 1
  obtain ⟨r, hr, -⟩ := visit_ends hN ((mentioned links).length + 2) node
    (Finset.mem_insert_self _ _) color (by omega)
  refine ⟨withMessage r, fun fuel hfuel => ?_⟩
  rw [visitForCycles_eq, visit_of_le hfuel _ _ _ hr]
  rfl

def cycleFuel (links : List Link) : ℕ := links.length + (mentioned links).length + 1

def visitLinks (links : List Link) : Option (Except String ColorMap) :=
  visitList (visitForCycles (byName links) (cycleFuel links)) (links.map (·.name))
    fun _ => none

theorem visitLinks_eq : visitLinks links = (visitAll (succOf (byName links)) (cycleFuel links)
      (links.map (·.name))).map withMessage :=
  visitList_withMessage (visitForCycles_eq _ _) _ _

theorem visitAll_links_isSome :
    (visitAll (succOf (byName links)) (cycleFuel links) (links.map (·.name))).isSome := by
  let N : Finset String := (links.map (·.name) ++ mentioned links).toFinset
  refine visitAll_isSome (N := N) (fun _ _ b hb => ?_) ?_ fun r hr => ?_
  · exact mem_toFinset.2 (mem_append_right _ (succOf_mentioned hb))
  · have := toFinset_card_le (links.map (·.name) ++ mentioned links)
    rw [length_append, length_map] at this
    exact Nat.lt_succ_of_le this
  · exact mem_toFinset.2 (mem_append_left _ hr)

theorem visitLinks_isSome : (visitLinks links).isSome := by
  rw [visitLinks_eq, Option.isSome_map]
  exact visitAll_links_isSome links

/-- Check 5. The search never runs out of fuel, so its result can be taken. -/
def detectCycles (links : List Link) : Except String Unit :=
  ((visitLinks links).get (visitLinks_isSome links)).map fun _ => ()

def validate (layered : LayeredConfig) : Except String Unit := do
  checkDuplicates layered.links []
  let names := layered.links.map (·.name)
  .checkAll (checkReferences names) layered.links
  .checkAll (checkAddress names) layered.addresses
  checkMasters (enslavements layered.links) []
  detectCycles layered.links

/-! ## What the checks decide -/

/-- The dependency relation: a master depends on its members, a VLAN or macvlan on its parent. -/
def DependsOn (links : List Link) (a b : String) : Prop := ∃ l ∈ links, l.name = a ∧ b ∈ deps l

structure WellFormed (c : LayeredConfig) : Prop where
  names : (c.links.map (·.name)).Nodup
  references : ∀ l ∈ c.links, ∀ d ∈ deps l, d ≠ l.name ∧ ∃ t ∈ c.links, t.name = d
  addresses : ∀ a ∈ c.addresses, ∃ l ∈ c.links, l.name = a.link
  masters : (c.links.flatMap Link.members).Nodup
  acyclic : ∀ n, ¬ TransGen (DependsOn c.links) n n

theorem nodup_disjoint_cons {n : String} {ns seen : List String} :
    (n :: ns).Nodup ∧ (n :: ns).Disjoint seen ↔ n ∉ seen ∧ ns.Nodup ∧ ns.Disjoint (n :: seen) := by
  rw [nodup_cons, disjoint_cons_left, disjoint_cons_right]
  tauto

variable {names : List String} {m : String} {masterOf : List (String × String)}

theorem checkDuplicates_ok : checkDuplicates links names = .ok () ↔
      (links.map (·.name)).Nodup ∧ (links.map (·.name)).Disjoint names := by
  induction links generalizing names with
  | nil => simp [checkDuplicates]
  | cons l ls ih =>
  rw [checkDuplicates, map_cons, nodup_disjoint_cons]
  split_ifs with h
  · simp [h]
  · rw [ih, and_iff_right h]

theorem checkMember_ok : checkMember names link m = .ok () ↔ m ≠ link.name ∧ m ∈ names := by
  unfold checkMember
  rw [seq_eq_ok, refuse_eq_ok, refuse_eq_ok, not_not]

theorem checkReferences_ok :
    checkReferences names link = .ok () ↔ ∀ d ∈ deps link, d ≠ link.name ∧ d ∈ names := by
  unfold checkReferences deps
  split
  · rw [checkAll_eq_ok]
    simp only [checkMember_ok]
  · rw [checkAll_eq_ok]
    simp only [checkMember_ok]
  · rw [seq_eq_ok]
    simp
  · rw [seq_eq_ok]
    simp
  · simp

theorem lookup_isSome_iff : (masterOf.lookup m).isSome ↔ m ∈ masterOf.map (·.1) := by
  simp

theorem checkMasters_ok {pairs : List (String × String)} : checkMasters pairs masterOf = .ok () ↔
      (pairs.map (·.1)).Nodup ∧ (pairs.map (·.1)).Disjoint (masterOf.map (·.1)) := by
  induction pairs generalizing masterOf with
  | nil => simp [checkMasters]
  | cons p ps ih =>
  obtain ⟨m, master⟩ := p
  rw [checkMasters, map_cons, nodup_disjoint_cons, ← lookup_isSome_iff]
  rcases masterOf.lookup m with _ | existing
  · rw [ih]
    simp
  · simp

theorem enslavements_fst : (enslavements links).map (·.1) = links.flatMap Link.members := by
  unfold enslavements
  rw [map_flatMap]
  simp [Function.comp_def]

section Distinct

variable {links : List Link} (hnd : (links.map (·.name)).Nodup)

include hnd in
theorem byName_eq_some_iff : byName links node = some link ↔ link ∈ links ∧ link.name = node := by
  refine ⟨byName_mem, fun ⟨hmem, hname⟩ => ?_⟩
  unfold byName
  rcases hf : links.reverse.find? (·.name = node) with _ | other
  · have := find?_eq_none.1 hf link (mem_reverse.2 hmem)
    simp [hname] at this
  · obtain ⟨hmem', hname'⟩ := byName_mem hf
    rw [hf, inj_on_of_nodup_map hnd hmem' hmem (hname'.trans hname.symm)]

include hnd in
theorem edge_iff_dependsOn {a b : String} :
    ColorDfs.Edge (succOf (byName links)) a b ↔ DependsOn links a b := by
  unfold ColorDfs.Edge succOf DependsOn
  constructor
  · intro h
    split at h
    · next link hl => exact ⟨link, (byName_mem hl).1, (byName_mem hl).2, h⟩
    · cases h
  · rintro ⟨link, hmem, hname, hb⟩
    rw [(byName_eq_some_iff hnd).2 ⟨hmem, hname⟩]
    exact hb

theorem detectCycles_eq_ok :
    detectCycles links = .ok () ↔
      ∃ c, visitAll (succOf (byName links)) (cycleFuel links)
        (links.map (·.name)) = some (.ok c) := by
  have hget : ∀ {r} (h : visitLinks links = some r),
      (visitLinks links).get (visitLinks_isSome links) = r := fun h => by simp [h]
  obtain ⟨r, hr⟩ := Option.isSome_iff_exists.1 (visitAll_links_isSome links)
  have hv : visitLinks links = some (withMessage r) := by rw [visitLinks_eq, hr]; rfl
  unfold detectCycles
  rw [hget hv, hr]
  rcases r with e | c <;> simp [withMessage, Except.map]

include hnd in
theorem detectCycles_ok : detectCycles links = .ok () ↔ ∀ n, ¬ TransGen (DependsOn links) n n := by
  have hedge : ColorDfs.Edge (succOf (byName links)) = DependsOn links := by
    funext a b
    exact propext (edge_iff_dependsOn hnd)
  rw [detectCycles_eq_ok, visitAll_ok_iff (visitAll_links_isSome links), hedge]
  constructor
  · intro h n hcyc
    -- a node on a cycle depends on something, so it is a link and the search starts there too
    obtain ⟨m, ⟨l, hl, hname, -⟩, -⟩ := TransGen.head'_iff.1 hcyc
    exact h n (hname ▸ mem_map_of_mem hl) n ReflTransGen.refl hcyc
  · intro h r _ n _
    exact h n

end Distinct

theorem validate_nodup {c : LayeredConfig} (h : validate c = .ok ()) :
    (c.links.map (·.name)).Nodup := by
  unfold validate at h
  rw [seq_eq_ok, checkDuplicates_ok] at h
  exact h.1.1

/-- `validate` decides well-formedness, and the search inside it terminates on every link list. -/
theorem validate_ok_iff (c : LayeredConfig) :
    (validate c = .ok () ↔ WellFormed c) ∧
      ∀ (links : List Link) (node : String) (color : ColorMap), ∃ r,
        ∀ fuel > (mentioned links).length + 1,
          visitForCycles (byName links) fuel node color = some r := by
  refine ⟨?_, visitForCycles_terminates⟩
  have hmem : ∀ d, d ∈ c.links.map (·.name) ↔ ∃ t ∈ c.links, t.name = d := fun d => mem_map
  unfold validate
  rw [seq_eq_ok, seq_eq_ok, seq_eq_ok, seq_eq_ok,
    checkAll_eq_ok, checkAll_eq_ok, checkDuplicates_ok, checkMasters_ok,
    enslavements_fst]
  simp only [checkReferences_ok, checkAddress, refuse_eq_ok, not_not, hmem,
    map_nil, disjoint_nil_right, and_true]
  constructor
  · rintro ⟨hnd, href, haddr, hmasters, hcyc⟩
    exact ⟨hnd, href, haddr, hmasters, (detectCycles_ok hnd).1 hcyc⟩
  · intro h
    exact ⟨h.names, h.references, h.addresses, h.masters, (detectCycles_ok h.names).2 h.acyclic⟩

end Nasty.Network.Layered
