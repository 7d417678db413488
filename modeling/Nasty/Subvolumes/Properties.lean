import Nasty.Subvolumes.Commands

/-!
# Properties of subvolumes

`set_properties` and `remove_properties` go over the keys one at a time: a key is checked and its
attribute is written before the next key is looked at. The engine's own attributes are never
written, but a reserved key is refused without a change only if it comes first.
-/

namespace Nasty.Subvolumes

open List Function

abbrev Attrs := Name → Option Name

def xattrNs : Name := "user.".toList

def nastyKeyPrefix : Name := "nasty.".toList

inductive PropertyError
  | reservedProperty (key : Name)
  | other (error : SubvolumeError)

/-- The loop of both requests; `none` removes. Call `n` is answered by `io n`: an error and whether
it is `NotFound`. -/
def eachProperty (call : String) (forgiving : Bool) (io : ℕ → Option (Bool × String)) :
    ℕ → List (Name × Option Name) → Attrs → Except PropertyError Unit × Attrs
  | _, [], attrs => (.ok (), attrs)
  | n, (key, value) :: rest, attrs =>
    if nastyKeyPrefix <+: key then (.error (.reservedProperty key), attrs)
    else
      match io n with
      | none => eachProperty call forgiving io (n + 1) rest (update attrs (xattrNs ++ key) value)
      | some (notFound, e) =>
        if forgiving ∧ notFound then eachProperty call forgiving io (n + 1) rest attrs
        else (.error (.other (.commandFailed (call ++ .ofList (xattrNs ++ key) ++ ": " ++ e))), attrs)

def withSubvolume {α : Type} (found again : Except SubvolumeError α) (attrs : Attrs)
    (loop : Except PropertyError Unit × Attrs) : Except PropertyError α × Attrs :=
  match found with
  | .error e => (.error (.other e), attrs)
  | .ok _ => (loop.1.bind fun _ => again.mapError .other, loop.2)

variable {α : Type} (found again : Except SubvolumeError α) (io : ℕ → Option (Bool × String))

/-- The properties are a hash map; they are given in the order in which they come. -/
def setProperties (properties : List (Name × Name)) (attrs : Attrs) :
    Except PropertyError α × Attrs :=
  withSubvolume found again attrs
    (eachProperty "setxattr " false io 0 (properties.map fun p => (p.1, some p.2)) attrs)

def removeProperties (keys : List Name) (attrs : Attrs) : Except PropertyError α × Attrs :=
  withSubvolume found again attrs (eachProperty "removexattr " true io 0 (keys.map (·, none)) attrs)

/-! ## What they change -/

/-- The attributes that are the engine's own: `user.nasty.*`, and all that are not `user.*`. -/
def Reserved (xattrName : Name) : Prop :=
  xattrNs ++ nastyKeyPrefix <+: xattrName ∨ ¬ xattrNs <+: xattrName

/-- No attribute of the engine changes, and a refusal of a reserved key changes nothing. -/
def Refuses (attrs : Attrs) (r : Except PropertyError α × Attrs) : Prop :=
  (∀ n, Reserved n → r.2 n = attrs n) ∧
    ∀ key, r.1 = .error (.reservedProperty key) → r.2 = attrs

def Early (keys : List Name) : Prop :=
  (∀ key ∈ keys.head?, nastyKeyPrefix <+: key) ∨ ∀ key ∈ keys, ¬ nastyKeyPrefix <+: key

theorem not_reserved {key : Name} (h : ¬ nastyKeyPrefix <+: key) : ¬ Reserved (xattrNs ++ key) := by
  rintro (hreserved | huser)
  · exact h ((prefix_append_right_inj _).1 hreserved)
  · exact huser (prefix_append _ _)

section Loop

variable (call : String) (forgiving : Bool) (props : List (Name × Option Name)) (attrs : Attrs)

theorem eachProperty_spec (i : ℕ) :
    (∀ n, Reserved n → (eachProperty call forgiving io i props attrs).2 n = attrs n) ∧
      ∀ key, ((eachProperty call forgiving io i props attrs).1.bind fun _ =>
          again.mapError .other) = .error (.reservedProperty key) →
        ∃ p ∈ props, nastyKeyPrefix <+: p.1 := by
  induction props generalizing i attrs with
  | nil => exact ⟨fun _ _ => rfl, fun _ h => by cases again <;> cases h⟩
  | cons p rest ih =>
  simp only [exists_mem_cons_iff]
  unfold eachProperty
  split_ifs with hp
  · exact ⟨fun _ _ => rfl, fun _ _ => .inl hp⟩
  split
  · obtain ⟨hframe, hkey⟩ := ih (update attrs (xattrNs ++ p.1) p.2) (i + 1)
    refine ⟨fun n hn => (hframe n hn).trans (update_of_ne ?_ ..), fun key h => .inr (hkey key h)⟩
    rintro rfl
    exact not_reserved hp hn
  · split_ifs
    · exact ⟨(ih attrs (i + 1)).1, fun key h => .inr ((ih attrs (i + 1)).2 key h)⟩
    · exact ⟨fun _ _ => rfl, fun _ h => by cases h⟩

variable {props attrs}

theorem eachProperty_late {b : Bool} (hvalues : ∀ p ∈ props, p.2.isSome = b)
    (hkey : ∃ p ∈ props, nastyKeyPrefix <+: p.1) (i : ℕ) {n : Name} (hn : (attrs n).isSome = b) :
    ∃ key attrs', eachProperty call forgiving (fun _ => none) i props attrs =
      (.error (.reservedProperty key), attrs') ∧ (attrs' n).isSome = b := by
  induction props generalizing i attrs with
  | nil => simp at hkey
  | cons p rest ih =>
  rw [forall_mem_cons] at hvalues
  unfold eachProperty
  by_cases hp : nastyKeyPrefix <+: p.1
  · rw [if_pos hp]
    exact ⟨p.1, attrs, rfl, hn⟩
  rw [if_neg hp]
  refine ih hvalues.2 (by simpa [hp] using hkey) (i + 1) ?_
  rw [update_apply]
  split_ifs
  · exact hvalues.1
  · exact hn

/-- The requests refuse as they should exactly if the keys are in order. -/
theorem refuses_iff (a : α) {b : Bool} (hvalues : ∀ p ∈ props, p.2.isSome = b) :
    (∀ (found again : Except SubvolumeError α) io attrs, Refuses attrs
      (withSubvolume found again attrs (eachProperty call forgiving io 0 props attrs))) ↔
      Early (props.map Prod.fst) := by
  constructor
  · intro h
    by_contra hearly
    obtain ⟨hfirst, hkey⟩ := not_or.1 hearly
    cases props with
    | nil => simp at hkey
    | cons p rest =>
    rw [forall_mem_cons] at hvalues
    simp only [map_cons, head?_cons, Option.mem_def, Option.some.injEq, forall_eq'] at hfirst
    -- the attribute of the first key is not yet as it will be
    have hwritten : (update (fun _ => if b then none else some []) (xattrNs ++ p.1) p.2
        (xattrNs ++ p.1)).isSome = b := by rw [update_self, hvalues.1]
    obtain ⟨key, attrs', hloop, hafter⟩ := eachProperty_late call forgiving hvalues.2
      (by simpa [hfirst] using hkey) 1 hwritten
    have hsame := (h (.ok a) (.ok a) (fun _ => none) fun _ => if b then none else some []).2 key
    rw [eachProperty, if_neg hfirst, hloop] at hsame
    rw [show attrs' = _ from hsame rfl] at hafter
    cases b <;> cases hafter
  · intro h found again io attrs
    obtain ⟨hframe, hkey⟩ := eachProperty_spec again io call forgiving props attrs 0
    cases found with
    | error e => exact ⟨fun _ _ => rfl, fun _ _ => rfl⟩
    | ok a =>
    refine ⟨hframe, fun key hrefused => ?_⟩
    obtain ⟨p, hp, hreserved⟩ := hkey key hrefused
    rcases h with h | h
    · obtain ⟨q, rest, rfl⟩ := exists_cons_of_ne_nil (ne_nil_of_mem hp)
      rw [eachProperty, if_pos (h q.1 rfl)]
      rfl
    · exact absurd hreserved (h p.1 (mem_map_of_mem hp))

end Loop

/-- **Reserved keys.** A refusal changes nothing exactly if the first key in order is reserved or
none is. -/
theorem reserved_refused_iff (a : α) (properties : List (Name × Name)) (keys : List Name) :
    ((∀ (found again : Except SubvolumeError α) io attrs,
        Refuses attrs (setProperties found again io properties attrs)) ↔
      Early (properties.map Prod.fst)) ∧
    ((∀ (found again : Except SubvolumeError α) io attrs,
        Refuses attrs (removeProperties found again io keys attrs)) ↔ Early keys) := by
  have hset : ∀ p ∈ properties.map fun p => (p.1, some p.2), p.2.isSome = true :=
    forall_mem_map.2 fun _ _ => rfl
  have hremove : ∀ p ∈ keys.map (·, (none : Option Name)), p.2.isSome = false :=
    forall_mem_map.2 fun _ _ => rfl
  constructor
  · refine (refuses_iff "setxattr " false a hset).trans ?_
    rw [map_map]
    rfl
  · refine (refuses_iff "removexattr " true a hremove).trans ?_
    rw [map_map, show Prod.fst ∘ (·, none) = id from rfl, map_id]

/-- `{"a": "1", "nasty.owner": "eve"}`, in this order: `a` is set. -/
theorem property_set_though_refused : ¬ Refuses (fun _ => none) (setProperties (.ok ()) (.ok ())
    (fun _ => none) [("a".toList, "1".toList), ("nasty.owner".toList, "eve".toList)]
    fun _ => none) := by
  intro h
  have hsame := congrFun (h.2 "nasty.owner".toList rfl) "user.a".toList
  revert hsame
  decide

end Nasty.Subvolumes
