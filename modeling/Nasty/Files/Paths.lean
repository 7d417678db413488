import Nasty.Lib.FileTree

/-!
# Paths of the file browser

A request names a path below `/fs`. `safePathForSession` resolves it and checks that it is in the
scope of the session; `isInsideBlockSubvolume` and `isStorageRoot` protect what is managed
elsewhere.
-/

namespace Nasty.Files

open FileTree List Text

inductive StatusCode
  | ok
  | badRequest
  | forbidden
  | notFound
  | requestTimeout
  | conflict
  | internalServerError
  deriving DecidableEq

structure Session where
  owner : Option String
  filesystem : Option String

def filesRoot : Path := ["fs"]

def blockFileName : String := "vol.img"

/-! ## Requests -/

def backslashToSlash (c : Char) : Char := if c = '\\' then '/' else c

def dropSlashes (cs : List Char) : List Char := cs.dropWhile (· = '/')

/-- The text of a request with slashes only, and none in front. -/
def clean (requested : String) : List Char := dropSlashes (requested.toList.map backslashToSlash)

def requestParts (requested : String) : List Part :=
  .cur :: .name "fs" :: (split '/' (clean requested)).map partOf

def safePath (t : Tree) (requested : String) : Except StatusCode Path :=
  match canonicalize t (requestParts requested) with
  | none => .error .notFound
  | some path => if filesRoot <+: path then .ok path else .error .forbidden

def filePathInScope (s : Session) (path : Path) : Bool :=
  match s.owner, s.filesystem with
  | some _, _ => false
  | none, none => true
  | none, some filesystem => filesRoot <+: path ∧ (path.drop 1).head? = some filesystem

/-- As `Path::components` gives them: a dot counts in front only. -/
def components (cs : List Char) : List Part :=
  match (split '/' cs).filter (· ≠ []) with
  | [] => []
  | first :: rest => partOf first :: (rest.map partOf).filter (· ≠ .cur)

def Part.isNormal : Part → Bool
  | .name _ => true
  | .cur | .up => false

def requestedPathInFilesystemScope (requested filesystem : String) : Bool :=
  match components (clean requested) with
  | [] => false
  | first :: rest => first = .name filesystem && rest.all Part.isNormal

/-- A scoped session that asks for the root is led to its filesystem. -/
def rootedRequest (s : Session) (requested : String) : String :=
  if requested.toList.all (· = '/') then s.filesystem.getD requested else requested

/-- The rest of `safe_path_for_session`: the scope of the text, then that of the path. -/
def resolveInScope (t : Tree) (s : Session) (requested : String) : Except StatusCode Path :=
  if s.filesystem.any fun filesystem => !requestedPathInFilesystemScope requested filesystem then
    .error .forbidden
  else
    match safePath t requested with
    | .error status => .error (if s.filesystem.isSome then .forbidden else status)
    | .ok path => if filePathInScope s path then .ok path else .error .forbidden

def safePathForSession (t : Tree) (s : Session) (requested : String) : Except StatusCode Path :=
  if s.owner.isSome then .error .forbidden else resolveInScope t s (rootedRequest s requested)

/-! ## Protected places -/

def pathExists (t : Tree) (path : Path) : Bool := (canonicalize t (path.map .name)).isSome

/-- The path and the directories above it, up to `/fs` but without it. -/
def isInsideBlockSubvolume (t : Tree) (path : Path) : Bool :=
  path.inits.any fun p => (p = path || (filesRoot.isPrefixOf p && p ≠ filesRoot)) &&
    pathExists t (p ++ [blockFileName])

structure Subvolume where
  path : Path
  block : Bool

def isStorageRoot (path : Path) (subvolumes : List Subvolume) : Bool :=
  (if filesRoot <+: path then path.drop 1 else path).length ≤ 1 ||
    subvolumes.any (·.path = path)

/-- A list that cannot be read counts as containing the path. -/
def isStorageRootLive (inventory : Except String (List Subvolume)) (path : Path) : Bool :=
  match inventory with
  | .ok subvolumes => isStorageRoot path subvolumes
  | .error _ => true

/-! ## What the checks give -/

section

variable {t : Tree} {s : Session} {requested : String} {p : Path} {status : StatusCode}

theorem safePath_eq_ok (h : safePath t requested = .ok p) :
    canonicalize t (requestParts requested) = some p ∧ filesRoot <+: p := by
  unfold safePath at h
  split at h
  · cases h
  next path hpath =>
  split_ifs at h with hroot
  cases h
  exact ⟨hpath, hroot⟩

theorem safePath_of_session (h : safePathForSession t s requested = .ok p) :
    safePath t (rootedRequest s requested) = .ok p ∧ filePathInScope s p = true := by
  unfold safePathForSession at h
  split_ifs at h
  unfold resolveInScope at h
  split at h
  · cases h
  cases hpath : safePath t (rootedRequest s requested) with
  | error status =>
    rw [hpath] at h
    cases h
  | ok path =>
  rw [hpath] at h
  change (if _ then _ else _) = _ at h
  split_ifs at h with hin
  cases h
  exact ⟨rfl, hin⟩

theorem safePathForSession_eq_ok (h : safePathForSession t s requested = .ok p) :
    canonicalize t (requestParts (rootedRequest s requested)) = some p ∧ filesRoot <+: p :=
  safePath_eq_ok (safePath_of_session h).1

theorem safePath_ne_ok (h : safePath t requested = .error status) : status ≠ .ok := by
  unfold safePath at h
  split at h
  · cases h; nofun
  · split_ifs at h
    cases h; nofun

theorem safePathForSession_ne_ok (h : safePathForSession t s requested = .error status) :
    status ≠ .ok := by
  unfold safePathForSession at h
  split_ifs at h
  · cases h; nofun
  unfold resolveInScope at h
  split at h
  · cases h; nofun
  cases hpath : safePath t (rootedRequest s requested) with
  | error status' =>
    rw [hpath] at h
    change Except.error (if _ then _ else _) = _ at h
    split_ifs at h
    · cases h; nofun
    · cases h; exact safePath_ne_ok hpath
  | ok path =>
  rw [hpath] at h
  change (if _ then _ else _) = _ at h
  split_ifs at h
  cases h; nofun

end

/-! ## Paths that are written out -/

def relText (p : Path) : List Char := join ['/'] ((p.drop 1).map String.toList)

structure FileName (n : String) : Prop where
  ne_nil : n.toList ≠ []
  ne_dot : n.toList ≠ ['.']
  ne_dots : n.toList ≠ ['.', '.']
  slash : '/' ∉ n.toList

instance (n : String) : Decidable (FileName n) :=
  decidable_of_iff (n.toList ≠ [] ∧ n.toList ≠ ['.'] ∧ n.toList ≠ ['.', '.'] ∧ '/' ∉ n.toList)
    ⟨fun h => ⟨h.1, h.2.1, h.2.2.1, h.2.2.2⟩, fun h => ⟨h.ne_nil, h.ne_dot, h.ne_dots, h.slash⟩⟩

/-- A name that a request can hold: backslashes are read as slashes. -/
def Writable (n : String) : Prop := FileName n ∧ '\\' ∉ n.toList

section

variable {names : List String}

theorem FileName.partOf {n : String} (h : FileName n) : FileTree.partOf n.toList = .name n := by
  rw [FileTree.partOf, if_neg, if_neg h.ne_dots, String.ofList_toList]
  rintro (hnil | hdot)
  · exact h.ne_nil hnil
  · exact h.ne_dot hdot

theorem split_names (hne : names ≠ []) (h : ∀ n ∈ names, FileName n) :
    split '/' (join ['/'] (names.map String.toList)) = names.map String.toList := by
  refine split_join (by simpa using hne) fun piece hpiece => ?_
  obtain ⟨n, hn, rfl⟩ := mem_map.1 hpiece
  exact (h n hn).slash

theorem map_partOf_names (h : ∀ n ∈ names, FileName n) :
    (names.map String.toList).map FileTree.partOf = names.map .name := by
  rw [map_map]
  exact map_congr_left fun n hn => (h n hn).partOf

theorem dropSlashes_names (hne : names ≠ []) (h : ∀ n ∈ names, FileName n) :
    dropSlashes (join ['/'] (names.map String.toList)) =
      join ['/'] (names.map String.toList) := by
  obtain ⟨n, rest, rfl⟩ := exists_cons_of_ne_nil hne
  have hn := h n mem_cons_self
  obtain ⟨c, cs, hcs⟩ := exists_cons_of_ne_nil hn.ne_nil
  have hc : c ≠ '/' := by
    rintro rfl
    exact hn.slash (hcs ▸ mem_cons_self)
  have hjoin : ∃ ds, join ['/'] ((n :: rest).map String.toList) = c :: ds := by
    unfold join
    rw [map_cons, hcs]
    cases rest with
    | nil => exact ⟨cs, by rw [map_nil, intercalate_singleton]⟩
    | cons m rest => exact ⟨_, by rw [map_cons]; rfl⟩
  obtain ⟨ds, hds⟩ := hjoin
  rw [hds, dropSlashes, dropWhile_cons_of_neg (by simpa using hc)]

theorem clean_names (hne : names ≠ []) (h : ∀ n ∈ names, Writable n) :
    clean (String.ofList (join ['/'] (names.map String.toList))) =
      join ['/'] (names.map String.toList) := by
  have hback : '\\' ∉ join ['/'] (names.map String.toList) := by
    intro hmem
    obtain heq | ⟨piece, hpiece, hmem⟩ := mem_join hmem
    · exact absurd heq (by decide)
    · obtain ⟨n, hn, rfl⟩ := mem_map.1 hpiece
      exact (h n hn).2 hmem
  have hmap : (join ['/'] (names.map String.toList)).map backslashToSlash =
      join ['/'] (names.map String.toList) := by
    refine (map_congr_left fun c hc => ?_).trans (map_id _)
    exact if_neg fun heq : c = '\\' => hback (heq ▸ hc)
  rw [clean, String.toList_ofList, hmap, dropSlashes_names hne fun n hn => (h n hn).1]

theorem requestParts_names (hne : names ≠ []) (h : ∀ n ∈ names, Writable n) :
    requestParts (String.ofList (join ['/'] (names.map String.toList))) =
      .cur :: ("fs" :: names).map .name := by
  have hname : ∀ n ∈ names, FileName n := fun n hn => (h n hn).1
  rw [requestParts, clean_names hne h, split_names hne hname, map_partOf_names hname]
  rfl

theorem components_names (hne : names ≠ []) (h : ∀ n ∈ names, FileName n) :
    components (join ['/'] (names.map String.toList)) = names.map .name := by
  have hfilter : (names.map String.toList).filter (· ≠ []) = names.map String.toList := by
    refine filter_eq_self.2 fun piece hpiece => ?_
    obtain ⟨n, hn, rfl⟩ := mem_map.1 hpiece
    simpa using (h n hn).ne_nil
  obtain ⟨first, rest, rfl⟩ := exists_cons_of_ne_nil hne
  have hrest : ∀ n ∈ rest, FileName n := fun n hn => h n (mem_cons_of_mem _ hn)
  rw [components, split_names hne h, hfilter]
  simp only [map_cons]
  rw [(h first mem_cons_self).partOf, map_partOf_names hrest, filter_eq_self.2]
  intro part hpart
  obtain ⟨n, -, rfl⟩ := mem_map.1 hpart
  rfl

def Session.Sees (s : Session) (filesystem : String) : Prop :=
  s.owner = none ∧ (s.filesystem = none ∨ s.filesystem = some filesystem)

variable {t : Tree} {s : Session} {filesystem : String} {rest : Path}

theorem rootedRequest_names (h : ∀ n ∈ filesystem :: rest, FileName n) :
    rootedRequest s (String.ofList (relText ("fs" :: filesystem :: rest))) =
      String.ofList (relText ("fs" :: filesystem :: rest)) := by
  have htext := dropSlashes_names (cons_ne_nil _ _) h
  refine if_neg fun hall => ?_
  change (String.ofList (join ['/'] ((filesystem :: rest).map String.toList))).toList.all
    _ = true at hall
  rw [String.toList_ofList] at hall
  have hnil : dropSlashes (join ['/'] ((filesystem :: rest).map String.toList)) = [] :=
    dropWhile_eq_nil_iff.2 (by simpa using hall)
  have hsplit := split_names (cons_ne_nil _ _) h
  rw [← htext, hnil] at hsplit
  have hfirst : ([] : List Char) = filesystem.toList := (List.cons.inj hsplit).1
  exact (h filesystem mem_cons_self).ne_nil hfirst.symm

theorem safePathForSession_names (hs : s.Sees filesystem)
    (h : ∀ n ∈ filesystem :: rest, Writable n) (hreal : t.Real ("fs" :: filesystem :: rest)) :
    safePathForSession t s (String.ofList (relText ("fs" :: filesystem :: rest))) =
      .ok ("fs" :: filesystem :: rest) := by
  have hname : ∀ n ∈ filesystem :: rest, FileName n := fun n hn => (h n hn).1
  have hne : filesystem :: rest ≠ [] := cons_ne_nil _ _
  have hroot : filesRoot <+: "fs" :: filesystem :: rest := ⟨filesystem :: rest, rfl⟩
  have hwalk : canonicalize t (.cur :: ("fs" :: filesystem :: rest).map .name) =
      some ("fs" :: filesystem :: rest) := by
    have := canonicalize_names hreal
    unfold canonicalize maxLinks walk at this ⊢
    rw [walkWith, if_pos t.root]
    exact this
  have hsafe : safePath t (String.ofList (relText ("fs" :: filesystem :: rest))) =
      .ok ("fs" :: filesystem :: rest) := by
    have hparts := requestParts_names hne h
    unfold safePath
    change (match canonicalize t (requestParts
      (String.ofList (join ['/'] ((filesystem :: rest).map String.toList)))) with
      | none => _ | some path => _) = _
    rw [hparts, hwalk]
    exact if_pos hroot
  have hscope : ∀ f, s.filesystem = some f → requestedPathInFilesystemScope
      (String.ofList (relText ("fs" :: filesystem :: rest))) f = true := by
    intro f hf
    obtain rfl : filesystem = f := by
      rcases hs.2 with hnone | hsome
      · rw [hnone] at hf
        cases hf
      · exact Option.some.inj (hsome.symm.trans hf)
    unfold requestedPathInFilesystemScope
    change (match components (clean
      (String.ofList (join ['/'] ((filesystem :: rest).map String.toList)))) with
      | [] => _ | first :: rest => _) = _
    rw [clean_names hne h, components_names hne hname]
    simp [Part.isNormal]
  have hin : filePathInScope s ("fs" :: filesystem :: rest) = true := by
    unfold filePathInScope
    rw [hs.1]
    rcases hs.2 with hnone | hsome
    · rw [hnone]
    · rw [hsome]
      simp [hroot]
  rw [safePathForSession, hs.1, rootedRequest_names hname]
  simp only [Option.isSome_none, Bool.false_eq_true, if_false]
  unfold resolveInScope
  rw [if_neg, hsafe]
  · simp [hin]
  intro hany
  obtain ⟨f, hf, hno⟩ := (Option.any_eq_true _ _).1 hany
  rw [hscope f hf] at hno
  cases hno

end

end Nasty.Files
