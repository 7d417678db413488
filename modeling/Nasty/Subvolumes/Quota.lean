import Nasty.Subvolumes.Commands

/-!
# Project quotas

A filesystem subvolume has the quota of a project, whose id is a hash of its name cut to 32 bits.
Nothing looks for a collision, so two subvolumes with one id share one limit and one line of
`/etc/projid` (`quota_isolated_iff`).
-/

namespace Nasty.Subvolumes

open List Function

/-! ## The hash -/

/-- The state of `DefaultHasher`, which is SipHash-1-3 with the key zero. -/
structure SipState where
  v0 : UInt64
  v1 : UInt64
  v2 : UInt64
  v3 : UInt64

def rotateLeft (x n : UInt64) : UInt64 := x <<< n ||| x >>> (64 - n)

namespace SipState

def round (s : SipState) : SipState :=
  let v0 := s.v0 + s.v1
  let v1 := rotateLeft s.v1 13 ^^^ v0
  let v2 := s.v2 + s.v3
  let v3 := rotateLeft s.v3 16 ^^^ v2
  let v0 := rotateLeft v0 32 + v3
  let v2 := v2 + v1
  ⟨v0, rotateLeft v1 17 ^^^ v2, rotateLeft v2 32, rotateLeft v3 21 ^^^ v0⟩

def absorb (s : SipState) (m : UInt64) : SipState :=
  let t := { s with v3 := s.v3 ^^^ m }.round
  { t with v0 := t.v0 ^^^ m }

def finish (s : SipState) : UInt64 :=
  let t := { s with v2 := s.v2 ^^^ 0xff }.round.round.round
  t.v0 ^^^ t.v1 ^^^ t.v2 ^^^ t.v3

end SipState

def littleEndian (bytes : List UInt8) : UInt64 :=
  bytes.foldr (fun b word => word <<< 8 ||| b.toUInt64) 0

def absorbAll (length : ℕ) : SipState → List UInt8 → SipState
  | s, a :: b :: c :: d :: e :: f :: g :: h :: rest =>
    absorbAll length (s.absorb (littleEndian [a, b, c, d, e, f, g, h])) rest
  | s, tail => s.absorb (UInt64.ofNat length <<< 56 ||| littleEndian tail)

/-- What is hashed of a text: its bytes, and one that no text has. -/
def hashedBytes (s : Name) : List UInt8 := s.flatMap String.utf8EncodeChar ++ [0xff]

def hashOf (filesystem name : Name) : UInt64 :=
  let bytes := hashedBytes filesystem ++ hashedBytes name
  (absorbAll bytes.length ⟨0x736f6d6570736575, 0x646f72616e646f6d, 0x6c7967656e657261,
    0x7465646279746573⟩ bytes).finish

def projectIdFor (filesystem name : Name) : UInt32 := max (hashOf filesystem name).toUInt32 1

/-! ## Quotas -/

structure Quotas where
  limits : UInt32 → ℕ
  projects : Name → UInt32
  /-- The lines `nasty-<id>:<id>` of `/etc/projid`. -/
  registered : List UInt32

structure QuotaFaults where
  register : Bool
  current : Bool
  setproject : Bool
  limit : Bool

def registerProject (projid : UInt32) (q : Quotas) : Quotas :=
  if projid ∈ q.registered then q else { q with registered := q.registered ++ [projid] }

def unregisterProject (projid : UInt32) (q : Quotas) : Quotas :=
  { q with registered := q.registered.filter (· ≠ projid) }

def quotaKibFromBytes (bytes : ℕ) : ℕ := (bytes + 1023) / 1024

def setProjectQuotaLimit (projid : UInt32) (bytes : ℕ) (q : Quotas) : Quotas :=
  { q with limits := update q.limits projid (quotaKibFromBytes bytes) }

def setProjectQuota (faults : QuotaFaults) (dir : Name) (projid : UInt32) (bytes : ℕ) (q : Quotas) :
    Quotas :=
  let q := if faults.register then q else registerProject projid q
  if faults.current ∨ q.projects dir ≠ projid ∧ faults.setproject then q
  else
    let q := { q with projects := update q.projects dir projid }
    if faults.limit then q else setProjectQuotaLimit projid bytes q

/-- A quota is set when a subvolume is made, rolled back or reconciled; a resize sets the limit. -/
inductive QuotaOp
  | set (faults : QuotaFaults) (bytes : ℕ)
  | resize (bytes : ℕ)
  | delete

def QuotaOp.apply (filesystem name : Name) : QuotaOp → Quotas → Quotas
  | set faults bytes => setProjectQuota faults name (projectIdFor filesystem name) bytes
  | resize bytes => setProjectQuotaLimit (projectIdFor filesystem name) bytes
  | delete => unregisterProject (projectIdFor filesystem name)

/-! ## Isolation -/

/-- The limit of a subvolume, the project of its directory, and whether its own is registered. -/
def quotaOf (filesystem name : Name) (q : Quotas) : ℕ × UInt32 × Bool :=
  (q.limits (projectIdFor filesystem name), q.projects name,
    q.registered.contains (projectIdFor filesystem name))

/-- What is done to one of the subvolumes changes no other's quota. -/
def OthersKept (filesystem : Name) (names : Set Name) : Prop :=
  names.Pairwise fun a b => ∀ (op : QuotaOp) (q : Quotas),
    quotaOf filesystem b (op.apply filesystem a q) = quotaOf filesystem b q

structure Isolated (filesystem : Name) (names : Set Name) : Prop where
  ids : names.InjOn (projectIdFor filesystem)
  others : OthersKept filesystem names

def Clash (x y : UInt64) : Prop :=
  x.toUInt32 = y.toUInt32 ∨ x.toUInt32 ≤ 1 ∧ y.toUInt32 ≤ 1

section

variable {fs a b : Name}

theorem projectIdFor_eq_iff :
    projectIdFor fs a = projectIdFor fs b ↔ Clash (hashOf fs a) (hashOf fs b) := by
  unfold projectIdFor Clash
  generalize (hashOf fs a).toUInt32 = x
  generalize (hashOf fs b).toUInt32 = y
  rw [show max x 1 = if x ≤ 1 then 1 else x from rfl, show max y 1 = if y ≤ 1 then 1 else y from rfl]
  simp only [UInt32.le_iff_toNat_le, ← UInt32.toNat_inj]
  split_ifs <;> simp_all <;> omega

theorem quotaOf_register (hid : projectIdFor fs a ≠ projectIdFor fs b) (q : Quotas) :
    quotaOf fs b (registerProject (projectIdFor fs a) q) = quotaOf fs b q := by
  unfold registerProject
  split_ifs
  · rfl
  · simp [quotaOf, hid.symm]

theorem quotaOf_limit (hid : projectIdFor fs a ≠ projectIdFor fs b) (bytes : ℕ) (q : Quotas) :
    quotaOf fs b (setProjectQuotaLimit (projectIdFor fs a) bytes q) = quotaOf fs b q := by
  simp [quotaOf, setProjectQuotaLimit, hid.symm]

theorem quotaOf_apply (hne : a ≠ b) (hid : projectIdFor fs a ≠ projectIdFor fs b) (op : QuotaOp)
    (q : Quotas) : quotaOf fs b (op.apply fs a q) = quotaOf fs b q := by
  cases op with
  | set faults bytes =>
    have hregister := quotaOf_register hid q
    simp only [QuotaOp.apply, setProjectQuota]
    generalize registerProject (projectIdFor fs a) q = r at hregister ⊢
    have hassign (q : Quotas) :
        quotaOf fs b { q with projects := update q.projects a (projectIdFor fs a) } =
          quotaOf fs b q := by
      simp [quotaOf, hne.symm]
    split_ifs <;> simp [quotaOf_limit hid, *]
  | resize bytes => exact quotaOf_limit hid bytes q
  | delete => simp [QuotaOp.apply, unregisterProject, quotaOf, hid.symm]

end

def NoClash (filesystem : Name) (names : Set Name) : Prop :=
  names.Pairwise fun a b => ¬ Clash (hashOf filesystem a) (hashOf filesystem b)

section

variable {fs : Name} {names : Set Name}

/-- A resize of one subvolume is a resize of every other with its id. -/
theorem OthersKept.noClash (h : OthersKept fs names) : NoClash fs names := by
  intro a ha b hb hne hclash
  have hlimit := h ha hb hne (.resize 1) ⟨fun _ => 0, fun _ => 0, []⟩
  simp [quotaOf, QuotaOp.apply, setProjectQuotaLimit, projectIdFor_eq_iff.2 hclash,
    quotaKibFromBytes] at hlimit

theorem NoClash.isolated (h : NoClash fs names) : Isolated fs names := by
  have hids : names.Pairwise fun a b => projectIdFor fs a ≠ projectIdFor fs b :=
    fun a ha b hb hne hid => h ha hb hne (projectIdFor_eq_iff.1 hid)
  refine ⟨fun a ha b hb hid => ?_, fun a ha b hb hne => quotaOf_apply hne (hids ha hb hne)⟩
  by_contra hne
  exact hids ha hb hne hid

end

/-- **Isolation.** The quotas of the subvolumes are apart exactly if no two of their hashes clash,
and if two do then already what is done to one shows in another. -/
theorem quota_isolated_iff (filesystem : Name) (names : Set Name) :
    (Isolated filesystem names ↔ NoClash filesystem names) ∧
      (OthersKept filesystem names ↔ NoClash filesystem names) :=
  ⟨⟨fun h => h.others.noClash, fun h => h.isolated⟩, fun h => h.noClash, fun h => h.isolated.others⟩

/-- The volumes `vol39831` and `vol47534` of `tank` have one id. -/
theorem volumes_share_project :
    ¬ Isolated "tank".toList {"vol39831".toList, "vol47534".toList} := by
  intro h
  have hid : projectIdFor "tank".toList "vol39831".toList =
      projectIdFor "tank".toList "vol47534".toList := by decide +kernel
  exact absurd (h.ids (by simp) (by simp) hid) (by decide)

end Nasty.Subvolumes
