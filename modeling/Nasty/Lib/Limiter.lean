import Mathlib.Data.Finset.Card
import Mathlib.Order.Nat
import Mathlib.Tactic.Common

/-!
# Limits on failures

A limiter stores the times of failures and lets an attempt through while fewer than `max` of those
stored are near. The check of an attempt, its failure and the record of the failure are three
separate steps of its slot; in between, others take theirs, time passes and old entries are dropped.

`near now t` says that at the time `now` a failure at `t` still counts. If an attempt is let through
only while those recorded and those that may still be are fewer than `max`, then no window (a set of
times that are all near each other) has more than `max` failures (`Inv.bounded`).
-/

namespace Limiter

open Function Finset

variable {τ : Type}

/-! ## Slots -/

/-- Where an attempt is. One let in without a check is `exempt`. -/
inductive Slot (τ : Type)
  | idle
  | exempt (now : τ)
  | passed (now : τ)
  | failed (now : τ)
  /-- The attempt has succeeded, and what is stored was dropped. -/
  | cleared

/-- A checked attempt whose failure is not recorded. -/
def Slot.unrecorded : Slot τ → Bool
  | passed _ | failed _ => true
  | _ => false

def Slot.underway : Slot τ → Bool
  | passed _ | exempt _ => true
  | _ => false

structure State (τ : Type) where
  clock : τ
  stored : List τ
  /-- The failures of checked attempts since the last success. -/
  failures : List τ
  slots : ℕ → Slot τ

/-- There is room for one more attempt beside those recorded and those not recorded yet. -/
def Room (max recorded : ℕ) (slots : ℕ → Slot τ) : Prop :=
  ∀ ids : Finset ℕ, (∀ i ∈ ids, (slots i).unrecorded) → recorded + ids.card < max

section Slots

variable {s : State τ} {i : ℕ} {slot : Slot τ} {ids : Finset ℕ} {P : τ → Prop}

theorem not_mem_of_slot {K : τ → Slot τ} (h : ∀ t, s.slots i ≠ K t)
    (hids : ∀ j ∈ ids, ∃ t, s.slots j = K t ∧ P t) : i ∉ ids := by
  intro hi
  obtain ⟨t, ht, -⟩ := hids i hi
  exact h t ht

theorem slots_update {K : τ → Slot τ} (hi : i ∉ ids) :
    (∀ j ∈ ids, ∃ t, update s.slots i slot j = K t ∧ P t) ↔
      ∀ j ∈ ids, ∃ t, s.slots j = K t ∧ P t := by
  refine forall₂_congr fun j hj => ?_
  have hji : j ≠ i := fun hji => hi (hji ▸ hj)
  simp only [update_of_ne hji]

theorem not_cleared_of_update (hi : s.slots i ≠ .cleared)
    (h : ∀ j, update s.slots i slot j ≠ .cleared) (j : ℕ) : s.slots j ≠ .cleared := by
  by_cases hj : j = i
  · rwa [hj]
  · have hother := h j
    rwa [update_of_ne hj] at hother

end Slots

/-! ## Moves -/

variable [Preorder τ]

/-- What counts later counts earlier. -/
def Fades (near : τ → τ → Bool) : Prop := ∀ now later t, now ≤ later → near later t → near now t

theorem Fades.countP_filter {near : τ → τ → Bool} (h : Fades near) {now later : τ}
    (hle : now ≤ later) (ts : List τ) :
    (ts.filter (near now)).countP (near later) = ts.countP (near later) := by
  rw [List.countP_filter]
  refine List.countP_congr fun t _ => ?_
  rw [Bool.and_eq_true, and_iff_left_of_imp fun ht => h now later t hle ht]

variable (near : τ → τ → Bool) (max : ℕ)

/-- What attempt `i` may do to what is stored and to the failures, and where it is then. -/
inductive Move (s : State τ) (i : ℕ) : List τ → List τ → Slot τ → Prop
  | stay : Move s i s.stored s.failures (s.slots i)
  | prune {now} (h : now ≤ s.clock) : Move s i (s.stored.filter (near now)) s.failures (s.slots i)
  | pass (hidle : s.slots i = .idle) (hcleared : ∀ j, s.slots j ≠ .cleared)
      (h : Room max (s.stored.countP (near s.clock)) s.slots) :
      Move s i s.stored s.failures (.passed s.clock)
  | enter {now} (hidle : s.slots i = .idle) : Move s i s.stored s.failures (.exempt now)
  | leave (hslot : (s.slots i).underway) :
      Move s i s.stored s.failures .idle
  | fail {now} (hslot : s.slots i = .passed now) :
      Move s i s.stored (s.failures ++ [now]) (.failed now)
  | record {now} (h : now ≤ s.clock) (hslot : s.slots i = .failed now ∨ s.slots i = .exempt now) :
      Move s i (s.stored.filter (near now) ++ [now]) s.failures .idle
  | clear (hslot : (s.slots i).underway) :
      Move s i [] s.failures .cleared
  | succeed (hslot : s.slots i = .cleared) : Move s i s.stored [] .idle

theorem Move.cast {near : τ → τ → Bool} {max : ℕ} {s : State τ} {i : ℕ} {slot : Slot τ}
    {stored stored' failures failures' : List τ} (h : Move near max s i stored failures slot)
    (hstored : stored = stored') (hfailures : failures = failures') :
    Move near max s i stored' failures' slot := hstored ▸ hfailures ▸ h

/-! ## The invariant -/

structure Inv (s : State τ) : Prop where
  /-- No window has more than `max` failures, those of checked attempts included. -/
  window : ∀ p : τ → Bool, (∀ t u, p t → p u → near t u) →
    ∀ ids : Finset ℕ, (∀ i ∈ ids, ∃ t, s.slots i = .passed t ∧ p t) →
      s.failures.countP p + ids.card ≤ max
  /-- Failures that count are stored or not recorded yet. -/
  covers : (∀ i, s.slots i ≠ .cleared) → ∀ now, s.clock ≤ now →
    ∃ ids : Finset ℕ, (∀ i ∈ ids, ∃ t, s.slots i = .failed t ∧ near now t) ∧
      s.failures.countP (near now) ≤ s.stored.countP (near now) + ids.card

/-- No window has more than `max` of the times. -/
def Bounded (ts : List τ) : Prop :=
  ∀ p : τ → Bool, (∀ t u, p t → p u → near t u) → ts.countP p ≤ max

variable {near max} {s : State τ}

theorem Inv.bounded (h : Inv near max s) : Bounded near max s.failures := fun p hp =>
  h.window p hp ∅ (by simp)

theorem inv_of_nil {clock : τ} {stored : List τ} :
    Inv near max ⟨clock, stored, [], fun _ => .idle⟩ := by
  refine ⟨fun p _ ids hids => ?_, fun _ now _ => ⟨∅, by simp, Nat.zero_le _⟩⟩
  obtain rfl : ids = ∅ := eq_empty_of_forall_notMem fun i hi => by
    obtain ⟨t, ht, -⟩ := hids i hi
    cases ht
  exact Nat.zero_le _

theorem Inv.tick (h : Inv near max s) {now : τ} (hnow : s.clock ≤ now) :
    Inv near max { s with clock := now } :=
  ⟨h.window, fun hcleared later hlater => h.covers hcleared later (le_trans hnow hlater)⟩

section Move

variable {i : ℕ} {slot : Slot τ} {stored failures : List τ} (h : Inv near max s)
include h

/-- An attempt that has not passed its check is not counted as one that may fail. -/
theorem Inv.window_of_ne (hslot : ∀ t, slot ≠ .passed t)
    (hfailures : ∀ p, (∀ t u, p t → p u → near t u) → failures.countP p ≤ s.failures.countP p)
    (p : τ → Bool) (hp : ∀ t u, p t → p u → near t u) (ids : Finset ℕ)
    (hids : ∀ j ∈ ids, ∃ t, update s.slots i slot j = .passed t ∧ p t) :
    failures.countP p + ids.card ≤ max := by
  have hi : i ∉ ids := by
    intro hi
    obtain ⟨t, ht, -⟩ := hids i hi
    exact hslot t (update_self i slot s.slots ▸ ht)
  have hold := h.window p hp ids ((slots_update hi).1 hids)
  have hle := hfailures p hp
  omega

/-- Whatever is stored more or differently, an attempt that has not failed is not missed. -/
theorem Inv.covers_of_ne (hfailed : ∀ t, s.slots i ≠ .failed t) (hcleared : s.slots i ≠ .cleared)
    (hstored : ∀ now, s.clock ≤ now → s.stored.countP (near now) ≤ stored.countP (near now))
    (hnone : ∀ j, update s.slots i slot j ≠ .cleared) (now : τ) (hnow : s.clock ≤ now) :
    ∃ ids : Finset ℕ, (∀ j ∈ ids, ∃ t, update s.slots i slot j = .failed t ∧
      near now t) ∧ s.failures.countP (near now) ≤ stored.countP (near now) + ids.card := by
  obtain ⟨ids, hids, hle⟩ := h.covers (not_cleared_of_update hcleared hnone) now hnow
  refine ⟨ids, (slots_update (not_mem_of_slot hfailed hids)).2 hids, ?_⟩
  have hmore := hstored now hnow
  omega

theorem Inv.pass (hidle : s.slots i = .idle) (hcleared : ∀ j, s.slots j ≠ .cleared)
    (hroom : Room max (s.stored.countP (near s.clock)) s.slots) :
    Inv near max { s with slots := update s.slots i (.passed s.clock) } := by
  refine ⟨fun p hp ids hids => ?_, fun hnone => h.covers_of_ne (by simp [hidle]) (hcleared i)
    (fun _ _ => le_rfl) hnone⟩
  dsimp only at *
  by_cases hi : i ∈ ids
  · -- what is in the window is near the clock, so it is stored or not recorded yet
    obtain ⟨t, ht, hpt⟩ := hids i hi
    rw [update_self] at ht
    cases ht
    have hothers : ∀ j ∈ ids.erase i, ∃ t, s.slots j = .passed t ∧ p t :=
      (slots_update (notMem_erase i ids)).1 fun j hj => hids j (mem_of_mem_erase hj)
    obtain ⟨failed, hfailed, hle⟩ := h.covers hcleared s.clock le_rfl
    have hdisjoint : Disjoint failed (ids.erase i) := by
      refine disjoint_left.2 fun j hj hj' => ?_
      obtain ⟨t, ht, -⟩ := hfailed j hj
      obtain ⟨u, hu, -⟩ := hothers j hj'
      nomatch ht.symm.trans hu
    have hfew := hroom (failed ∪ ids.erase i) fun j hj => by
      rcases mem_union.1 hj with hj | hj
      · obtain ⟨t, ht, -⟩ := hfailed j hj
        rw [ht]
        rfl
      · obtain ⟨t, ht, -⟩ := hothers j hj
        rw [ht]
        rfl
    have hnear : s.failures.countP p ≤ s.failures.countP (near s.clock) :=
      List.countP_mono_left fun u _ hu => hp _ u hpt hu
    have hcard := card_erase_add_one hi
    rw [card_union_of_disjoint hdisjoint] at hfew
    omega
  · exact h.window p hp ids ((slots_update hi).1 hids)

theorem Inv.fail {now : τ} (hslot : s.slots i = .passed now) :
    Inv near max { s with
      failures := s.failures ++ [now], slots := update s.slots i (.failed now) } := by
  refine ⟨fun p hp ids hids => ?_, fun hnone later hlater => ?_⟩ <;> dsimp only at *
  · have hi : i ∉ ids := by
      intro hi
      obtain ⟨t, ht, -⟩ := hids i hi
      rw [update_self] at ht
      cases ht
    have hids := (slots_update hi).1 hids
    rw [List.countP_append, List.countP_singleton]
    split_ifs with hpnow
    · have hwith := h.window p hp (insert i ids) (forall_mem_insert ..|>.2
        ⟨⟨now, hslot, hpnow⟩, hids⟩)
      rw [card_insert_of_notMem hi] at hwith
      omega
    · exact h.window p hp ids hids
  · obtain ⟨ids, hids, hle⟩ := h.covers (not_cleared_of_update (by simp [hslot]) hnone) later hlater
    have hi : i ∉ ids := not_mem_of_slot (by simp [hslot]) hids
    rw [List.countP_append, List.countP_singleton]
    split_ifs with hlaternow
    · refine ⟨insert i ids, forall_mem_insert ..|>.2
        ⟨⟨now, update_self .., hlaternow⟩, (slots_update hi).2 hids⟩, ?_⟩
      rw [card_insert_of_notMem hi]
      omega
    · exact ⟨ids, (slots_update hi).2 hids, hle⟩

theorem Inv.record (hfades : Fades near) {now : τ} (hnow : now ≤ s.clock)
    (hslot : s.slots i = .failed now ∨ s.slots i = .exempt now) :
    Inv near max { s with
      stored := s.stored.filter (near now) ++ [now], slots := update s.slots i .idle } := by
  refine ⟨h.window_of_ne (by simp) fun _ _ => le_rfl, fun hnone later hlater => ?_⟩
  dsimp only at *
  have hcleared : s.slots i ≠ .cleared := by rcases hslot with hslot | hslot <;> simp [hslot]
  obtain ⟨ids, hids, hle⟩ := h.covers (not_cleared_of_update hcleared hnone) later hlater
  refine ⟨ids.erase i, (slots_update (notMem_erase i ids)).2 fun j hj =>
    hids j (mem_of_mem_erase hj), ?_⟩
  rw [List.countP_append, hfades.countP_filter (le_trans hnow hlater), List.countP_singleton]
  by_cases hi : i ∈ ids
  · obtain ⟨t, ht, hneart⟩ := hids i hi
    rcases hslot with hslot | hslot
    · cases hslot.symm.trans ht
      have hcard := card_erase_add_one hi
      rw [if_pos hneart]
      omega
    · nomatch hslot.symm.trans ht
  · rw [erase_eq_of_notMem hi]
    omega

/-- **The invariant of the limiter.** -/
theorem Inv.move (hfades : Fades near) (hmove : Move near max s i stored failures slot) :
    Inv near max ⟨s.clock, stored, failures, update s.slots i slot⟩ := by
  cases hmove with
  | stay =>
    rw [update_eq_self]
    exact h
  | prune hnow =>
    rw [update_eq_self]
    refine ⟨h.window, fun hnone later hlater => ?_⟩
    rw [hfades.countP_filter (le_trans hnow hlater)]
    exact h.covers hnone later hlater
  | pass hidle hcleared hroom => exact h.pass hidle hcleared hroom
  | enter hidle =>
    exact ⟨h.window_of_ne (by simp) fun _ _ => le_rfl,
      h.covers_of_ne (by simp [hidle]) (by simp [hidle]) fun _ _ => le_rfl⟩
  | leave hslot =>
    refine ⟨h.window_of_ne (by simp) fun _ _ => le_rfl, h.covers_of_ne ?_ ?_ fun _ _ => le_rfl⟩
    · intro t ht
      rw [ht] at hslot
      nomatch hslot
    · intro hcleared
      rw [hcleared] at hslot
      nomatch hslot
  | fail hslot => exact h.fail hslot
  | record hnow hslot => exact h.record hfades hnow hslot
  | clear hslot =>
    exact ⟨h.window_of_ne (by simp) fun _ _ => le_rfl, fun hnone =>
      absurd (update_self i .cleared s.slots) (hnone i)⟩
  | succeed hslot =>
    exact ⟨h.window_of_ne (by simp) fun _ _ => Nat.zero_le _, fun _ now _ =>
      ⟨∅, by simp, Nat.zero_le _⟩⟩

end Move

end Limiter
