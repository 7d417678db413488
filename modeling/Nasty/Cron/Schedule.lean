import Mathlib.Data.List.MinMax

/-!
# Cron schedules

The `cron` crate parses a six-field expression to a schedule and gives the first instant after a
given one. It is a parameter here: `Schedule` carries what the crate promises of `after`, and
`Crate` is its parser. Both schedulers hold the union of one or two such schedules.
-/

namespace Nasty.Cron

open List

/-- A schedule of the crate: `next t` is the least matching instant strictly after `t`. -/
structure Schedule (τ : Type) [LinearOrder τ] where
  occurs : τ → Prop
  next : τ → Option τ
  next_some : ∀ {t u}, next t = some u → occurs u ∧ t < u ∧ ∀ v, occurs v → t < v → u ≤ v
  next_none : ∀ {t}, next t = none → ∀ v, occurs v → ¬ t < v

/-- `Schedule::from_str`. -/
abbrev Crate (τ : Type) [LinearOrder τ] := String → Except String (Schedule τ)

/-- A union of schedules, `CronSchedule` and `PosixSchedule` of the source. -/
structure UnionSchedule (τ : Type) [LinearOrder τ] where
  schedules : List (Schedule τ)

namespace UnionSchedule

variable {τ : Type} [LinearOrder τ] (s : UnionSchedule τ)

def Occurs (t : τ) : Prop := ∃ c ∈ s.schedules, c.occurs t

def nextAfter (t : τ) : Option τ := (s.schedules.filterMap (·.next t)).min?

variable {s} {t u now : τ}

theorem nextAfter_some (h : s.nextAfter t = some u) :
    s.Occurs u ∧ t < u ∧ ∀ v, s.Occurs v → t < v → u ≤ v := by
  obtain ⟨hmem, hle⟩ := min?_eq_some_iff.1 h
  obtain ⟨c, hc, hu⟩ := mem_filterMap.1 hmem
  obtain ⟨hocc, hlt, -⟩ := c.next_some hu
  refine ⟨⟨c, hc, hocc⟩, hlt, ?_⟩
  rintro v ⟨c', hc', hv⟩ htv
  rcases hn : c'.next t with _ | w
  · exact absurd htv (c'.next_none hn v hv)
  · exact (hle w (mem_filterMap.2 ⟨c', hc', hn⟩)).trans ((c'.next_some hn).2.2 v hv htv)

theorem nextAfter_none (h : s.nextAfter t = none) : ∀ v, s.Occurs v → ¬ t < v := by
  rintro v ⟨c, hc, hv⟩
  rw [nextAfter, min?_eq_none_iff, filterMap_eq_nil_iff] at h
  exact c.next_none (h c hc) v hv

theorem nextAfter_isSome : (s.nextAfter t).isSome ↔ ∃ v, s.Occurs v ∧ t < v := by
  rcases hn : s.nextAfter t with _ | u
  · simpa using nextAfter_none hn
  · obtain ⟨hocc, hlt, -⟩ := nextAfter_some hn
    exact iff_of_true rfl ⟨u, hocc, hlt⟩

theorem nextAfter_filter_isSome :
    ((s.nextAfter t).filter (· ≤ now)).isSome ↔ ∃ v, s.Occurs v ∧ t < v ∧ v ≤ now := by
  rcases hn : s.nextAfter t with _ | u
  · have hnone := nextAfter_none hn
    simp only [Option.filter_none, Option.isSome_none, Bool.false_eq_true, false_iff]
    rintro ⟨v, hv, htv, -⟩
    exact hnone v hv htv
  · obtain ⟨hocc, hlt, hle⟩ := nextAfter_some hn
    rw [Option.isSome_filter, Option.any_some, decide_eq_true_iff]
    exact ⟨fun hu => ⟨u, hocc, hlt, hu⟩, fun ⟨v, hv, htv, hvn⟩ => (hle v hv htv).trans hvn⟩

end UnionSchedule

def onDays (days : List ℕ) : Schedule ℕ where
  occurs d := d % 7 ∈ days
  next t := (range' (t + 1) 7).find? (· % 7 ∈ days)
  next_some := by
    intro t u h
    obtain ⟨hu, hmem, hbefore⟩ := find?_range'_eq_some.1 h
    rw [mem_range'_1] at hmem
    refine ⟨by simpa using hu, by omega, fun v hv htv => ?_⟩
    by_contra hlt
    have hnot := hbefore v (by omega) (by omega)
    simp [hv] at hnot
  next_none := by
    intro t h v hv htv
    rw [find?_eq_none] at h
    refine h (t + 1 + (v - (t + 1)) % 7) ?_ ?_
    · rw [mem_range'_1]
      omega
    · have heq : (t + 1 + (v - (t + 1)) % 7) % 7 = v % 7 := by omega
      simpa [heq] using hv

end Nasty.Cron
