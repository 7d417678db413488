import Nasty.Cron.Posix

/-!
# Agreement of the two parsers

Both schedulers accept a numeric weekday field by the same grammar and differ in one form: a
stepped single day `n/s` is the day `n` to the backup scheduler and the days `n, n + s, …` up to
7 to the scrub scheduler. So an expression fires at the same instants in both exactly when every
day of such a run is listed by some item anyway.
-/

namespace Nasty.Cron

open List Except Text Except

/-! ## The common grammar -/

inductive Item
  | every (step : ℕ)
  | range (start stop step : ℕ)
  | day (n : ℕ)
  | stepped (n step : ℕ)
  deriving DecidableEq

def parseDay (value : List Char) : Option ℕ := (Text.unsigned 255 value).filter (· ≤ 7)

def parseBase (base : List Char) (step : Option ℕ) : Option Item :=
  if base = ['*'] then some (.every (step.getD 1))
  else
    match splitOnce '-' base with
    | some (start, stop) => do
      let start ← parseDay start
      let stop ← parseDay stop
      if start ≤ stop then some (.range start stop (step.getD 1)) else none
    | none => do
      let n ← parseDay base
      match step with
      | some step => some (.stepped n step)
      | none => some (.day n)

def parseItem (part : List Char) : Option Item :=
  match splitOnce '/' part with
  | none => parseBase part none
  | some (base, step) => do
    let step ← (Text.unsigned 255 step).filter fun n => 1 ≤ n ∧ n ≤ 7
    parseBase base (some step)

def Item.days : Item → List ℕ
  | .every step => daysBetween 0 6 step
  | .range start stop step => daysBetween start stop step
  | .day n => [n]
  | .stepped n _ => [n]

/-- The days an item lists when a stepped single day runs on to the end of the week. -/
def Item.runOn : Item → List ℕ
  | .stepped n step => daysBetween n 7 step
  | item => item.days

/-- Every day that the run of a stepped single day reaches is listed by some item. -/
def SteppedDaysListed (field : List Char) : Prop :=
  ∀ part ∈ Text.split ',' field, ∀ n step, parseItem part = some (.stepped n step) →
    ∀ day ∈ daysBetween n 7 step, ∃ part' ∈ Text.split ',' field, ∃ item,
      parseItem part' = some item ∧ ∃ day' ∈ item.days, day' % 7 = day % 7

theorem mem_daysBetween {start stop step day : ℕ} :
    day ∈ daysBetween start stop step ↔ start ≤ day ∧ day ≤ stop ∧ (day - start) % step = 0 := by
  unfold daysBetween
  rw [mem_filter, mem_range'_1, decide_eq_true_iff]
  omega

theorem daysBetween_self (n step : ℕ) : daysBetween n n step = [n] := by
  simp [daysBetween]

/-! ## Both readings of an item -/

variable {value base part : List Char} {n : ℕ} {step : Option ℕ}

theorem Backup.parseValue_ok (h : Backup.parseValue value = .ok n) : parseDay value = some n := by
  unfold Backup.parseValue at h
  rcases hu : Text.unsigned 255 value with _ | day <;> rw [hu] at h
  · cases h
  · simp only at h
    split_ifs at h with hday
    rw [parseDay, hu, ← ok.inj h, Option.filter_some, if_pos (by simpa using hday)]

theorem Scrub.posixWeekday_eq (h : parseDay value = some n) : Scrub.posixWeekday value = .ok n := by
  obtain ⟨hu, hle⟩ := Option.filter_eq_some_iff.1 h
  unfold Scrub.posixWeekday
  rw [hu]
  exact if_pos (by simpa using hle)

theorem le_of_parseDay (h : parseDay value = some n) : n ≤ 7 := by
  simpa using (Option.filter_eq_some_iff.1 h).2

theorem baseDays_both {bs ss : List ℕ} (hb : Backup.baseDays base (step.getD 1) = .ok bs)
    (hs : Scrub.baseDays base step = .ok ss) :
    ∃ item, parseBase base step = some item ∧ bs = item.days ∧ ss = item.runOn := by
  unfold Backup.baseDays at hb
  unfold Scrub.baseDays at hs
  unfold parseBase
  by_cases hstar : base = ['*']
  · rw [if_pos hstar] at hb hs ⊢
    exact ⟨_, rfl, (ok.inj hb).symm, (ok.inj hs).symm⟩
  rw [if_neg hstar] at hb hs ⊢
  rcases hd : splitOnce '-' base with _ | ⟨start, stop⟩ <;> rw [hd] at hb hs <;>
    simp only at hb hs ⊢
  · obtain ⟨n, hn, hb⟩ := bind_eq_ok.1 hb
    have hday := Backup.parseValue_ok hn
    rw [Scrub.posixWeekday_eq hday] at hs
    rw [hday]
    rcases step with _ | step
    · exact ⟨.day n, rfl, by rw [← ok.inj hb, daysBetween_self]; rfl,
        by rw [← ok.inj hs]; exact daysBetween_self n 1⟩
    · exact ⟨.stepped n step, rfl, by rw [← ok.inj hb, daysBetween_self]; rfl,
        (ok.inj hs).symm⟩
  · obtain ⟨a, ha, hb⟩ := bind_eq_ok.1 hb
    obtain ⟨b, hb', hb⟩ := bind_eq_ok.1 hb
    have hstart := Backup.parseValue_ok ha
    have hstop := Backup.parseValue_ok hb'
    rw [Scrub.posixWeekday_eq hstart, Scrub.posixWeekday_eq hstop] at hs
    rw [hstart, hstop]
    by_cases hgt : a > b
    · rw [if_pos hgt] at hb
      cases hb
    rw [if_neg hgt] at hb
    have hs : (if a > b then _ else _) = _ := hs
    rw [if_neg hgt] at hs
    exact ⟨.range a b (step.getD 1), if_pos (by omega), (ok.inj hb).symm,
      (ok.inj hs).symm⟩

theorem itemDays_both {bs ss : List ℕ} (hb : Backup.itemDays part = .ok bs)
    (hs : Scrub.itemDays part = .ok ss) :
    ∃ item, parseItem part = some item ∧ bs = item.days.map (· % 7) ∧
      ss = item.runOn.map fun day => if day = 0 ∨ day = 7 then 1 else day + 1 := by
  unfold Backup.itemDays at hb
  unfold Scrub.itemDays Scrub.itemStep at hs
  unfold parseItem
  by_cases hnil : part = []
  · rw [if_pos hnil] at hs
    cases hs
  rw [if_neg hnil] at hs
  rcases hd : splitOnce '/' part with _ | ⟨base, step⟩ <;> rw [hd] at hb hs <;>
    simp only at hb hs ⊢
  · obtain ⟨ds, hds, hb⟩ := bind_eq_ok.1 hb
    obtain ⟨⟨base', step'⟩, hstep, hs⟩ := bind_eq_ok.1 hs
    cases hstep
    obtain ⟨rs, hrs, hs⟩ := bind_eq_ok.1 hs
    obtain ⟨item, hitem, rfl, rfl⟩ := baseDays_both hds hrs
    exact ⟨item, hitem, (ok.inj hb).symm, (ok.inj hs).symm⟩
  obtain ⟨⟨base', step'⟩, hstep, hs⟩ := bind_eq_ok.1 hs
  rcases hu : Text.unsigned 255 step with _ | n <;> rw [hu] at hstep
  · split_ifs at hstep
  simp only at hstep
  split_ifs at hstep with hslash hn
  cases hstep
  rw [unsigned_mono (show 255 ≤ 2 ^ 64 - 1 by decide) hu, Option.getD_some,
    if_neg (by omega)] at hb
  obtain ⟨ds, hds, hb⟩ := bind_eq_ok.1 hb
  obtain ⟨rs, hrs, hs⟩ := bind_eq_ok.1 hs
  obtain ⟨item, hitem, rfl, rfl⟩ := baseDays_both hds hrs
  refine ⟨item, ?_, (ok.inj hb).symm, (ok.inj hs).symm⟩
  rw [Option.filter_some, if_pos (by simp; omega)]
  exact hitem

/-- The run of an item stays in the week and contains the days the item lists. -/
structure Item.InWeek (item : Item) : Prop where
  le : ∀ day ∈ item.runOn, day ≤ 7
  subset : ∀ day ∈ item.days, day ∈ item.runOn

theorem inWeek_of_parseBase {item : Item} (h : parseBase base step = some item) : item.InWeek := by
  unfold parseBase at h
  by_cases hstar : base = ['*']
  · rw [if_pos hstar] at h
    cases h
    refine ⟨fun day hday => ?_, fun _ hday => hday⟩
    have := mem_daysBetween.1 hday
    omega
  rw [if_neg hstar] at h
  rcases hd : splitOnce '-' base with _ | ⟨start, stop⟩ <;> rw [hd] at h
  · obtain ⟨n, hn, h⟩ := Option.bind_eq_some_iff.1 h
    have hle := le_of_parseDay hn
    rcases step with _ | step <;> cases h
    · exact ⟨fun day hday => mem_singleton.1 hday ▸ hle, fun _ hday => hday⟩
    · refine ⟨fun day hday => (mem_daysBetween.1 hday).2.1, fun day hday => ?_⟩
      rw [mem_singleton.1 hday]
      exact mem_daysBetween.2 ⟨le_refl n, hle, by simp⟩
  obtain ⟨a, ha, h⟩ := Option.bind_eq_some_iff.1 h
  obtain ⟨b, hb, h⟩ := Option.bind_eq_some_iff.1 h
  have hle := le_of_parseDay hb
  split_ifs at h
  cases h
  exact ⟨fun day hday => (mem_daysBetween.1 hday).2.1.trans hle, fun _ hday => hday⟩

theorem inWeek_of_parseItem {item : Item} (h : parseItem part = some item) : item.InWeek := by
  unfold parseItem at h
  rcases hd : splitOnce '/' part with _ | ⟨base, step⟩ <;> rw [hd] at h
  · exact inWeek_of_parseBase h
  · obtain ⟨n, -, h⟩ := Option.bind_eq_some_iff.1 h
    exact inWeek_of_parseBase h

/-! ## Both readings of a field -/

def Lists (days : Item → List ℕ) (field : List Char) (w : ℕ) : Prop :=
  ∃ part ∈ Text.split ',' field, ∃ item, parseItem part = some item ∧
    ∃ day ∈ days item, day % 7 = w

section

variable {field : List Char} {bs ss : List ℕ}

theorem selectedDays_both (hb : Backup.selectedDays field = .ok bs)
    (hs : Scrub.selectedDays field = .ok ss) : (∀ w, w ∈ bs ↔ Lists Item.days field w) ∧
      ∀ d, d ∈ ss ↔ ∃ w, d = w + 1 ∧ Lists Item.runOn field w := by
  obtain ⟨bss, hbss, hb⟩ := bind_eq_ok.1 hb
  obtain ⟨sss, hsss, hs⟩ := bind_eq_ok.1 hs
  obtain ⟨hball, hbmem⟩ := mem_of_mapM_eq_ok hbss
  obtain ⟨hsall, hsmem⟩ := mem_of_mapM_eq_ok hsss
  have hboth : ∀ part ∈ Text.split ',' field, ∃ item, parseItem part = some item ∧
      Backup.itemDays part = .ok (item.days.map (· % 7)) ∧
      Scrub.itemDays part = .ok (item.runOn.map (· % 7 + 1)) := by
    intro part hpart
    obtain ⟨b, hb⟩ := hball part hpart
    obtain ⟨s, hs⟩ := hsall part hpart
    obtain ⟨item, hitem, rfl, rfl⟩ := itemDays_both hb hs
    refine ⟨item, hitem, hb, hs.trans (congrArg _ (map_congr_left fun day hday => ?_))⟩
    have := (inWeek_of_parseItem hitem).le day hday
    split_ifs <;> omega
  rw [← ok.inj hb, ← ok.inj hs]
  refine ⟨fun w => ?_, fun d => ?_⟩
  · rw [mem_filter, mem_range, decide_eq_true_iff, mem_flatten]
    constructor
    · rintro ⟨-, l, hl, hw⟩
      obtain ⟨part, hpart, hok⟩ := (hbmem l).1 hl
      obtain ⟨item, hitem, hb, -⟩ := hboth part hpart
      cases hok.symm.trans hb
      exact ⟨part, hpart, item, hitem, mem_map.1 hw⟩
    rintro ⟨part, hpart, item, hitem, day, hday, rfl⟩
    obtain ⟨item', hitem', hb, -⟩ := hboth part hpart
    cases hitem.symm.trans hitem'
    exact ⟨Nat.mod_lt _ (by omega), _, (hbmem _).2 ⟨part, hpart, hb⟩, mem_map_of_mem hday⟩
  · rw [mem_insertionSort, mem_dedup, mem_flatten]
    constructor
    · rintro ⟨l, hl, hd⟩
      obtain ⟨part, hpart, hok⟩ := (hsmem l).1 hl
      obtain ⟨item, hitem, -, hs⟩ := hboth part hpart
      cases hok.symm.trans hs
      obtain ⟨day, hday, rfl⟩ := mem_map.1 hd
      exact ⟨day % 7, rfl, part, hpart, item, hitem, day, hday, rfl⟩
    rintro ⟨_, rfl, part, hpart, item, hitem, day, hday, rfl⟩
    obtain ⟨item', hitem', -, hs⟩ := hboth part hpart
    cases hitem.symm.trans hitem'
    exact ⟨_, (hsmem _).2 ⟨part, hpart, hs⟩, mem_map.2 ⟨day, hday, rfl⟩⟩

theorem lists_iff_steppedDaysListed :
    (∀ w, Lists Item.days field w ↔ Lists Item.runOn field w) ↔ SteppedDaysListed field := by
  constructor
  · intro h part hpart n step hitem day hday
    obtain ⟨part', hpart', item, hitem', day', hday', heq⟩ :=
      (h (day % 7)).2 ⟨part, hpart, .stepped n step, hitem, day, hday, rfl⟩
    exact ⟨part', hpart', item, hitem', day', hday', heq⟩
  intro h w
  constructor <;> rintro ⟨part, hpart, item, hitem, day, hday, rfl⟩
  · exact ⟨part, hpart, item, hitem, day, (inWeek_of_parseItem hitem).subset day hday, rfl⟩
  · cases item with
    | stepped n step => exact h part hpart n step hitem day hday
    | every step | range start stop step | day n => exact ⟨part, hpart, _, hitem, day, hday, rfl⟩

theorem selectedDays_eq (hb : Backup.selectedDays field = .ok bs)
    (hs : Scrub.selectedDays field = .ok ss)
    (h : ∀ w, Lists Item.days field w ↔ Lists Item.runOn field w) : bs.map (· + 1) = ss := by
  obtain ⟨hbmem, hsmem⟩ := selectedDays_both hb hs
  obtain ⟨_, hb⟩ := rest_ok hb
  obtain ⟨_, hs⟩ := rest_ok hs
  have hbs : bs.Pairwise (· < ·) := ok.inj hb ▸ pairwise_lt_range.filter _
  have hss : ss.Pairwise (· < ·) := by
    rw [← ok.inj hs]
    exact (sortedLE_insertionSort.sortedLT_of_nodup
      ((perm_insertionSort _ _).nodup_iff.2 (nodup_dedup _))).pairwise
  have hmap : (bs.map (· + 1)).Pairwise (· < ·) := by
    rw [pairwise_map]
    exact hbs.imp fun hlt => by omega
  refine hmap.eq_of_mem_iff hss fun d => ?_
  rw [hsmem d, mem_map]
  simp only [hbmem, h]
  exact ⟨fun ⟨w, hw, heq⟩ => ⟨w, heq.symm, hw⟩, fun ⟨w, heq, hw⟩ => ⟨w, hw, heq.symm⟩⟩

end

/-! ## Expressions -/

def Backup.Selects (field : List Char) (w : ℕ) : Prop :=
  ∃ days, Backup.selectedDays field = .ok days ∧ w ∈ days

def Scrub.Selects (field : List Char) (w : ℕ) : Prop :=
  field = ['*'] ∨ ∃ days, Scrub.selectedDays field = .ok days ∧ w + 1 ∈ days

variable {τ : Type} [LinearOrder τ]

/-- The crate reads weekday `*` as the list of all seven days. -/
def StarIsEveryDay (crate : Crate τ) : Prop :=
  ∀ minute hour day month s s', crate (cronExpression minute hour day month ['*']) = .ok s →
    crate (cronExpression minute hour day month "1,2,3,4,5,6,7".toList) = .ok s' →
      ∀ t, s.occurs t ↔ s'.occurs t

structure Agree (field : List Char) (b s : UnionSchedule τ) : Prop where
  weekdays : ∀ w < 7, Backup.Selects field w ↔ Scrub.Selects field w
  union : b.schedules.length = 2 ↔ s.schedules.length = 2
  instants : ∀ t, b.Occurs t ↔ s.Occurs t

section

variable {crate : Crate τ} {expr minute hour day month weekday normalized : List Char}
  {b s : UnionSchedule τ}

def expressionsOf (minute hour day month weekday translated : List Char) : List String :=
  if day ≠ ['*'] ∧ weekday ≠ ['*'] then
    [cronExpression minute hour day month ['*'], cronExpression minute hour ['*'] month translated]
  else [cronExpression minute hour day month translated]

theorem Backup.parseCron_ok (hfields : splitWhitespace expr = [minute, hour, day, month, weekday])
    (hletters : weekday.any Char.isAlpha = false) (h : Backup.parseCron crate expr = .ok b) :
    ∃ days, Backup.selectedDays weekday = .ok days ∧
      (expressionsOf minute hour day month weekday (joinDays (days.map (· + 1)))).mapM crate =
        .ok b.schedules := by
  unfold Backup.parseCron at h
  rw [splitWhitespace_trim, hfields] at h
  obtain ⟨-, h⟩ := rest_ok h
  obtain ⟨translated, htr, h⟩ := bind_eq_ok.1 h
  obtain ⟨schedules, hmap, h⟩ := bind_eq_ok.1 h
  cases h
  rcases hn : Backup.normalizePosixWeekday weekday with e | w <;> rw [hn] at htr
  · cases htr
  cases htr
  unfold Backup.normalizePosixWeekday at hn
  rw [hletters] at hn
  obtain ⟨days, hdays, hn⟩ := bind_eq_ok.1 hn
  split_ifs at hn
  cases hn
  exact ⟨days, hdays, hmap⟩

theorem Scrub.parsePosixSchedule_ok {now : τ}
    (hfields : splitWhitespace expr = [minute, hour, day, month, weekday])
    (h : Scrub.parsePosixSchedule crate expr now = .ok (normalized, s)) :
    ∃ translated, Scrub.translateWeekday weekday = .ok translated ∧
      (expressionsOf minute hour day month weekday translated).mapM crate = .ok s.schedules := by
  unfold Scrub.parsePosixSchedule at h
  obtain ⟨compiled, hc, h⟩ := bind_eq_ok.1 h
  split_ifs at h
  cases h
  unfold Scrub.compile at hc
  obtain ⟨-, hc⟩ := rest_ok hc
  rw [hfields] at hc
  obtain ⟨translated, htr, hc⟩ := bind_eq_ok.1 hc
  obtain ⟨schedules, hmap, hc⟩ := bind_eq_ok.1 hc
  cases hc
  exact ⟨translated, htr, hmap⟩

theorem steppedDaysListed_star : SteppedDaysListed ['*'] := by
  intro part hpart n step hitem
  obtain rfl : part = ['*'] := by simpa [Text.split, Text.splitBy] using hpart
  cases hitem

theorem agree_star (hstar : StarIsEveryDay crate)
    (hb : (expressionsOf minute hour day month ['*'] "1,2,3,4,5,6,7".toList).mapM crate =
      .ok b.schedules)
    (hs : (expressionsOf minute hour day month ['*'] ['*']).mapM crate = .ok s.schedules) :
    Agree ['*'] b s := by
  have hone : ∀ w, expressionsOf minute hour day month ['*'] w =
      [cronExpression minute hour day month w] := fun w => if_neg fun h => h.2 rfl
  rw [hone] at hb hs
  obtain ⟨c, _, hc, hnil, hbs⟩ := mapM_cons_eq_ok.1 hb
  obtain ⟨c', _, hc', hnil', hss⟩ := mapM_cons_eq_ok.1 hs
  cases hnil
  obtain rfl := ok.inj hnil'
  refine ⟨fun w hw => ?_, by simp [hbs, hss], fun t => ?_⟩
  · exact ⟨fun _ => .inl rfl, fun _ => ⟨List.range 7, by decide, mem_range.2 hw⟩⟩
  · unfold UnionSchedule.Occurs
    rw [hbs, hss]
    simpa using (hstar minute hour day month c' c hc' hc t).symm

theorem Lists.lt {days : Item → List ℕ} {w : ℕ} (h : Lists days weekday w) : w < 7 := by
  obtain ⟨_, _, _, _, day, -, rfl⟩ := h
  exact Nat.mod_lt _ (by omega)

/-- **Agreement.** Without letters for weekdays the parsers agree exactly when every day a stepped
day reaches is listed anyway. -/
theorem agree_iff (hstar : StarIsEveryDay crate) {now : τ}
    (hfields : splitWhitespace expr = [minute, hour, day, month, weekday])
    (hletters : weekday.any Char.isAlpha = false) (hb : Backup.parseCron crate expr = .ok b)
    (hs : Scrub.parsePosixSchedule crate expr now = .ok (normalized, s)) :
    Agree weekday b s ↔ SteppedDaysListed weekday := by
  obtain ⟨bs, hbs, hbmap⟩ := Backup.parseCron_ok hfields hletters hb
  obtain ⟨translated, htr, hsmap⟩ := Scrub.parsePosixSchedule_ok hfields hs
  unfold Scrub.translateWeekday at htr
  by_cases hw : weekday = ['*']
  · subst hw
    cases htr
    obtain rfl : List.range 7 = bs := ok.inj ((by decide : _ = _).trans hbs)
    exact ⟨fun _ => steppedDaysListed_star, fun _ => agree_star hstar hbmap hsmap⟩
  rw [if_neg hw] at htr
  obtain ⟨ss, hss, htr⟩ := bind_eq_ok.1 htr
  split_ifs at htr
  cases htr
  obtain ⟨hbmem, hsmem⟩ := selectedDays_both hbs hss
  have hbackup : ∀ w, Backup.Selects weekday w ↔ Lists Item.days weekday w := fun w =>
    ⟨fun ⟨days, hdays, hmem⟩ => (hbmem w).1 (ok.inj (hdays.symm.trans hbs) ▸ hmem),
      fun h => ⟨bs, hbs, (hbmem w).2 h⟩⟩
  have hscrub : ∀ w, Scrub.Selects weekday w ↔ Lists Item.runOn weekday w := by
    intro w
    constructor
    · rintro (hstar | ⟨days, hdays, hmem⟩)
      · exact absurd hstar hw
      · cases hdays.symm.trans hss
        obtain ⟨w', heq, h⟩ := (hsmem (w + 1)).1 hmem
        exact Nat.succ.inj heq ▸ h
    · exact fun h => .inr ⟨ss, hss, (hsmem (w + 1)).2 ⟨w, rfl, h⟩⟩
  rw [← lists_iff_steppedDaysListed]
  constructor
  · intro h w
    by_cases hlt : w < 7
    · rw [← hbackup, ← hscrub, h.weekdays w hlt]
    · exact ⟨fun h => absurd h.lt hlt, fun h => absurd h.lt hlt⟩
  intro h
  rw [selectedDays_eq hbs hss h] at hbmap
  have heq : b.schedules = s.schedules := ok.inj (hbmap.symm.trans hsmap)
  refine ⟨fun w _ => by rw [hbackup, hscrub, h w], by rw [heq], fun t => ?_⟩
  unfold UnionSchedule.Occurs
  rw [heq]

end

theorem split_cronExpression (minute hour day month weekday : List Char) :
    Text.split ' ' (cronExpression minute hour day month weekday).toList =
      [['0']] ++ Text.split ' ' minute ++ Text.split ' ' hour ++ Text.split ' ' day ++
        Text.split ' ' month ++ Text.split ' ' weekday := by
  have happ : ∀ cs ds : List Char,
      Text.split ' ' (cs ++ ' ' :: ds) = Text.split ' ' cs ++ Text.split ' ' ds := fun cs ds =>
    splitBy_append (by decide) cs ds
  have hjoin : (cronExpression minute hour day month weekday).toList =
      ['0'] ++ ' ' :: (minute ++ ' ' :: (hour ++ ' ' :: (day ++ ' ' ::
        (month ++ ' ' :: weekday)))) := by
    simp [cronExpression, Text.join]
  rw [hjoin, happ, happ, happ, happ, happ]
  simp [Text.split, Text.splitBy]

theorem starIsEveryDay_midnights : StarIsEveryDay midnights := by
  intro minute hour day month s s' hs hs'
  unfold midnights at hs hs'
  rw [split_cronExpression] at hs hs'
  have hstar : Text.split ' ' ['*'] = [['*']] := by decide
  have hall : Text.split ' ' "1,2,3,4,5,6,7".toList = ["1,2,3,4,5,6,7".toList] := by decide
  rw [hstar] at hs
  rw [hall] at hs'
  simp only [dropLast_concat, getLastD_concat] at hs hs'
  split_ifs at hs with hfront
  rw [if_pos hfront] at hs'
  rw [← ok.inj hs, ← ok.inj hs']
  exact fun t => Iff.rfl

theorem agree_iff_workdays :
    Agree "1-5".toList ⟨[onDays [1, 2, 3, 4, 5]]⟩ ⟨[onDays [1, 2, 3, 4, 5]]⟩ := by
  have hfields : splitWhitespace "0 0 * * 1-5".toList =
      [['0'], ['0'], ['*'], ['*'], "1-5".toList] := by decide
  have hscrub : Scrub.parsePosixSchedule midnights "0 0 * * 1-5".toList 0 =
      .ok ("0 0 * * 1-5".toList, ⟨[onDays [1, 2, 3, 4, 5]]⟩) := rfl
  refine (agree_iff starIsEveryDay_midnights hfields (by decide) rfl hscrub).2 ?_
  intro part hpart n step hitem
  obtain rfl : part = "1-5".toList := by simpa [Text.split, Text.splitBy] using hpart
  cases hitem

/-- The expression `0 0 * * 1/2` is every Monday to the backup scheduler, and every Sunday, Monday,
Wednesday and Friday to the scrub scheduler. -/
theorem stepped_day_disagrees :
    Backup.parseCron midnights "0 0 * * 1/2".toList = .ok ⟨[onDays [1]]⟩ ∧
      Scrub.parsePosixSchedule midnights "0 0 * * 1/2".toList 0 =
        .ok ("0 0 * * 1/2".toList, ⟨[onDays [0, 1, 3, 5]]⟩) ∧
      ¬ Agree "1/2".toList ⟨[onDays [1]]⟩ ⟨[onDays [0, 1, 3, 5]]⟩ := by
  refine ⟨rfl, rfl, fun h => ?_⟩
  -- the third day is a Wednesday
  obtain ⟨c, hc, hocc⟩ := (h.instants 3).2 ⟨_, mem_singleton_self _, by simp [onDays]⟩
  obtain rfl := mem_singleton.1 hc
  simp [onDays] at hocc

end Nasty.Cron
