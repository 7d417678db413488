import Mathlib.Data.List.Dedup
import Mathlib.Data.List.Sort
import Nasty.Cron.Schedule
import Nasty.Lib.Checks
import Nasty.Lib.Text

/-!
# The two POSIX cron parsers

The backup and the scrub scheduler each translate a five-field POSIX expression to the crate's
six fields. POSIX numbers Sunday 0 or 7, the crate numbers Sunday 1, so both expand the weekday
field to a list of days. Where day of month and day of week are both restricted, both take the
union of two schedules.
-/

namespace Nasty.Cron

open Text

variable {τ : Type} [LinearOrder τ]

/-- `(start..=stop).step_by(step)`. -/
def daysBetween (start stop step : ℕ) : List ℕ :=
  (List.range' start (stop + 1 - start)).filter fun day => (day - start) % step = 0

def joinDays (days : List ℕ) : List Char :=
  join [','] (days.map (Nat.toDigits 10))

/-- The five fields with a weekday of its own, behind the crate's seconds column. -/
def cronExpression (minute hour day month weekday : List Char) : String :=
  String.ofList (join [' '] [['0'], minute, hour, day, month, weekday])

/-! ## The backup scheduler -/

namespace Backup

def parseValue (value : List Char) : Except String ℕ :=
  match unsigned 255 value with
  | none => .error s!"'{String.ofList value}' is not a weekday number"
  | some day =>
    if day > 7 then .error s!"numeric value '{day}' must be between 0 and 7" else .ok day

def baseDays (base : List Char) (step : ℕ) : Except String (List ℕ) :=
  if base = ['*'] then .ok (daysBetween 0 6 step)
  else
    match splitOnce '-' base with
    | some (start, stop) => do
      let start ← parseValue start
      let stop ← parseValue stop
      if start > stop then .error s!"range '{String.ofList base}' must be ascending"
      else .ok (daysBetween start stop step)
    | none => do
      let day ← parseValue base
      -- stepping through the one value gives that value
      .ok (daysBetween day day step)

def itemDays (part : List Char) : Except String (List ℕ) := do
  let (base, step) := match splitOnce '/' part with
    | some (base, step) => (base, (unsigned (2 ^ 64 - 1) step).getD 0)
    | none => (part, 1)
  if step = 0 then .error s!"'{String.ofList part}' has an invalid step"
  else
    let values ← baseDays base step
    .ok (values.map (· % 7))

def selectedDays (field : List Char) : Except String (List ℕ) := do
  let days ← (split ',' field).mapM itemDays
  .ok ((List.range 7).filter (· ∈ days.flatten))

def mixesNumericValues (field : List Char) : Bool :=
  (split ',' field).any fun part =>
    let base := match splitOnce '/' part with
      | some (base, _) => base
      | none => part
    (split '-' base).any fun value => value.all Char.isDigit

def normalizePosixWeekday (field : List Char) : Except String (List Char) :=
  if field.any Char.isAlpha then
    if mixesNumericValues field then .error "cannot mix named and numeric weekdays" else .ok field
  else do
    let selected ← selectedDays field
    if selected = [] then .error "weekday field selects no days"
    else .ok (joinDays (selected.map (· + 1)))

/-- `parse_cron`; errors keep their reason. -/
def parseCron (crate : Crate τ) (expr : List Char) : Except String (UnionSchedule τ) :=
  match splitWhitespace (trim expr) with
  | [minute, hour, day, month, weekday] => do
    .refuse ('?' ∈ minute ++ hour ++ day ++ month ++ weekday)
      "'?' is not part of five-field POSIX cron"
    let normalized ← (normalizePosixWeekday weekday).mapError (s!"weekday: {·}")
    let expressions :=
      if day ≠ ['*'] ∧ weekday ≠ ['*'] then
        [cronExpression minute hour day month ['*'],
          cronExpression minute hour ['*'] month normalized]
      else [cronExpression minute hour day month normalized]
    let schedules ← expressions.mapM crate
    .ok { schedules }
  | fields => .error s!"expected 5 fields; got {fields.length}"

end Backup

/-! ## The scrub scheduler -/

namespace Scrub

def weekdayName (value : List Char) : Option ℕ :=
  let name := String.ofList (value.map Char.toLower)
  if name ∈ ["sun", "sunday"] then some 0
  else if name ∈ ["mon", "monday"] then some 1
  else if name ∈ ["tue", "tues", "tuesday"] then some 2
  else if name ∈ ["wed", "wednesday"] then some 3
  else if name ∈ ["thu", "thur", "thurs", "thursday"] then some 4
  else if name ∈ ["fri", "friday"] then some 5
  else if name ∈ ["sat", "saturday"] then some 6
  else none

def posixWeekday (value : List Char) : Except String ℕ :=
  match unsigned 255 value with
  | some day =>
    if day ≤ 7 then .ok day else .error s!"weekday must be between 0 and 7, got {day}"
  | none =>
    match weekdayName value with
    | some day => .ok day
    | none => .error s!"invalid weekday '{String.ofList value}'"

def itemStep (item : List Char) : Except String (List Char × Option ℕ) :=
  match splitOnce '/' item with
  | none => .ok (item, none)
  | some (base, step) =>
    if '/' ∈ step then .error "invalid weekday step"
    else
      match unsigned 255 step with
      | none => .error s!"invalid weekday step '{String.ofList step}'"
      | some n =>
        if n = 0 ∨ n > 7 then .error s!"weekday step must be between 1 and 7, got {n}"
        else .ok (base, some n)

def baseDays (base : List Char) (step : Option ℕ) : Except String (List ℕ) :=
  if base = ['*'] then .ok (daysBetween 0 6 (step.getD 1))
  else
    match splitOnce '-' base with
    | some (start, stop) => do
      let start ← posixWeekday start
      let stop ← posixWeekday stop
      if start > stop then .error s!"invalid weekday range '{String.ofList base}'"
      else .ok (daysBetween start stop (step.getD 1))
    | none => do
      let start ← posixWeekday base
      -- a stepped single day runs on to the end of the week
      .ok (daysBetween start (if step.isSome then 7 else start) (step.getD 1))

def itemDays (item : List Char) : Except String (List ℕ) :=
  if item = [] then .error "empty weekday list item"
  else do
    let (base, step) ← itemStep item
    let rawDays ← baseDays base step
    .ok (rawDays.map fun day => if day = 0 ∨ day = 7 then 1 else day + 1)

def selectedDays (field : List Char) : Except String (List ℕ) := do
  let days ← (split ',' field).mapM itemDays
  .ok (days.flatten.dedup.insertionSort (· ≤ ·))

def translateWeekday (field : List Char) : Except String (List Char) :=
  if field = ['*'] then .ok ['*']
  else do
    let days ← selectedDays field
    if days = [] then .error "weekday field selects no days" else .ok (joinDays days)

def compile (crate : Crate τ) (expression : List Char) :
    Except String (List Char × UnionSchedule τ) := do
  .refuse ('?' ∈ expression) "'?' is not supported in POSIX cron"
  match splitWhitespace expression with
  | [minute, hour, day, month, weekday] => do
    let normalized := join [' '] [minute, hour, day, month, weekday]
    let translated ← translateWeekday weekday
    let expressions :=
      if day ≠ ['*'] ∧ weekday ≠ ['*'] then
        [cronExpression minute hour day month ['*'],
          cronExpression minute hour ['*'] month translated]
      else [cronExpression minute hour day month translated]
    let schedules ← expressions.mapM crate
    .ok (normalized, { schedules })
  | fields =>
    .error s!"expected exactly 5 fields (minute hour day month weekday), got {fields.length}"

/-- `parse_posix_schedule`: also refuse what never occurs again. -/
def parsePosixSchedule (crate : Crate τ) (expression : List Char) (now : τ) :
    Except String (List Char × UnionSchedule τ) := do
  let compiled ← compile crate expression
  if (compiled.2.nextAfter now).isNone then .error "schedule has no future occurrence"
  else .ok compiled

theorem parsePosixSchedule_eq_ok {crate : Crate τ} {expression : List Char} {now : τ}
    {compiled : List Char × UnionSchedule τ} :
    parsePosixSchedule crate expression now = .ok compiled ↔
      compile crate expression = .ok compiled ∧ ∃ t, compiled.2.Occurs t ∧ now < t := by
  rw [parsePosixSchedule, Except.bind_eq_ok, ← UnionSchedule.nextAfter_isSome]
  refine ⟨?_, fun ⟨hc, hsome⟩ => ⟨compiled, hc, ?_⟩⟩
  · rintro ⟨c, hc, h⟩
    rcases hnext : c.2.nextAfter now with _ | t <;> rw [hnext] at h
    · nomatch h
    · cases h
      exact ⟨hc, by rw [hnext, Option.isSome_some]⟩
  · rw [if_neg (by simpa [Option.isSome_iff_ne_none] using hsome)]

end Scrub

/-! ## A crate for tests -/

/-- The weekday field of the crate, from Sunday 0: `*` or a list of numbers from Sunday 1. -/
def crateWeekdays (weekday : List Char) : Option (List ℕ) :=
  if weekday = ['*'] then some (List.range 7)
  else ((split ',' weekday).mapM (digits 7)).map (·.map (· - 1))

/-- The crate on the expressions that fire at midnight of some weekdays of every month. -/
def midnights : Crate ℕ := fun expr =>
  let fields := split ' ' expr.toList
  if fields.dropLast = [['0'], ['0'], ['0'], ['*'], ['*']] then
    match crateWeekdays (fields.getLastD []) with
    | some days => .ok (onDays days)
    | none => .error "Invalid expression"
  else .error "Unsupported expression"

end Nasty.Cron
