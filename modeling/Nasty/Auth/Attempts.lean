import Nasty.Auth.RateLimit
import Nasty.Lib.Limiter
import Nasty.Lib.Lts
import Nasty.Lib.Maps

/-!
# Login attempts

The steps of `AuthService::login` between which other logins may run: the checks of the address and
of the name, the password check outside every lock, the record of a failure, and the write of the
counts to disk. The engine may restart and reload the file.

1. `World.exec` is one critical section; `outcomes` collects what the password checks said.
2. For an address, and for a name, the calls are a limiter (`Limiter.Step`), if an attempt is
   checked only once the one before it is recorded (`Careful`). `attempts_limited` follows.
-/

namespace Nasty.Auth.Attempts

open Lts Limiter List Function

structure Attempt where
  username : String
  password : String
  clientIp : String
  now : UInt64
  deriving DecidableEq

/-- Where a login is. `onlyAdmin` is the answer of `is_only_local_admin`. -/
inductive Call
  | started (a : Attempt)
  | ipAdmitted (a : Attempt)
  | adminRead (a : Attempt) (onlyAdmin : Bool)
  | admitted (a : Attempt) (onlyAdmin : Bool)
  /-- The password is being checked, against the user read. -/
  | hashing (a : Attempt) (onlyAdmin : Bool) (user : Option User)
  | failed (a : Attempt) (onlyAdmin : Bool)
  | verified (a : Attempt) (onlyAdmin : Bool) (hash : Option String)
  /-- A snapshot is being written; `next` is the login that goes on afterwards. -/
  | saving (snapshot : RateLimitState) (next : Option Attempt)
  | committing (a : Attempt)

inductive Outcome
  | failed (a : Attempt) (onlyAdmin : Bool)
  | loggedIn (username : String)
  deriving DecidableEq

structure World where
  clock : UInt64
  users : List User
  rateLimit : RateLimitState
  file : RateLimitState
  calls : ℕ → Option Call
  outcomes : List Outcome

inductive Saved
  | written
  | untouched
  | truncated

inductive Event
  | start (i : ℕ) (username password clientIp : String) (now : UInt64)
  /-- Login `i` goes through its next critical section. -/
  | next (i : ℕ)
  | save (i : ℕ) (result : Saved)
  | commit (i : ℕ) (ok : Bool)
  | setUsers (users : List User)
  | restart (now : UInt64)

def World.put (w : World) (i : ℕ) (c : Option Call) : World :=
  { w with calls := update w.calls i c }

/-- `verify_login_password`, with the user and the hash it needs. -/
def verified (env : Env) (password : String) (user : Option User) : Bool :=
  (user.bind (·.passwordHash)).any (env.verify password)

/-- The next critical section of a login that neither writes a file nor commits. -/
def World.next (env : Env) (w : World) (i : ℕ) : Call → Option World
  | .started a =>
    if a.clientIp ≠ "unknown" ∧ maxIpFailedAttempts ≤ w.rateLimit.ipFailures env a.clientIp a.now
    then some (w.put i none)
    else some (w.put i (some (.ipAdmitted a)))
  | .ipAdmitted a => some (w.put i (some (.adminRead a (isOnlyAdmin w.users a.username))))
  | .adminRead a onlyAdmin =>
    if maxFailedAttempts ≤ w.rateLimit.userFailures a.username a.now ∧ onlyAdmin = false
    then some (w.put i none)
    else some (w.put i (some (.admitted a onlyAdmin)))
  | .admitted a onlyAdmin =>
    some (w.put i (some (.hashing a onlyAdmin (w.users.find? (·.username = a.username)))))
  | .hashing a onlyAdmin user =>
    if verified env a.password user
    then some (w.put i (some (.verified a onlyAdmin (user.bind (·.passwordHash)))))
    else some { w.put i (some (.failed a onlyAdmin)) with
      outcomes := w.outcomes ++ [.failed a onlyAdmin] }
  | .failed a _ =>
    let rateLimit := w.rateLimit.recordFailedAttempt env a.username a.clientIp a.now
    some { w.put i (some (.saving rateLimit none)) with rateLimit }
  | .verified a _ hash =>
    if w.users.any fun u => u.username = a.username ∧ u.passwordHash = hash then
      let rateLimit := w.rateLimit.clearFailedAttempts a.username
      if w.rateLimit.byUser a.username = [] then some (w.put i (some (.committing a)))
      else some { w.put i (some (.saving rateLimit (some a))) with rateLimit }
    else some (w.put i none)
  | _ => none

def Saved.file (result : Saved) (file snapshot : RateLimitState) : RateLimitState :=
  match result with
  | .written => snapshot
  | .untouched => file
  | .truncated => .empty

def World.exec (env : Env) (w : World) : Event → Option World
  | .start i username password clientIp now =>
    if (w.calls i).isNone ∧ w.clock ≤ now
    then some { w.put i (some (.started ⟨username, password, clientIp, now⟩)) with clock := now }
    else none
  | .next i => (w.calls i).bind (w.next env i)
  | .save i result =>
    match w.calls i with
    | some (.saving snapshot next) =>
      some { w.put i (next.map .committing) with file := result.file w.file snapshot }
    | _ => none
  | .commit i ok =>
    match w.calls i with
    | some (.committing a) =>
      some { w.put i none with
        outcomes := if ok then w.outcomes ++ [.loggedIn a.username] else w.outcomes }
    | _ => none
  | .setUsers users => some { w with users }
  | .restart now =>
    if w.clock ≤ now
    then some { w with clock := now, rateLimit := w.file.prune now, calls := fun _ => none }
    else none

def Step (env : Env) (w : World) (e : Event) (w' : World) : Prop := w.exec env e = some w'

/-! ## Slots -/

def ipSlot (env : Env) (bucket : String) : Call → Slot UInt64
  | .ipAdmitted a | .adminRead a _ | .admitted a _ | .hashing a _ _ | .verified a _ _ =>
    if a.clientIp ≠ "unknown" ∧ ipBucket env a.clientIp = bucket then .passed a.now else .idle
  | .failed a _ =>
    if a.clientIp ≠ "unknown" ∧ ipBucket env a.clientIp = bucket then .failed a.now else .idle
  | _ => .idle

def userSlot (username : String) : Call → Slot UInt64
  | .admitted a onlyAdmin | .hashing a onlyAdmin _ | .verified a onlyAdmin _ =>
    if a.username = username then (if onlyAdmin then .exempt a.now else .passed a.now) else .idle
  | .failed a onlyAdmin =>
    if a.username = username then (if onlyAdmin then .exempt a.now else .failed a.now) else .idle
  | .saving _ (some a) | .committing a => if a.username = username then .cleared else .idle
  | _ => .idle

def slotAt (slot : Call → Slot UInt64) (calls : ℕ → Option Call) (i : ℕ) : Slot UInt64 :=
  (calls i).elim .idle slot

def Call.Timely (clock : UInt64) : Call → Prop
  | .started a | .ipAdmitted a | .adminRead a _ | .admitted a _ | .hashing a _ _ | .failed a _
  | .verified a _ _ => a.now ≤ clock
  | .saving .. | .committing _ => True

/-- A step at which the limits hold. An attempt passes a check before the clock is read again, with
room for those of its address or name that are not recorded yet, and while no login of its name is
about to be committed; a login whose password was right is committed; and the engine restarts
between logins, with the counts on disk. -/
def Careful (env : Env) (w : World) : Event → Prop
  | .next i =>
    match w.calls i with
    | some (.started a) =>
      a.clientIp ≠ "unknown" → w.rateLimit.ipFailures env a.clientIp a.now < maxIpFailedAttempts →
        a.now = w.clock ∧ Room maxIpFailedAttempts (w.rateLimit.ipFailures env a.clientIp a.now)
          (slotAt (ipSlot env (ipBucket env a.clientIp)) w.calls)
    | some (.adminRead a onlyAdmin) =>
      onlyAdmin = false → w.rateLimit.userFailures a.username a.now < maxFailedAttempts →
        a.now = w.clock ∧ (∀ j, slotAt (userSlot a.username) w.calls j ≠ .cleared) ∧
          Room maxFailedAttempts (w.rateLimit.userFailures a.username a.now)
            (slotAt (userSlot a.username) w.calls)
    | _ => True
  | .commit _ ok => ok = true
  | .restart _ => w.file = w.rateLimit ∧ ∀ i, w.calls i = none
  | _ => True

def CarefulStep (env : Env) (w : World) (e : Event) (w' : World) : Prop :=
  Careful env w e ∧ Step env w e w'

theorem slotAt_update (slot : Call → Slot UInt64) (calls : ℕ → Option Call) (i : ℕ)
    (c : Option Call) :
    slotAt slot (update calls i c) = update (slotAt slot calls) i (c.elim .idle slot) := by
  funext j
  by_cases hj : j = i
  · rw [hj, slotAt, update_self, update_self]
  · rw [slotAt, update_of_ne hj, update_of_ne hj, slotAt]

/-! ## Counts -/

@[reducible] def secondsOrder : Preorder UInt64 where
  le_refl _ := UInt64.le_refl _
  le_trans _ _ _ := UInt64.le_trans
  lt_iff_le_not_ge a b := by
    rw [UInt64.le_iff_toNat_le, UInt64.le_iff_toNat_le, UInt64.lt_iff_toNat_lt]
    omega

attribute [local instance] secondsOrder

def near (window now t : UInt64) : Bool := saturatingSub now t < window

theorem near_iff {window now t : UInt64} :
    near window now t ↔ now.toNat - t.toNat < window.toNat := by
  rw [near, decide_eq_true_iff, UInt64.lt_iff_toNat_lt, saturatingSub]
  split_ifs with h
  · rw [UInt64.toNat_sub_of_le _ _ h]
  · rw [UInt64.le_iff_toNat_le] at h
    rw [show now.toNat - t.toNat = 0 by omega, UInt64.toNat_zero]

theorem near_fades (window : UInt64) : Fades (near window) := by
  intro now later t hle h
  rw [near_iff] at h ⊢
  have hle := UInt64.le_iff_toNat_le.1 hle
  omega

theorem near_self (window : UInt64) (h : 0 < window) (now : UInt64) : near window now now := by
  rw [near_iff, Nat.sub_self]
  exact UInt64.lt_iff_toNat_lt.1 h

def inWindow (window start t : UInt64) : Bool :=
  start ≤ t ∧ t.toNat < start.toNat + window.toNat

theorem near_of_inWindow {window start t u : UInt64} (ht : inWindow window start t)
    (hu : inWindow window start u) : near window t u := by
  rw [inWindow, decide_eq_true_iff, UInt64.le_iff_toNat_le] at ht hu
  rw [near_iff]
  omega

theorem countP_near (window now : UInt64) (times : List UInt64) :
    times.countP (near window now) = (recent now window times).length := countP_eq_length_filter

theorem byUser_recordFailedAttempt (env : Env) (rl : RateLimitState) (username clientIp : String)
    (now : UInt64) (u : String) : (rl.recordFailedAttempt env username clientIp now).byUser u =
      if username = u then (rl.byUser u).filter (near lockoutWindowSecs now) ++ [now]
      else (rl.byUser u).filter (near lockoutWindowSecs now) := by
  unfold RateLimitState.recordFailedAttempt
  dsimp only
  rw [update_apply]
  by_cases h : username = u
  · rw [if_pos h, if_pos h.symm, h]
    rfl
  · rw [if_neg h, if_neg (Ne.symm h)]
    rfl

theorem byIp_recordFailedAttempt (env : Env) (rl : RateLimitState) (username clientIp : String)
    (now : UInt64) (bucket : String) :
    (rl.recordFailedAttempt env username clientIp now).byIp bucket =
      if clientIp ≠ "unknown" ∧ ipBucket env clientIp = bucket then
        (rl.byIp bucket).filter (near ipLockoutWindowSecs now) ++ [now]
      else (rl.byIp bucket).filter (near ipLockoutWindowSecs now) := by
  unfold RateLimitState.recordFailedAttempt
  dsimp only
  by_cases hip : clientIp = "unknown"
  · rw [if_neg (not_not_intro hip), if_neg fun h => h.1 hip]
    rfl
  rw [if_pos hip, update_apply]
  by_cases h : ipBucket env clientIp = bucket
  · rw [if_pos h.symm, if_pos ⟨hip, h⟩, h]
    change List.filter (near ipLockoutWindowSecs now)
      (List.filter (near ipLockoutWindowSecs now) (rl.byIp bucket) ++ [now]) = _
    rw [filter_append, filter_filter]
    simp only [Bool.and_self, filter_singleton, near_self ipLockoutWindowSecs (by decide) now,
      cond_true]
  · rw [if_neg (Ne.symm h), if_neg fun h' => h h'.2]
    rfl

def Outcome.ipTime (env : Env) (bucket : String) : Outcome → Option UInt64
  | .failed a _ =>
    if a.clientIp ≠ "unknown" ∧ ipBucket env a.clientIp = bucket then some a.now else none
  | .loggedIn _ => none

def ipTimes (env : Env) (bucket : String) (outcomes : List Outcome) : List UInt64 :=
  outcomes.filterMap (·.ipTime env bucket)

/-- The failures of a name since its last login, those let in as the only administrator apart. -/
def userTimes (username : String) (outcomes : List Outcome) : List UInt64 :=
  outcomes.foldl (fun times o => match o with
    | .failed a onlyAdmin =>
      if a.username = username ∧ onlyAdmin = false then times ++ [a.now] else times
    | .loggedIn name => if name = username then [] else times) []

theorem ipTimes_concat (env : Env) (bucket : String) (outcomes : List Outcome) (o : Outcome) :
    ipTimes env bucket (outcomes ++ [o]) =
      ipTimes env bucket outcomes ++ (o.ipTime env bucket).toList := by
  cases h : o.ipTime env bucket <;> simp [h, ipTimes]

theorem userTimes_failed (username : String) (outcomes : List Outcome) (a : Attempt)
    (onlyAdmin : Bool) : userTimes username (outcomes ++ [.failed a onlyAdmin]) =
      if a.username = username ∧ onlyAdmin = false then userTimes username outcomes ++ [a.now]
      else userTimes username outcomes := by
  rw [userTimes, foldl_append]
  rfl

theorem userTimes_loggedIn (username : String) (outcomes : List Outcome) (name : String) :
    userTimes username (outcomes ++ [.loggedIn name]) =
      if name = username then [] else userTimes username outcomes := by
  rw [userTimes, foldl_append]
  rfl

/-! ## The two limits -/

open World

structure Limit where
  slot : Call → Slot UInt64
  stored : RateLimitState → List UInt64
  times : List Outcome → List UInt64
  window : UInt64
  max : ℕ

def ipLimit (env : Env) (bucket : String) : Limit where
  slot := ipSlot env bucket
  stored rl := rl.byIp bucket
  times := ipTimes env bucket
  window := ipLockoutWindowSecs
  max := maxIpFailedAttempts

def userLimit (username : String) : Limit where
  slot := userSlot username
  stored rl := rl.byUser username
  times := userTimes username
  window := lockoutWindowSecs
  max := maxFailedAttempts

def Limit.state (l : Limit) (w : World) : State UInt64 :=
  ⟨w.clock, l.stored w.rateLimit, l.times w.outcomes, slotAt l.slot w.calls⟩

def Limit.Holds (l : Limit) (w : World) : Prop := Inv (near l.window) l.max (l.state w)

/-- What a step of login `i` does to the limit, whose slot is then `slot`. -/
def Limit.Moves (l : Limit) (w : World) (i : ℕ) (slot : Slot UInt64) (w' : World) : Prop :=
  Move (near l.window) l.max (l.state w) i (l.stored w'.rateLimit) (l.times w'.outcomes) slot

namespace Limit.Holds

variable {l : Limit} {w w' : World} {i : ℕ} {c : Option Call} (h : l.Holds w)
  (hclock : w'.clock = w.clock) (hcalls : w'.calls = update w.calls i c)
include h hclock hcalls

theorem move (hmove : l.Moves w i (c.elim .idle l.slot) w') : l.Holds w' := by
  have hinv := Inv.move h (near_fades _) hmove
  unfold Holds Limit.state
  rwa [hclock, hcalls, slotAt_update]

theorem keep (hslot : c.elim .idle l.slot = slotAt l.slot w.calls i)
    (hmove : l.Moves w i (slotAt l.slot w.calls i) w') : l.Holds w' :=
  h.move hclock hcalls (hslot ▸ hmove)

theorem own {own : Prop} [Decidable own] {s s' : Slot UInt64}
    (hs : slotAt l.slot w.calls i = if own then s else .idle)
    (hs' : c.elim .idle l.slot = if own then s' else .idle)
    (hin : own → slotAt l.slot w.calls i = s → l.Moves w i s' w')
    (hout : ¬ own → l.Moves w i (slotAt l.slot w.calls i) w') : l.Holds w' := by
  by_cases howns : own
  · rw [if_pos howns] at hs hs'
    exact h.move hclock hcalls (hs' ▸ hin howns hs)
  · rw [if_neg howns] at hs hs'
    exact h.keep hclock hcalls (hs'.trans hs.symm) (hout howns)

end Limit.Holds

section Steps

variable {env : Env} {w w' : World} {i : ℕ} {c : Call} {bucket username : String} {e : Event}

theorem slotAt_of_some {slot : Call → Slot UInt64} (hi : w.calls i = some c) :
    slotAt slot w.calls i = slot c := by
  rw [slotAt, hi]
  rfl

theorem ipSlot_ne_cleared (calls : ℕ → Option Call) (j : ℕ) :
    slotAt (ipSlot env bucket) calls j ≠ .cleared := by
  unfold slotAt
  cases calls j with
  | none => nofun
  | some c => cases c <;> simp only [Option.elim, ipSlot] <;> (try split_ifs) <;> nofun

/-- **The limit of an address, one critical section.** -/
theorem ipLimit_next (h : (ipLimit env bucket).Holds w) (hi : w.calls i = some c)
    (htimely : c.Timely w.clock) (hcareful : Careful env w (.next i))
    (hnext : w.next env i c = some w') : (ipLimit env bucket).Holds w' := by
  have hat : slotAt (ipSlot env bucket) w.calls i = ipSlot env bucket c := slotAt_of_some hi
  cases c with
  | started a =>
    simp only [Careful, hi] at hcareful
    simp only [World.next] at hnext
    split_ifs at hnext with hlocked <;> cases hnext
    · exact h.keep rfl rfl hat.symm .stay
    by_cases hin : a.clientIp ≠ "unknown" ∧ ipBucket env a.clientIp = bucket
    · obtain ⟨hip, rfl⟩ := hin
      obtain ⟨hnow, hroom⟩ := hcareful hip (lt_of_not_ge fun hge => hlocked ⟨hip, hge⟩)
      rw [hnow] at hroom
      refine h.move rfl rfl ?_
      rw [show Option.elim (some (Call.ipAdmitted a)) .idle (ipLimit env _).slot = .passed w.clock
          from (if_pos ⟨hip, rfl⟩).trans (by rw [hnow])]
      exact .pass hat (ipSlot_ne_cleared w.calls) ((countP_near ..).symm ▸ hroom)
    · exact h.keep rfl rfl ((if_neg hin).trans hat.symm) .stay
  | ipAdmitted a | admitted a onlyAdmin =>
    cases hnext
    exact h.keep rfl rfl hat.symm .stay
  | adminRead a onlyAdmin =>
    simp only [World.next] at hnext
    split_ifs at hnext with hlocked <;> cases hnext
    · exact h.own rfl rfl hat (ite_self _).symm (fun _ hs => .leave (congrArg Slot.underway hs)) fun _ => .stay
    · exact h.keep rfl rfl hat.symm .stay
  | hashing a onlyAdmin user =>
    simp only [World.next] at hnext
    split_ifs at hnext with hverified <;> cases hnext
    · exact h.keep rfl rfl hat.symm .stay
    have htimes := ipTimes_concat env bucket w.outcomes (.failed a onlyAdmin)
    refine h.own rfl rfl hat rfl (fun hin hs => ?_) fun hout => ?_
    · rw [Outcome.ipTime, if_pos hin] at htimes
      exact (Move.fail hs).cast rfl htimes.symm
    · rw [Outcome.ipTime, if_neg hout, Option.toList_none, append_nil] at htimes
      exact Move.stay.cast rfl htimes.symm
  | failed a onlyAdmin =>
    cases hnext
    have hstored := byIp_recordFailedAttempt env w.rateLimit a.username a.clientIp a.now bucket
    refine h.own rfl rfl hat (ite_self _).symm (fun hin hs => ?_) fun hout => ?_
    · rw [if_pos hin] at hstored
      exact (Move.record htimely (.inl hs)).cast hstored.symm rfl
    · rw [if_neg hout] at hstored
      exact (Move.prune htimely).cast hstored.symm rfl
  | verified a onlyAdmin hash =>
    simp only [World.next] at hnext
    split_ifs at hnext <;> cases hnext <;>
      exact h.own rfl rfl hat (ite_self _).symm (fun _ hs => .leave (congrArg Slot.underway hs)) fun _ => .stay
  | saving snapshot next | committing a => cases hnext

/-- **The limit of a name, one critical section.** -/
theorem userLimit_next (h : (userLimit username).Holds w) (hi : w.calls i = some c)
    (htimely : c.Timely w.clock) (hcareful : Careful env w (.next i))
    (hnext : w.next env i c = some w') : (userLimit username).Holds w' := by
  have hat : slotAt (userSlot username) w.calls i = userSlot username c := slotAt_of_some hi
  cases c with
  | started a =>
    simp only [World.next] at hnext
    split_ifs at hnext <;> cases hnext <;> exact h.keep rfl rfl hat.symm .stay
  | ipAdmitted a | admitted a onlyAdmin =>
    cases hnext
    exact h.keep rfl rfl hat.symm .stay
  | adminRead a onlyAdmin =>
    simp only [Careful, hi] at hcareful
    simp only [World.next] at hnext
    split_ifs at hnext with hlocked <;> cases hnext
    · exact h.keep rfl rfl hat.symm .stay
    by_cases hin : a.username = username
    · subst hin
      refine h.move rfl rfl ?_
      rw [show Option.elim (some (Call.admitted a onlyAdmin)) .idle (userLimit a.username).slot =
          if onlyAdmin then .exempt a.now else .passed a.now from if_pos rfl]
      cases onlyAdmin with
      | true => exact .enter hat
      | false =>
        obtain ⟨hnow, hcleared, hroom⟩ := hcareful rfl (lt_of_not_ge fun hge => hlocked ⟨hge, rfl⟩)
        rw [hnow] at hroom ⊢
        exact .pass hat hcleared ((countP_near ..).symm ▸ hroom)
    · exact h.keep rfl rfl ((if_neg hin).trans hat.symm) .stay
  | hashing a onlyAdmin user =>
    simp only [World.next] at hnext
    split_ifs at hnext with hverified <;> cases hnext
    · exact h.keep rfl rfl hat.symm .stay
    have htimes := userTimes_failed username w.outcomes a onlyAdmin
    cases onlyAdmin with
    | true =>
      rw [if_neg (by simp)] at htimes
      refine h.keep rfl rfl hat.symm ?_
      exact Move.stay.cast rfl htimes.symm
    | false =>
    refine h.own rfl rfl hat rfl (fun hin hs => ?_) fun hout => ?_
    · rw [if_pos ⟨hin, rfl⟩] at htimes
      exact (Move.fail hs).cast rfl htimes.symm
    · rw [if_neg fun h => hout h.1] at htimes
      exact Move.stay.cast rfl htimes.symm
  | failed a onlyAdmin =>
    cases hnext
    have hstored := byUser_recordFailedAttempt env w.rateLimit a.username a.clientIp a.now username
    refine h.own rfl rfl hat (ite_self _).symm (fun hin hs => ?_) fun hout => ?_
    · rw [if_pos hin] at hstored
      refine (Move.record htimely ?_).cast hstored.symm rfl
      cases onlyAdmin
      · exact .inl hs
      · exact .inr hs
    · rw [if_neg hout] at hstored
      exact (Move.prune htimely).cast hstored.symm rfl
  | verified a onlyAdmin hash =>
    have hinside : (if onlyAdmin then Slot.exempt a.now else .passed a.now).underway := by
      cases onlyAdmin <;> rfl
    simp only [World.next] at hnext
    split_ifs at hnext with hany hempty <;> cases hnext
    · refine h.own rfl rfl hat rfl (fun hin hs => ?_) fun _ => .stay
      rw [hin] at hempty
      exact (Move.clear ((congrArg Slot.underway hs).trans hinside)).cast hempty.symm rfl
    · refine h.own rfl rfl hat rfl (fun hin hs => ?_) fun hout => ?_
      · have hstored : (w.rateLimit.clearFailedAttempts a.username).byUser username = [] := by
          rw [hin]
          exact update_self ..
        exact (Move.clear ((congrArg Slot.underway hs).trans hinside)).cast hstored.symm rfl
      · have hstored : (w.rateLimit.clearFailedAttempts a.username).byUser username =
            w.rateLimit.byUser username := update_of_ne (Ne.symm hout) ..
        exact Move.stay.cast hstored.symm rfl
    · exact h.own rfl rfl hat (ite_self _).symm (fun _ hs => .leave ((congrArg Slot.underway hs).trans hinside)) fun _ => .stay
  | saving snapshot next | committing a => cases hnext

/-! ## Runs -/

structure Limit.Sound (env : Env) (l : Limit) : Prop where
  next : ∀ {w w' i c}, l.Holds w → w.calls i = some c → c.Timely w.clock →
    Careful env w (.next i) → w.next env i c = some w' → l.Holds w'
  started : ∀ a, l.slot (.started a) = .idle
  recorded : ∀ snapshot, l.slot (.saving snapshot none) = .idle
  saved : ∀ snapshot a, l.slot (.saving snapshot (some a)) = l.slot (.committing a)
  committed : ∀ {w s} a, l.slot (.committing a) = s →
    s = .idle ∧ l.times (w ++ [.loggedIn a.username]) = l.times w ∨
      s = .cleared ∧ l.times (w ++ [.loggedIn a.username]) = []
  pruned : ∀ (rl : RateLimitState) now, l.stored (rl.prune now) = (l.stored rl).filter (near l.window now)

theorem ipLimit_sound (env : Env) (bucket : String) : (ipLimit env bucket).Sound env where
  next := ipLimit_next
  started _ := rfl
  recorded _ := rfl
  saved _ _ := rfl
  committed a hs := by
    refine .inl ⟨hs.symm, ?_⟩
    exact (ipTimes_concat ..).trans (append_nil _)
  pruned _ _ := rfl

theorem userLimit_sound (env : Env) (username : String) : (userLimit username).Sound env where
  next := userLimit_next
  started _ := rfl
  recorded _ := rfl
  saved _ _ := rfl
  committed a hs := by
    have htimes := userTimes_loggedIn username ‹_› a.username
    by_cases hin : a.username = username
    · exact .inr ⟨hs.symm.trans (if_pos hin), htimes.trans (if_pos hin)⟩
    · exact .inl ⟨hs.symm.trans (if_neg hin), htimes.trans (if_neg hin)⟩
  pruned _ _ := rfl

def Timely (w : World) : Prop := ∀ i c, w.calls i = some c → c.Timely w.clock

theorem Call.Timely.later {clock now : UInt64} (h : c.Timely clock) (hnow : clock ≤ now) :
    c.Timely now := by
  cases c with
  | saving | committing => trivial
  | _ => exact le_trans h hnow

theorem Timely.put (h : Timely w) {c : Option Call} (hc : ∀ d, c = some d → d.Timely w.clock) :
    Timely (w.put i c) :=
  forall_update_some hc h

theorem Timely.put_none (h : Timely w) : Timely (w.put i none) := h.put fun _ hd => by cases hd

theorem Timely.put_some (h : Timely w) (hc : c.Timely w.clock) : Timely (w.put i (some c)) :=
  h.put fun _ hd => Option.some.inj hd ▸ hc

theorem Timely.next (h : Timely w) (hi : w.calls i = some c) (hnext : w.next env i c = some w') :
    Timely w' := by
  have hc := h i c hi
  cases c with
  | started a | adminRead a onlyAdmin =>
    simp only [World.next] at hnext
    split_ifs at hnext <;> cases hnext
    · exact h.put_none
    · exact h.put_some hc
  | ipAdmitted a | admitted a onlyAdmin =>
    cases hnext
    exact h.put_some hc
  | hashing a onlyAdmin user =>
    simp only [World.next] at hnext
    split_ifs at hnext <;> cases hnext
    · exact h.put_some hc
    · exact h.put_some hc
  | failed a onlyAdmin =>
    cases hnext
    exact h.put_some trivial
  | verified a onlyAdmin hash =>
    simp only [World.next] at hnext
    split_ifs at hnext <;> cases hnext
    · exact h.put_some trivial
    · exact h.put_some trivial
    · exact h.put_none
  | saving snapshot next | committing a => cases hnext

theorem Timely.step (h : Timely w) (hstep : Step env w e w') : Timely w' := by
  unfold Step at hstep
  cases e with
  | start i username password clientIp now =>
    simp only [exec] at hstep
    split_ifs at hstep with hstart
    cases hstep
    have hlater : Timely { w with clock := now } := fun j c hj => (h j c hj).later hstart.2
    exact hlater.put_some (le_refl _)
  | next i =>
    obtain ⟨c, hi, hnext⟩ := Option.bind_eq_some_iff.1 hstep
    exact h.next hi hnext
  | save i result =>
    simp only [exec] at hstep
    split at hstep
    · next snapshot next hi =>
      cases hstep
      refine h.put fun d hd => ?_
      obtain ⟨a, -, rfl⟩ := Option.map_eq_some_iff.1 hd
      trivial
    · cases hstep
  | commit i ok =>
    simp only [exec] at hstep
    split at hstep <;> cases hstep
    · exact h.put_none
  | setUsers users =>
    cases hstep
    exact h
  | restart now =>
    simp only [exec] at hstep
    split_ifs at hstep
    cases hstep
    exact fun _ _ hc => by cases hc

theorem Limit.Holds.step {l : Limit} (hl : l.Sound env) (h : l.Holds w) (htimely : Timely w)
    (hcareful : Careful env w e) (hstep : Step env w e w') : l.Holds w' := by
  unfold Step at hstep
  cases e with
  | start i username password clientIp now =>
    simp only [exec] at hstep
    split_ifs at hstep with hstart
    cases hstep
    have htick : l.Holds { w with clock := now } := Inv.tick h hstart.2
    refine htick.keep rfl rfl ?_ .stay
    rw [slotAt, show w.calls i = none from Option.isNone_iff_eq_none.1 hstart.1]
    exact hl.started _
  | next i =>
    obtain ⟨c, hi, hnext⟩ := Option.bind_eq_some_iff.1 hstep
    exact hl.next h hi (htimely i c hi) hcareful hnext
  | save i result =>
    simp only [exec] at hstep
    split at hstep
    · next snapshot next hi =>
      cases hstep
      refine h.keep rfl rfl ?_ .stay
      rw [slotAt_of_some hi]
      cases next with
      | none => exact (hl.recorded snapshot).symm
      | some a => exact (hl.saved snapshot a).symm
    · cases hstep
  | commit i ok =>
    simp only [exec] at hstep
    split at hstep
    · next a hi =>
      cases hstep
      have hok : ok = true := hcareful
      rw [hok]
      rcases hl.committed a rfl with ⟨hidle, htimes⟩ | ⟨hcleared, htimes⟩
      · exact h.keep rfl rfl ((slotAt_of_some hi).trans hidle).symm (Move.stay.cast rfl htimes.symm)
      · exact h.move rfl rfl
          ((Move.succeed ((slotAt_of_some hi).trans hcleared)).cast rfl htimes.symm)
    · cases hstep
  | setUsers users =>
    cases hstep
    exact h
  | restart now =>
    simp only [exec] at hstep
    split_ifs at hstep with hnow
    cases hstep
    obtain ⟨hfile, hnone⟩ := hcareful
    have htick : l.Holds { w with clock := now } := Inv.tick h hnow
    have hcalls : w.calls = fun _ => none := funext hnone
    refine htick.keep (i := 0) (c := none) rfl ?_ ?_ ((Move.prune le_rfl).cast ?_ rfl)
    · show (fun _ => none) = update w.calls 0 none
      rw [hcalls, update_eq_self_iff.2 rfl]
    · rw [slotAt, hcalls]
    · show _ = l.stored (w.file.prune now)
      rw [hfile, hl.pruned]
      rfl

theorem Limit.Holds.run {l : Limit} (hl : l.Sound env) (htimes : l.times [] = []) {w₀ : World}
    {es : List Event} (hcalls : ∀ i, w₀.calls i = none) (houtcomes : w₀.outcomes = [])
    (h : Run (CarefulStep env) w₀ es w) : l.Holds w := by
  have hinit : Timely w₀ ∧ l.Holds w₀ := by
    refine ⟨fun i c hi => (by rw [hcalls i] at hi; cases hi), ?_⟩
    rw [Limit.Holds, Limit.state, houtcomes, htimes, show w₀.calls = fun _ => none from funext hcalls]
    exact inv_of_nil
  refine (h.inv (I := fun w => Timely w ∧ l.Holds w) hinit fun w e w' hw hstep => ?_).2
  exact ⟨hw.1.step hstep.2, hw.2.step hl hw.1 hstep.1 hstep.2⟩

theorem Step.outcomes (hstep : Step env w e w') :
    w'.outcomes = w.outcomes ∨ ∃ o, w'.outcomes = w.outcomes ++ [o] := by
  unfold Step at hstep
  cases e with
  | start | restart =>
    simp only [exec] at hstep
    split_ifs at hstep
    cases hstep
    exact .inl rfl
  | next i =>
    obtain ⟨c, -, hnext⟩ := Option.bind_eq_some_iff.1 hstep
    cases c with
    | hashing a onlyAdmin user =>
      simp only [World.next] at hnext
      split_ifs at hnext <;> cases hnext
      · exact .inl rfl
      · exact .inr ⟨_, rfl⟩
    | started | adminRead | verified =>
      simp only [World.next] at hnext
      split_ifs at hnext <;> cases hnext <;> exact .inl rfl
    | ipAdmitted | admitted | failed =>
      cases hnext
      exact .inl rfl
    | saving | committing => cases hnext
  | save =>
    simp only [exec] at hstep
    split at hstep <;> cases hstep
    exact .inl rfl
  | commit i ok =>
    simp only [exec] at hstep
    split at hstep <;> cases hstep
    cases ok
    · exact .inl rfl
    · exact .inr ⟨_, rfl⟩
  | setUsers =>
    cases hstep
    exact .inl rfl

end Steps

/-! ## Windows -/

/-- A failed check of a login from the address, in the window from `start` on. -/
def Outcome.failedFrom (env : Env) (bucket : String) (start : UInt64) : Outcome → Bool
  | .failed a _ => a.clientIp ≠ "unknown" ∧ ipBucket env a.clientIp = bucket ∧
      inWindow ipLockoutWindowSecs start a.now
  | .loggedIn _ => false

def Outcome.failedFor (username : String) (start : UInt64) : Outcome → Bool
  | .failed a onlyAdmin => a.username = username ∧ onlyAdmin = false ∧
      inWindow lockoutWindowSecs start a.now
  | .loggedIn _ => false

theorem countP_failedFrom (env : Env) (bucket : String) (start : UInt64) (outcomes : List Outcome) :
    outcomes.countP (·.failedFrom env bucket start) =
      (ipTimes env bucket outcomes).countP (inWindow ipLockoutWindowSecs start) := by
  rw [ipTimes, countP_filterMap]
  refine countP_congr fun o _ => ?_
  cases o with
  | failed a onlyAdmin =>
    by_cases hip : a.clientIp = "unknown" <;>
      by_cases hbucket : ipBucket env a.clientIp = bucket <;>
        simp [Outcome.failedFrom, Outcome.ipTime, hip, hbucket]
  | loggedIn => simp [Outcome.failedFrom, Outcome.ipTime]

theorem countP_failedFor_le {username : String} (start : UInt64) (earlier between : List Outcome)
    (h : .loggedIn username ∉ between) : between.countP (·.failedFor username start) ≤
      (userTimes username (earlier ++ between)).countP (inWindow lockoutWindowSecs start) := by
  induction between using List.reverseRecOn with
  | nil => exact Nat.zero_le _
  | append_singleton between o ih =>
  have ih := ih fun hmem => h (mem_append_left _ hmem)
  rw [countP_append, countP_singleton, ← append_assoc]
  cases o with
  | failed a onlyAdmin =>
    rw [userTimes_failed]
    by_cases hin : a.username = username ∧ onlyAdmin = false
    · rw [if_pos hin, countP_append, countP_singleton]
      simp only [Outcome.failedFor, hin.1, hin.2, true_and, Bool.decide_eq_true]
      exact Nat.add_le_add_right ih _
    rw [if_neg hin, if_neg]
    · exact ih
    · simp only [Outcome.failedFor, decide_eq_true_eq]
      exact fun hfailed => hin ⟨hfailed.1, hfailed.2.1⟩
  | loggedIn name =>
    have hname : name ≠ username := by
      rintro rfl
      exact h (mem_append_right _ (mem_singleton_self _))
    rw [userTimes_loggedIn, if_neg hname]
    exact ih

theorem Bounded.inWindow {window : UInt64} {max : ℕ} {times : List UInt64}
    (h : Bounded (near window) max times) (start : UInt64) :
    times.countP (Attempts.inWindow window start) ≤ max :=
  h _ fun _ _ => near_of_inWindow

/-- **Failed logins.** In every run of careful steps no window has more failed checks than the
limits of an address and of a name. -/
theorem attempts_limited {env : Env} {w₀ w : World} {es : List Event}
    (hcalls : ∀ i, w₀.calls i = none) (houtcomes : w₀.outcomes = [])
    (h : Run (CarefulStep env) w₀ es w) :
    (∀ bucket start, w.outcomes.countP (·.failedFrom env bucket start) ≤ maxIpFailedAttempts) ∧
      ∀ username start earlier between later, w.outcomes = earlier ++ between ++ later →
        .loggedIn username ∉ between →
        between.countP (·.failedFor username start) ≤ maxFailedAttempts := by
  constructor
  · intro bucket start
    have hinv := Limit.Holds.run (ipLimit_sound env bucket) rfl hcalls houtcomes h
    rw [countP_failedFrom]
    exact Bounded.inWindow hinv.bounded start
  intro username start earlier between later hsplit hbetween
  refine le_trans (countP_failedFor_le start earlier between hbetween) ?_
  -- the bound holds at the moment the outcomes ended with `between`
  have hearlier : ∀ outcomes, outcomes <+: w.outcomes →
      Bounded (near lockoutWindowSecs) maxFailedAttempts (userTimes username outcomes) := by
    clear hsplit
    induction h with
    | nil =>
      intro outcomes hpre
      rw [houtcomes, prefix_nil] at hpre
      rw [hpre]
      exact fun _ _ => Nat.zero_le _
    | @snoc es w e w' hrun hstep ih =>
    have hinv :=
      Limit.Holds.run (userLimit_sound env username) rfl hcalls houtcomes (.snoc hrun hstep)
    intro outcomes hpre
    rcases hstep.2.outcomes with hsame | ⟨o, hnew⟩
    · rw [hsame] at hpre
      exact ih outcomes hpre
    rw [hnew, prefix_concat_iff] at hpre
    rcases hpre with rfl | hpre
    · rw [← hnew]
      exact hinv.bounded
    · exact ih outcomes hpre
  exact Bounded.inWindow (hearlier _ ⟨later, hsplit.symm⟩) start

def operator : User where
  username := "operator"
  passwordHash := some "argon2:secret"
  role := .operator
  filePrincipal := none
  mustChangePassword := false
  oidcSubject := none
  oidcIssuer := none

def World.fresh : World where
  clock := 0
  users := [operator]
  rateLimit := .empty
  file := .empty
  calls _ := none
  outcomes := []

/-- Four failures are stored. -/
def World.warned : World :=
  { fresh with rateLimit := { RateLimitState.empty with
      byUser := update (fun _ => []) "operator" [0, 0, 0, 0] } }

/-- A guess that fails, and one that is turned away. -/
def lockout : List Event :=
  let start : Event := .start 0 "operator" "guess" "10.0.0.1" 0
  [start, .next 0, .next 0, .next 0, .next 0, .next 0, .next 0, .save 0 .written,
    start, .next 0, .next 0, .next 0]

theorem room_of_idle {slots : ℕ → Slot UInt64} {max recorded : ℕ} (h : ∀ j, slots j = .idle)
    (hlt : recorded < max) : Room max recorded slots := by
  intro ids hids
  obtain rfl : ids = ∅ := Finset.eq_empty_of_forall_notMem fun j hj => by
    have hslot := hids j hj
    rw [h j] at hslot
    nomatch hslot
  exact hlt

theorem run_lockout : ∃ w, Run (CarefulStep Env.plain) warned lockout w ∧ w.calls 0 = none ∧
    w.outcomes = [.failed ⟨"operator", "guess", "10.0.0.1", 0⟩ false] := by
  have h0 : Run (CarefulStep Env.plain) warned [] warned := .nil
  have h1 := h0.next (.start 0 "operator" "guess" "10.0.0.1" 0) trivial rfl
  have h2 := h1.next (.next 0) (fun _ hlt => ⟨rfl, room_of_idle (fun j => by
    by_cases hj : j = 0 <;> simp [slotAt, put, hj] <;> rfl) hlt⟩) rfl
  have h3 := h2.next (.next 0) trivial rfl
  have h4 := h3.next (.next 0) (fun _ hlt => ⟨rfl,
    fun j => by
      by_cases hj : j = 0 <;> simp [slotAt, put, hj, userSlot, warned, fresh],
    room_of_idle (fun j => by
      by_cases hj : j = 0 <;> simp [slotAt, put, hj] <;> rfl) hlt⟩) rfl
  have h5 := h4.next (.next 0) trivial rfl
  have h6 := h5.next (.next 0) trivial rfl
  have h7 := h6.next (.next 0) trivial rfl
  have h8 := h7.next (.save 0 .written) trivial rfl
  have h9 := h8.next (.start 0 "operator" "guess" "10.0.0.1" 0) trivial rfl
  have h10 := h9.next (.next 0) (fun _ hlt => ⟨rfl, room_of_idle (fun j => by
    by_cases hj : j = 0 <;> simp [slotAt, put, hj] <;> rfl) hlt⟩) rfl
  have h11 := h10.next (.next 0) trivial rfl
  have h12 := h11.next (.next 0) (fun _ hlt => absurd hlt (by decide +kernel)) rfl
  exact ⟨_, h12, rfl, rfl⟩

theorem attempts_limited_lockout : ∃ w, Run (CarefulStep Env.plain) warned lockout w ∧
    w.calls 0 = none ∧ w.outcomes = [.failed ⟨"operator", "guess", "10.0.0.1", 0⟩ false] ∧
    w.outcomes.countP (·.failedFrom Env.plain "10.0.0.1" 0) ≤ maxIpFailedAttempts := by
  obtain ⟨w, hrun, hend, houtcomes⟩ := run_lockout
  exact ⟨w, hrun, hend, houtcomes, (attempts_limited (fun _ => rfl) rfl hrun).1 "10.0.0.1" 0⟩

/-- Twenty-one guesses at a password, all checked before the first is recorded. -/
def guesses : List Event :=
  (List.range 21).map (fun i => .start i "operator" "guess" "10.0.0.1" 0) ++
    (List.range 5).flatMap fun _ => (List.range 21).map .next

/-- Guesses made at once exceed both limits. -/
theorem guesses_exceed_limits : ∃ w, Run (Step Env.plain) fresh guesses w ∧
    maxIpFailedAttempts < w.outcomes.countP (·.failedFrom Env.plain "10.0.0.1" 0) ∧
    maxFailedAttempts < w.outcomes.countP (·.failedFor "operator" 0) ∧
    .loggedIn "operator" ∉ w.outcomes ∧ isOnlyAdmin w.users "operator" = false := by
  have hrun : (guesses.foldlM (exec Env.plain) fresh).any fun w =>
      decide (maxIpFailedAttempts < w.outcomes.countP (·.failedFrom Env.plain "10.0.0.1" 0) ∧
        maxFailedAttempts < w.outcomes.countP (·.failedFor "operator" 0) ∧
        .loggedIn "operator" ∉ w.outcomes ∧ isOnlyAdmin w.users "operator" = false) := by
    decide +kernel
  obtain ⟨w, hw, hbounds⟩ := (Option.any_eq_true _ _).1 hrun
  exact ⟨w, Run.of_foldlM hw, of_decide_eq_true hbounds⟩

end Nasty.Auth.Attempts
