import Nasty.Auth.State

/-!
# The login rate limit

Failed logins are counted by user name and by source address. A login call is let in when neither
count has reached its limit; the only administrator is never locked out by name.
-/

namespace Nasty.Auth

def maxFailedAttempts : ℕ := 5

def lockoutWindowSecs : UInt64 := 15 * 60

def maxIpFailedAttempts : ℕ := 20

def ipLockoutWindowSecs : UInt64 := 60 * 60

inductive IpAddr
  | v4 (addr : BitVec 32)
  | v6 (addr : BitVec 128)

/-- The Argon2 check, the token digest, and the text form of addresses. -/
structure Env where
  verify : String → String → Bool
  hashToken : String → String
  parseIp : String → Option IpAddr
  showIpv6 : BitVec 128 → String

def Env.plain : Env where
  verify password hash := hash = "argon2:" ++ password
  hashToken token := "sha256:" ++ token
  parseIp _ := none
  showIpv6 _ := "::"

def isIpv4Mapped (addr : BitVec 128) : Bool := addr.extractLsb' 32 96 = 0xffff

/-- The counter of an address: IPv6 addresses share one for each `/64`. -/
def ipBucket (env : Env) (ip : String) : String :=
  match env.parseIp ip with
  | some (.v6 addr) =>
    if isIpv4Mapped addr then ip
    else env.showIpv6 (addr &&& ~~~(BitVec.ofNat 128 (2 ^ 64 - 1))) ++ "/64"
  | _ => ip

/-- The times of failures; a name or address without failures has the empty list. -/
structure RateLimitState where
  byUser : String → List UInt64
  byIp : String → List UInt64

def RateLimitState.empty : RateLimitState := { byUser := fun _ => [], byIp := fun _ => [] }

def saturatingSub (a b : UInt64) : UInt64 := if b ≤ a then a - b else 0

def recent (now window : UInt64) (times : List UInt64) : List UInt64 :=
  times.filter fun t => saturatingSub now t < window

namespace RateLimitState

def prune (rl : RateLimitState) (now : UInt64) : RateLimitState where
  byUser username := recent now lockoutWindowSecs (rl.byUser username)
  byIp bucket := recent now ipLockoutWindowSecs (rl.byIp bucket)

def userFailures (rl : RateLimitState) (username : String) (now : UInt64) : ℕ :=
  (recent now lockoutWindowSecs (rl.byUser username)).length

def ipFailures (env : Env) (rl : RateLimitState) (ip : String) (now : UInt64) : ℕ :=
  (recent now ipLockoutWindowSecs (rl.byIp (ipBucket env ip))).length

def recordFailedAttempt (env : Env) (rl : RateLimitState) (username clientIp : String)
    (now : UInt64) : RateLimitState :=
  let rl := rl.prune now
  let bucket := ipBucket env clientIp
  { byUser := Function.update rl.byUser username (rl.byUser username ++ [now])
    byIp :=
      if clientIp ≠ "unknown" then
        Function.update rl.byIp bucket
          (recent now ipLockoutWindowSecs (rl.byIp bucket ++ [now]))
      else rl.byIp }

def clearFailedAttempts (rl : RateLimitState) (username : String) : RateLimitState :=
  { rl with byUser := Function.update rl.byUser username [] }

end RateLimitState

def isOnlyAdmin (users : List User) (username : String) : Bool :=
  match users.filter (·.role = .admin) with
  | [admin] => admin.username = username
  | _ => false

def admitLogin (env : Env) (rl : RateLimitState) (users : List User) (username clientIp : String)
    (now : UInt64) : Except AuthError Unit :=
  if clientIp ≠ "unknown" ∧ maxIpFailedAttempts ≤ rl.ipFailures env clientIp now then
    .error .accountLocked
  else if maxFailedAttempts ≤ rl.userFailures username now ∧ ¬ isOnlyAdmin users username then
    .error .accountLocked
  else .ok ()

end Nasty.Auth
