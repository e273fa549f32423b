import MyService.World

/-!
# Tokens

`GenerateToken` reads the clock twice: for the time of issue, and for the time it
adds 24 hours to.
-/

namespace MyService.Auth

open Framework Chrono

def jwtSecret : String := "my-secret-key-change-me-later"

def generateToken (u : Userver) (userId : Int) : Service String := do
  let issuedAt ← systemNow
  let expiresAt := (← systemNow) + 24 * 3600 * ticksPerSecond
  return u.signHs256 "project-manager" (toString userId) (toTimeT issuedAt)
    (toTimeT expiresAt) jwtSecret

end MyService.Auth
