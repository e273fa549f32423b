import MyService.Auth.Jwt
import MyService.Handlers.Http

/-!
# The authorization check

`JwtChecker::CheckAuth`, with jwt-cpp as a parameter. The checker verifies with the
`secret` of its configuration; `GenerateToken` always signs with `JwtSecret`.
`issued_accepted_iff` says which checks accept an issued token.
-/

namespace MyService.Auth

open Framework Userver Chrono Handlers

/-- `jwt::decoded_jwt`: its signed text, and the claims of its payload. -/
structure DecodedJwt where
  token : String
  payload : List (String × Json)

/-- What the checker uses of jwt-cpp. `verify` compares the token's times with the
clock reading it takes. -/
structure JwtCpp where
  decode : String → Except Exn DecodedJwt
  verify : (secret issuer : String) → (now : Int) → DecodedJwt → Except Exn Unit
  /-- `exc.what()` -/
  what : Exn → String

def DecodedJwt.getPayloadClaim (d : DecodedJwt) (name : String) : Except Exn Json :=
  match d.payload.lookup name with
  | some claim => .ok claim
  | none => .error .claimNotPresent

/-- `claim::as_string`. -/
def claimAsString : Json → Except Exn String
  | .string s => .ok s
  | _ => .error .badCast

/-- `AuthCheckResult::Status`, as far as the checker uses it. -/
inductive AuthStatus where
  | ok
  | tokenNotFound
  | invalidToken
  | forbidden
deriving DecidableEq

structure AuthCheckResult where
  status : AuthStatus
  reason : String := ""
deriving DecidableEq

/-- `kSecret`. -/
def defaultSecret : String := "my-secret-key-change-me-later"

/-- `config["secret"].As<std::string>(kSecret)`. -/
def componentSecret (setting : Option String) : String := setting.getD defaultSecret

def bearerScheme : String := "Bearer "

/-- The two `catch` clauses. -/
def refusal (jwt : JwtCpp) (exc : Exn) : AuthCheckResult :=
  if exc = .tokenVerification then
    { status := .invalidToken, reason := "Token verification failed: " ++ jwt.what exc }
  else { status := .forbidden, reason := "Token processing error: " ++ jwt.what exc }

/-- The result, and the `user_id` it sets in the request's context. -/
def checkAuth (jwt : JwtCpp) (secret : String) (request : HttpRequest) :
    Service (AuthCheckResult × Option Int) :=
  let authHeader := request.getHeader "Authorization"
  if authHeader.isEmpty then
    pure ({ status := .tokenNotFound, reason := "Missing 'Authorization' header" }, none)
  else if !bearerScheme.toList.isPrefixOf authHeader.toList then
    pure (
      { status := .invalidToken
        reason := "Invalid authorization type, expected 'Bearer'" }, none)
  else
    let token := String.ofList (authHeader.toList.drop bearerScheme.length)
    tryCatch
      (do
        let decoded ← jwt.decode token
        let now ← systemNow
        jwt.verify secret "project-manager" now decoded
        let claim ← decoded.getPayloadClaim "user_id"
        let userId ← stoi (← claimAsString claim)
        pure ({ status := .ok }, some userId))
      fun exc => pure (refusal jwt exc, none)

/-! ## What a check accepts -/

/-- What the check reads in a decoded token. -/
def judge (jwt : JwtCpp) (secret : String) (decoded : DecodedJwt) (now : Int) :
    Except Exn Int := do
  jwt.verify secret "project-manager" now decoded
  let claim ← decoded.getPayloadClaim "user_id"
  stoi (← claimAsString claim)

/-- The result that goes with it. -/
def verdictOf (jwt : JwtCpp) : Except Exn Int → AuthCheckResult × Option Int
  | .ok userId => ({ status := .ok }, some userId)
  | .error exc => (refusal jwt exc, none)

/-- The header that carries a token. -/
def Bears (request : HttpRequest) (token : String) : Prop :=
  request.getHeader "Authorization" = bearerScheme ++ token

/-- A token that the check accepts at a clock reading, and the id it gives. -/
def Verifies (jwt : JwtCpp) (secret token : String) (now userId : Int) : Prop :=
  ∃ decoded text, jwt.decode token = .ok decoded ∧
    jwt.verify secret "project-manager" now decoded = .ok () ∧
    decoded.payload.lookup "user_id" = some (.string text) ∧ stoi text = .ok userId

section CheckAuth

variable {jwt : JwtCpp} {secret token : String} {request : HttpRequest}

theorem getPayloadClaim_string {d : DecodedJwt} {name text : String} :
    (d.getPayloadClaim name >>= claimAsString) = .ok text ↔
      d.payload.lookup name = some (.string text) := by
  unfold DecodedJwt.getPayloadClaim
  cases d.payload.lookup name with
  | none => simp [bind, Except.bind]
  | some claim => cases claim <;> simp [bind, Except.bind, claimAsString]

theorem verifies_iff {decoded : DecodedJwt} (hdecode : jwt.decode token = .ok decoded)
    {now userId : Int} :
    Verifies jwt secret token now userId ↔ judge jwt secret decoded now = .ok userId := by
  simp only [Verifies, judge, except_bind_ok, hdecode, Except.ok.injEq, ← getPayloadClaim_string]
  constructor
  · rintro ⟨_, text, rfl, hverify, ⟨claim, hclaim, htext⟩, hstoi⟩
    exact ⟨(), hverify, claim, hclaim, text, htext, hstoi⟩
  · rintro ⟨_, hverify, claim, hclaim, text, htext, hstoi⟩
    exact ⟨decoded, text, rfl, hverify, ⟨claim, hclaim, htext⟩, hstoi⟩

theorem verdictOf_ok {x : Except Exn Int} {result : AuthCheckResult} {context : Option Int}
    (h : verdictOf jwt x = (result, context)) (hok : result.status = .ok) :
    ∃ userId, x = .ok userId ∧ context = some userId := by
  cases x with
  | ok userId => exact ⟨userId, rfl, (Prod.mk.inj h).2.symm⟩
  | error exc =>
      rw [← (Prod.mk.inj h).1, refusal] at hok
      split at hok
      · simp at hok
      · simp at hok

theorem bears_iff : Bears request token ↔
    bearerScheme.toList.isPrefixOf (request.getHeader "Authorization").toList = true ∧
      String.ofList ((request.getHeader "Authorization").toList.drop bearerScheme.length) =
        token := by
  rw [List.isPrefixOf_iff_prefix]
  constructor
  · intro h
    rw [Bears] at h
    rw [h, String.toList_append]
    refine ⟨List.prefix_append _ _, ?_⟩
    rw [← String.length_toList, List.drop_left, String.ofList_toList]
  · rintro ⟨⟨rest, hrest⟩, htoken⟩
    rw [← hrest, ← String.length_toList, List.drop_left] at htoken
    rw [Bears, ← String.toList_inj, ← hrest, ← htoken, String.toList_append,
      String.toList_ofList]

/-- The check of a bearer token: it is decoded, and the clock reading of `verify` decides
about it. -/
theorem checkAuth_bears (h : Bears request token) :
    checkAuth jwt secret request =
      match jwt.decode token with
      | .ok decoded =>
          .call .systemNow fun now => .pure (verdictOf jwt (judge jwt secret decoded now))
      | .error exc => .pure (refusal jwt exc, none) := by
  obtain ⟨hscheme, htoken⟩ := bears_iff.mp h
  have hempty : (request.getHeader "Authorization").isEmpty = false := by
    rw [h]
    simp [bearerScheme]
  simp only [checkAuth, hempty, hscheme, htoken]
  cases jwt.decode token with
  | error exc => rfl
  | ok decoded =>
      simp [judge]
      ext now
      simp only [bind, Except.bind]
      -- every throw ends in the same `catch` clauses
      cases jwt.verify secret "project-manager" now decoded with
      | error exc => rfl
      | ok _ =>
          dsimp only
          cases decoded.getPayloadClaim "user_id" with
          | error exc => rfl
          | ok claim =>
              dsimp only
              cases claimAsString claim with
              | error exc => rfl
              | ok text =>
                  dsimp only
                  cases stoi text <;> rfl

theorem checkAuth_no_bearer (h : ∀ token, ¬Bears request token) :
    ∃ result, checkAuth jwt secret request = .pure (result, none) := by
  have hscheme :
      bearerScheme.toList.isPrefixOf (request.getHeader "Authorization").toList = false := by
    rw [← Bool.not_eq_true]
    intro hscheme
    exact h _ (bears_iff.mpr ⟨hscheme, rfl⟩)
  unfold checkAuth
  by_cases hempty : (request.getHeader "Authorization").isEmpty = true
  · exact ⟨_, if_pos hempty⟩
  · refine ⟨_, (if_neg hempty).trans (if_pos ?_)⟩
    rw [hscheme]
    rfl

end CheckAuth

/-! ## Issued tokens -/

/-- When a token lapses: 24 hours after the second reading of `GenerateToken`. -/
def expiry (reading : Int) : Int := toTimeT (reading + 24 * 3600 * ticksPerSecond)

/-- jwt-cpp on a token that `create` signed: `decode` gives its claims back, and it
verifies under its own secret and issuer, not before its one time nor after its other. -/
def DecodesSigned (u : Userver) (jwt : JwtCpp) (issuer userId : String)
    (issuedAt expiresAt : Int) (signedWith : String) : Prop :=
  ∃ decoded, jwt.decode (u.signHs256 issuer userId issuedAt expiresAt signedWith) = .ok decoded ∧
    decoded.payload.lookup "user_id" = some (.string userId) ∧
    ∀ secret issuer' now, jwt.verify secret issuer' now decoded = .ok () ↔
      secret = signedWith ∧ issuer' = issuer ∧ issuedAt * ticksPerSecond ≤ now ∧
        now ≤ expiresAt * ticksPerSecond

/-- The check sets the id and passes. -/
def Accepts (jwt : JwtCpp) (secret : String) (request : HttpRequest) (userId : Int)
    (cs : ℕ → Choice) (w : World) : Prop :=
  ((checkAuth jwt secret request).exec perform cs w).1 = .ok ({ status := .ok }, some userId)

section Issued

variable {u : Userver} {jwt : JwtCpp} {secret token : String} {request : HttpRequest}
  {userId : Int}

/-- A decoded bearer token passes exactly when it verifies at the clock reading. -/
theorem accepts_iff (hbears : Bears request token) {decoded : DecodedJwt}
    (hdecode : jwt.decode token = .ok decoded) {cs : ℕ → Choice} {w : World} :
    Accepts jwt secret request userId cs w ↔
      Verifies jwt secret token (cs 0).system userId := by
  rw [verifies_iff hdecode, Accepts, checkAuth_bears hbears, hdecode]
  show (Except.ok (verdictOf jwt (judge jwt secret decoded (cs 0).system)) : Except Exn _) = _ ↔ _
  rw [Except.ok.injEq]
  constructor
  · intro h
    obtain ⟨id, hid, hcontext⟩ := verdictOf_ok h rfl
    rw [hid, Option.some.inj hcontext]
  · intro h
    rw [h]
    rfl

/-- The claim that `GenerateToken` writes reads back as the id. -/
theorem verifies_signed {issuedAt expiresAt : Int} {signedWith : String} {now : Int}
    (hid : -2 ^ 31 ≤ userId ∧ userId < 2 ^ 31)
    (hjwt : DecodesSigned u jwt "project-manager" (toString userId) issuedAt expiresAt
      signedWith) :
    Verifies jwt secret
        (u.signHs256 "project-manager" (toString userId) issuedAt expiresAt signedWith) now
        userId ↔
      secret = signedWith ∧ issuedAt * ticksPerSecond ≤ now ∧
        now ≤ expiresAt * ticksPerSecond := by
  obtain ⟨decoded, hdecode, hclaim, hverify⟩ := hjwt
  constructor
  · rintro ⟨decoded', text, hdecode', hok, _, _⟩
    obtain rfl := Except.ok.inj (hdecode.symm.trans hdecode')
    obtain ⟨hsecret, _, htimes⟩ := (hverify _ _ _).mp hok
    exact ⟨hsecret, htimes⟩
  · rintro ⟨hsecret, htimes⟩
    refine ⟨decoded, toString userId, hdecode, (hverify _ _ _).mpr ⟨hsecret, rfl, htimes⟩, hclaim,
      ?_⟩
    rw [stoi_toString, if_pos hid]

/-- **Which checks accept an issued token.** Those with the secret it was signed with,
between the second of its issue and the second it lapses in. -/
theorem issued_accepted_iff (hid : -2 ^ 31 ≤ userId ∧ userId < 2 ^ 31)
    {issuing : ℕ → Choice} {w w' : World}
    (hissue : (generateToken u userId).exec perform issuing w = (.ok token, w'))
    (hjwt : DecodesSigned u jwt "project-manager" (toString userId)
      (toTimeT (issuing 0).system) (expiry (issuing 1).system) jwtSecret)
    (hbears : Bears request token) (setting : Option String) (checking : ℕ → Choice)
    (w₁ : World) :
    Accepts jwt (componentSecret setting) request userId checking w₁ ↔
      componentSecret setting = jwtSecret ∧
        toTimeT (issuing 0).system * ticksPerSecond ≤ (checking 0).system ∧
        (checking 0).system ≤ expiry (issuing 1).system * ticksPerSecond := by
  have htoken : token = u.signHs256 "project-manager" (toString userId)
      (toTimeT (issuing 0).system) (expiry (issuing 1).system) jwtSecret :=
    (Except.ok.inj (Prod.mk.inj hissue).1).symm
  subst htoken
  have hsigned := hjwt
  obtain ⟨decoded, hdecode, _⟩ := hjwt
  rw [accepts_iff hbears hdecode, verifies_signed hid hsigned]

end Issued

/-! ## One token -/

namespace Sample

/-- A signed token is the text of its id. -/
def userver : Userver :=
  { fromString := fun _ => .error .parseError, toString := fun _ => ""
    fromJsonString := fun _ => .error .parseError, sha256 := fun s => s
    signHs256 := fun _ userId _ _ _ => userId }

/-- The library on tokens that were issued when the clock read 0. -/
def jwt : JwtCpp :=
  { decode := fun token => .ok { token := token, payload := [("user_id", .string token)] }
    verify := fun secret issuer now _ =>
      if secret = jwtSecret ∧ issuer = "project-manager" ∧ 0 * ticksPerSecond ≤ now ∧
          now ≤ 86400 * ticksPerSecond then .ok ()
      else .error .signatureVerification
    what := fun _ => "" }

def request : HttpRequest :=
  { body := "", pathArgs := [], remoteAddress := "10.0.0.1"
    headers := [("Authorization", bearerScheme ++ toString (-2 ^ 31 : Int))] }

theorem decodesSigned (userId : String) :
    DecodesSigned userver jwt "project-manager" userId 0 86400 jwtSecret := by
  refine ⟨_, rfl, rfl, ?_⟩
  intro secret issuer now
  show (if _ then _ else _) = _ ↔ _
  split <;> simp_all

theorem issued :
    (generateToken userver (-2 ^ 31)).exec perform (fun _ => {}) MyService.Sample.empty =
      (.ok (toString (-2 ^ 31 : Int)), MyService.Sample.empty) := rfl

theorem bears : Bears request (toString (-2 ^ 31 : Int)) := rfl

end Sample

/-- The extreme id, checked at once. -/
theorem issued_accepted :
    Accepts Sample.jwt (componentSecret none) Sample.request (-2 ^ 31) (fun _ => {})
      MyService.Sample.empty :=
  (issued_accepted_iff (by decide) Sample.issued (Sample.decodesSigned _) Sample.bears none
    (fun _ => {}) MyService.Sample.empty).mpr ⟨rfl, by decide, by decide⟩

/-- A checker configured with another secret refuses it. -/
theorem issued_refused_by_other_secret :
    (generateToken Sample.userver (-2 ^ 31)).exec perform (fun _ => {}) MyService.Sample.empty =
        (.ok (toString (-2 ^ 31 : Int)), MyService.Sample.empty) ∧
      Bears Sample.request (toString (-2 ^ 31 : Int)) ∧
      ¬Accepts Sample.jwt (componentSecret (some "deployment-secret")) Sample.request (-2 ^ 31)
        (fun _ => {}) MyService.Sample.empty := by
  refine ⟨Sample.issued, Sample.bears, ?_⟩
  intro h
  obtain ⟨decoded, hdecode, _⟩ := Sample.decodesSigned (toString (-2 ^ 31 : Int))
  have hverifies := (accepts_iff Sample.bears hdecode).mp h
  have hsecret := ((verifies_signed (by decide) (Sample.decodesSigned _)).mp hverifies).1
  exact absurd hsecret (by decide)

end MyService.Auth
