import MyService.Auth.JwtAuthChecker

/-!
# The check by middleware

`AuthMiddleware::CheckAuth` and the `ValidateToken` under it: the same check as
`JwtChecker::CheckAuth` in another place, with the secret compiled in and every throw
swallowed. `middleware_agrees_iff` says when the two agree.
-/

namespace MyService.Auth

open Framework Userver Handlers

def validateToken (jwt : JwtCpp) (token : String) : Service (Option Int) :=
  tryCatch
    (do
      let decoded ← jwt.decode token
      let now ← systemNow
      jwt.verify jwtSecret "project-manager" now decoded
      let userIdClaim ← decoded.getPayloadClaim "user_id"
      let userId ← stoi (← claimAsString userIdClaim)
      pure (some userId))
    fun _ => pure none

end MyService.Auth

namespace MyService.Handlers.AuthMiddleware

open Framework Userver Chrono Auth

def kBearerPrefix : String := "Bearer "

/-- The result, and the `user_id` it sets in the request's context. A text that starts
with the prefix is longer than it in bytes when it is in characters. -/
def checkAuth (jwt : JwtCpp) (request : HttpRequest) : Service (Bool × Option Int) :=
  let authHeader := request.getHeader "Authorization"
  if authHeader.isEmpty then pure (false, none)
  else if authHeader.length ≤ kBearerPrefix.length ∨
      authHeader.toList.take kBearerPrefix.length ≠ kBearerPrefix.toList then
    pure (false, none)
  else do
    let token := String.ofList (authHeader.toList.drop kBearerPrefix.length)
    match ← validateToken jwt token with
    | none => pure (false, none)
    | some userId => do
        pure (true, some userId)

section CheckAuth

variable {jwt : JwtCpp} {token : String} {request : HttpRequest}

/-- A decoded token is judged at the clock reading of `verify`. -/
theorem validateToken_eq :
    validateToken jwt token =
      match jwt.decode token with
      | .ok decoded =>
          .call .systemNow fun now => .pure (judge jwt jwtSecret decoded now).toOption
      | .error _ => .pure none := by
  unfold validateToken
  cases jwt.decode token with
  | error exc => rfl
  | ok decoded =>
      simp [judge]
      ext now
      simp only [bind, Except.bind]
      cases jwt.verify jwtSecret "project-manager" now decoded with
      | error exc => rfl
      | ok _ =>
          dsimp only
          cases decoded.getPayloadClaim "user_id" with
          | error exc => rfl
          | ok claim =>
              dsimp only
              cases claimAsString claim with
              | error exc => rfl
              | ok text =>
                  dsimp only
                  cases stoi text <;> rfl

/-- A bearer token that is not empty is validated. -/
theorem checkAuth_bears (h : Bears request token) (hne : token ≠ "") :
    checkAuth jwt request = (validateToken jwt token).bind fun userId =>
      .pure (userId.isSome, userId) := by
  have hempty : (request.getHeader "Authorization").isEmpty = false := by
    rw [h]
    simp [bearerScheme]
  have hlong : ¬((request.getHeader "Authorization").length ≤ kBearerPrefix.length ∨
      (request.getHeader "Authorization").toList.take kBearerPrefix.length ≠
        kBearerPrefix.toList) := by
    have hheader : (request.getHeader "Authorization").toList =
        kBearerPrefix.toList ++ token.toList := by
      rw [h]
      exact String.toList_append
    have hlength : token.toList.length ≠ 0 := fun hzero =>
      hne (String.toList_eq_nil_iff.mp (List.length_eq_zero_iff.mp hzero))
    simp only [← String.length_toList, hheader, List.take_left, List.length_append]
    rintro (hle | hdiffer)
    · omega
    · exact hdiffer rfl
  unfold checkAuth
  simp only [hempty, if_neg hlong]
  show (validateToken jwt (String.ofList ((request.getHeader "Authorization").toList.drop
    bearerScheme.length))).bind _ = _
  rw [(bears_iff.mp h).2]
  congr 1
  funext userId
  cases userId <;> rfl

/-- Nothing else is. -/
theorem checkAuth_refuses (h : ∀ token, token ≠ "" → ¬Bears request token) :
    checkAuth jwt request = .pure (false, none) := by
  unfold checkAuth
  by_cases hempty : (request.getHeader "Authorization").isEmpty = true
  · exact if_pos hempty
  · refine (if_neg hempty).trans (if_pos ?_)
    by_contra hlong
    rw [not_or, not_le, not_not] at hlong
    obtain ⟨hlength, hprefix⟩ := hlong
    refine h _ ?_ (bears_iff.mpr ⟨List.isPrefixOf_iff_prefix.mpr ?_, rfl⟩)
    · intro htoken
      have hnil := congrArg String.toList htoken
      rw [String.toList_ofList, String.toList_empty, List.drop_eq_nil_iff,
        String.length_toList] at hnil
      exact absurd hlength (not_lt.mpr hnil)
    · exact ⟨_, by rw [← List.take_append_drop kBearerPrefix.length
        (request.getHeader "Authorization").toList, hprefix]; rfl⟩

/-- The check passes and sets the id. -/
def Passes (jwt : JwtCpp) (request : HttpRequest) (userId : Int) (cs : ℕ → Choice)
    (w : World) : Prop :=
  ((checkAuth jwt request).exec perform cs w).1 = .ok (true, some userId)

/-- A header carries one token. -/
theorem exists_bears {P : String → Prop} (h : Bears request token) :
    (∃ token', Bears request token' ∧ P token') ↔ P token := by
  constructor
  · rintro ⟨token', h', hp⟩
    rwa [← (bears_iff.mp h).2, (bears_iff.mp h').2]
  · exact fun hp => ⟨token, h, hp⟩

theorem not_verifies {secret : String} {now userId : Int} {exc : Exn}
    (hdecode : jwt.decode token = .error exc) : ¬Verifies jwt secret token now userId := by
  rintro ⟨decoded, _, hdecode', _⟩
  exact absurd (hdecode.symm.trans hdecode') (by simp)

/-- What passes bears a token that verifies with the secret of the issuer. -/
theorem passes_iff {userId : Int} {cs : ℕ → Choice} {w : World} :
    Passes jwt request userId cs w ↔
      ∃ token, Bears request token ∧ token ≠ "" ∧
        Verifies jwt jwtSecret token (cs 0).system userId := by
  by_cases hbears : ∃ token, token ≠ "" ∧ Bears request token
  · obtain ⟨token, hne, hbears⟩ := hbears
    rw [exists_bears hbears, Passes, checkAuth_bears hbears hne, validateToken_eq]
    cases hdecode : jwt.decode token with
    | error exc =>
        refine iff_of_false (fun h => ?_) fun h => not_verifies hdecode h.2
        exact absurd (Prod.mk.inj (Except.ok.inj h)).1 (by simp)
    | ok decoded =>
        rw [verifies_iff hdecode, and_iff_right hne]
        show Except.ok ((judge jwt jwtSecret decoded (cs 0).system).toOption.isSome,
          (judge jwt jwtSecret decoded (cs 0).system).toOption) = (Except.ok _ : Except Exn _) ↔ _
        cases judge jwt jwtSecret decoded (cs 0).system with
        | error exc => simp [Except.toOption]
        | ok userId' => simp [Except.toOption]
  · rw [Passes, checkAuth_refuses fun token hne h => hbears ⟨token, hne, h⟩]
    refine iff_of_false (fun h => ?_) ?_
    · exact absurd (Prod.mk.inj (Except.ok.inj h)).1 (by simp)
    · rintro ⟨token, h, hne, _⟩
      exact hbears ⟨token, hne, h⟩

/-- What the checker accepts likewise, with its own secret. -/
theorem accepts_iff_bears {secret : String} {userId : Int} {cs : ℕ → Choice} {w : World} :
    Accepts jwt secret request userId cs w ↔
      ∃ token, Bears request token ∧ Verifies jwt secret token (cs 0).system userId := by
  by_cases hbears : ∃ token, Bears request token
  · obtain ⟨token, hbears⟩ := hbears
    rw [exists_bears hbears]
    cases hdecode : jwt.decode token with
    | ok decoded => exact accepts_iff hbears hdecode
    | error exc =>
        rw [Accepts, Auth.checkAuth_bears hbears, hdecode]
        refine iff_of_false (fun h => ?_) (not_verifies hdecode)
        exact absurd (Prod.mk.inj (Except.ok.inj h)).2 (by simp)
  · have hnone : ∃ result, Auth.checkAuth jwt secret request = .pure (result, none) :=
      checkAuth_no_bearer fun token h => hbears ⟨token, h⟩
    obtain ⟨result, hresult⟩ := hnone
    rw [Accepts, hresult]
    refine iff_of_false (fun h => ?_) ?_
    · exact absurd (Prod.mk.inj (Except.ok.inj h)).2 (by simp)
    · rintro ⟨token, h, _⟩
      exact hbears ⟨token, h⟩

end CheckAuth

section Agreement

variable {u : Userver} {jwt : JwtCpp}

/-- A request with this token in its header. -/
def bearing (token : String) : HttpRequest :=
  { body := "", pathArgs := [], remoteAddress := "10.0.0.1"
    headers := [("Authorization", bearerScheme ++ token)] }

theorem bears_bearing (token : String) : Bears (bearing token) token := rfl

/-- **When the two checks agree.** On every request, at every reading of the clock, exactly
when the checker is configured with the secret that the middleware has compiled in. -/
theorem middleware_agrees_iff {holder issuedAt expiresAt : Int}
    (hempty : ∃ exc, jwt.decode "" = .error exc)
    (hid : -2 ^ 31 ≤ holder ∧ holder < 2 ^ 31) (htimes : issuedAt ≤ expiresAt)
    (hsigned : DecodesSigned u jwt "project-manager" (toString holder) issuedAt expiresAt
      jwtSecret) (setting : Option String) :
    (∀ request userId cs w, Passes jwt request userId cs w ↔
        Accepts jwt (componentSecret setting) request userId cs w) ↔
      componentSecret setting = jwtSecret := by
  have hne : u.signHs256 "project-manager" (toString holder) issuedAt expiresAt jwtSecret ≠ "" := by
    intro heq
    obtain ⟨exc, hthrow⟩ := hempty
    obtain ⟨decoded, hdecode, _⟩ := hsigned
    rw [heq, hthrow] at hdecode
    exact absurd hdecode (by simp)
  constructor
  · intro hagree
    -- the holder of a token, at the second it was issued
    have hnow : issuedAt * ticksPerSecond ≤ expiresAt * ticksPerSecond :=
      mul_le_mul_of_nonneg_right htimes (by decide)
    have haccepts := (hagree (bearing _) holder
      (fun _ => { system := issuedAt * ticksPerSecond }) Sample.empty).mp (passes_iff.mpr
      ⟨_, bears_bearing _, hne, (verifies_signed hid hsigned).mpr ⟨rfl, le_refl _, hnow⟩⟩)
    rw [accepts_iff_bears, exists_bears (bears_bearing _), verifies_signed hid hsigned] at haccepts
    exact haccepts.1
  · intro hsecret request userId cs w
    rw [passes_iff, accepts_iff_bears, hsecret]
    constructor
    · rintro ⟨token, hbears, _, hverifies⟩
      exact ⟨token, hbears, hverifies⟩
    · rintro ⟨token, hbears, hverifies⟩
      refine ⟨token, hbears, ?_, hverifies⟩
      rintro rfl
      obtain ⟨exc, hthrow⟩ := hempty
      exact not_verifies hthrow hverifies

end Agreement

/-- The library that throws at the empty text. -/
def jwt : JwtCpp :=
  { Auth.Sample.jwt with
    decode := fun token => if token = "" then .error .invalidArgument
      else Auth.Sample.jwt.decode token }

theorem decodesSigned :
    DecodesSigned Auth.Sample.userver jwt "project-manager" (toString (7 : Int)) 0 86400
      jwtSecret := by
  obtain ⟨decoded, hdecode, hrest⟩ := Auth.Sample.decodesSigned (toString (7 : Int))
  exact ⟨decoded, Eq.trans rfl hdecode, hrest⟩

/-- A deployment that sets the secret makes them differ. -/
theorem middleware_agrees_iff_deployed :
    ¬∀ request userId cs w, Passes jwt request userId cs w ↔
      Accepts jwt (componentSecret (some "deployment-secret")) request userId cs w := fun h =>
  absurd ((middleware_agrees_iff ⟨_, rfl⟩ (by decide) (by decide) decodesSigned
    (some "deployment-secret")).mp h) (by decide)

end MyService.Handlers.AuthMiddleware
