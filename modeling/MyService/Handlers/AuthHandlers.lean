import MyService.Auth.Jwt
import MyService.Event.EventProducer
import MyService.Handlers.Http
import MyService.Handlers.ProjectHandlers
import MyService.Storage.PostgresStorage

/-!
# Registration and login

`POST /api/register` and `POST /api/login`. Login asks the limiter before it looks
at the body.
-/

namespace MyService.Handlers

open Framework Userver Models Storage Event RateLimit

/-- `RegisterHandler::HandleRequestThrow` over any `CreateUser`. -/
def registerWith (createUser : User → Service (Option User)) (u : Userver)
    (request : HttpRequest) : Service HttpResponse := do
  let json ← u.fromString request.body
  if !(← json.hasMember "login") || !(← json.hasMember "password") ||
      !(← json.hasMember "first_name") || !(← json.hasMember "last_name") ||
      !(← json.hasMember "email") then
    return { status := 400, body := "\x7b\"error\": \"Missing required fields\"\x7d" }
  let login ← Json.asString (← json.member "login")
  if (← PostgresStorage.getUserByLogin login).isSome then
    return { status := 409, body := "\x7b\"error\": \"User already exists\"\x7d" }
  let password ← Json.asString (← json.member "password")
  let firstName ← Json.asString (← json.member "first_name")
  let lastName ← Json.asString (← json.member "last_name")
  let email ← Json.asString (← json.member "email")
  let createdAt ← systemNow
  let user : User :=
    { id := 0, login := login, passwordHash := u.sha256 password, firstName := firstName
      lastName := lastName, email := email, createdAt := createdAt }
  let created ← createUser user
  if let some created := created then
    let event : UserRegisteredEvent :=
      { userId := created.id, login := created.login, email := created.email
        firstName := created.firstName, lastName := created.lastName }
    EventProducer.publishUserRegistered event (request.getHeader "X-Request-Id")
  let created ← valueOf created
  let result := Json.object
    [("id", .int created.id), ("login", .string created.login),
     ("first_name", .string created.firstName), ("last_name", .string created.lastName),
     ("email", .string created.email)]
  return { status := 201, body := u.toString result }

def registerHandler (u : Userver) (request : HttpRequest) : Service HttpResponse :=
  registerWith PostgresStorage.createUser u request

/-- The login and the password in the body of the request. -/
def Supplies (u : Userver) (request : HttpRequest) (login password : String) : Prop :=
  ∃ json l p, u.fromString request.body = .ok json ∧ json.member "login" = .ok l ∧
    Json.asString l = .ok login ∧ json.member "password" = .ok p ∧
    Json.asString p = .ok password

/-- The answer of a login that the limiter denied. -/
def tooManyRequests (info : RateLimitInfo) : HttpResponse :=
  { status := 429
    headers :=
      [("X-RateLimit-Limit", toString info.limit),
       ("X-RateLimit-Remaining", toString info.remaining),
       ("X-RateLimit-Reset", toString info.resetSeconds),
       ("Retry-After", toString info.resetSeconds)]
    body := "\x7b\"error\": \"Too many login attempts. Please try again later.\"\x7d" }

def loginHandler (u : Userver) (request : HttpRequest) : Service HttpResponse := do
  let clientIp := request.remoteAddress
  if !(← tryAcquire clientIp) then
    return tooManyRequests (← getInfo clientIp)
  let json ← u.fromString request.body
  if !(← json.hasMember "login") || !(← json.hasMember "password") then
    return { status := 400, body := "\x7b\"error\": \"Missing login or password\"\x7d" }
  let login ← Json.asString (← json.member "login")
  let password ← Json.asString (← json.member "password")
  let user ← PostgresStorage.getUserByLogin login
  match user with
  | none => return { status := 401, body := "\x7b\"error\": \"Invalid credentials\"\x7d" }
  | some user =>
      if user.passwordHash ≠ u.sha256 password then
        return { status := 401, body := "\x7b\"error\": \"Invalid credentials\"\x7d" }
      let token ← Auth.generateToken u user.id
      let event : UserLoggedInEvent :=
        { userId := user.id, login := user.login, ipAddress := clientIp }
      EventProducer.publishUserLoggedIn event (request.getHeader "X-Request-Id")
      let info ← getInfo clientIp
      return {
        headers :=
          [("X-RateLimit-Limit", toString info.limit),
           ("X-RateLimit-Remaining", toString info.remaining)]
        body := u.toString (.object [("token", .string token)]) }

end MyService.Handlers
