import MyService.Handlers.Http
import MyService.Storage.PostgresStorage

/-!
# User search

`GET /api/users/search`, by login or else by first and last name.
-/

namespace MyService.Handlers

open Framework Userver Models Storage

/-- What a search shows of a user. -/
def userItem (user : User) : Json :=
  .object
    [("id", .int user.id), ("login", .string user.login),
     ("first_name", .string user.firstName), ("last_name", .string user.lastName),
     ("email", .string user.email)]

/-- The loop over the users, on an array builder. -/
def renderUsers (users : List User) : Except Exn Json :=
  users.foldlM (fun result user => Json.pushBack (userItem user) result) (.array [])

def userSearchHandler (u : Userver) (request : HttpRequest) : Service HttpResponse := do
  let loginParam := request.getArg "login"
  let firstNameParam := request.getArg "first_name"
  let lastNameParam := request.getArg "last_name"
  let mut users : List User := []
  if !loginParam.isEmpty then
    users ← PostgresStorage.searchUsersByLogin loginParam
  else if !firstNameParam.isEmpty || !lastNameParam.isEmpty then
    users ← PostgresStorage.searchUsersByFirstNameLastName firstNameParam lastNameParam
  else
    return { status := 400, body := "\x7b\"error\": \"No search parameters provided\"\x7d" }
  let result ← renderUsers users
  return { body := u.toString result }

end MyService.Handlers
