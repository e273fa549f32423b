import MyService.Event.EventProducer
import MyService.Handlers.Http
import MyService.Storage.PostgresStorage

/-!
# Project and task handlers

`POST /api/projects`, `GET /api/projects` and `POST /api/projects/{projectId}/tasks`.
-/

namespace MyService.Handlers

open Framework Userver Models Storage Event

/-- The value of a `std::optional`. -/
def valueOf {α : Type} : Option α → Except Exn α
  | some a => .ok a
  | none => .error .badOptional

/-- The cache key of the project list. -/
def projectsKey : String := "projects:all"

def createProjectHandler (u : Userver) (request : HttpRequest) (userId : Int) :
    Service HttpResponse := do
  let json ← u.fromString request.body
  if !(← json.hasMember "name") then
    return { status := 400, body := "\x7b\"error\": \"Missing name\"\x7d" }
  let name ← Json.asString (← json.member "name")
  let description ← Json.asOr Json.asString "" (← json.member "description")
  let key ← Json.asOr Json.asString "" (← json.member "key")
  let createdAt ← systemNow
  let project : Project :=
    { id := 0, name := name, description := description, key := key, ownerId := userId
      createdAt := createdAt }
  let created ← PostgresStorage.createProject project
  cacheInvalidate projectsKey
  -- the event goes out last, and only for a project that came back
  if let some created := created then
    let event : ProjectCreatedEvent :=
      { projectId := created.id, name := created.name, key := created.key
        ownerId := created.ownerId }
    EventProducer.publishProjectCreated event (request.getHeader "X-Request-Id")
  let created ← valueOf created
  let result := Json.object
    [("id", .int created.id), ("name", .string created.name),
     ("description", .string created.description), ("key", .string created.key),
     ("owner_id", .int created.ownerId)]
  return { status := 201, body := u.toString result }

def projectItem (project : Project) : Json :=
  .object
    [("id", .int project.id), ("name", .string project.name),
     ("description", .string project.description), ("key", .string project.key),
     ("owner_id", .int project.ownerId)]

/-- The loop over the projects, on an array builder. -/
def renderProjects (projects : List Project) : Except Exn Json :=
  projects.foldlM (fun result project => Json.pushBack (projectItem project) result) (.array [])

def getProjectsHandler (u : Userver) (_request : HttpRequest) : Service HttpResponse := do
  match ← cacheGet projectsKey with
  | some cached => return { body := cached }
  | none =>
      let projects ← PostgresStorage.getAllProjects
      let result ← renderProjects projects
      let response := u.toString result
      cacheSet projectsKey response 300
      return { body := response }

/-- `CreateTask` once it has its project id. -/
def createTaskIn (u : Userver) (request : HttpRequest) (userId projectId : Int) :
    Service HttpResponse := do
  let project ← PostgresStorage.getProjectById projectId
  if project.isNone then
    return { status := 404, body := "\x7b\"error\": \"Project not found\"\x7d" }
  let json ← u.fromString request.body
  if !(← json.hasMember "title") then
    return { status := 400, body := "\x7b\"error\": \"Missing title\"\x7d" }
  let title ← Json.asString (← json.member "title")
  let description ← Json.asOr Json.asString "" (← json.member "description")
  let status ← Json.asOr Json.asString "TODO" (← json.member "status")
  let priority ← Json.asOr Json.asInt 3 (← json.member "priority")
  let createdAt ← systemNow
  let task : Task :=
    { id := 0, title := title, description := description
      status := taskStatusFromString status, projectId := projectId, assigneeId := none
      creatorId := userId, priority := priority, createdAt := createdAt, updatedAt := none }
  let created ← PostgresStorage.createTask task
  if let some created := created then
    let event : TaskCreatedEvent :=
      { taskId := created.id, projectId := created.projectId, title := created.title
        description := created.description, priority := created.priority
        creatorId := created.creatorId, status := taskStatusToString created.status }
    EventProducer.publishTaskCreated event (request.getHeader "X-Request-Id")
  let created ← valueOf created
  let result := Json.object
    [("id", .int created.id), ("title", .string created.title),
     ("description", .string created.description),
     ("status", .string (taskStatusToString created.status)),
     ("project_id", .int created.projectId), ("creator_id", .int created.creatorId),
     ("priority", .int created.priority)]
  return { status := 201, body := u.toString result }

def createTaskHandler (u : Userver) (request : HttpRequest) (userId : Int) :
    Service HttpResponse := do
  let projectId ← stoi (request.getPathArg "projectId")
  createTaskIn u request userId projectId

end MyService.Handlers
