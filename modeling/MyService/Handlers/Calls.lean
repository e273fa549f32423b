import MyService.System

/-!
# The calls of a request

What each handler does, call by call: after which of its own calls it makes the next one and
with what data, what it has done when it publishes its event, and which calls are behind an
answer. `conducts_serve` unfolds the handlers once; what a request may call, send, store or
answer is read off these relations by cases.
-/

namespace MyService.Handlers.Calls

open Framework Userver Userver.Postgres Models Chrono Storage PostgresStorage MongoStorage
  Event EventProducer Auth

/-! ## Statements and documents -/

abbrev selectUser (login : String) : Statement :=
  .selectUserByLogin ["id", "login", "password_hash", "first_name", "last_name", "email",
    "created_at", "is_deleted"] login

abbrev insertUser (login passwordHash firstName lastName email : String) (now : Int) :
    Statement :=
  .insertUser login passwordHash firstName lastName email now
    ["id", "login", "password_hash", "first_name", "last_name", "email", "created_at"]

abbrev insertProject (name description key : String) (ownerId now : Int) : Statement :=
  .insertProject name description key ownerId now
    ["id", "name", "description", "key", "owner_id", "created_at"]

abbrev selectProject (id : Int) : Statement :=
  .selectProjectById ["id", "name", "description", "key", "owner_id", "created_at"] id

abbrev selectProjects : Statement :=
  .selectProjectsByCreation ["id", "name", "description", "key", "owner_id", "created_at"] 100

abbrev insertTask (title description status : String) (projectId creatorId priority now : Int) :
    Statement :=
  .insertTask title description status projectId creatorId none priority now now
    ["id", "title", "description", "status", "project_id", "creator_id", "assignee_id",
     "priority", "created_at", "updated_at"]

/-- The comment that `AddComment` makes of its request. -/
abbrev newComment (draws : ℕ → Fin 16) (taskId userId : Int) (author text : String)
    (now : Int) : Comment :=
  { id := generateCommentId draws, taskId := taskId, author := author, authorId := userId
    text := text, createdAt := now, updatedAt := none, replies := [] }

abbrev taskFilter (taskId : Int) : Filter := { field := "task_id", value := .int32 taskId }

/-! ## What comes of a request -/

/-- What a request has to report. -/
inductive Outcome where
  | registered (user : User)
  | loggedIn (user : User) (address : String) (issuedAt reading : Int)
  | projectCreated (project : Project)
  | taskCreated (task : Task)
  | commentAdded (event : CommentAddedEvent)

/-- The event that reports it. -/
def Outcome.event : Outcome → AnyEvent
  | .registered user =>
      .userRegistered ⟨user.id, user.login, user.email, user.firstName, user.lastName⟩
  | .loggedIn user address _ _ => .userLoggedIn ⟨user.id, user.login, address⟩
  | .projectCreated project =>
      .projectCreated ⟨project.id, project.name, project.key, project.ownerId⟩
  | .taskCreated task =>
      .taskCreated ⟨task.id, task.projectId, task.title, task.description, task.priority,
        task.creatorId, taskStatusToString task.status⟩
  | .commentAdded event => .commentAdded event

/-- The login found its user, whose password the client knows. -/
def Matches (u : Userver) (http : HttpRequest) (login : String) (rows : List Row)
    (user : User) : Prop :=
  ∃ password, Supplies u http login password ∧ asSingleRow decodeUser rows = .ok user ∧
    user.passwordHash = u.sha256 password

/-- The calls of a login up to the second clock reading of `GenerateToken`. -/
def callsToToken (http : HttpRequest) (login : String) (rows : List Row)
    (issuedAt reading : Int) : Prog.History Call Call.Answer :=
  [⟨.tryAcquire http.remoteAddress, true⟩, ⟨.execute (selectUser login), .ok rows⟩,
   ⟨.systemNow, issuedAt⟩, ⟨.systemNow, reading⟩]

/-- What a request has done when it publishes. -/
inductive Completes (u : Userver) :
    Request → Prog.History Call Call.Answer → Outcome → Prop
  | register {http : HttpRequest} {login password : String} (firstName lastName email : String)
      (now : Int) {rows : List Row} {user : User} (hsupplies : Supplies u http login password)
      (hdecode : asSingleRow decodeUser rows = .ok user) :
      Completes u (.register http)
        [⟨.execute (selectUser login), .ok []⟩, ⟨.systemNow, now⟩,
         ⟨.execute (insertUser login (u.sha256 password) firstName lastName email now),
          .ok rows⟩]
        (.registered user)
  | login {http : HttpRequest} {login : String} {rows : List Row} {user : User}
      (issuedAt reading : Int) (hmatches : Matches u http login rows user) :
      Completes u (.login http) (callsToToken http login rows issuedAt reading)
        (.loggedIn user http.remoteAddress issuedAt reading)
  | createProject {http : HttpRequest} {userId : Int} (name description key : String)
      (now : Int) {rows : List Row} {project : Project}
      (hdecode : asSingleRow decodeProject rows = .ok project) :
      Completes u (.createProject http userId)
        [⟨.systemNow, now⟩, ⟨.execute (insertProject name description key userId now), .ok rows⟩,
         ⟨.cacheInvalidate projectsKey, ()⟩]
        (.projectCreated project)
  | createTask {http : HttpRequest} {userId projectId : Int} (found : List Row)
      (title description status : String) (priority createdAt now : Int) {row : Row}
      (rest : List Row) {task : Task}
      (hproject : stoi (http.getPathArg "projectId") = .ok projectId)
      (hdecode : decodeTask row = .ok task) :
      Completes u (.createTask http userId)
        [⟨.execute (selectProject projectId), .ok found⟩, ⟨.systemNow, createdAt⟩,
         ⟨.systemNow, now⟩,
         ⟨.execute (insertTask title description (taskStatusToString (taskStatusFromString status))
            projectId userId priority now), .ok (row :: rest)⟩]
        (.taskCreated task)
  | addComment {http : HttpRequest} {userId taskId : Int} {author text : String}
      (draws : ℕ → Fin 16) (now : Int) (htask : stoi (http.getPathArg "taskId") = .ok taskId)
      (hbody : BodyHas u http author text) :
      Completes u (.addComment http userId)
        [⟨.randomDraws, draws⟩, ⟨.systemNow, now⟩,
         ⟨.insertOne (commentToBson (newComment draws taskId userId author text now)), .ok ()⟩]
        (.commentAdded ⟨generateCommentId draws, taskId, author, text⟩)
  | addReply {http : HttpRequest} {oid : Oid} {author text : String} (createdAt now : Int)
      (found : Except Exn (Option Document)) (n : ℕ)
      (hoid : Oid.ofString (http.getPathArg "commentId") = .ok oid)
      (hbody : BodyHas u http author text) :
      Completes u (.addReply http)
        [⟨.systemNow, createdAt⟩, ⟨.findOne (idFilter oid), found⟩, ⟨.systemNow, now⟩,
         ⟨.updateOne (idFilter oid) (replyUpdate ⟨author, text, createdAt⟩ now), .ok n⟩]
        (.commentAdded ⟨http.getPathArg "commentId", taskIdOf found, author, text⟩)

/-- The request has published its event, whether the broker took it or not. -/
inductive Sent (u : Userver) (request : Request) (outcome : Outcome) :
    Prog.History Call Call.Answer → Prop
  | intro {h q : Prog.History Call Call.Answer} {message : Json} (answer : Except Exn Unit)
      (hcompletes : Completes u request h outcome) (hquiet : Quiet q) (hlength : q.length ≤ 3)
      (hmessage : IsMessage outcome.event.eventType outcome.event.toPayload message) :
      Sent u request outcome
        (h ++ q ++ [⟨.send outcome.event.topic outcome.event.key message, answer⟩])

/-! ## The next call -/

inductive Makes (u : Userver) : Request → Prog.History Call Call.Answer → Call → Prop
  | registerLookup {http : HttpRequest} (login : String) :
      Makes u (.register http) [] (.execute (selectUser login))
  | registerNow {http : HttpRequest} (login : String) :
      Makes u (.register http) [⟨.execute (selectUser login), .ok []⟩] .systemNow
  | registerInsert {http : HttpRequest} {login password : String}
      (firstName lastName email : String) (now : Int)
      (hsupplies : Supplies u http login password) :
      Makes u (.register http) [⟨.execute (selectUser login), .ok []⟩, ⟨.systemNow, now⟩]
        (.execute (insertUser login (u.sha256 password) firstName lastName email now))
  | loginAcquire {http : HttpRequest} : Makes u (.login http) [] (.tryAcquire http.remoteAddress)
  | loginRefused {http : HttpRequest} :
      Makes u (.login http) [⟨.tryAcquire http.remoteAddress, false⟩]
        (.getInfo http.remoteAddress)
  | loginLookup {http : HttpRequest} {login password : String}
      (hsupplies : Supplies u http login password) :
      Makes u (.login http) [⟨.tryAcquire http.remoteAddress, true⟩]
        (.execute (selectUser login))
  | loginIssue {http : HttpRequest} {login : String} {rows : List Row} {user : User}
      (hmatches : Matches u http login rows user) :
      Makes u (.login http) [⟨.tryAcquire http.remoteAddress, true⟩,
        ⟨.execute (selectUser login), .ok rows⟩] .systemNow
  | loginExpire {http : HttpRequest} {login : String} {rows : List Row} {user : User}
      (issuedAt : Int) (hmatches : Matches u http login rows user) :
      Makes u (.login http) [⟨.tryAcquire http.remoteAddress, true⟩,
        ⟨.execute (selectUser login), .ok rows⟩, ⟨.systemNow, issuedAt⟩] .systemNow
  | loginInfo {http : HttpRequest} {outcome : Outcome} {h : Prog.History Call Call.Answer}
      (hsent : Sent u (.login http) outcome h) :
      Makes u (.login http) h (.getInfo http.remoteAddress)
  | searchLogin {http : HttpRequest} (mask : String) :
      Makes u (.userSearch http) [] (.execute (.selectUsersByLogin ["id", "login",
        "password_hash", "first_name", "last_name", "email", "created_at", "is_deleted"] mask 100))
  | searchName {http : HttpRequest} (firstMask lastMask : String) :
      Makes u (.userSearch http) [] (.execute (.selectUsersByName ["id", "login",
        "password_hash", "first_name", "last_name", "email", "created_at", "is_deleted"] firstMask
        lastMask 100))
  | projectNow {http : HttpRequest} {userId : Int} :
      Makes u (.createProject http userId) [] .systemNow
  | projectInsert {http : HttpRequest} {userId : Int} (name description key : String)
      (now : Int) :
      Makes u (.createProject http userId) [⟨.systemNow, now⟩]
        (.execute (insertProject name description key userId now))
  | projectDrop {http : HttpRequest} {userId : Int} (name description key : String) (now : Int)
      (rows : List Row) :
      Makes u (.createProject http userId)
        [⟨.systemNow, now⟩, ⟨.execute (insertProject name description key userId now), .ok rows⟩]
        (.cacheInvalidate projectsKey)
  | projectsGet {http : HttpRequest} : Makes u (.getProjects http) [] (.cacheGet projectsKey)
  | projectsSelect {http : HttpRequest} :
      Makes u (.getProjects http) [⟨.cacheGet projectsKey, none⟩] (.execute selectProjects)
  | projectsSet {http : HttpRequest} {rows : List Row} {projects : List Project} {result : Json}
      (hdecode : asContainer decodeProject rows = .ok projects)
      (hrender : renderProjects projects = .ok result) :
      Makes u (.getProjects http) [⟨.cacheGet projectsKey, none⟩,
        ⟨.execute selectProjects, .ok rows⟩] (.cacheSet projectsKey (u.toString result) 300)
  | taskLookup {http : HttpRequest} {userId projectId : Int}
      (hproject : stoi (http.getPathArg "projectId") = .ok projectId) :
      Makes u (.createTask http userId) [] (.execute (selectProject projectId))
  | taskNow {http : HttpRequest} {userId : Int} (projectId : Int) (found : List Row) :
      Makes u (.createTask http userId) [⟨.execute (selectProject projectId), .ok found⟩]
        .systemNow
  | taskStamp {http : HttpRequest} {userId : Int} (projectId : Int) (found : List Row)
      (createdAt : Int) :
      Makes u (.createTask http userId) [⟨.execute (selectProject projectId), .ok found⟩,
        ⟨.systemNow, createdAt⟩] .systemNow
  | taskInsert {http : HttpRequest} {userId projectId : Int} (found : List Row)
      (title description status : String) (priority createdAt now : Int)
      (hproject : stoi (http.getPathArg "projectId") = .ok projectId) :
      Makes u (.createTask http userId)
        [⟨.execute (selectProject projectId), .ok found⟩, ⟨.systemNow, createdAt⟩,
         ⟨.systemNow, now⟩]
        (.execute (insertTask title description (taskStatusToString (taskStatusFromString status))
          projectId userId priority now))
  | commentDraws {http : HttpRequest} {userId : Int} :
      Makes u (.addComment http userId) [] .randomDraws
  | commentNow {http : HttpRequest} {userId : Int} (draws : ℕ → Fin 16) :
      Makes u (.addComment http userId) [⟨.randomDraws, draws⟩] .systemNow
  | commentInsert {http : HttpRequest} {userId taskId : Int} {author text : String}
      (draws : ℕ → Fin 16) (now : Int) (htask : stoi (http.getPathArg "taskId") = .ok taskId)
      (hbody : BodyHas u http author text) :
      Makes u (.addComment http userId) [⟨.randomDraws, draws⟩, ⟨.systemNow, now⟩]
        (.insertOne (commentToBson (newComment draws taskId userId author text now)))
  | commentDrop {http : HttpRequest} {userId : Int} {event : CommentAddedEvent}
      {h : Prog.History Call Call.Answer}
      (hsent : Sent u (.addComment http userId) (.commentAdded event) h) :
      Makes u (.addComment http userId) h (.cacheInvalidate (commentsKey event.taskId))
  | commentsGet {http : HttpRequest} {taskId : Int}
      (htask : stoi (http.getPathArg "taskId") = .ok taskId) :
      Makes u (.getComments http) [] (.cacheGet (commentsKey taskId))
  | commentsFind {http : HttpRequest} {taskId : Int}
      (htask : stoi (http.getPathArg "taskId") = .ok taskId) :
      Makes u (.getComments http) [⟨.cacheGet (commentsKey taskId), none⟩]
        (.find (taskFilter taskId))
  | commentsSet {http : HttpRequest} {taskId : Int} {docs : List Document}
      {comments : List Comment} {result : Json}
      (htask : stoi (http.getPathArg "taskId") = .ok taskId)
      (hdecode : docs.mapM commentFromBson = .ok comments)
      (hrender : renderComments comments = .ok result) :
      Makes u (.getComments http) [⟨.cacheGet (commentsKey taskId), none⟩,
        ⟨.find (taskFilter taskId), .ok docs⟩]
        (.cacheSet (commentsKey taskId) (u.toString result) 60)
  | replyNow {http : HttpRequest} : Makes u (.addReply http) [] .systemNow
  | replyLookup {http : HttpRequest} {oid : Oid} (createdAt : Int)
      (hoid : Oid.ofString (http.getPathArg "commentId") = .ok oid) :
      Makes u (.addReply http) [⟨.systemNow, createdAt⟩] (.findOne (idFilter oid))
  | replyStamp {http : HttpRequest} (oid : Oid) (createdAt : Int)
      (found : Except Exn (Option Document)) :
      Makes u (.addReply http) [⟨.systemNow, createdAt⟩, ⟨.findOne (idFilter oid), found⟩]
        .systemNow
  | replyUpdate {http : HttpRequest} {oid : Oid} {author text : String} (createdAt now : Int)
      (found : Except Exn (Option Document))
      (hoid : Oid.ofString (http.getPathArg "commentId") = .ok oid)
      (hbody : BodyHas u http author text) :
      Makes u (.addReply http)
        [⟨.systemNow, createdAt⟩, ⟨.findOne (idFilter oid), found⟩, ⟨.systemNow, now⟩]
        (.updateOne (idFilter oid) (replyUpdate ⟨author, text, createdAt⟩ now))
  | replyDrop {http : HttpRequest} {event : CommentAddedEvent} {h : Prog.History Call Call.Answer}
      (hsent : Sent u (.addReply http) (.commentAdded event) h) (htask : 0 < event.taskId) :
      Makes u (.addReply http) h (.cacheInvalidate (commentsKey event.taskId))
  | replyDropAll {http : HttpRequest} {event : CommentAddedEvent}
      {h : Prog.History Call Call.Answer}
      (hsent : Sent u (.addReply http) (.commentAdded event) h) (htask : event.taskId ≤ 0) :
      Makes u (.addReply http) h (.cacheInvalidateByPrefix "comments:task:")
  | eventDraws {request : Request} {outcome : Outcome} {h q : Prog.History Call Call.Answer}
      (hcompletes : Completes u request h outcome) (hquiet : Quiet q) (hlength : q.length ≤ 2) :
      Makes u request (h ++ q) .randomDraws
  | eventNow {request : Request} {outcome : Outcome} {h q : Prog.History Call Call.Answer}
      (hcompletes : Completes u request h outcome) (hquiet : Quiet q) (hlength : q.length ≤ 2) :
      Makes u request (h ++ q) .systemNow
  | eventSend {request : Request} {outcome : Outcome} {h q : Prog.History Call Call.Answer}
      {message : Json} (hcompletes : Completes u request h outcome) (hquiet : Quiet q)
      (hlength : q.length ≤ 3)
      (hmessage : IsMessage outcome.event.eventType outcome.event.toPayload message) :
      Makes u request (h ++ q) (.send outcome.event.topic outcome.event.key message)

/-! ## The answer -/

inductive Returns (u : Userver) : Request → Prog.History Call Call.Answer → HttpResponse → Prop
  | registerMissing {http : HttpRequest} :
      Returns u (.register http) []
        { status := 400, body := "\x7b\"error\": \"Missing required fields\"\x7d" }
  | registerTaken {http : HttpRequest} (login : String) (row : Row) (rest : List Row) :
      Returns u (.register http) [⟨.execute (selectUser login), .ok (row :: rest)⟩]
        { status := 409, body := "\x7b\"error\": \"User already exists\"\x7d" }
  | registered {http : HttpRequest} {user : User} {h : Prog.History Call Call.Answer}
      (hsent : Sent u (.register http) (.registered user) h) :
      Returns u (.register http) h
        { status := 201
          body := u.toString (.object
            [("id", .int user.id), ("login", .string user.login),
             ("first_name", .string user.firstName), ("last_name", .string user.lastName),
             ("email", .string user.email)]) }
  | loginRefused {http : HttpRequest} (info : RateLimit.RateLimitInfo) :
      Returns u (.login http) [⟨.tryAcquire http.remoteAddress, false⟩,
        ⟨.getInfo http.remoteAddress, info⟩] (tooManyRequests info)
  | loginMissing {http : HttpRequest}
      (hunread : ∀ login password, ¬Supplies u http login password) :
      Returns u (.login http) [⟨.tryAcquire http.remoteAddress, true⟩]
        { status := 400, body := "\x7b\"error\": \"Missing login or password\"\x7d" }
  | loginUnknown {http : HttpRequest} {login password : String}
      (hsupplies : Supplies u http login password) :
      Returns u (.login http) [⟨.tryAcquire http.remoteAddress, true⟩,
        ⟨.execute (selectUser login), .ok []⟩]
        { status := 401, body := "\x7b\"error\": \"Invalid credentials\"\x7d" }
  | loginWrong {http : HttpRequest} {login password : String} {rows : List Row} {user : User}
      (hsupplies : Supplies u http login password)
      (hdecode : asSingleRow decodeUser rows = .ok user)
      (hwrong : user.passwordHash ≠ u.sha256 password) :
      Returns u (.login http) [⟨.tryAcquire http.remoteAddress, true⟩,
        ⟨.execute (selectUser login), .ok rows⟩]
        { status := 401, body := "\x7b\"error\": \"Invalid credentials\"\x7d" }
  | loggedIn {http : HttpRequest} {user : User} {address : String} {issuedAt reading : Int}
      {h : Prog.History Call Call.Answer} (info : RateLimit.RateLimitInfo)
      (hsent : Sent u (.login http) (.loggedIn user address issuedAt reading) h) :
      Returns u (.login http) (h ++ [⟨.getInfo http.remoteAddress, info⟩])
        { headers :=
            [("X-RateLimit-Limit", toString info.limit),
             ("X-RateLimit-Remaining", toString info.remaining)]
          body := u.toString (.object [("token", .string (u.signHs256 "project-manager"
            (toString user.id) (toTimeT issuedAt)
            (toTimeT (reading + 24 * 3600 * ticksPerSecond)) jwtSecret))]) }
  | searchMissing {http : HttpRequest} :
      Returns u (.userSearch http) []
        { status := 400, body := "\x7b\"error\": \"No search parameters provided\"\x7d" }
  | searched {http : HttpRequest} (statement : Statement) (rows : List Row) (body : String) :
      Returns u (.userSearch http) [⟨.execute statement, .ok rows⟩] { body := body }
  | projectMissing {http : HttpRequest} {userId : Int} :
      Returns u (.createProject http userId) []
        { status := 400, body := "\x7b\"error\": \"Missing name\"\x7d" }
  | projectCreated {http : HttpRequest} {userId : Int} {project : Project}
      {h : Prog.History Call Call.Answer}
      (hsent : Sent u (.createProject http userId) (.projectCreated project) h) :
      Returns u (.createProject http userId) h
        { status := 201
          body := u.toString (.object
            [("id", .int project.id), ("name", .string project.name),
             ("description", .string project.description), ("key", .string project.key),
             ("owner_id", .int project.ownerId)]) }
  | projectsHit {http : HttpRequest} (cached : String) :
      Returns u (.getProjects http) [⟨.cacheGet projectsKey, some cached⟩] { body := cached }
  | projectsRead {http : HttpRequest} {rows : List Row} {projects : List Project} {result : Json}
      (hdecode : asContainer decodeProject rows = .ok projects)
      (hrender : renderProjects projects = .ok result) :
      Returns u (.getProjects http) [⟨.cacheGet projectsKey, none⟩,
        ⟨.execute selectProjects, .ok rows⟩, ⟨.cacheSet projectsKey (u.toString result) 300, ()⟩]
        { body := u.toString result }
  | taskNoProject {http : HttpRequest} {userId : Int} (projectId : Int) :
      Returns u (.createTask http userId) [⟨.execute (selectProject projectId), .ok []⟩]
        { status := 404, body := "\x7b\"error\": \"Project not found\"\x7d" }
  | taskMissing {http : HttpRequest} {userId : Int} (projectId : Int) (found : List Row) :
      Returns u (.createTask http userId) [⟨.execute (selectProject projectId), .ok found⟩]
        { status := 400, body := "\x7b\"error\": \"Missing title\"\x7d" }
  | taskCreated {http : HttpRequest} {userId : Int} {task : Task}
      {h : Prog.History Call Call.Answer}
      (hsent : Sent u (.createTask http userId) (.taskCreated task) h) :
      Returns u (.createTask http userId) h
        { status := 201
          body := u.toString (.object
            [("id", .int task.id), ("title", .string task.title),
             ("description", .string task.description),
             ("status", .string (taskStatusToString task.status)),
             ("project_id", .int task.projectId), ("creator_id", .int task.creatorId),
             ("priority", .int task.priority)]) }
  | commentAdded {http : HttpRequest} {userId : Int} {event : CommentAddedEvent}
      {h : Prog.History Call Call.Answer}
      (hsent : Sent u (.addComment http userId) (.commentAdded event) h) :
      Returns u (.addComment http userId) (h ++ [⟨.cacheInvalidate (commentsKey event.taskId), ()⟩])
        { status := 201, body := statusOk }
  | commentsHit {http : HttpRequest} {taskId : Int} (cached : String)
      (htask : stoi (http.getPathArg "taskId") = .ok taskId) :
      Returns u (.getComments http) [⟨.cacheGet (commentsKey taskId), some cached⟩]
        { body := cached }
  | commentsRead {http : HttpRequest} {taskId : Int} {docs : List Document}
      {comments : List Comment} {result : Json}
      (htask : stoi (http.getPathArg "taskId") = .ok taskId)
      (hdecode : docs.mapM commentFromBson = .ok comments)
      (hrender : renderComments comments = .ok result) :
      Returns u (.getComments http) [⟨.cacheGet (commentsKey taskId), none⟩,
        ⟨.find (taskFilter taskId), .ok docs⟩,
        ⟨.cacheSet (commentsKey taskId) (u.toString result) 60, ()⟩]
        { body := u.toString result }
  | replyAdded {http : HttpRequest} {event : CommentAddedEvent}
      {h : Prog.History Call Call.Answer}
      (hsent : Sent u (.addReply http) (.commentAdded event) h) (htask : 0 < event.taskId) :
      Returns u (.addReply http) (h ++ [⟨.cacheInvalidate (commentsKey event.taskId), ()⟩])
        { status := 201, body := statusOk }
  | replyStray {http : HttpRequest} {event : CommentAddedEvent}
      {h : Prog.History Call Call.Answer}
      (hsent : Sent u (.addReply http) (.commentAdded event) h) (htask : event.taskId ≤ 0) :
      Returns u (.addReply http) (h ++ [⟨.cacheInvalidateByPrefix "comments:task:", ()⟩])
        { status := 201, body := statusOk }

/-! ## Exceptions -/

def Unsent (h : Prog.History Call Call.Answer) : Prop :=
  ∀ o ∈ h, ∀ topic key message, o.1 ≠ .send topic key message

/-- The body of a login gives no credentials, or its lookup fails. -/
inductive LoginThrows (u : Userver) (http : HttpRequest) : Prog.History Call Call.Answer → Prop
  | unread (hunread : ∀ login password, ¬Supplies u http login password) :
      LoginThrows u http [⟨.tryAcquire http.remoteAddress, true⟩]
  | lookup {login password : String} {answer : Except Exn (List Row)}
      (hsupplies : Supplies u http login password)
      (hfails : (∃ e, answer = .error e) ∨
        ∃ rows e, answer = .ok rows ∧ rows ≠ [] ∧ asSingleRow decodeUser rows = .error e) :
      LoginThrows u http [⟨.tryAcquire http.remoteAddress, true⟩,
        ⟨.execute (selectUser login), answer⟩]

/-- Nothing is thrown once the event is out. -/
def Throws (u : Userver) : Request → Prog.History Call Call.Answer → Prop
  | .login http, h => LoginThrows u http h
  | _, h => Unsent h

section Throws

variable {u : Userver} {request : Request}

theorem throws_iff (hlogin : ∀ http, request ≠ .login http) {h : Prog.History Call Call.Answer} :
    Throws u request h ↔ Unsent h := by
  cases request with
  | login http => exact absurd rfl (hlogin http)
  | _ => exact Iff.rfl

@[simp] theorem throws_nil (hlogin : ∀ http, request ≠ .login http) : Throws u request [] :=
  (throws_iff hlogin).mpr (by simp [Unsent])

@[simp] theorem throws_cons (hlogin : ∀ http, request ≠ .login http) {o : Σ c, Call.Answer c}
    {h : Prog.History Call Call.Answer} :
    Throws u request (o :: h) ↔
      (∀ topic key message, o.1 ≠ .send topic key message) ∧ Throws u request h := by
  rw [throws_iff hlogin, throws_iff hlogin, Unsent, List.forall_mem_cons]
  rfl

end Throws

/-- The program does what is described of the request. -/
abbrev Conducts (u : Userver) (request : Request) :
    Prog.History Call Call.Answer → Service HttpResponse → Prop :=
  Prog.Obeys (Makes u request) (Returns u request) fun h _ => Throws u request h

section Publish

variable {u : Userver} {request : Request} {outcome : Outcome}
  {h : Prog.History Call Call.Answer}

/-- Nothing is sent before the event. -/
theorem Completes.unsent (hcompletes : Completes u request h outcome) : Unsent h := by
  cases hcompletes <;> simp [Unsent, callsToToken]

/-- What led to the event comes first. -/
theorem Sent.completes (hsent : Sent u request outcome h) :
    ∃ h₀, h₀ <+: h ∧ Completes u request h₀ outcome := by
  cases hsent with
  | @intro h₀ q message answer hcompletes =>
      refine ⟨h₀, ?_, hcompletes⟩
      rw [List.append_assoc]
      exact List.prefix_append _ _

/-- The request has done its part, the event goes out, and the rest goes on. -/
theorem conducts_publish_bind {traceId : String} {f : Unit → Service HttpResponse}
    (hcompletes : Completes u request h outcome)
    (hrest : ∀ h', Sent u request outcome h' → Conducts u request h' (f ())) :
    Conducts u request h (outcome.event.publish traceId >>= f) := by
  rw [AnyEvent.publish_eq]
  refine obeys_publish_counted_bind (fun q hq hlen => ?_) (fun q message hq hlen hmessage => ?_)
    fun q message answer hq hlen hmessage => ?_
  · exact ⟨.eventDraws hcompletes hq hlen, .eventNow hcompletes hq hlen⟩
  · exact .eventSend hcompletes hq hlen hmessage
  · exact hrest _ (.intro answer hcompletes hq hlen hmessage)

end Publish

/-! ## The handlers -/

section Handlers

variable (u : Userver) (http : HttpRequest) (userId : Int)

theorem conducts_register : Conducts u (.register http) [] (registerHandler u http) := by
  simp [Conducts, registerHandler, registerWith, createUser, getUserByLogin, execute, valueOf,
    Prog.bind_assoc, Prog.ite_bind, Returns.registerMissing]
  intro json hjson _ _ _ _ _ l hl login hlogin
  refine ⟨.registerLookup login, ?_⟩
  rintro _ rows rfl
  refine ⟨?_, ?_⟩
  · rintro rfl p hp password hpassword _ _ firstName _ _ _ lastName _ _ _ email _
    refine ⟨.registerNow login, ?_⟩
    intro now
    have hsupplies : Supplies u http login password :=
      ⟨json, l, p, hjson, hl, hlogin, hp, hpassword⟩
    refine ⟨.registerInsert firstName lastName email now hsupplies, ?_⟩
    rintro _ rows rfl _ user hdecode
    exact conducts_publish_bind (.register firstName lastName email now hsupplies hdecode)
      fun h hsent => .registered hsent
  · intro hne _ _
    obtain ⟨row, rest, rfl⟩ := List.exists_cons_of_ne_nil hne
    exact .registerTaken login row rest

/-- A login that gives no credentials ends before its lookup. -/
theorem conducts_unread (hunread : ∀ login password, ¬Supplies u http login password) :
    Conducts u (.login http) [] (loginHandler u http) := by
  have hthrows : Throws u (.login http) [⟨.tryAcquire http.remoteAddress, true⟩] :=
    .unread hunread
  have hmissing : Returns u (.login http) [⟨.tryAcquire http.remoteAddress, true⟩]
      { status := 400, body := "\x7b\"error\": \"Missing login or password\"\x7d" } :=
    .loginMissing hunread
  simp [Conducts, loginHandler, getUserByLogin, execute, generateToken, Prog.bind_assoc,
    Prog.ite_bind, hthrows, hmissing]
  refine ⟨.loginAcquire, ⟨.loginRefused, .loginRefused⟩, ?_⟩
  intro json hjson _ _ l hl login hlogin p hp password hpassword
  exact absurd ⟨json, l, p, hjson, hl, hlogin, hp, hpassword⟩ (hunread login password)

theorem conducts_login : Conducts u (.login http) [] (loginHandler u http) := by
  by_cases hread : ∃ login password, Supplies u http login password
  · obtain ⟨login, password, hsupplies⟩ := hread
    obtain ⟨json, l, p, hjson, hl, hlogin, hp, hpassword⟩ := hsupplies
    have hsupplies : Supplies u http login password :=
      ⟨json, l, p, hjson, hl, hlogin, hp, hpassword⟩
    simp [Conducts, loginHandler, getUserByLogin, execute, generateToken, Prog.bind_assoc,
      Prog.ite_bind, hjson, hl, hlogin, hp, hpassword, Json.hasMember_of_asString hl hlogin,
      Json.hasMember_of_asString hp hpassword]
    refine ⟨.loginAcquire, ⟨.loginRefused, .loginRefused⟩, .loginLookup hsupplies, ?_⟩
    intro answer
    refine ⟨fun e he => .lookup hsupplies (Or.inl ⟨e, he⟩), ?_⟩
    rintro rows rfl
    refine ⟨?_, fun hne => ⟨?_, ?_⟩⟩
    · rintro rfl
      exact .loginUnknown hsupplies
    · intro e hdecode
      exact .lookup hsupplies (Or.inr ⟨rows, e, rfl, hne, hdecode⟩)
    · intro user hdecode
      refine ⟨fun hmatch => ?_, fun hwrong => .loginWrong hsupplies hdecode hwrong⟩
      have hmatches : Matches u http login rows user := ⟨password, hsupplies, hdecode, hmatch⟩
      refine ⟨.loginIssue hmatches, ?_⟩
      intro issuedAt
      refine ⟨.loginExpire issuedAt hmatches, ?_⟩
      intro reading
      exact conducts_publish_bind (.login issuedAt reading hmatches)
        fun h hsent => ⟨.loginInfo hsent, fun info => .loggedIn info hsent⟩
  · exact conducts_unread u http fun login password h => hread ⟨login, password, h⟩

theorem conducts_userSearch : Conducts u (.userSearch http) [] (userSearchHandler u http) := by
  simp [Conducts, userSearchHandler, searchUsersByLogin, searchUsersByFirstNameLastName, execute,
    Prog.bind_assoc]
  refine ⟨fun _ => ⟨fun _ => ⟨.searchName _ _, ?_⟩, fun _ _ => .searchMissing⟩,
    fun _ => ⟨.searchLogin _, ?_⟩⟩
  · rintro _ rows rfl users _ result _
    exact .searched _ rows (u.toString result)
  · rintro _ rows rfl users _ result _
    exact .searched _ rows (u.toString result)

theorem conducts_createProject :
    Conducts u (.createProject http userId) [] (createProjectHandler u http userId) := by
  simp [Conducts, createProjectHandler, createProject, execute, valueOf,
    Prog.bind_assoc, Prog.ite_bind, Returns.projectMissing]
  intro json _ _ _ _ name _ _ _ description _ _ _ key _
  refine ⟨.projectNow, ?_⟩
  intro now
  refine ⟨.projectInsert name description key now, ?_⟩
  rintro _ rows rfl
  have hdrop : Makes u (.createProject http userId) _ (.cacheInvalidate projectsKey) :=
    .projectDrop name description key now rows
  refine ⟨fun _ => hdrop, ?_⟩
  intro _ project hdecode
  refine ⟨hdrop, ?_⟩
  intro _
  exact conducts_publish_bind (.createProject name description key now hdecode)
    fun h hsent => .projectCreated hsent

theorem conducts_getProjects : Conducts u (.getProjects http) [] (getProjectsHandler u http) := by
  simp [Conducts, getProjectsHandler, getAllProjects, execute, Prog.bind_assoc]
  refine ⟨.projectsGet, ?_⟩
  rintro (_ | cached)
  · simp
    refine ⟨.projectsSelect, ?_⟩
    rintro _ rows rfl projects hprojects result hresult
    exact ⟨.projectsSet hprojects hresult, fun _ => .projectsRead hprojects hresult⟩
  · exact .projectsHit cached

theorem conducts_createTask :
    Conducts u (.createTask http userId) [] (createTaskHandler u http userId) := by
  simp [Conducts, createTaskHandler, createTaskIn, createTask, getProjectById, execute, valueOf,
    Prog.bind_assoc, Prog.ite_bind]
  intro projectId hproject
  refine ⟨.taskLookup hproject, ?_⟩
  rintro _ found rfl
  refine ⟨?_, ?_⟩
  · rintro rfl
    exact .taskNoProject projectId
  · intro _ _ _ json _
    refine ⟨fun _ => .taskMissing projectId found, ?_⟩
    intro _ _ _ title _ _ _ description _ _ _ status _ _ _ priority _
    refine ⟨.taskNow projectId found, ?_⟩
    intro createdAt
    refine ⟨.taskStamp projectId found createdAt, ?_⟩
    intro now
    refine ⟨.taskInsert found title description status priority createdAt now hproject, ?_⟩
    rintro _ (_ | ⟨row, rest⟩) rfl
    · simp
    · simp [Prog.bind_assoc]
      intro task hdecode
      exact conducts_publish_bind (.createTask found title description status priority createdAt
        now rest hproject hdecode) fun h hsent => .taskCreated hsent

theorem conducts_addComment :
    Conducts u (.addComment http userId) [] (addCommentHandler u http userId) := by
  simp [Conducts, addCommentHandler, addCommentTo, insertComment]
  intro taskId htask json hjson
  refine ⟨.commentDraws, ?_⟩
  intro draws a ha author hauthor t ht text htext
  refine ⟨.commentNow draws, ?_⟩
  intro now
  have hbody : BodyHas u http author text := ⟨json, a, t, hjson, ha, hauthor, ht, htext⟩
  refine ⟨.commentInsert draws now htask hbody, ?_⟩
  intro _
  refine conducts_publish_bind (.addComment draws now htask hbody) ?_
  intro h hsent
  exact ⟨.commentDrop hsent, fun _ => .commentAdded hsent⟩

theorem conducts_getComments : Conducts u (.getComments http) [] (getCommentsHandler u http) := by
  simp [Conducts, getCommentsHandler, getCommentsOf, getCommentsByTask, Prog.bind_assoc]
  intro taskId htask
  refine ⟨.commentsGet htask, ?_⟩
  rintro (_ | cached)
  · simp
    refine ⟨.commentsFind htask, ?_⟩
    rintro _ docs rfl comments hcomments result hresult
    exact ⟨.commentsSet htask hcomments hresult, fun _ => .commentsRead htask hcomments hresult⟩
  · exact .commentsHit cached htask

theorem conducts_addReply : Conducts u (.addReply http) [] (addReplyHandler u http) := by
  cases hoid : Oid.ofString (http.getPathArg "commentId") with
  | error e =>
      simp [Conducts, addReplyHandler, getTaskIdByCommentId_eq, addReply, hoid]
      intros
      exact .replyNow
  | ok oid =>
      simp [Conducts, addReplyHandler, getTaskIdByCommentId_eq, addReply, Prog.bind_assoc, hoid]
      intro json hjson a ha author hauthor t ht text htext
      refine ⟨.replyNow, ?_⟩
      intro createdAt
      refine ⟨.replyLookup createdAt hoid, ?_⟩
      intro found
      refine ⟨.replyStamp oid createdAt found, ?_⟩
      intro now
      have hbody : BodyHas u http author text := ⟨json, a, t, hjson, ha, hauthor, ht, htext⟩
      refine ⟨.replyUpdate createdAt now found hoid hbody, ?_⟩
      intro n
      refine conducts_publish_bind (.addReply createdAt now found n hoid hbody) ?_
      intro h hsent
      rw [Conducts, Prog.obeys_ite]
      refine ⟨fun hpos => ⟨.replyDrop hsent hpos, fun _ => .replyAdded hsent hpos⟩, fun hneg => ?_⟩
      have hle : taskIdOf found ≤ 0 := by omega
      exact ⟨.replyDropAll hsent hle, fun _ => .replyStray hsent hle⟩

end Handlers

theorem conducts_serve (u : Userver) (request : Request) :
    Conducts u request [] (serve u request) := by
  cases request with
  | register http => exact conducts_register u http
  | login http => exact conducts_login u http
  | userSearch http => exact conducts_userSearch u http
  | createProject http userId => exact conducts_createProject u http userId
  | getProjects http => exact conducts_getProjects u http
  | createTask http userId => exact conducts_createTask u http userId
  | addComment http userId => exact conducts_addComment u http userId
  | getComments http => exact conducts_getComments u http
  | addReply http => exact conducts_addReply u http

/-- In a run every call, answer and exception is one that is described. -/
theorem conducts_run (u : Userver) (w : World) (requests : ℕ → Request)
    (sched : List (ℕ × Choice)) :
    Config.Contracts perform (fun tid => Makes u (requests tid))
      (fun tid => Returns u (requests tid)) (fun tid h _ => Throws u (requests tid) h)
      (runService u w requests sched) :=
  Config.run_obeys perform (fun tid => conducts_serve u (requests tid)) sched

end MyService.Handlers.Calls
