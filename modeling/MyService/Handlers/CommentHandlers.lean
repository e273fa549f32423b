import MyService.Event.EventProducer
import MyService.Handlers.Http
import MyService.Storage.MongoStorage

/-!
# Comment handlers

`POST /api/tasks/{taskId}/comments`, `GET /api/tasks/{taskId}/comments` and
`POST /api/comments/{commentId}/replies`.
-/

namespace MyService.Handlers

open Framework Userver Models Chrono Storage Event

/-- The cache key of a task's comments. -/
def commentsKey (taskId : Int) : String := "comments:task:" ++ toString taskId

/-- The body of both 201 answers. -/
def statusOk : String := "\x7b\"status\": \"ok\"\x7d"

/-- The author and the text of the request's body. -/
def BodyHas (u : Userver) (request : HttpRequest) (author text : String) : Prop :=
  ∃ json a t, u.fromString request.body = .ok json ∧
    json.member "author" = .ok a ∧ Json.asString a = .ok author ∧
    json.member "text" = .ok t ∧ Json.asString t = .ok text

/-- `AddComment` once it has its task id. -/
def addCommentTo (u : Userver) (request : HttpRequest) (userId taskId : Int) :
    Service HttpResponse := do
  let json ← u.fromString request.body
  let id := generateCommentId (← randomDraws)
  let author ← Json.asString (← json.member "author")
  let text ← Json.asString (← json.member "text")
  let createdAt ← systemNow
  let comment : Comment :=
    { id := id, taskId := taskId, author := author, authorId := userId, text := text
      createdAt := createdAt, updatedAt := none, replies := [] }
  MongoStorage.insertComment comment
  let event : CommentAddedEvent :=
    { commentId := comment.id, taskId := taskId, author := comment.author
      text := comment.text }
  EventProducer.publishCommentAdded event (request.getHeader "X-Request-Id")
  cacheInvalidate (commentsKey taskId)
  return { status := 201, body := statusOk }

def addCommentHandler (u : Userver) (request : HttpRequest) (userId : Int) :
    Service HttpResponse := do
  let taskId ← stoi (request.getPathArg "taskId")
  addCommentTo u request userId taskId

/-- `result[i]["replies"][j][…] = …` for one reply. -/
def renderReply (i j : ℕ) (r : Reply) (result : Json) : Except Exn Json := do
  let write (key : String) (v : Json) :=
    Json.atIndex i (Json.atMember "replies" (Json.atIndex j (Json.atMember key (Json.assign v))))
  let result ← write "author" (.string r.author) result
  let result ← write "text" (.string r.text) result
  write "created_at" (.int (toTimeT r.createdAt)) result

/-- `result[i][…] = …` for one comment and its replies. -/
def renderComment (i : ℕ) (c : Comment) (result : Json) : Except Exn Json := do
  let write (key : String) (v : Json) := Json.atIndex i (Json.atMember key (Json.assign v))
  let result ← write "id" (.string c.id) result
  let result ← write "author" (.string c.author) result
  let result ← write "text" (.string c.text) result
  let result ← write "created_at" (.int (toTimeT c.createdAt)) result
  c.replies.zipIdx.foldlM (fun result (r, j) => renderReply i j r result) result

/-- The loop over the comments, on a fresh builder. -/
def renderComments (comments : List Comment) : Except Exn Json :=
  comments.zipIdx.foldlM (fun result (c, i) => renderComment i c result) .null

/-- `GetComments` once it has its task id. -/
def getCommentsOf (u : Userver) (taskId : Int) : Service HttpResponse := do
  let cacheKey := commentsKey taskId
  match ← cacheGet cacheKey with
  | some cached => return { body := cached }
  | none =>
      -- other requests may write and invalidate between this read and the set
      let comments ← MongoStorage.getCommentsByTask taskId
      let result ← renderComments comments
      let response := u.toString result
      cacheSet cacheKey response 60
      return { body := response }

def getCommentsHandler (u : Userver) (request : HttpRequest) : Service HttpResponse := do
  let taskId ← stoi (request.getPathArg "taskId")
  getCommentsOf u taskId

def addReplyHandler (u : Userver) (request : HttpRequest) : Service HttpResponse := do
  let commentId := request.getPathArg "commentId"
  let json ← u.fromString request.body
  let author ← Json.asString (← json.member "author")
  let text ← Json.asString (← json.member "text")
  let createdAt ← systemNow
  let reply : Reply := { author := author, text := text, createdAt := createdAt }
  -- `-1` when there is no such comment, and then the update matches nothing
  let taskId ← MongoStorage.getTaskIdByCommentId commentId
  MongoStorage.addReply commentId reply
  let event : CommentAddedEvent :=
    { commentId := commentId, taskId := taskId, author := reply.author, text := reply.text }
  EventProducer.publishCommentAdded event (request.getHeader "X-Request-Id")
  if taskId > 0 then
    cacheInvalidate (commentsKey taskId)
  else
    cacheInvalidateByPrefix "comments:task:"
  return { status := 201, body := statusOk }

end MyService.Handlers
