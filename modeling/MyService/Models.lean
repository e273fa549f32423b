import MyService.Chrono
import MyService.Framework.Prog
import MyService.Userver.Mongo

/-!
# models

The records of the four header files, and the BSON form of comments.
Time points are `system_clock` ticks; BSON dates keep milliseconds.
-/

namespace MyService.Models

open Userver Chrono

structure User where
  id : Int
  login : String
  passwordHash : String
  firstName : String
  lastName : String
  email : String
  createdAt : Int
  isDeleted : Bool := false
deriving DecidableEq

structure Project where
  id : Int
  name : String
  description : String
  key : String
  ownerId : Int
  createdAt : Int
deriving DecidableEq

inductive TaskStatus where
  | toDo
  | inProgress
  | review
  | done
deriving DecidableEq

def taskStatusToString : TaskStatus → String
  | .toDo => "TODO"
  | .inProgress => "IN_PROGRESS"
  | .review => "REVIEW"
  | .done => "DONE"

/-- Any other text counts as `TODO`. -/
def taskStatusFromString (str : String) : TaskStatus :=
  if str = "TODO" then .toDo
  else if str = "IN_PROGRESS" then .inProgress
  else if str = "REVIEW" then .review
  else if str = "DONE" then .done
  else .toDo

@[simp] theorem taskStatusFromString_toString (s : TaskStatus) :
    taskStatusFromString (taskStatusToString s) = s := by
  cases s <;> decide

structure Task where
  id : Int
  title : String
  description : String
  status : TaskStatus
  projectId : Int
  assigneeId : Option Int
  creatorId : Int
  priority : Int
  createdAt : Int
  updatedAt : Option Int
deriving DecidableEq

structure Reply where
  author : String
  text : String
  createdAt : Int
deriving DecidableEq

structure Comment where
  id : String
  taskId : Int
  author : String
  authorId : Int
  text : String
  createdAt : Int
  updatedAt : Option Int
  replies : List Reply
deriving DecidableEq

/-! ## BSON -/

/-- A time point as a BSON date. -/
def dateOf (t : Int) : Bson := .dateTime (toMillis t)

/-- `As<std::chrono::system_clock::time_point>`. -/
def asTimePoint (v : Option Bson) : Except Exn Int := do
  pure ((← Bson.asDate v) * 1000000)

def replyFromBson (doc : Bson) : Except Exn Reply := do
  let author ← Bson.asString (← doc.member "author")
  let text ← Bson.asString (← doc.member "text")
  let createdAt ← asTimePoint (← doc.member "created_at")
  pure { author := author, text := text, createdAt := createdAt }

def replyToBson (r : Reply) : Bson :=
  .document
    [("author", .string r.author), ("text", .string r.text),
     ("created_at", dateOf r.createdAt)]

def commentFromBson (doc : Document) : Except Exn Comment := do
  let id ← Bson.asOid (doc.get? "_id")
  let taskId ← Bson.asInt (doc.get? "task_id")
  let author ← Bson.asString (doc.get? "author")
  let authorId ← Bson.asInt (doc.get? "author_id")
  let text ← Bson.asString (doc.get? "text")
  let createdAt ← asTimePoint (doc.get? "created_at")
  let updatedAt ←
    if (doc.get? "updated_at").isSome then some <$> asTimePoint (doc.get? "updated_at")
    else pure none
  let replies ← (← Bson.elements (doc.get? "replies")).mapM replyFromBson
  pure
    { id := id.toString, taskId := taskId, author := author, authorId := authorId,
      text := text, createdAt := createdAt, updatedAt := updatedAt, replies := replies }

/-- The `id` of the comment is not written. -/
def commentToBson (c : Comment) : List (String × Bson) :=
  [("task_id", .int32 c.taskId), ("author", .string c.author),
   ("author_id", .int32 c.authorId), ("text", .string c.text),
   ("created_at", dateOf c.createdAt)] ++
  (match c.updatedAt with
    | some t => [("updated_at", dateOf t)]
    | none => []) ++
  [("replies", .array (c.replies.map replyToBson))]

/-- The document has the fields of `commentToBson` and no `_id`, so the server
assigns one. -/
theorem documentId_commentToBson (assigned : Oid) (c : Comment) :
    Collection.documentId assigned (commentToBson c) = assigned := by
  unfold Collection.documentId commentToBson
  cases c.updatedAt <;> rfl

/-! ## Generated ids -/

/-- The id that 24 draws of `dis(gen)` spell. -/
def drawnOid (draws : ℕ → Fin 16) : Oid :=
  { digits := (List.range 24).map draws, length_eq := by simp }

/-- 24 hex digits, one for each draw. -/
def generateCommentId (draws : ℕ → Fin 16) : String :=
  String.ofList ((List.range 24).map fun i => hexDigit (draws i))

theorem generateCommentId_eq (draws : ℕ → Fin 16) :
    generateCommentId draws = (drawnOid draws).toString := by
  simp [generateCommentId, Oid.toString, drawnOid, Function.comp_def]

end MyService.Models
