import MyService.Userver.Json

/-!
# The event types

The five records of `event_types.hpp` and their payloads.
-/

namespace MyService.Event

open Userver

structure UserRegisteredEvent where
  userId : Int
  login : String
  email : String
  firstName : String
  lastName : String

def UserRegisteredEvent.toPayload (e : UserRegisteredEvent) : Json :=
  .object
    [("user_id", .int e.userId), ("login", .string e.login), ("email", .string e.email),
     ("first_name", .string e.firstName), ("last_name", .string e.lastName)]

structure UserLoggedInEvent where
  userId : Int
  login : String
  ipAddress : String

def UserLoggedInEvent.toPayload (e : UserLoggedInEvent) : Json :=
  .object
    [("user_id", .int e.userId), ("login", .string e.login),
     ("ip_address", .string e.ipAddress)]

structure ProjectCreatedEvent where
  projectId : Int
  name : String
  key : String
  ownerId : Int

def ProjectCreatedEvent.toPayload (e : ProjectCreatedEvent) : Json :=
  .object
    [("project_id", .int e.projectId), ("name", .string e.name), ("key", .string e.key),
     ("owner_id", .int e.ownerId)]

structure TaskCreatedEvent where
  taskId : Int
  projectId : Int
  title : String
  description : String
  priority : Int
  creatorId : Int
  status : String := "TODO"

def TaskCreatedEvent.toPayload (e : TaskCreatedEvent) : Json :=
  .object
    [("task_id", .int e.taskId), ("project_id", .int e.projectId),
     ("title", .string e.title), ("description", .string e.description),
     ("priority", .int e.priority), ("creator_id", .int e.creatorId),
     ("status", .string e.status)]

structure CommentAddedEvent where
  commentId : String
  taskId : Int
  author : String
  text : String

def CommentAddedEvent.toPayload (e : CommentAddedEvent) : Json :=
  .object
    [("comment_id", .string e.commentId), ("task_id", .int e.taskId),
     ("author", .string e.author), ("text", .string e.text)]

/-- An event of any of the five types. -/
inductive AnyEvent where
  | userRegistered (e : UserRegisteredEvent)
  | userLoggedIn (e : UserLoggedInEvent)
  | projectCreated (e : ProjectCreatedEvent)
  | taskCreated (e : TaskCreatedEvent)
  | commentAdded (e : CommentAddedEvent)

namespace AnyEvent

def eventType : AnyEvent → String
  | .userRegistered _ => "UserRegistered"
  | .userLoggedIn _ => "UserLoggedIn"
  | .projectCreated _ => "ProjectCreated"
  | .taskCreated _ => "TaskCreated"
  | .commentAdded _ => "CommentAdded"

def toPayload : AnyEvent → Json
  | .userRegistered e => e.toPayload
  | .userLoggedIn e => e.toPayload
  | .projectCreated e => e.toPayload
  | .taskCreated e => e.toPayload
  | .commentAdded e => e.toPayload

end AnyEvent

end MyService.Event
