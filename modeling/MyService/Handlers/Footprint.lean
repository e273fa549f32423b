import MyService.Handlers.Calls

/-!
# The footprint of a request

The calls that each handler can make at all, whatever its calls are answered: which tables
and which collection, which keys of the cache and of the limiter, which topic.
-/

namespace MyService.Handlers.Footprint

open Framework Userver Models Storage Event Calls

/-- The calls of a request. -/
def Reaches : Request → Call → Prop
  | _, .systemNow => True
  | _, .randomDraws => True
  | .register _, .execute (.selectUserByLogin _ _) => True
  | .register _, .execute (.insertUser _ _ _ _ _ _ _) => True
  | .register _, .send topic _ _ => topic = "user-events"
  | .login request, .tryAcquire key => key = request.remoteAddress
  | .login request, .getInfo key => key = request.remoteAddress
  | .login _, .execute (.selectUserByLogin _ _) => True
  | .login _, .send topic _ _ => topic = "user-events"
  | .userSearch _, .execute (.selectUsersByLogin _ _ _) => True
  | .userSearch _, .execute (.selectUsersByName _ _ _ _) => True
  | .createProject _ userId, .execute (.insertProject _ _ _ ownerId _ _) => ownerId = userId
  | .createProject _ _, .cacheInvalidate key => key = projectsKey
  | .createProject _ _, .send topic _ _ => topic = "project-events"
  | .getProjects _, .cacheGet key => key = projectsKey
  | .getProjects _, .execute (.selectProjectsByCreation _ _) => True
  | .getProjects _, .cacheSet key _ _ => key = projectsKey
  | .createTask _ _, .execute (.selectProjectById _ _) => True
  | .createTask _ userId, .execute (.insertTask _ _ _ _ creatorId _ _ _ _ _) => creatorId = userId
  | .createTask _ _, .send topic _ _ => topic = "task-events"
  | .addComment request userId, .insertOne doc => ∃ comment : Comment,
      stoi (request.getPathArg "taskId") = .ok comment.taskId ∧ comment.authorId = userId ∧
        doc = commentToBson comment
  | .addComment _ _, .cacheInvalidate key => ∃ taskId, key = commentsKey taskId
  | .addComment _ _, .send topic _ _ => topic = "comment-events"
  | .getComments _, .cacheGet key => ∃ taskId, key = commentsKey taskId
  | .getComments _, .find _ => True
  | .getComments _, .cacheSet key _ _ => ∃ taskId, key = commentsKey taskId
  | .addReply _, .findOne _ => True
  | .addReply _, .updateOne f update => ∃ oid reply now,
      f = MongoStorage.idFilter oid ∧ update = MongoStorage.replyUpdate reply now
  | .addReply _, .cacheInvalidate key => ∃ taskId, key = commentsKey taskId
  | .addReply _, .cacheInvalidateByPrefix pfx => pfx = "comments:task:"
  | .addReply _, .send topic _ _ => topic = "comment-events"
  | _, _ => False

theorem stays_serve (u : Userver) (request : Request) :
    Prog.Uses (Reaches request) (serve u request) := by
  refine (conducts_serve u request).mono (fun h c hmakes => ?_) (fun _ _ _ => trivial)
    fun _ _ _ => trivial
  cases hmakes with
  | commentInsert draws now htask => exact ⟨_, htask, rfl, rfl⟩
  | replyUpdate => exact ⟨_, _, _, rfl, rfl⟩
  | commentDrop | commentsGet | commentsSet | replyDrop => exact ⟨_, rfl⟩
  | eventSend hcompletes => cases hcompletes <;> exact rfl
  | eventDraws | eventNow => cases request <;> trivial
  | _ => trivial

/-- Every call of a run is one of its request's. -/
theorem reaches_of_mem {u : Userver} {w : World} {requests : ℕ → Request}
    {sched : List (ℕ × Choice)} {e : ServiceEvent}
    (he : e ∈ (runService u w requests sched).trace) : Reaches (requests e.tid) e.call := by
  obtain ⟨i, hi⟩ := List.mem_iff_getElem?.mp he
  exact (Config.run_obeys perform (fun tid => stays_serve u (requests tid)) sched).calls i e hi

end MyService.Handlers.Footprint
