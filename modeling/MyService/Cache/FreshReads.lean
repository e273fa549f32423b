import MyService.Storage.CommentIdentity

/-!
# Reads after a confirmed write

The two cached lists and their readers and writers. A writer commits, then drops
the list's key, then answers. A reader that missed reads, then sets the key; the
set of a read made before the commit can come after the drop, and what it caches
lives for its lifetime. `read_after_write` shows that nothing else goes wrong.
-/

namespace MyService.Cache.FreshReads

open Framework Userver Handlers Handlers.Calls Models Storage Event EventProducer Chrono

/-! ## The cached lists -/

inductive Resource where
  | comments (taskId : Int)
  | projects

namespace Resource

def key : Resource → String
  | .comments taskId => commentsKey taskId
  | .projects => projectsKey

def ttlSeconds : Resource → Int
  | .comments _ => 60
  | .projects => 300

/-- The database read after a miss. -/
def query : Resource → Call
  | .comments taskId => .find (taskFilter taskId)
  | .projects => .execute selectProjects

/-- The body that an answer of the query is rendered to. -/
def render (u : Userver) : (r : Resource) → r.query.Answer → Except Exn String
  | .comments _, answer => do
      let docs : List Document ← answer
      let comments ← docs.mapM commentFromBson
      let result ← renderComments comments
      pure (u.toString result)
  | .projects, answer => do
      let rows : List Postgres.Row ← answer
      let projects ← Postgres.asContainer PostgresStorage.decodeProject rows
      let result ← renderProjects projects
      pure (u.toString result)

theorem commentsKey_ne (taskId : Int) : commentsKey taskId ≠ projectsKey := by
  intro h
  have hhead := congrArg (fun s => s.toList.head?) h
  simp [commentsKey, projectsKey] at hhead

theorem key_injective {r r' : Resource} (h : r.key = r'.key) : r = r' := by
  cases r with
  | comments n =>
      cases r' with
      | comments n' =>
          have hrepr : toString n = toString n' := (String.append_right_inj _).mp h
          rw [toString_injective hrepr]
      | projects => exact absurd h (commentsKey_ne n)
  | projects =>
      cases r' with
      | comments n' => exact absurd h.symm (commentsKey_ne n')
      | projects => rfl

end Resource

/-! ## What readers and writers do -/

/-- The list a request reads. -/
def Reads : Request → Resource → Prop
  | .getComments request, r => ∃ taskId, stoi (request.getPathArg "taskId") = .ok taskId ∧
      r = .comments taskId
  | .getProjects _, r => r = .projects
  | _, _ => False

/-- What an `AddReply` has done when it drops a key: its lookup, then its push. -/
def Pushed (found : Except Exn (Option Document)) (h : Prog.History Call Call.Answer) : Prop :=
  ∃ oid now now' update n q, h =
    [⟨.systemNow, now⟩, ⟨.findOne (MongoStorage.idFilter oid), found⟩, ⟨.systemNow, now'⟩,
      ⟨.updateOne (MongoStorage.idFilter oid) update, .ok n⟩] ++ q

/-- How a request uses the cache. A body is cached as rendered from the request's own
query, and a key is dropped after the commit. -/
def UsesCache (u : Userver) : Request → Prog.History Call Call.Answer → Call → Prop
  | request, h, .cacheSet key value ttl => ∃ r answer, Reads request r ∧
      key = Resource.key r ∧ ttl = Resource.ttlSeconds r ∧ ⟨Resource.query r, answer⟩ ∈ h ∧
      Resource.render u r answer = .ok value
  | .addComment request _, h, .cacheInvalidate key => ∃ taskId doc,
      stoi (request.getPathArg "taskId") = .ok taskId ∧ key = commentsKey taskId ∧
      ⟨.insertOne doc, .ok ()⟩ ∈ h
  | .createProject _ _, h, .cacheInvalidate key =>
      ∃ name description projectKey ownerId createdAt returning rows, key = projectsKey ∧
      ⟨.execute (.insertProject name description projectKey ownerId createdAt returning),
        .ok rows⟩ ∈ h
  | .addReply _, h, .updateOne f _ => ∃ oid now found now', f = MongoStorage.idFilter oid ∧
      h = [⟨.systemNow, now⟩, ⟨.findOne (MongoStorage.idFilter oid), found⟩,
        ⟨.systemNow, now'⟩]
  | .addReply _, h, .cacheInvalidate key => ∃ found, Pushed found h ∧
      0 < MongoStorage.taskIdOf found ∧ key = commentsKey (MongoStorage.taskIdOf found)
  | .addReply _, h, .cacheInvalidateByPrefix pfx => ∃ found, Pushed found h ∧
      MongoStorage.taskIdOf found ≤ 0 ∧ pfx = "comments:task:"
  | .addComment _ _, _, .cacheInvalidateByPrefix _ => False
  | .createProject _ _, _, .cacheInvalidateByPrefix _ => False
  | _, _, _ => True

def Drops (c : Call) : Prop :=
  (∃ key, c = .cacheInvalidate key) ∨ ∃ pfx, c = .cacheInvalidateByPrefix pfx

/-- The requests that write to a list. -/
def IsWriter : Request → Prop
  | .addComment _ _ | .addReply _ | .createProject _ _ => True
  | _ => False

/-- A reader answers what it found cached, or rendered from its own query; a writer has
dropped a key when it confirms. -/
def AnswersFor (u : Userver) (request : Request) (h : Prog.History Call Call.Answer)
    (response : HttpResponse) : Prop :=
  (∀ r, Reads request r → ⟨.cacheGet r.key, some response.body⟩ ∈ h ∨
    ∃ answer, ⟨r.query, answer⟩ ∈ h ∧ r.render u answer = .ok response.body) ∧
  (IsWriter request → response.status = 201 → ∃ o ∈ h, Drops o.1)

abbrev Behaves (u : Userver) (request : Request) : Service HttpResponse → Prop :=
  Prog.Obeys (UsesCache u request) (AnswersFor u request) (fun _ _ => True) []

section Contract

variable {u : Userver} {request : Request} {h : Prog.History Call Call.Answer}

theorem render_comments {taskId : Int} {docs : List Document} {comments : List Comment}
    {result : Json} (hdecode : docs.mapM commentFromBson = .ok comments)
    (hrender : renderComments comments = .ok result) :
    Resource.render u (.comments taskId) (.ok docs) = .ok (u.toString result) :=
  except_bind_ok.mpr ⟨docs, rfl, except_bind_ok.mpr ⟨comments, hdecode,
    except_bind_ok.mpr ⟨result, hrender, rfl⟩⟩⟩

theorem render_projects {rows : List Postgres.Row} {projects : List Project} {result : Json}
    (hdecode : Postgres.asContainer PostgresStorage.decodeProject rows = .ok projects)
    (hrender : renderProjects projects = .ok result) :
    Resource.render u .projects (.ok rows) = .ok (u.toString result) :=
  except_bind_ok.mpr ⟨rows, rfl, except_bind_ok.mpr ⟨projects, hdecode,
    except_bind_ok.mpr ⟨result, hrender, rfl⟩⟩⟩

/-- A reply that has been sent was pushed, to a comment of the task that it was sent for. -/
theorem pushed_of_sent {request : HttpRequest} {event : CommentAddedEvent}
    (hsent : Sent u (.addReply request) (.commentAdded event) h) :
    ∃ found, Pushed found h ∧ event.taskId = MongoStorage.taskIdOf found := by
  obtain ⟨h₀, ⟨q, rfl⟩, hcompletes⟩ := hsent.completes
  cases hcompletes with
  | @addReply _ oid author text now now' found n hoid hbody =>
      exact ⟨found, ⟨oid, now, now', _, n, q, rfl⟩, rfl⟩

theorem usesCache_of_makes {c : Call} (hmakes : Makes u request h c) :
    UsesCache u request h c := by
  cases hmakes with
  | @projectDrop _ userId name description key now rows =>
      exact ⟨name, description, key, userId, now, _, rows, rfl,
        List.mem_cons_of_mem _ List.mem_cons_self⟩
  | projectsSet hdecode hrender =>
      exact ⟨.projects, _, rfl, rfl, rfl, List.mem_cons_of_mem _ List.mem_cons_self,
        render_projects hdecode hrender⟩
  | @commentsSet _ taskId docs comments result htask hdecode hrender =>
      exact ⟨.comments taskId, _, ⟨taskId, htask, rfl⟩, rfl, rfl,
        List.mem_cons_of_mem _ List.mem_cons_self, render_comments hdecode hrender⟩
  | commentDrop hsent =>
      obtain ⟨h₀, hbefore, hcompletes⟩ := hsent.completes
      cases hcompletes with
      | addComment draws now htask hbody =>
          exact ⟨_, _, htask, rfl, hbefore.subset (List.mem_cons_of_mem _
            (List.mem_cons_of_mem _ List.mem_cons_self))⟩
  | replyUpdate createdAt now found => exact ⟨_, createdAt, found, now, rfl, rfl⟩
  | replyDrop hsent htask =>
      obtain ⟨found, hpushed, hfound⟩ := pushed_of_sent hsent
      rw [hfound] at htask ⊢
      exact ⟨found, hpushed, htask, rfl⟩
  | replyDropAll hsent htask =>
      obtain ⟨found, hpushed, hfound⟩ := pushed_of_sent hsent
      rw [hfound] at htask
      exact ⟨found, hpushed, htask, rfl⟩
  | eventDraws hcompletes | eventNow hcompletes | eventSend hcompletes =>
      cases hcompletes <;> trivial
  | _ => trivial

/-- The answer of a writer that has dropped a key. -/
theorem answersFor_writer {response : HttpResponse} (hwriter : IsWriter request)
    (hdrop : ∃ o ∈ h, Drops o.1) : AnswersFor u request h response := by
  refine ⟨?_, fun _ _ => hdrop⟩
  intro r hr
  cases request <;> first | exact absurd hr id | exact absurd hwriter id

/-- The answer that follows the drop of a key. -/
theorem answersFor_dropped {c : Call} {answer : c.Answer} {response : HttpResponse}
    (hwriter : IsWriter request) (hdrops : Drops c) :
    AnswersFor u request (h ++ [⟨c, answer⟩]) response :=
  answersFor_writer hwriter ⟨_, List.mem_append_right _ (List.mem_singleton_self _), hdrops⟩

theorem answersFor_of_returns {response : HttpResponse} (hreturns : Returns u request h response) :
    AnswersFor u request h response := by
  cases hreturns with
  | projectsHit cached =>
      refine ⟨?_, False.elim⟩
      rintro r rfl
      exact Or.inl (List.mem_singleton_self _)
  | projectsRead hdecode hrender =>
      refine ⟨?_, False.elim⟩
      rintro r rfl
      exact Or.inr ⟨_, List.mem_cons_of_mem _ List.mem_cons_self, render_projects hdecode hrender⟩
  | commentsHit cached htask =>
      refine ⟨?_, False.elim⟩
      rintro r ⟨taskId, htask', rfl⟩
      obtain rfl := Except.ok.inj (htask.symm.trans htask')
      exact Or.inl (List.mem_singleton_self _)
  | commentsRead htask hdecode hrender =>
      refine ⟨?_, False.elim⟩
      rintro r ⟨taskId, htask', rfl⟩
      obtain rfl := Except.ok.inj (htask.symm.trans htask')
      exact Or.inr ⟨_, List.mem_cons_of_mem _ List.mem_cons_self, render_comments hdecode hrender⟩
  | projectMissing => exact ⟨fun r hr => hr.elim, fun _ hstatus => absurd hstatus (by simp)⟩
  | projectCreated hsent =>
      obtain ⟨h₀, hbefore, hcompletes⟩ := hsent.completes
      cases hcompletes with
      | createProject =>
          exact answersFor_writer trivial ⟨⟨.cacheInvalidate projectsKey, ()⟩,
            hbefore.subset (by simp), Or.inl ⟨_, rfl⟩⟩
  | commentAdded | replyAdded => exact answersFor_dropped trivial (Or.inl ⟨_, rfl⟩)
  | replyStray => exact answersFor_dropped trivial (Or.inr ⟨_, rfl⟩)
  | _ => exact ⟨fun r hr => hr.elim, False.elim⟩

end Contract

theorem behaves_serve (u : Userver) (request : Request) :
    Behaves u request (serve u request) :=
  (conducts_serve u request).mono (fun _ _ hmakes => usesCache_of_makes hmakes)
    (fun _ _ hreturns => answersFor_of_returns hreturns) fun _ _ _ => trivial

/-! ## What a hit found -/

/-- The cache's part of a run. -/
def cacheCalls (tr : List ServiceEvent) : List CacheManager.Call :=
  tr.filterMap fun e => cacheCall e.call e.choice

theorem run_cacheCalls {w : World} (hw : w.cache = CacheManager.empty)
    {tr : List ServiceEvent} (h : Config.Chained perform w tr) :
    CacheManager.run (cacheCalls tr) = (Config.worldAfter perform w tr).cache := by
  rw [Config.foldl_trace perform World.cache cacheCall CacheManager.apply ?_ h, hw]
  · rfl
  · intro c ch w
    rw [perform_cache]
    cases cacheCall c ch with
    | none => rfl
    | some call => rfl

/-- **Origin of a hit.** What a reader finds cached was set by the last call that
concerns the key, and has not outlived its lifetime. -/
theorem hit_origin {w : World} (hw : w.cache = CacheManager.empty) {tr : List ServiceEvent}
    (h : Config.Chained perform w tr) {g : ℕ} {e : ServiceEvent} {key value : String}
    (hg : tr[g]? = some e) (hhit : e.seen perform = ⟨.cacheGet key, some value⟩) :
    ∃ (s : ℕ) (e' : ServiceEvent) (ttl : Int), s < g ∧ tr[s]? = some e' ∧
      e'.call = .cacheSet key value ttl ∧
      e.choice.steady ≤ e'.choice.steady + ttl * ticksPerSecond ∧
      ∀ j e'', s < j → j < g → tr[j]? = some e'' →
        ∀ call ∈ cacheCall e''.call e''.choice, call.concerns key = false := by
  obtain ⟨tid, c, ch, before⟩ := e
  obtain rfl : c = .cacheGet key := congrArg Sigma.fst hhit
  have hresp : (before.cache.get key ch.steady).1 = some value := by
    simpa [Event.seen, Event.resp, perform] using hhit
  -- the cache that the `Get` met is what the calls before it made
  have htake : Config.Chained perform w (tr.take g) := by
    rw [← List.take_append_drop g tr] at h
    exact ((Config.chained_append perform).mp h).1
  have hbefore : before = Config.worldAfter perform w (tr.take g) :=
    Config.before_eq perform h hg
  rw [hbefore, ← run_cacheCalls hw htake] at hresp
  obtain ⟨ttl, s, hlast, hle⟩ := CacheManager.get_hit hresp
  obtain ⟨pre, e', post, hsplit, hset, hpost⟩ := TtlMap.lastWith_filterMap_split hlast
  have hlength := congrArg List.length hsplit
  rw [List.length_take, List.length_append, List.length_cons] at hlength
  have hat : ∀ j, j < g → tr[j]? = (pre ++ e' :: post)[j]? := fun j hj => by
    rw [← hsplit, List.getElem?_take_of_lt hj]
  have hcall : e'.call = .cacheSet key value ttl ∧ e'.choice.steady = s := by
    cases hc : e'.call with
    | cacheSet key' value' ttl' =>
        rw [hc] at hset
        obtain ⟨rfl, rfl, rfl, rfl⟩ := CacheManager.Call.set.inj (Option.some.inj hset)
        exact ⟨rfl, rfl⟩
    | _ =>
        rw [hc] at hset
        exact absurd hset (by simp [cacheCall])
  refine ⟨pre.length, e', ttl, by omega, ?_, hcall.1, by rw [hcall.2]; exact hle, ?_⟩
  · rw [hat _ (by omega)]
    simp
  · intro j e'' hsj hjg hj
    rw [hat j hjg, List.getElem?_append_right (by omega)] at hj
    refine hpost e'' ?_
    obtain ⟨k, hk⟩ : ∃ k, j - pre.length = k + 1 := ⟨j - pre.length - 1, by omega⟩
    rw [hk, List.getElem?_cons_succ] at hj
    exact List.mem_of_getElem? hj

/-! ## The law -/

/-- The event read the list from the database, and this body was rendered from it. -/
def Renders (u : Userver) (r : Resource) (e : ServiceEvent) (body : String) : Prop :=
  ∃ answer, e.seen perform = ⟨r.query, answer⟩ ∧ r.render u answer = .ok body

/-- The event committed a write to the list: a comment on the task, a reply to one of
its comments, or a project. -/
def Commits (requests : ℕ → Request) (e : ServiceEvent) : Resource → Prop
  | .comments taskId =>
      (∃ request userId doc, requests e.tid = .addComment request userId ∧
        stoi (request.getPathArg "taskId") = .ok taskId ∧
        e.seen perform = ⟨.insertOne doc, .ok ()⟩) ∨
      ∃ request f update n, requests e.tid = .addReply request ∧
        e.seen perform = ⟨.updateOne f update, .ok n⟩ ∧
        ∃ d ∈ e.before.comments.docs, f.matches d ∧ (taskFilter taskId).matches d
  | .projects => ∃ request userId name description key ownerId createdAt returning rows,
      requests e.tid = .createProject request userId ∧
      e.seen perform = ⟨.execute
        (.insertProject name description key ownerId createdAt returning), .ok rows⟩

/-- The request is an `AddComment` or an `AddReply` on the task, or a `CreateProject`.
Which task a reply is on, the document tells that it was pushed to. -/
def WritesTo (requests : ℕ → Request) (cfg : ServiceConfig) (tid : ℕ) : Resource → Prop
  | .comments taskId =>
      match requests tid with
      | .addComment request _ => stoi (request.getPathArg "taskId") = .ok taskId
      | .addReply _ => ∃ e ∈ cfg.trace, e.tid = tid ∧ Commits requests e (.comments taskId)
      | _ => False
  | .projects =>
      match requests tid with
      | .createProject _ _ => True
      | _ => False

/-- The request was answered 201. -/
def Confirmed (cfg : ServiceConfig) (tid : ℕ) : Prop :=
  ∃ response, Answered cfg tid response ∧ response.status = 201

/-- The call drops the key. -/
def DropsKey (key : String) : Call → Prop
  | .cacheInvalidate key' => key' = key
  | .cacheInvalidateByPrefix pfx => CacheManager.hasPrefix pfx key = true
  | _ => False

/-- The body was rendered from a read that came after the writer's commit. -/
def RenderedAfter (u : Userver) (requests : ℕ → Request) (tr : List ServiceEvent)
    (r : Resource) (writer : ℕ) (body : String) : Prop :=
  ∃ (c i : ℕ) (commit read : ServiceEvent), c < i ∧
    tr[c]? = some commit ∧ commit.tid = writer ∧ Commits requests commit r ∧
    tr[i]? = some read ∧ Renders u r read body

/-- The body was rendered from a read that came before the writer's commit, was set
after the writer's drop, and was found by the reader within the lifetime of the list. -/
def CachedLate (u : Userver) (requests : ℕ → Request) (tr : List ServiceEvent)
    (r : Resource) (writer reader : ℕ) (body : String) : Prop :=
  ∃ (i c d s g : ℕ) (read commit drop set get : ServiceEvent), i < c ∧ c < d ∧ d < s ∧ s < g ∧
    tr[i]? = some read ∧ Renders u r read body ∧
    tr[c]? = some commit ∧ commit.tid = writer ∧ Commits requests commit r ∧
    tr[d]? = some drop ∧ drop.tid = writer ∧ DropsKey r.key drop.call ∧
    tr[s]? = some set ∧ set.tid = read.tid ∧ set.call = .cacheSet r.key body r.ttlSeconds ∧
    tr[g]? = some get ∧ get.tid = reader ∧
    get.seen perform = ⟨.cacheGet r.key, some body⟩ ∧
    get.choice.steady ≤ set.choice.steady + r.ttlSeconds * ticksPerSecond

section Runs

variable {u : Userver} {w : World} {requests : ℕ → Request} {sched : List (ℕ × Choice)}

theorem run_behaves :
    Config.Contracts perform (fun tid => UsesCache u (requests tid))
      (fun tid => AnswersFor u (requests tid)) (fun _ _ _ => True)
      (runService u w requests sched) :=
  Config.run_obeys perform (fun tid => behaves_serve u (requests tid)) sched

theorem usesCache_of_getElem {i : ℕ} {e : ServiceEvent}
    (hi : (runService u w requests sched).trace[i]? = some e) :
    UsesCache u (requests e.tid)
      (own perform e.tid ((runService u w requests sched).trace.take i)) e.call :=
  run_behaves.calls i e hi

theorem answersFor_of_answered {tid : ℕ} {response : HttpResponse}
    (h : Answered (runService u w requests sched) tid response) :
    AnswersFor u (requests tid) (own perform tid (runService u w requests sched).trace)
      response := by
  have hobeys : Prog.Obeys (UsesCache u (requests tid)) (AnswersFor u (requests tid))
      (fun _ _ => True) (own perform tid (runService u w requests sched).trace)
      ((runService u w requests sched).pool tid) := run_behaves.pool tid
  rwa [show (runService u w requests sched).pool tid = .pure response from h] at hobeys

/-- What is cached was rendered from a read of the same thread. -/
theorem set_origin {s : ℕ} {e : ServiceEvent} {key value : String} {ttl : Int}
    (hs : (runService u w requests sched).trace[s]? = some e)
    (hcall : e.call = .cacheSet key value ttl) :
    ∃ (r : Resource) (i : ℕ) (e' : ServiceEvent), key = r.key ∧ ttl = r.ttlSeconds ∧ i < s ∧
      (runService u w requests sched).trace[i]? = some e' ∧ e'.tid = e.tid ∧
      Renders u r e' value := by
  have huses := usesCache_of_getElem hs
  rw [hcall] at huses
  obtain ⟨r, answer, _, rfl, rfl, hmem, hrender⟩ := huses
  obtain ⟨i, e', hi, he', htid, hseen⟩ := (mem_own_take perform).mp hmem
  exact ⟨r, i, e', rfl, rfl, hi, he', htid, answer, hseen, hrender⟩

/-! ### Writers -/

/-- A document that is there for one call is there, but for its replies, for every later
one. -/
theorem doc_stays {P : Document → Prop}
    (hP : ∀ reply d d', MongoStorage.Extends reply d d' → P d → P d') {i j : ℕ}
    {e e' : ServiceEvent} (hi : (runService u w requests sched).trace[i]? = some e)
    (hj : (runService u w requests sched).trace[j]? = some e') (hij : i < j)
    (h : ∃ d ∈ e.before.comments.docs, P d) : ∃ d ∈ e'.before.comments.docs, P d := by
  have hstep : ∀ e ∈ (runService u w requests sched).trace,
      (∃ d ∈ e.before.comments.docs, P d) → ∃ d ∈ (e.after perform).comments.docs, P d :=
    fun e he => MongoStorage.exists_doc_perform hP fun f update =>
      CommentIdentity.replyUpdate_of_event he
  exact @Config.stable_later _ _ _ _ perform _ _ runService_chained
    (fun w => ∃ d ∈ w.comments.docs, P d) hstep i j e e' hi hj hij
    (hstep e (List.mem_of_getElem? hi) h)

/-- The lookup of a reply fails, or gives the task of the comment that is pushed to. -/
theorem lookup_of_push {i j : ℕ} {e e' : ServiceEvent} {oid : Oid}
    {found : Except Exn (Option Document)} {taskId : Int} {d : Document}
    (hi : (runService u w requests sched).trace[i]? = some e)
    (hj : (runService u w requests sched).trace[j]? = some e') (hij : i < j)
    (hfound : e.seen perform = ⟨.findOne (MongoStorage.idFilter oid), found⟩)
    (hd : d ∈ e'.before.comments.docs) (hid : d.id = .oid oid)
    (htask : (taskFilter taskId).matches d) (hpos : 0 < MongoStorage.taskIdOf found) :
    MongoStorage.taskIdOf found = taskId := by
  obtain ⟨tid, c, ch, before⟩ := e
  obtain rfl : c = .findOne (MongoStorage.idFilter oid) := congrArg Sigma.fst hfound
  have hresp : (perform (.findOne (MongoStorage.idFilter oid)) ch before).2 = found := by
    simpa [Event.seen, Event.resp] using hfound
  rcases findOne_cases ch before (MongoStorage.idFilter oid) with ⟨x, _, heq⟩ | ⟨_, heq⟩
  · rw [← hresp, heq] at hpos
    exact absurd hpos (by simp [MongoStorage.taskIdOf])
  · rw [heq] at hresp
    subst hresp
    cases hdoc : before.comments.findOne (MongoStorage.idFilter oid) with
    | none => exact absurd hpos (by simp [hdoc, MongoStorage.taskIdOf])
    | some doc =>
        have hmatch := List.find?_some hdoc
        rw [MongoStorage.idFilter, Filter.matches_oid, Document.hasId_iff] at hmatch
        -- the document that the lookup found is the one that is pushed to
        obtain ⟨d', hd', hid', htask'⟩ := doc_stays
          (P := fun x => x.id = .oid oid ∧ x.get? "task_id" = doc.get? "task_id")
          (fun reply x x' hext hx => ⟨hext.id.trans hx.1,
            (hext.other "task_id" (by decide) (by decide)).trans hx.2⟩) hi hj hij
          ⟨doc, List.mem_of_find?_eq_some hdoc, hmatch, rfl⟩
        obtain rfl : d' = d := MongoStorage.eq_of_id hd' hd (hid'.trans hid.symm)
        rw [hdoc] at hpos
        have hint := MongoStorage.asInt_of_taskIdOf_pos hpos
        rw [← htask'] at hint
        exact Bson.asInt_of_matchedBy htask hint

/-- A confirmed writer dropped a key. -/
theorem exists_drop {tid : ℕ} (hwriter : IsWriter (requests tid))
    (h : Confirmed (runService u w requests sched) tid) :
    ∃ (d : ℕ) (e : ServiceEvent), (runService u w requests sched).trace[d]? = some e ∧
      e.tid = tid ∧ Drops e.call := by
  obtain ⟨response, hanswered, hstatus⟩ := h
  obtain ⟨o, ho, hdrops⟩ := (answersFor_of_answered hanswered).2 hwriter hstatus
  obtain ⟨d, e, hd, htid, rfl⟩ := (mem_own perform).mp ho
  exact ⟨d, e, hd, htid, hdrops⟩

/-- The push of a reply comes before the drop, and the drop goes by what the lookup
before the push found. -/
theorem push_of_drop {c d tid : ℕ} {e : ServiceEvent} {request : HttpRequest} {f : Filter}
    {update : Update} {found : Except Exn (Option Document)}
    (hc : (runService u w requests sched).trace[c]? = some e) (htid : e.tid = tid)
    (hrequest : requests e.tid = .addReply request) (hcall : e.call = .updateOne f update)
    (hpushed : Pushed found (own perform tid ((runService u w requests sched).trace.take d))) :
    c < d ∧ ∃ (oid : Oid) (i : ℕ) (e₀ : ServiceEvent), f = MongoStorage.idFilter oid ∧ i < c ∧
      (runService u w requests sched).trace[i]? = some e₀ ∧
      e₀.seen perform = ⟨.findOne (MongoStorage.idFilter oid), found⟩ := by
  have huses := usesCache_of_getElem hc
  rw [hrequest, hcall] at huses
  obtain ⟨oid, now, found', now', rfl, hbefore⟩ := huses
  obtain ⟨oid', now₁, now₂, update', n, q, hafter⟩ := hpushed
  rw [← htid] at hafter
  -- before its push the thread has made three calls, before its drop at least four
  have hlt : c < d := by
    by_contra hge
    have hle := (own_take_isPrefix perform e.tid (runService u w requests sched).trace
      (Nat.le_of_not_lt hge)).length_le
    rw [hbefore, hafter] at hle
    simp only [List.length_append, List.length_cons, List.length_nil] at hle
    omega
  have hsame : found' = found := by
    obtain ⟨rest, hrest⟩ := own_take_isPrefix perform e.tid
      (runService u w requests sched).trace hlt.le
    rw [hbefore, hafter] at hrest
    have hfind := (List.cons.inj (List.cons.inj hrest).2).1
    obtain ⟨hfilter, hheq⟩ := Sigma.mk.inj hfind
    exact eq_of_heq hheq
  subst hsame
  have hmem : ⟨.findOne (MongoStorage.idFilter oid), found'⟩ ∈
      own perform e.tid ((runService u w requests sched).trace.take c) := by
    rw [hbefore]
    simp
  obtain ⟨i, e₀, hi, he₀, _, hseen⟩ := (mem_own_take perform).mp hmem
  exact ⟨hlt, oid, i, e₀, rfl, hi, he₀, hseen⟩

theorem hasPrefix_commentsKey (taskId : Int) :
    CacheManager.hasPrefix "comments:task:" (commentsKey taskId) = true := by
  simp [CacheManager.hasPrefix, commentsKey]

/-- The drop of `e` at `d` is of the list's key and comes after the thread's commit. -/
def DropsAfterCommit (requests : ℕ → Request) (tr : List ServiceEvent) (d : ℕ)
    (e : ServiceEvent) (r : Resource) : Prop :=
  DropsKey r.key e.call ∧ ∃ (c : ℕ) (e' : ServiceEvent), c < d ∧ tr[c]? = some e' ∧
    e'.tid = e.tid ∧ Commits requests e' r

section Drop

variable {d : ℕ} {e : ServiceEvent} {taskId : Int}
  (hd : (runService u w requests sched).trace[d]? = some e) (hdrop : Drops e.call)

include hd hdrop

theorem drop_createProject {request : HttpRequest} {userId : Int}
    (hrequest : requests e.tid = .createProject request userId) :
    DropsAfterCommit requests (runService u w requests sched).trace d e .projects := by
  have huses := usesCache_of_getElem hd
  rw [hrequest] at huses
  rcases hdrop with ⟨key, hcall⟩ | ⟨pfx, hcall⟩
  · rw [hcall] at huses
    obtain ⟨name, description, projectKey, ownerId, createdAt, returning, rows, rfl, hmem⟩ :=
      huses
    obtain ⟨c, e', hc, he', htid, hseen⟩ := (mem_own_take perform).mp hmem
    have hcommits : Commits requests e' .projects :=
      ⟨request, userId, name, description, projectKey, ownerId, createdAt, returning, rows,
        htid ▸ hrequest, hseen⟩
    have hkey : DropsKey projectsKey e.call := by rw [hcall]; rfl
    exact ⟨hkey, c, e', hc, he', htid, hcommits⟩
  · rw [hcall] at huses
    exact absurd huses id

theorem drop_addComment {request : HttpRequest} {userId : Int}
    (hrequest : requests e.tid = .addComment request userId)
    (htask : stoi (request.getPathArg "taskId") = .ok taskId) :
    DropsAfterCommit requests (runService u w requests sched).trace d e (.comments taskId) := by
  have huses := usesCache_of_getElem hd
  rw [hrequest] at huses
  rcases hdrop with ⟨key, hcall⟩ | ⟨pfx, hcall⟩
  · rw [hcall] at huses
    obtain ⟨taskId', doc, htask', rfl, hmem⟩ := huses
    obtain rfl := Except.ok.inj (htask.symm.trans htask')
    obtain ⟨c, e', hc, he', htid, hseen⟩ := (mem_own_take perform).mp hmem
    have hcommits : Commits requests e' (.comments taskId) :=
      Or.inl ⟨request, userId, doc, htid ▸ hrequest, htask, hseen⟩
    have hkey : DropsKey (commentsKey taskId) e.call := by rw [hcall]; rfl
    exact ⟨hkey, c, e', hc, he', htid, hcommits⟩
  · rw [hcall] at huses
    exact absurd huses id

/-- Which key a reply drops depends on its lookup: one key if it gave a task, all of
them if not. -/
theorem drop_addReply {request : HttpRequest} {e' : ServiceEvent}
    (hrequest : requests e.tid = .addReply request)
    (he' : e' ∈ (runService u w requests sched).trace) (htid : e'.tid = e.tid)
    (hcommits : Commits requests e' (.comments taskId)) :
    DropsAfterCommit requests (runService u w requests sched).trace d e (.comments taskId) := by
  have huses := usesCache_of_getElem hd
  rw [hrequest] at huses
  obtain ⟨c, hc⟩ := List.mem_iff_getElem?.mp he'
  obtain ⟨f, update, n, hseen, x, hx, hf, htask⟩ : ∃ f update n,
      e'.seen perform = ⟨.updateOne f update, .ok n⟩ ∧
        ∃ x ∈ e'.before.comments.docs, f.matches x ∧ (taskFilter taskId).matches x := by
    rcases hcommits with ⟨_, _, _, hother, _⟩ | ⟨_, f, update, n, _, hseen, hdoc⟩
    · rw [htid, hrequest] at hother
      exact absurd hother (by simp)
    · exact ⟨f, update, n, hseen, hdoc⟩
  have hpush : e'.call = .updateOne f update := congrArg Sigma.fst hseen
  rw [← htid] at hrequest
  rcases hdrop with ⟨key, hcall⟩ | ⟨pfx, hcall⟩
  · rw [hcall] at huses
    obtain ⟨found, hpushed, hpos, rfl⟩ := huses
    obtain ⟨hlt, oid, i, e₀, rfl, hi, he₀, hfound⟩ := push_of_drop hc htid hrequest hpush hpushed
    rw [MongoStorage.idFilter, Filter.matches_oid, Document.hasId_iff] at hf
    have htaskId : MongoStorage.taskIdOf found = taskId :=
      lookup_of_push he₀ hc hi hfound hx hf htask hpos
    have hkey : DropsKey (commentsKey taskId) e.call := by rw [hcall, htaskId]; rfl
    exact ⟨hkey, c, e', hlt, hc, htid, hcommits⟩
  · rw [hcall] at huses
    obtain ⟨found, hpushed, hneg, rfl⟩ := huses
    obtain ⟨hlt, _⟩ := push_of_drop hc htid hrequest hpush hpushed
    have hkey : DropsKey (commentsKey taskId) e.call := by
      rw [hcall]
      exact hasPrefix_commentsKey taskId
    exact ⟨hkey, c, e', hlt, hc, htid, hcommits⟩

/-- A writer that drops a key has committed its write before, and the key is its
list's. -/
theorem dropsAfterCommit {r : Resource}
    (hwrites : WritesTo requests (runService u w requests sched) e.tid r) :
    DropsAfterCommit requests (runService u w requests sched).trace d e r := by
  cases r with
  | projects =>
      cases hrequest : requests e.tid with
      | createProject request userId => exact drop_createProject hd hdrop hrequest
      | _ =>
          rw [WritesTo, hrequest] at hwrites
          exact absurd hwrites id
  | comments taskId =>
      cases hrequest : requests e.tid with
      | addComment request userId =>
          rw [WritesTo, hrequest] at hwrites
          exact drop_addComment hd hdrop hrequest hwrites
      | addReply request =>
          rw [WritesTo, hrequest] at hwrites
          obtain ⟨e', he', htid, hcommits⟩ := hwrites
          exact drop_addReply hd hdrop hrequest he' htid hcommits
      | _ =>
          rw [WritesTo, hrequest] at hwrites
          exact absurd hwrites id

end Drop

theorem isWriter_of_writesTo {cfg : ServiceConfig} {tid : ℕ} {r : Resource}
    (h : WritesTo requests cfg tid r) : IsWriter (requests tid) := by
  cases r <;> cases hrequest : requests tid <;> simp_all [WritesTo, IsWriter]

/-- **Commit, then drop.** A confirmed writer committed its write and dropped the key
after that. -/
theorem commit_then_drop {tid : ℕ} {r : Resource}
    (hconfirmed : Confirmed (runService u w requests sched) tid)
    (hwrites : WritesTo requests (runService u w requests sched) tid r) :
    ∃ (c d : ℕ) (e e' : ServiceEvent), c < d ∧
      (runService u w requests sched).trace[c]? = some e ∧ e.tid = tid ∧
      Commits requests e r ∧ (runService u w requests sched).trace[d]? = some e' ∧
      e'.tid = tid ∧ DropsKey r.key e'.call := by
  obtain ⟨d, e', hd, rfl, hdrops⟩ := exists_drop (isWriter_of_writesTo hwrites) hconfirmed
  obtain ⟨hkey, c, e, hlt, hc, htid, hcommits⟩ := dropsAfterCommit hd hdrops hwrites
  exact ⟨c, d, e, e', hlt, hc, htid, hcommits, hd, rfl, hkey⟩

/-! ### Readers -/

/-- A body is rendered from the reader's own read, or the reader found it cached. -/
theorem read_or_hit {tid : ℕ} {r : Resource} {response : HttpResponse}
    (hreads : Reads (requests tid) r)
    (h : Answered (runService u w requests sched) tid response) :
    ∃ (g : ℕ) (e : ServiceEvent), (runService u w requests sched).trace[g]? = some e ∧
      e.tid = tid ∧
      (Renders u r e response.body ∨ e.seen perform = ⟨.cacheGet r.key, some response.body⟩) := by
  rcases (answersFor_of_answered h).1 r hreads with hhit | ⟨answer, hmem, hrender⟩
  · obtain ⟨g, e, hg, htid, hseen⟩ := (mem_own perform).mp hhit
    exact ⟨g, e, hg, htid, Or.inr hseen⟩
  · obtain ⟨g, e, hg, htid, hseen⟩ := (mem_own perform).mp hmem
    exact ⟨g, e, hg, htid, Or.inl ⟨answer, hseen, hrender⟩⟩

/-- What a reader found cached: who set it, after which read, and that nobody has
dropped it since. -/
theorem origin_of_hit (hw : w.cache = CacheManager.empty) {g : ℕ} {e : ServiceEvent}
    {r : Resource} {body : String} (hg : (runService u w requests sched).trace[g]? = some e)
    (hhit : e.seen perform = ⟨.cacheGet r.key, some body⟩) :
    ∃ (i s : ℕ) (read set : ServiceEvent), i < s ∧ s < g ∧
      (runService u w requests sched).trace[i]? = some read ∧ Renders u r read body ∧
      (runService u w requests sched).trace[s]? = some set ∧ set.tid = read.tid ∧
      set.call = .cacheSet r.key body r.ttlSeconds ∧
      e.choice.steady ≤ set.choice.steady + r.ttlSeconds * ticksPerSecond ∧
      ∀ j e', s < j → j < g → (runService u w requests sched).trace[j]? = some e' →
        ¬DropsKey r.key e'.call := by
  obtain ⟨s, set, ttl, hsg, hs, hcall, hlive, hquiet⟩ := hit_origin hw runService_chained hg hhit
  obtain ⟨r', i, read, hkey, rfl, his, hi, htid, hrenders⟩ := set_origin hs hcall
  obtain rfl := Resource.key_injective hkey
  refine ⟨i, s, read, set, his, hsg, hi, hrenders, hs, htid.symm, hcall, hlive, ?_⟩
  intro j e' hsj hjg hj hdrop
  cases hc : e'.call with
  | cacheInvalidate key =>
      rw [hc] at hdrop
      have hfalse := hquiet j e' hsj hjg hj (.invalidate key) (by rw [hc]; rfl)
      simp [CacheManager.Call.concerns, show key = r.key from hdrop] at hfalse
  | cacheInvalidateByPrefix pfx =>
      rw [hc] at hdrop
      have hfalse := hquiet j e' hsj hjg hj (.invalidateByPrefix pfx) (by rw [hc]; rfl)
      rw [CacheManager.Call.concerns, show CacheManager.hasPrefix pfx r.key = true from hdrop]
        at hfalse
      exact absurd hfalse (by simp)
  | _ =>
      rw [hc] at hdrop
      exact hdrop

/-- A read is no commit. -/
theorem not_renders_of_commits {e : ServiceEvent} {r : Resource} {body : String}
    (h : Commits requests e r) : ¬Renders u r e body := by
  rintro ⟨answer, hseen, _⟩
  have hcall : e.call = r.query := congrArg Sigma.fst hseen
  cases r with
  | comments taskId =>
      rcases h with ⟨_, _, doc, _, _, hinsert⟩ | ⟨_, f, update, n, _, hpush, _⟩
      · have hcall' : e.call = .insertOne doc := congrArg Sigma.fst hinsert
        exact absurd (hcall.symm.trans hcall') (by simp [Resource.query])
      · have hcall' : e.call = .updateOne f update := congrArg Sigma.fst hpush
        exact absurd (hcall.symm.trans hcall') (by simp [Resource.query])
  | projects =>
      obtain ⟨_, _, _, _, _, _, _, _, _, _, hinsert⟩ := h
      have hcall' := congrArg Sigma.fst hinsert
      exact absurd (hcall.symm.trans hcall') (by simp [Resource.query])

/-- What a later run has at the positions of an earlier one. -/
theorem getElem?_later {sched₁ : List (ℕ × Choice)} (sched₂ : List (ℕ × Choice)) {i : ℕ}
    (hi : i < (runService u w requests sched₁).trace.length) :
    (runService u w requests (sched₁ ++ sched₂)).trace[i]? =
      (runService u w requests sched₁).trace[i]? := by
  obtain ⟨tr, htr⟩ := Config.trace_prefix perform (runService u w requests sched₁) sched₂
  rw [runService_append, htr, List.getElem?_append_left hi]

/-- The calls of a request that starts later come later. -/
theorem le_of_notStarted {sched₁ sched₂ : List (ℕ × Choice)} {tid i : ℕ} {e : ServiceEvent}
    (h : NotStarted (runService u w requests sched₁) tid)
    (hi : (runService u w requests (sched₁ ++ sched₂)).trace[i]? = some e) (htid : e.tid = tid) :
    (runService u w requests sched₁).trace.length ≤ i := by
  by_contra hlt
  rw [getElem?_later sched₂ (Nat.lt_of_not_le hlt)] at hi
  exact h e (List.mem_of_getElem? hi) htid

/-- **Reads after a confirmed write.** A reader that starts after a writer was answered
201 returns a body rendered from a read after the writer's commit, unless it finds one
that was cached late. -/
theorem read_after_write {u : Userver} {db : Postgres.Database} {comments : Collection}
    {topics : List KafkaRecord} {requests : ℕ → Request} {sched₁ sched₂ : List (ℕ × Choice)}
    {writer reader : ℕ} {r : Resource} {response : HttpResponse}
    (hconfirmed : Confirmed
      (runService u (World.boot db comments topics) requests sched₁) writer)
    (hwrites : WritesTo requests
      (runService u (World.boot db comments topics) requests sched₁) writer r)
    (hreads : Reads (requests reader) r)
    (hstarts : NotStarted
      (runService u (World.boot db comments topics) requests sched₁) reader)
    (hanswered : Answered
      (runService u (World.boot db comments topics) requests (sched₁ ++ sched₂)) reader response) :
    RenderedAfter u requests
      (runService u (World.boot db comments topics) requests (sched₁ ++ sched₂)).trace
      r writer response.body ∨
    CachedLate u requests
      (runService u (World.boot db comments topics) requests (sched₁ ++ sched₂)).trace
      r writer reader response.body := by
  obtain ⟨c, d, commit, drop, hcd, hc, hcommitTid, hcommits, hd, hdropTid, hdrops⟩ :=
    commit_then_drop hconfirmed hwrites
  obtain ⟨hdlt, _⟩ := List.getElem?_eq_some_iff.mp hd
  rw [← getElem?_later sched₂ (hcd.trans hdlt)] at hc
  rw [← getElem?_later sched₂ hdlt] at hd
  obtain ⟨g, e, hg, htid, hrenders | hhit⟩ := read_or_hit hreads hanswered
  · have hle := le_of_notStarted hstarts hg htid
    exact Or.inl ⟨c, g, commit, e, by omega, hc, hcommitTid, hcommits, hg, hrenders⟩
  · have hle := le_of_notStarted hstarts hg htid
    obtain ⟨i, s, read, set, his, hsg, hi, hrenders, hs, hsetTid, hset, hlive, hquiet⟩ :=
      origin_of_hit rfl hg hhit
    -- what was found is fresh when it was read after the commit
    rcases Nat.lt_trichotomy c i with hlt | rfl | hlt
    · exact Or.inl ⟨c, i, commit, read, hlt, hc, hcommitTid, hcommits, hi, hrenders⟩
    · obtain rfl := Option.some.inj (hc.symm.trans hi)
      exact absurd hrenders (not_renders_of_commits hcommits)
    · -- the drop would have removed what was set before it
      have hds : d < s := by
        rcases Nat.lt_trichotomy d s with hlt' | rfl | hlt'
        · exact hlt'
        · obtain rfl := Option.some.inj (hd.symm.trans hs)
          rw [hset] at hdrops
          exact absurd hdrops id
        · exact absurd hdrops (hquiet d drop hlt' (by omega) hd)
      exact Or.inr ⟨i, c, d, s, g, read, commit, drop, set, e, hlt, hcd, hds, hsg, hi, hrenders,
        hc, hcommitTid, hcommits, hd, hdropTid, hdrops, hs, hsetTid, hset, hg, htid, hhit, hlive⟩

end Runs

/-! ## A late set -/

/-- Request 0 comments on task 7, the others read its comments. -/
def commentAndReads (tid : ℕ) : Request :=
  if tid = 0 then .addComment (Sample.http Sample.body "taskId" "7") 1
  else .getComments (Sample.http "" "taskId" "7")

/-- Request 1 misses and reads, then request 0 runs to its answer. -/
def readThenComment : List (ℕ × Choice) :=
  List.replicate 2 (1, Sample.plain) ++ List.replicate 7 (0, Sample.plain)

/-- Request 1 sets what it read, and request 2 finds it. -/
def setThenHit : List (ℕ × Choice) := [(1, Sample.plain), (2, Sample.plain)]

theorem read_after_write_commentAndReads :
    RenderedAfter Sample.userver commentAndReads
      (runService Sample.userver Sample.empty commentAndReads
        (readThenComment ++ setThenHit)).trace (.comments 7) 0 "null" ∨
    CachedLate Sample.userver commentAndReads
      (runService Sample.userver Sample.empty commentAndReads
        (readThenComment ++ setThenHit)).trace (.comments 7) 0 2 "null" := by
  have hconfirmed : Confirmed
      (runService Sample.userver Sample.empty commentAndReads readThenComment) 0 :=
    ⟨{ status := 201, body := statusOk }, rfl, rfl⟩
  have hwrites : WritesTo commentAndReads
      (runService Sample.userver Sample.empty commentAndReads readThenComment) 0
      (.comments 7) := by
    show stoi "7" = .ok 7
    decide
  have hstarts : NotStarted
      (runService Sample.userver Sample.empty commentAndReads readThenComment) 2 := by
    unfold NotStarted
    decide
  have hanswered : Answered (runService Sample.userver Sample.empty commentAndReads
      (readThenComment ++ setThenHit)) 2 { body := "null" } := rfl
  have hreads : Reads (commentAndReads 2) (.comments 7) := ⟨7, by decide, rfl⟩
  exact read_after_write hconfirmed hwrites hreads hstarts hanswered

/-- Request 2 starts after the comment was confirmed and still returns the list without
it. -/
theorem stale_read :
    (readThenComment ++ setThenHit).Pairwise
        (fun a b => a.2.steady ≤ b.2.steady ∧ a.2.system ≤ b.2.system) ∧
      Confirmed (runService Sample.userver Sample.empty commentAndReads readThenComment) 0 ∧
      WritesTo commentAndReads
        (runService Sample.userver Sample.empty commentAndReads readThenComment) 0 (.comments 7) ∧
      Reads (commentAndReads 2) (.comments 7) ∧
      NotStarted (runService Sample.userver Sample.empty commentAndReads readThenComment) 2 ∧
      Answered (runService Sample.userver Sample.empty commentAndReads
        (readThenComment ++ setThenHit)) 2 { body := "null" } ∧
      ¬RenderedAfter Sample.userver commentAndReads
        (runService Sample.userver Sample.empty commentAndReads
          (readThenComment ++ setThenHit)).trace (.comments 7) 0 "null" := by
  refine ⟨by decide, ⟨{ status := 201, body := statusOk }, rfl, rfl⟩,
    by change stoi "7" = .ok 7; decide, ⟨7, by decide, rfl⟩, by unfold NotStarted; decide, rfl, ?_⟩
  rintro ⟨c, i, commit, read, hlt, hc, htid, _, hi, answer, hseen, _⟩
  set tr := (runService Sample.userver Sample.empty commentAndReads
    (readThenComment ++ setThenHit)).trace
  -- the two calls before the writer's first are the miss and the only read
  have hmiss : ∀ e ∈ tr.take 2, e.tid = 1 := by decide
  have hnoread : ∀ e ∈ tr.drop 2, (e.call matches .find _) = false := by decide
  have hge : 2 ≤ c := by
    by_contra hsmall
    have hmem : commit ∈ tr.take 2 :=
      List.mem_of_getElem? (i := c) (by rw [List.getElem?_take_of_lt (by omega), hc])
    exact absurd (htid.symm.trans (hmiss commit hmem)) (by decide)
  have hmem : read ∈ tr.drop 2 :=
    List.mem_of_getElem? (i := i - 2) (by rw [List.getElem?_drop, ← hi]; congr 1; omega)
  have hcall : read.call = .find (taskFilter 7) := congrArg Sigma.fst hseen
  have hfalse := hnoread read hmem
  rw [hcall] at hfalse
  exact absurd hfalse (by simp)

end MyService.Cache.FreshReads
