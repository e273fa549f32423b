import MyService.Handlers.ProjectKeys

/-!
# Task statuses

A status that `TaskStatus` has goes unchanged from the request to the row, the event and
the answer. Any other text becomes `TODO` on the way in, so `valid_status` never sees it
and the request is answered 201. `statusKept_iff` says when a request keeps its status.
-/

namespace MyService.Handlers.TaskStatuses

open Framework Userver Userver.Postgres Models Event EventProducer
open Storage Storage.PostgresStorage Storage.Nullability ProjectKeys.Submission

/-! ## The tables -/

theorem tasks_insert_iff {t : Tasks} {r : TaskRow} :
    (∃ t', t.insert r = .ok t') ↔ r.id ∉ t.rows.map TaskRow.id ∧ r.Valid := by
  unfold Tasks.insert
  split
  · rename_i h
    exact iff_of_true ⟨_, rfl⟩ h
  · rename_i h
    exact iff_of_false (by simp) h

theorem varchar_status (status : TaskStatus) :
    varchar 20 (taskStatusToString status) = .ok (taskStatusToString status) := by
  cases status <;> rfl

theorem valid_status (status : TaskStatus) :
    taskStatusToString status ∈ ["TODO", "IN_PROGRESS", "REVIEW", "DONE"] := by
  cases status <;> decide

/-- The statuses that survive `TaskStatusFromString` are the four of the enumeration. -/
theorem toString_fromString_iff (text : String) :
    taskStatusToString (taskStatusFromString text) = text ↔
      text ∈ ["TODO", "IN_PROGRESS", "REVIEW", "DONE"] := by
  constructor
  · intro h
    rw [← h]
    exact valid_status _
  · revert text
    decide

/-- The tables take a task: its texts can be stored, its creator exists, its priority passes
the check and its id is new. -/
structure Storable (db : Database) (serial : Int) (title description : String)
    (creatorId priority : Int) : Prop where
  title : ∃ title', varchar 500 title = .ok title'
  description : NulFree description
  creator : creatorId ∈ db.userIds
  priority : 1 ≤ priority ∧ priority ≤ 5
  serial : serial ∉ db.tasks.rows.map TaskRow.id

section Tables

variable {db : Database} {serial : Int} {task : Task} {now : Int}

/-- The INSERT of `CreateTask`. -/
def insertion (task : Task) (now : Int) : Statement :=
  .insertTask task.title task.description (taskStatusToString task.status) task.projectId
    task.creatorId task.assigneeId task.priority now now
    ["id", "title", "description", "status", "project_id", "creator_id", "assignee_id",
     "priority", "created_at", "updated_at"]

theorem insertion_ok_iff (hproject : task.projectId ∈ db.projectIds)
    (hassignee : task.assigneeId = none) :
    (∃ result, db.execute serial (insertion task now) = .ok result) ↔
      Storable db serial task.title task.description task.creatorId task.priority := by
  have hvalid : ∀ row : TaskRow, row.status = taskStatusToString task.status →
      row.priority = some task.priority → row.id = serial →
        ((∃ tasks, db.tasks.insert row = .ok tasks) ↔
          serial ∉ db.tasks.rows.map TaskRow.id ∧ 1 ≤ task.priority ∧ task.priority ≤ 5) := by
    intro row hstatus hpriority hid
    rw [tasks_insert_iff, TaskRow.Valid, hstatus, hpriority, hid]
    refine and_congr_right fun _ => ?_
    simp only [Option.mem_def, Option.some.injEq, forall_eq']
    exact and_iff_right (valid_status task.status)
  have hexecute : (∃ result, db.execute serial (insertion task now) = .ok result) ↔
      ∃ title, varchar 500 task.title = .ok title ∧ NulFree task.description ∧
        task.creatorId ∈ db.userIds ∧ ∃ tasks, db.tasks.insert
          { id := serial, title := title, description := some task.description
            status := taskStatusToString task.status, projectId := task.projectId
            assigneeId := none, creatorId := task.creatorId, priority := some task.priority
            createdAt := some (fromTimePointTz now), updatedAt := some (fromTimePointTz now) } =
          .ok tasks := by
    simp [insertion, Database.execute, Database.newTask, except_bind_ok, text_ok, references,
      hproject, hassignee, referencesNullable, varchar_status, pure, Except.pure, and_assoc]
  rw [hexecute]
  constructor
  · rintro ⟨title, htitle, hdesc, hcreator, hinsert⟩
    obtain ⟨hserial, hpriority⟩ := (hvalid _ rfl rfl rfl).mp hinsert
    exact ⟨⟨title, htitle⟩, hdesc, hcreator, hpriority, hserial⟩
  · rintro ⟨⟨title, htitle⟩, hdesc, hcreator, hpriority, hserial⟩
    exact ⟨title, htitle, hdesc, hcreator, (hvalid _ rfl rfl rfl).mpr ⟨hserial, hpriority⟩⟩

/-- The row has the status that was written. -/
theorem newTask_status {title description : String} {status : TaskStatus}
    {projectId creatorId : Int} {assigneeId : Option Int} {priority createdAt updatedAt : Int}
    {row : TaskRow}
    (h : db.newTask serial title description (taskStatusToString status) projectId creatorId
      assigneeId priority createdAt updatedAt = .ok row) :
    row.status = taskStatusToString status := by
  simp only [Database.newTask, except_bind_ok, varchar_status, pure, Except.pure,
    Except.ok.injEq] at h
  obtain ⟨_, _, _, _, _, rfl, _, _, _, _, _, _, rfl⟩ := h
  rfl

end Tables

/-! ## The two methods of the storage -/

section Exec

variable {α : Type} {w : World}

/-- The rows that the lookup of a project selects decode exactly when they are filled in. -/
theorem decode_getProjectById {db : Database} {id : Int} (hexists : id ∈ db.projectIds) :
    (Complete db (.getProjectById id) ∧ ∃ project,
      (Query.getProjectById id).decode ((db.projects.rows.filter fun r => r.id = id).map fun r =>
        pick Query.projectColumns r.columns) = .ok (some project)) ∨
    (¬Complete db (.getProjectById id) ∧ ∃ e,
      (Query.getProjectById id).decode ((db.projects.rows.filter fun r => r.id = id).map fun r =>
        pick Query.projectColumns r.columns) = .error e) := by
  obtain ⟨r, hr, hid⟩ := List.mem_map.mp hexists
  have hmem : r ∈ db.projects.rows.filter fun r => r.id = id :=
    List.mem_filter.mpr ⟨hr, decide_eq_true hid⟩
  have hcomplete : Complete db (.getProjectById id) ↔ ProjectFilled r := by
    constructor
    · intro h
      exact h r hr hid
    · intro h r' hr' hid'
      rwa [List.inj_on_of_nodup_map db.projects.ids_nodup hr' hr (hid'.trans hid.symm)]
  rw [hcomplete]
  rcases unique_row db.projects.ids_nodup (p := fun r => decide (r.id = id))
    (fun r hr => of_decide_eq_true hr) with hnone | ⟨r', hone⟩
  · rw [hnone] at hmem
    exact absurd hmem (by simp)
  · obtain rfl : r = r' := by
      rw [hone] at hmem
      exact List.mem_singleton.mp hmem
    have hrow : (Query.getProjectById id).decode ([r].map fun r =>
        pick Query.projectColumns r.columns) =
        some <$> decodeProject ((pick Query.projectColumns r.columns).map Prod.snd) := rfl
    rw [hone, hrow]
    cases hdecode : decodeProject ((pick Query.projectColumns r.columns).map Prod.snd) with
    | ok project =>
        exact Or.inl ⟨exists_projectHolds.mp ⟨project, decodeProject_iff.mp hdecode⟩, project, rfl⟩
    | error e =>
        refine Or.inr ⟨?_, e, rfl⟩
        intro hfilled
        obtain ⟨project, hproject⟩ := exists_projectHolds.mpr hfilled
        exact absurd ((decodeProject_iff.mpr hproject).symm.trans hdecode) (by simp)

/-- The lookup of a project that is there: it gives the project, or throws. -/
theorem exec_getProjectById_bind {id : Int} (hexists : id ∈ w.db.projectIds)
    (f : Option Project → Service α) (cs : ℕ → Choice) :
    ((cs 0).fault = none ∧ Complete w.db (.getProjectById id) ∧ ∃ project,
      (getProjectById id >>= f).exec perform cs w =
        (f (some project)).exec perform (fun i => cs (i + 1)) w) ∨
    (¬((cs 0).fault = none ∧ Complete w.db (.getProjectById id)) ∧
      ∃ e, (getProjectById id >>= f).exec perform cs w = (.error e, w)) := by
  have hrun : getProjectById id = PostgresStorage.execute (Query.getProjectById id).statement >>=
      fun rows => Prog.ofExcept ((Query.getProjectById id).decode rows) :=
    Query.run_eq (.getProjectById id)
  rw [hrun, Prog.bind_assoc, exec_execute_bind]
  rcases execute_cases (cs 0) w (Query.getProjectById id).statement with
    ⟨e, he, heq⟩ | ⟨db, rows, hfault, hact, heq⟩
  · rw [heq]
    refine Or.inr ⟨?_, e, rfl⟩
    rintro ⟨hnofault, _⟩
    rcases he with hfault | ⟨_, herror⟩
    · rw [hnofault] at hfault
      exact absurd hfault (by simp)
    · exact absurd herror (by simp [Query.statement, Database.execute, pure, Except.pure])
  · obtain ⟨rfl, rfl⟩ := Prod.mk.inj (Except.ok.inj hact)
    rw [heq]
    rcases decode_getProjectById hexists with ⟨hcomplete, project, hdecode⟩ | ⟨hnot, e, hdecode⟩
    · refine Or.inl ⟨hfault, hcomplete, project, ?_⟩
      show ((Prog.ofExcept ((Query.getProjectById id).decode _) : Service _) >>= f).exec
        perform _ _ = _
      rw [hdecode]
      rfl
    · refine Or.inr ⟨fun h => hnot h.2, e, ?_⟩
      show ((Prog.ofExcept ((Query.getProjectById id).decode _) : Service _) >>= f).exec
        perform _ _ = _
      rw [hdecode]
      rfl

/-- An INSERT that fails throws; one that goes through gives the task of a new row. -/
theorem exec_createTask_bind {task : Task} (hproject : task.projectId ∈ w.db.projectIds)
    (hassignee : task.assigneeId = none) (f : Option Task → Service α) (cs : ℕ → Choice) :
    ((cs 1).fault = none ∧ Storable w.db (cs 1).serial task.title task.description
        task.creatorId task.priority ∧ ∃ row tasks created,
      row.status = taskStatusToString task.status ∧ TaskHolds created row ∧
      tasks.rows = w.db.tasks.rows ++ [row] ∧
      (createTask task >>= f).exec perform cs w =
        (f (some created)).exec perform (fun i => cs (i + 2))
          { w with db := { w.db with tasks := tasks } }) ∨
    (¬((cs 1).fault = none ∧ Storable w.db (cs 1).serial task.title task.description
        task.creatorId task.priority) ∧
      ∃ e, (createTask task >>= f).exec perform cs w = (.error e, w)) := by
  unfold createTask systemNow
  simp only [Prog.bind_assoc]
  rw [Prog.exec_ask_bind, perform_systemNow, exec_execute_bind]
  rcases execute_cases (cs 1) w (insertion task (cs 0).system) with
    ⟨e, he, heq⟩ | ⟨db, rows, hfault, hact, heq⟩
  · unfold insertion at heq
    rw [heq]
    refine Or.inr ⟨?_, e, rfl⟩
    rintro ⟨hnofault, hstorable⟩
    rcases he with hfault | ⟨_, herror⟩
    · rw [hnofault] at hfault
      exact absurd hfault (by simp)
    · obtain ⟨result, hok⟩ := (insertion_ok_iff hproject hassignee).mpr hstorable
      exact absurd (hok.symm.trans herror) (by simp)
  · have hstorable := (insertion_ok_iff hproject hassignee).mp ⟨_, hact⟩
    rcases insertTask_cases task.title task.description (taskStatusToString task.status)
      task.projectId task.creatorId task.assigneeId task.priority (cs 0).system (cs 0).system
      (cs 1) w with ⟨e, herror⟩ | ⟨row, tasks, created, hrow, hinsert, hdecode, hholds, hok⟩
    · exact absurd (congrArg Prod.snd (heq.symm.trans herror)) (by simp)
    · rw [hok]
      refine Or.inl ⟨hfault, hstorable, row, tasks, created, newTask_status hrow, hholds,
        (tasks_insert_ok hinsert).1, ?_⟩
      simp only [Prog.liftM_eq]
      rw [hdecode]
      rfl

end Exec

/-! ## One request -/

/-- A request to create a task: the members of its body, and what the environment chooses
while it is served. -/
structure TaskSubmission where
  request : HttpRequest
  userId : Int
  projectId : Int
  title : String
  description : Option Json
  status : Option String
  priority : Option Json
  cs : ℕ → Choice

namespace TaskSubmission

/-- The path and the body of the request: the title is a string, and so is the status if
there is one. -/
structure Posts (u : Userver) (s : TaskSubmission) : Prop where
  path : stoi (s.request.getPathArg "projectId") = .ok s.projectId
  body : ∃ members, u.fromString s.request.body = .ok (.object members) ∧
    members.lookup "title" = some (.string s.title) ∧
    members.lookup "description" = s.description ∧
    Member (members.lookup "status") s.status ∧
    members.lookup "priority" = s.priority

/-- No status counts as `TODO`. -/
def statusText (s : TaskSubmission) : String := s.status.getD "TODO"

/-- The request served alone. -/
def run (u : Userver) (s : TaskSubmission) (w : World) : Except Exn HttpResponse × World :=
  (createTaskHandler u s.request s.userId).exec perform s.cs w

/-- The task that the handler makes of the members. -/
def task (s : TaskSubmission) (description : String) (priority createdAt : Int) : Task :=
  { id := 0, title := s.title, description := description
    status := taskStatusFromString s.statusText, projectId := s.projectId, assigneeId := none
    creatorId := s.userId, priority := priority, createdAt := createdAt, updatedAt := none }

/-- The event of a created task. -/
def eventOf (created : Task) : TaskCreatedEvent :=
  { taskId := created.id, projectId := created.projectId, title := created.title
    description := created.description, priority := created.priority
    creatorId := created.creatorId, status := taskStatusToString created.status }

/-- The answer of a created task. -/
def answerOf (created : Task) : Json :=
  .object
    [("id", .int created.id), ("title", .string created.title),
     ("description", .string created.description),
     ("status", .string (taskStatusToString created.status)),
     ("project_id", .int created.projectId), ("creator_id", .int created.creatorId),
     ("priority", .int created.priority)]

/-- What the handler does with what `CreateTask` returned. -/
def conclude (u : Userver) (s : TaskSubmission) (created : Option Task) : Service HttpResponse :=
  match created with
  | some created => do
      publishTaskCreated (eventOf created) (s.request.getHeader "X-Request-Id")
      return { status := 201, body := u.toString (answerOf created) }
  | none => throw .badOptional

/-- The handler on such a request. -/
theorem handler_eq {u : Userver} {s : TaskSubmission} (h : s.Posts u) :
    createTaskHandler u s.request s.userId =
      getProjectById s.projectId >>= fun project =>
        if project.isNone then
          .pure { status := 404, body := "\x7b\"error\": \"Project not found\"\x7d" }
        else
          Prog.ofExcept (Json.asOr Json.asString "" s.description) >>= fun description =>
            Prog.ofExcept (Json.asOr Json.asInt 3 s.priority) >>= fun priority =>
              .call .systemNow fun createdAt =>
                createTask (s.task description priority createdAt) >>= conclude u s := by
  obtain ⟨hpath, members, hbody, htitle, hdesc, hstatus, hpriority⟩ := h
  unfold createTaskHandler createTaskIn
  simp only [hpath, hbody, Json.hasMember, Json.member, htitle, hdesc, hpriority,
    asOr_member hstatus, Json.asString, systemNow, Prog.liftM_eq, Prog.ofExcept_ok,
    Prog.pure_bind_eq, Prog.ask_bind_eq]
  congr 1
  ext project
  split
  · rfl
  · show (Prog.ofExcept (Json.asOr Json.asString "" s.description) >>= _) = _
    congr 1
    ext description
    congr 1
    ext priority
    congr 1
    ext createdAt
    congr 1
    ext created
    cases created <;> rfl

/-- The record is a `TaskCreated` event with this status. -/
def EventStatus (r : KafkaRecord) (text : String) : Prop :=
  r.topic = "task-events" ∧
    r.message.member "event_type" = .ok (some (.string "TaskCreated")) ∧
    ∃ payload, r.message.member "payload" = .ok (some payload) ∧
      payload.member "status" = .ok (some (.string text))

/-- The new row, the event, if it was sent, and the answer have this status. -/
structure CarriesStatus (u : Userver) (text : String) (w w' : World) (response : HttpResponse) :
    Prop where
  row : ∃ row, w'.db.tasks.rows = w.db.tasks.rows ++ [row] ∧ row.status = text
  event : w'.topics = w.topics ∨ ∃ r, w'.topics = w.topics ++ [r] ∧ EventStatus r text
  answer : ∃ answer, response.body = u.toString answer ∧
    answer.member "status" = .ok (some (.string text))

/-- An answer 201 goes with the requested status everywhere, and without one nothing is
added. -/
structure StatusKept (u : Userver) (s : TaskSubmission) (w : World) : Prop where
  created : ∀ response, (s.run u w).1 = .ok response → response.status = 201 →
    CarriesStatus u s.statusText w (s.run u w).2 response
  refused : (∀ response, (s.run u w).1 = .ok response → response.status ≠ 201) →
    (s.run u w).2.db.tasks.rows = w.db.tasks.rows ∧ (s.run u w).2.topics = w.topics

/-- The request stores a task: both statements succeed, the project has no nulls, the other
members have their types and the tables take the row. -/
structure Stores (s : TaskSubmission) (w : World) : Prop where
  lookup : (s.cs 0).fault = none
  project : ∀ r ∈ w.db.projects.rows, r.id = s.projectId → ProjectFilled r
  insert : (s.cs 3).fault = none
  row : ∃ description priority, Json.asOr Json.asString "" s.description = .ok description ∧
    Json.asOr Json.asInt 3 s.priority = .ok priority ∧
    Storable w.db (s.cs 3).serial s.title description s.userId priority

section Step

variable {u : Userver} {s : TaskSubmission} {w : World}

/-- The message of a created task has its status. -/
theorem eventStatus_of_isMessage {created : Task} {message : Json} {key : String}
    (h : IsMessage "TaskCreated" (eventOf created).toPayload message) :
    EventStatus ⟨"task-events", key, message⟩ (taskStatusToString created.status) := by
  obtain ⟨eventId, timestamp, traceId, rfl⟩ := h
  exact ⟨rfl, rfl, _, rfl, rfl⟩

/-- A created task is announced and answered with its own status. -/
theorem exec_conclude (u : Userver) (s : TaskSubmission) {created : Task} {row : TaskRow}
    {tasks : Tasks} (hrows : tasks.rows = w.db.tasks.rows ++ [row])
    (hstatus : row.status = taskStatusToString created.status) (cs : ℕ → Choice) :
    ∃ response w', (conclude u s (some created)).exec perform cs
        { w with db := { w.db with tasks := tasks } } = (.ok response, w') ∧
      response.status = 201 ∧
      CarriesStatus u (taskStatusToString created.status) w w' response := by
  obtain ⟨message, hmessage, hpublish⟩ := exec_publish_bind "task-events" (toString created.id)
    "TaskCreated" (s.request.getHeader "X-Request-Id") (eventOf created).toPayload
    (fun _ => .pure ({ status := 201, body := u.toString (answerOf created) } : HttpResponse)) cs
    { w with db := { w.db with tasks := tasks } }
  refine ⟨{ status := 201, body := u.toString (answerOf created) }, _, hpublish, rfl, ?_⟩
  rcases send_cases (cs (callsBeforeSend (s.request.getHeader "X-Request-Id")))
    { w with db := { w.db with tasks := tasks } } "task-events" (toString created.id) message with
    ⟨e, _, hsend⟩ | ⟨_, hsend⟩
  · rw [hsend]
    exact ⟨⟨row, hrows, hstatus⟩, Or.inl rfl, _, rfl, rfl⟩
  · rw [hsend]
    exact ⟨⟨row, hrows, hstatus⟩, Or.inr ⟨_, rfl, eventStatus_of_isMessage hmessage⟩, _, rfl, rfl⟩

/-- What serving one request does. -/
theorem run_cases (h : s.Posts u) (hexists : s.projectId ∈ w.db.projectIds) :
    (¬s.Stores w ∧ ∃ e, s.run u w = (.error e, w)) ∨
    (s.Stores w ∧ ∃ response w', s.run u w = (.ok response, w') ∧ response.status = 201 ∧
      CarriesStatus u (taskStatusToString (taskStatusFromString s.statusText)) w w'
        response) := by
  rw [run, handler_eq h]
  rcases exec_getProjectById_bind hexists _ s.cs with
    ⟨hlookup, hcomplete, project, hrun⟩ | ⟨hnot, e, hrun⟩
  · rw [hrun, if_neg (by simp)]
    cases hdesc : Json.asOr Json.asString "" s.description with
    | error e =>
        refine Or.inl ⟨?_, e, rfl⟩
        rintro ⟨_, _, _, description, _, hread, _⟩
        exact absurd (hread.symm.trans hdesc) (by simp)
    | ok description =>
        cases hprio : Json.asOr Json.asInt 3 s.priority with
        | error e =>
            refine Or.inl ⟨?_, e, rfl⟩
            rintro ⟨_, _, _, _, priority, _, hread, _⟩
            exact absurd (hread.symm.trans hprio) (by simp)
        | ok priority =>
            simp only [Prog.ofExcept_ok, Prog.pure_bind_eq, Prog.exec_call, perform_systemNow]
            have hproject :
                (s.task description priority (s.cs 1).system).projectId ∈ w.db.projectIds := hexists
            rcases exec_createTask_bind hproject rfl (conclude u s)
              (fun i => s.cs (i + 1 + 1)) with
              ⟨hinsert, hstorable, row, tasks, created, hrow, hholds, hrows, hcreate⟩ |
                ⟨hnot, e, hcreate⟩
            · refine Or.inr ⟨⟨hlookup, hcomplete, hinsert, _, _, hdesc, hprio, hstorable⟩, ?_⟩
              obtain ⟨response, w', hconclude, h201, hcarries⟩ :=
                exec_conclude u s hrows hholds.status.symm fun i => s.cs (i + 2 + 1 + 1)
              refine ⟨response, w', hcreate.trans hconclude, h201, ?_⟩
              rwa [hholds.status, hrow] at hcarries
            · refine Or.inl ⟨?_, e, hcreate⟩
              rintro ⟨_, _, hinsert, _, _, hread, hread', hstorable⟩
              obtain rfl := Except.ok.inj (hdesc.symm.trans hread)
              obtain rfl := Except.ok.inj (hprio.symm.trans hread')
              exact hnot ⟨hinsert, hstorable⟩
  · rw [hrun]
    refine Or.inl ⟨?_, e, rfl⟩
    intro hstores
    exact hnot ⟨hstores.lookup, hstores.project⟩

/-- One row has one status. -/
theorem CarriesStatus.unique {text text' : String} {w' : World}
    {response response' : HttpResponse} (h : CarriesStatus u text w w' response)
    (h' : CarriesStatus u text' w w' response') : text = text' := by
  obtain ⟨row, hrows, rfl⟩ := h.row
  obtain ⟨row', hrows', rfl⟩ := h'.row
  have hsame := List.append_cancel_left (hrows.symm.trans hrows')
  rw [(List.cons.inj hsame).1]

/-- A request that stores a task keeps the statuses that survive the enumeration. -/
theorem statusKept_iff_survives (h : s.Posts u) (hexists : s.projectId ∈ w.db.projectIds)
    (hstores : s.Stores w) :
    StatusKept u s w ↔
      taskStatusToString (taskStatusFromString s.statusText) = s.statusText := by
  rcases run_cases h hexists with ⟨hnot, _⟩ | ⟨_, response, w', hrun, h201, hcarries⟩
  · exact absurd hstores hnot
  · constructor
    · intro hkept
      have hstatus := hkept.created response (by rw [hrun]) h201
      rw [hrun] at hstatus
      exact hcarries.unique hstatus
    · intro hsurvives
      rw [hsurvives] at hcarries
      refine ⟨?_, ?_⟩
      · intro response' hresponse _
        rw [hrun] at hresponse ⊢
        obtain rfl := Except.ok.inj hresponse
        exact hcarries
      · intro hrefused
        exact absurd h201 (hrefused response (by rw [hrun]))

/-- **When a status is kept.** It is one of the four, or the request stores nothing. -/
theorem statusKept_iff (h : s.Posts u) (hexists : s.projectId ∈ w.db.projectIds) :
    StatusKept u s w ↔
      s.statusText ∈ ["TODO", "IN_PROGRESS", "REVIEW", "DONE"] ∨ ¬s.Stores w := by
  rcases run_cases h hexists with ⟨hnot, e, hrun⟩ | ⟨hstores, _⟩
  · refine iff_of_true ⟨?_, ?_⟩ (Or.inr hnot)
    · intro response hresponse
      rw [hrun] at hresponse
      exact absurd hresponse (by simp)
    · intro _
      rw [hrun]
      exact ⟨rfl, rfl⟩
  · rw [statusKept_iff_survives h hexists hstores, toString_fromString_iff,
      or_iff_left (not_not.mpr hstores)]

end Step

end TaskSubmission

/-! ## Two requests -/

open TaskSubmission

/-- The body parses to a title and this status. -/
def titleAnd (status : String) : Userver :=
  { Sample.userver with
    fromString := fun _ => .ok (.object [("title", .string "t"), ("status", .string status)]) }

def submission (status : String) : TaskSubmission :=
  { request := Sample.http "" "projectId" "1", userId := 1, projectId := 1, title := "t"
    description := none, status := some status, priority := none, cs := fun _ => Sample.plain }

theorem submission_posts (status : String) : (submission status).Posts (titleAnd status) := by
  have hpath : stoi "1" = .ok 1 := by decide
  exact { path := hpath, body := ⟨_, rfl, rfl, rfl, rfl, rfl⟩ }

theorem submission_stores (status : String) : (submission status).Stores oneProject := by
  have hstorable : Storable owning 0 "t" "" 1 3 :=
    { title := ⟨"t", by decide⟩
      description := by decide
      creator := by decide
      priority := by decide
      serial := by decide }
  refine { lookup := rfl, project := ?_, insert := rfl, row := ⟨"", 3, rfl, rfl, hstorable⟩ }
  intro r hr _
  obtain rfl := List.mem_singleton.mp hr
  exact ⟨rfl, rfl, rfl, rfl⟩

theorem statusKept_done : StatusKept (titleAnd "DONE") (submission "DONE") oneProject :=
  (statusKept_iff (submission_posts "DONE") (List.mem_singleton.mpr rfl)).mpr
    (Or.inl (by decide))

/-- An unknown status is answered 201 and stored as `TODO`. -/
theorem statusKept_fails :
    (submission "BLOCKED").Posts (titleAnd "BLOCKED") ∧
      (submission "BLOCKED").projectId ∈ oneProject.db.projectIds ∧
      ¬StatusKept (titleAnd "BLOCKED") (submission "BLOCKED") oneProject := by
  have hexists : (submission "BLOCKED").projectId ∈ oneProject.db.projectIds :=
    List.mem_singleton.mpr rfl
  refine ⟨submission_posts "BLOCKED", hexists, ?_⟩
  rw [statusKept_iff_survives (submission_posts "BLOCKED") hexists (submission_stores "BLOCKED")]
  decide

end MyService.Handlers.TaskStatuses
