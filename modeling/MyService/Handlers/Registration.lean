import MyService.Event.Delivery
import MyService.Storage.Nullability

/-!
# Registration conflicts

The handler looks for a user that is not deleted; the INSERT meets UNIQUE(login) and
UNIQUE(email) over all rows, later. `allAnswered_iff` says which runs of registrations
answer every request with 201 or 409.
-/

namespace MyService.Handlers.Registration

open Framework Userver Userver.Postgres Models Event EventProducer Storage Storage.PostgresStorage
  Storage.Nullability

/-- `CreateUser` as one INSERT that returns the user it stored. -/
def insertUser (user : User) : Service (Option User) := do
  let result ← execute (.insertUser user.login user.passwordHash user.firstName user.lastName
    user.email user.createdAt Query.userColumns)
  return some (← asSingleRow decodeUser result)

/-! ## Requests -/

/-- A request to register: its body, and the five fields of it. -/
structure Submission where
  request : HttpRequest
  login : String
  password : String
  firstName : String
  lastName : String
  email : String

namespace Submission

variable (u : Userver) (s : Submission)

/-- The body of the request. -/
def Posts : Prop :=
  ∃ members, u.fromString s.request.body = .ok (.object members) ∧
    members.lookup "login" = some (.string s.login) ∧
    members.lookup "password" = some (.string s.password) ∧
    members.lookup "first_name" = some (.string s.firstName) ∧
    members.lookup "last_name" = some (.string s.lastName) ∧
    members.lookup "email" = some (.string s.email)

/-- Five fields within the column lengths. -/
structure WellFormed : Prop where
  posts : s.Posts u
  login : s.login.toList.length ≤ 50
  firstName : s.firstName.toList.length ≤ 100
  lastName : s.lastName.toList.length ≤ 100
  email : s.email.toList.length ≤ 255

def lookup : Statement := (Query.getUserByLogin s.login).statement

def insertion (now : Int) : Statement :=
  .insertUser s.login (u.sha256 s.password) s.firstName s.lastName s.email now
    Query.userColumns

/-- What is answered, and published before it, once the row is stored. -/
def announce (user : User) : Service HttpResponse :=
  publishUserRegistered ⟨user.id, user.login, user.email, user.firstName, user.lastName⟩
    (s.request.getHeader "X-Request-Id") >>= fun _ =>
  .pure
    { status := 201
      body := u.toString (.object
        [("id", .int user.id), ("login", .string user.login),
         ("first_name", .string user.firstName), ("last_name", .string user.lastName),
         ("email", .string user.email)]) }

end Submission

/-- The handler on the body of the request: the lookup, then an answer or the INSERT. -/
theorem registerWith_eq {u : Userver} {s : Submission} (h : s.Posts u) :
    registerWith insertUser u s.request = execute s.lookup >>= fun rows =>
      if rows.isEmpty then .call .systemNow fun now => execute (s.insertion u now) >>= fun rows =>
        Prog.ofExcept (asSingleRow decodeUser rows) >>= fun user => s.announce u user
      else Prog.ofExcept (asSingleRow decodeUser rows) >>= fun _ =>
        .pure { status := 409, body := "\x7b\"error\": \"User already exists\"\x7d" } := by
  obtain ⟨members, hbody, hlogin, hpassword, hfirst, hlast, hemail⟩ := h
  unfold registerWith getUserByLogin insertUser
  simp only [hbody, Json.hasMember, Json.member, hlogin, hpassword, hfirst, hlast, hemail,
    Json.asString, systemNow, Prog.liftM_eq, Prog.ofExcept_ok, Prog.pure_bind_eq,
    Prog.ask_bind_eq, Prog.bind_assoc]
  show execute s.lookup >>= _ = execute s.lookup >>= _
  congr 1
  ext rows
  by_cases hrows : rows.isEmpty = true
  · simp only [hrows, if_pos]
    rfl
  · simp only [hrows]
    cases asSingleRow decodeUser rows <;> rfl

/-! ## The contract of a request -/

/-- The statements that a request has run, with their answers. -/
def statements (h : Prog.History Call Call.Answer) : List (Σ c, Call.Answer c) :=
  h.filter fun o => match o.1 with
    | .execute _ => true
    | _ => false

/-- The answer of a statement lets the request go on. -/
def Answers : (Σ c, Call.Answer c) → Prop
  | ⟨.execute (.selectUserByLogin _ _), answer⟩ =>
      ∃ rows, answer = .ok rows ∧ ∃ found, Query.optionalRow decodeUser rows = .ok found
  | ⟨.execute _, answer⟩ =>
      ∃ rows, answer = .ok rows ∧ ∃ user, asSingleRow decodeUser rows = .ok user
  | _ => True

/-- Every statement so far let the request go on. -/
def Clean (h : Prog.History Call Call.Answer) : Prop := ∀ o ∈ h, Answers o

section Contract

variable (u : Userver) (s : Submission)

/-- The next statement is the lookup, or the INSERT after a lookup that found nobody. -/
def NextStatement (h : Prog.History Call Call.Answer) (c : Call) : Prop :=
  ∀ statement, c = .execute statement →
    (statements h = [] ∧ statement = s.lookup) ∨
    (statements h = [⟨.execute s.lookup, .ok []⟩] ∧ ∃ now, statement = s.insertion u now)

/-- A request answers 201 after its INSERT and 409 after a lookup that found a user. -/
def AnswersAfter (h : Prog.History Call Call.Answer) (response : HttpResponse) : Prop :=
  (response.status = 201 ∧ ∃ now rows,
    statements h = [⟨.execute s.lookup, .ok []⟩, ⟨.execute (s.insertion u now), .ok rows⟩]) ∨
  (response.status = 409 ∧ ∃ rows, statements h = [⟨.execute s.lookup, .ok rows⟩])

/-- A request goes on as long as its statements let it, and throws otherwise. -/
def RegistersOnce (h : Prog.History Call Call.Answer) : Service HttpResponse → Prop :=
  Prog.Obeys (fun h c => Clean h ∧ NextStatement u s h c)
    (fun h response => Clean h ∧ AnswersAfter u s h response) (fun h _ => ¬Clean h) h

/-! ### The handler obeys it -/

theorem obeys_execute_bind {α : Type} {onCall : Prog.History Call Call.Answer → Call → Prop}
    {onReturn : Prog.History Call Call.Answer → α → Prop}
    {onThrow : Prog.History Call Call.Answer → Exn → Prop}
    {h : Prog.History Call Call.Answer} {statement : Statement} {f : List Row → Service α} :
    Prog.Obeys onCall onReturn onThrow h (execute statement >>= f) ↔
      onCall h (.execute statement) ∧
        (∀ e, onThrow (h ++ [⟨.execute statement, .error e⟩]) e) ∧
        ∀ rows, Prog.Obeys onCall onReturn onThrow
          (h ++ [⟨.execute statement, .ok rows⟩]) (f rows) := by
  have hexecute : execute statement >>= f = .call (.execute statement) fun answer =>
      Prog.ofExcept answer >>= f := rfl
  rw [hexecute, Prog.obeys_call]
  refine and_congr_right fun _ =>
    ⟨fun hall => ⟨fun e => hall (.error e), fun rows => hall (.ok rows)⟩, ?_⟩
  rintro ⟨herror, hok⟩ (e | rows)
  · exact herror e
  · exact hok rows

theorem answers_lookup {s : Submission} {answer : Except Exn (List Row)} :
    Answers ⟨.execute s.lookup, answer⟩ ↔
      ∃ rows, answer = .ok rows ∧ ∃ found, Query.optionalRow decodeUser rows = .ok found :=
  Iff.rfl

theorem answers_insertion {u : Userver} {s : Submission} {now : Int}
    {answer : Except Exn (List Row)} :
    Answers ⟨.execute (s.insertion u now), answer⟩ ↔
      ∃ rows, answer = .ok rows ∧ ∃ user, asSingleRow decodeUser rows = .ok user :=
  Iff.rfl

theorem clean_append {h q : Prog.History Call Call.Answer} :
    Clean (h ++ q) ↔ Clean h ∧ Clean q := List.forall_mem_append

theorem Clean.last {h : Prog.History Call Call.Answer} {o : Σ c, Call.Answer c}
    (hclean : Clean (h ++ [o])) : Answers o :=
  (clean_append.mp hclean).2 o (List.mem_singleton_self o)

theorem clean_singleton {o : Σ c, Call.Answer c} : Clean [o] ↔ Answers o :=
  List.forall_mem_singleton

theorem clean_quiet {q : Prog.History Call Call.Answer} (hq : Quiet q) : Clean q := by
  rintro ⟨c, answer⟩ ho
  obtain rfl | rfl : c = .randomDraws ∨ c = .systemNow := hq _ ho
  · trivial
  · trivial

theorem statements_quiet {q : Prog.History Call Call.Answer} (hq : Quiet q) :
    statements q = [] := by
  refine List.filter_eq_nil_iff.mpr ?_
  rintro ⟨c, answer⟩ ho
  obtain rfl | rfl : c = .randomDraws ∨ c = .systemNow := hq _ ho
  · simp
  · simp

variable {u : Userver} {s : Submission}

/-- The row is stored: one event is published, and the answer is 201. -/
theorem registersOnce_announce {h : Prog.History Call Call.Answer} (now : Int)
    (rows : List Row) {user : User} (hclean : Clean h)
    (hstatements : statements h =
      [⟨.execute s.lookup, .ok []⟩, ⟨.execute (s.insertion u now), .ok rows⟩]) :
    RegistersOnce u s h (s.announce u user) := by
  refine obeys_publish_bind ?_ ?_
    fun q message answer hq _ => ⟨?_, Or.inl ⟨rfl, now, rows, ?_⟩⟩
  · intro q hq
    have hgood : Clean (h ++ q) := clean_append.mpr ⟨hclean, clean_quiet hq⟩
    exact ⟨⟨hgood, fun _ hcall => absurd hcall (by simp)⟩,
      hgood, fun _ hcall => absurd hcall (by simp)⟩
  · intro q message hq _
    exact ⟨clean_append.mpr ⟨hclean, clean_quiet hq⟩, fun _ hcall => absurd hcall (by simp)⟩
  · exact clean_append.mpr ⟨clean_append.mpr ⟨hclean, clean_quiet hq⟩,
      clean_singleton.mpr trivial⟩
  · rw [statements, List.filter_append, List.filter_append]
    show statements h ++ statements q ++ [] = _
    rw [statements_quiet hq, hstatements]
    rfl

theorem registersOnce (hposts : s.Posts u) :
    RegistersOnce u s [] (registerWith insertUser u s.request) := by
  rw [registerWith_eq hposts, RegistersOnce, obeys_execute_bind]
  refine ⟨⟨by simp [Clean], ?_⟩, ?_, ?_⟩
  · rintro _ ⟨⟩
    exact Or.inl ⟨rfl, rfl⟩
  · intro e hclean
    obtain ⟨_, hanswer, _⟩ := answers_lookup.mp hclean.last
    exact absurd hanswer (by simp)
  · rintro (_ | ⟨row, rest⟩)
    · -- nobody has the login: the clock, then the INSERT
      have hlookup : Clean [⟨.execute s.lookup, .ok []⟩] :=
        clean_singleton.mpr (answers_lookup.mpr ⟨[], rfl, none, rfl⟩)
      refine ⟨⟨hlookup, fun _ hcall => absurd hcall (by simp)⟩, ?_⟩
      intro now
      have hclean : Clean [⟨.execute s.lookup, .ok []⟩, ⟨.systemNow, now⟩] :=
        clean_append.mpr ⟨hlookup, clean_quiet (quiet_nil.now now)⟩
      refine obeys_execute_bind.mpr ⟨⟨hclean, ?_⟩, ?_, ?_⟩
      · rintro _ ⟨⟩
        exact Or.inr ⟨rfl, now, rfl⟩
      · intro e hall
        obtain ⟨_, hanswer, _⟩ := answers_insertion.mp hall.last
        exact absurd hanswer (by simp)
      · intro rows
        refine Prog.obeys_ofExcept_bind.mpr ⟨?_, ?_⟩
        · intro e hdecode hall
          obtain ⟨_, ⟨⟩, user, huser⟩ := answers_insertion.mp hall.last
          rw [hdecode] at huser
          exact absurd huser (by simp)
        · intro user hdecode
          refine registersOnce_announce now rows ?_ rfl
          exact clean_append.mpr ⟨hclean, clean_singleton.mpr
            (answers_insertion.mpr ⟨rows, rfl, user, hdecode⟩)⟩
    · refine Prog.obeys_ofExcept_bind.mpr ⟨?_, ?_⟩
      · intro e hdecode hall
        obtain ⟨_, ⟨⟩, found, hfound⟩ := answers_lookup.mp hall.last
        rw [Query.optionalRow, hdecode] at hfound
        exact absurd hfound (by simp)
      · intro user hdecode
        have hfound : Query.optionalRow decodeUser (row :: rest) = .ok (some user) :=
          congrArg (some <$> ·) hdecode
        exact ⟨clean_singleton.mpr (answers_lookup.mpr ⟨row :: rest, rfl, some user, hfound⟩),
          Or.inr ⟨rfl, row :: rest, rfl⟩⟩

/-- Seven calls at most: the lookup, the clock, the INSERT and the four of `Publish`. -/
theorem seven_calls :
    Prog.Obeys (fun h _ => h.length < 7) (fun _ _ => True) (fun _ _ => True) []
      (registerWith insertUser u s.request) := by
  simp [registerWith, insertUser, PostgresStorage.getUserByLogin, PostgresStorage.execute,
    publishUserRegistered, publish, generateEventId, getCurrentTimestampISO, valueOf,
    Prog.bind_assoc, Prog.ite_bind]

end Contract

/-! ## What a statement meets -/

/-- The lookup can be answered: no row with this login that is not deleted lacks its
creation time. -/
def LookupPasses (login : String) (w : World) : Prop :=
  NulFree login ∧
    ∀ r ∈ w.db.users.rows, r.login = login → r.isDeleted = some false → UserFilled r

/-- The INSERT meets no row, deleted or not, with this login or this email. -/
def InsertPasses (login firstName lastName email : String) (w : World) : Prop :=
  (NulFree login ∧ NulFree firstName ∧ NulFree lastName ∧ NulFree email) ∧
    ∀ r ∈ w.db.users.rows, r.login ≠ login ∧ r.email ≠ email

/-- The condition on the state before a call. -/
def Passes (e : ServiceEvent) : Prop :=
  match e.call with
  | .execute (.selectUserByLogin _ login) => LookupPasses login e.before
  | .execute (.insertUser login _ firstName lastName email _ _) =>
      InsertPasses login firstName lastName email e.before
  | _ => True

/-- Statements reach the server, and `SERIAL` gives new ids. -/
structure Atomic (tr : List ServiceEvent) : Prop where
  nofault : ∀ e ∈ tr, ∀ s, e.call = .execute s → e.choice.fault = none
  serials : ∀ e ∈ tr, ∀ s, e.call = .execute s →
    e.choice.serial ∉ e.before.db.users.rows.map UserRow.id

/-- The row that the INSERT stores. -/
def Submission.row (u : Userver) (s : Submission) (serial now : Int) : UserRow :=
  { id := serial, login := s.login, passwordHash := u.sha256 s.password
    firstName := s.firstName, lastName := s.lastName, email := s.email
    createdAt := some (fromTimePointTz now), isDeleted := some false }

section Statements

variable {u : Userver} {s : Submission} {ch : Choice} {w : World}

theorem lookup_answers (hfault : ch.fault = none) :
    Answers ⟨.execute s.lookup, (perform (.execute s.lookup) ch w).2⟩ ↔
      LookupPasses s.login w := by
  rw [answers_lookup]
  rcases execute_cases ch w s.lookup with ⟨e, he, heq⟩ | ⟨db, rows, _, hact, heq⟩
  · rw [heq]
    refine iff_of_false (by simp) ?_
    rintro ⟨hnul, _⟩
    rcases he with hfault' | ⟨_, herror⟩
    · rw [hfault] at hfault'
      exact absurd hfault' (by simp)
    · have hok : w.db.execute ch.serial s.lookup = .ok (w.db, rowsByLogin w.db s.login) :=
        getUserByLogin_ok.mpr ⟨hnul, rfl, rfl⟩
      exact absurd (hok.symm.trans herror) (by simp)
  · obtain ⟨hnul, rfl, rfl⟩ := getUserByLogin_ok.mp hact
    rw [heq, LookupPasses, ← rowsByLogin_decode]
    constructor
    · rintro ⟨_, ⟨⟩, hfound⟩
      exact ⟨hnul, hfound⟩
    · rintro ⟨_, hfound⟩
      exact ⟨_, rfl, hfound⟩

theorem lookup_world : (perform (.execute s.lookup) ch w).1 = w := by
  rcases execute_cases ch w s.lookup with ⟨e, _, heq⟩ | ⟨db, rows, _, hact, heq⟩
  · rw [heq]
  · obtain ⟨_, rfl, _⟩ := getUserByLogin_ok.mp hact
    rw [heq]

theorem insertion_ok (hwf : s.WellFormed u) (hhash : HashFits u) {now serial : Int}
    {db db' : Database} {rows : List Row} :
    db.execute serial (s.insertion u now) = .ok (db', rows) ↔
      (NulFree s.login ∧ NulFree s.firstName ∧ NulFree s.lastName ∧ NulFree s.email) ∧
        ∃ users, db.users.insert (s.row u serial now) = .ok users ∧
          { db with users := users } = db' ∧
          [pick Query.userColumns (s.row u serial now).columns] = rows := by
  simp [Submission.insertion, Database.execute, Database.newUser, except_bind_ok,
    varchar_ok hwf.login, varchar_ok hwf.firstName, varchar_ok hwf.lastName,
    varchar_ok hwf.email, varchar_ok (hhash s.password).1, (hhash s.password).2, pure,
    Except.pure, Submission.row, and_assoc]

theorem users_insert_iff {t : Users} {r : UserRow} :
    (∃ t', t.insert r = .ok t') ↔ r.id ∉ t.rows.map UserRow.id ∧
      r.login ∉ t.rows.map UserRow.login ∧ r.email ∉ t.rows.map UserRow.email := by
  unfold Users.insert
  split
  · rename_i hnew
    exact iff_of_true ⟨_, rfl⟩ hnew
  · rename_i hold
    exact iff_of_false (by simp) hold

/-- The INSERT stores the row and returns it, or fails. -/
theorem insertion_cases (hwf : s.WellFormed u) (hhash : HashFits u) (hfault : ch.fault = none)
    (hserial : ch.serial ∉ w.db.users.rows.map UserRow.id) (now : Int) :
    (InsertPasses s.login s.firstName s.lastName s.email w ∧
      (perform (.execute (s.insertion u now)) ch w).1.db.users.rows =
        w.db.users.rows ++ [s.row u ch.serial now] ∧
      (perform (.execute (s.insertion u now)) ch w).2 =
        .ok [pick Query.userColumns (s.row u ch.serial now).columns]) ∨
    (¬InsertPasses s.login s.firstName s.lastName s.email w ∧
      ∃ e, perform (.execute (s.insertion u now)) ch w = (w, .error e)) := by
  have hinsert : InsertPasses s.login s.firstName s.lastName s.email w ↔
      (NulFree s.login ∧ NulFree s.firstName ∧ NulFree s.lastName ∧ NulFree s.email) ∧
        ∃ users, w.db.users.insert (s.row u ch.serial now) = .ok users := by
    refine and_congr_right ?_
    intro _
    rw [users_insert_iff, and_iff_right (by exact hserial)]
    simp only [Submission.row, List.mem_map, not_exists, not_and, forall_and]
  rcases execute_cases ch w (s.insertion u now) with ⟨e, he, heq⟩ | ⟨db, rows, _, hact, heq⟩
  · refine Or.inr ⟨?_, e, heq⟩
    intro hpasses
    obtain ⟨hnul, users, hok⟩ := hinsert.mp hpasses
    rcases he with hfault' | ⟨_, herror⟩
    · rw [hfault] at hfault'
      exact absurd hfault' (by simp)
    · have hexec : w.db.execute ch.serial (s.insertion u now) = .ok _ :=
        (insertion_ok hwf hhash).mpr ⟨hnul, users, hok, rfl, rfl⟩
      exact absurd (hexec.symm.trans herror) (by simp)
  · obtain ⟨hnul, users, hok, rfl, rfl⟩ := (insertion_ok hwf hhash).mp hact
    rw [heq]
    exact Or.inl ⟨hinsert.mpr ⟨hnul, users, hok⟩, (users_insert_ok hok).1, rfl⟩

theorem insertion_answers (hwf : s.WellFormed u) (hhash : HashFits u) (hfault : ch.fault = none)
    (hserial : ch.serial ∉ w.db.users.rows.map UserRow.id) (now : Int) :
    Answers ⟨.execute (s.insertion u now), (perform (.execute (s.insertion u now)) ch w).2⟩ ↔
      InsertPasses s.login s.firstName s.lastName s.email w := by
  rw [answers_insertion]
  rcases insertion_cases hwf hhash hfault hserial now with ⟨hpasses, _, hanswer⟩ | ⟨hnot, e, heq⟩
  · obtain ⟨user, huser⟩ := exists_userHolds.mpr
      (⟨rfl, rfl⟩ : UserFilled (s.row u ch.serial now) ∧ _)
    exact iff_of_true ⟨_, hanswer, user, decodeUser_iff.mpr huser⟩ hpasses
  · rw [heq]
    exact iff_of_false (by simp) hnot

end Statements

/-! ## Runs -/

/-- Any number of registrations, their calls interleaved in any order. -/
def runRegistrations (u : Userver) (w : World) (submissions : ℕ → Submission)
    (sched : List (ℕ × Choice)) : ServiceConfig :=
  Config.run perform
    (Config.start w fun tid => registerWith insertUser u (submissions tid).request) sched

/-- The row holds the fields of the request. -/
structure OwnRow (u : Userver) (s : Submission) (r : UserRow) : Prop where
  login : r.login = s.login
  passwordHash : r.passwordHash = u.sha256 s.password
  firstName : r.firstName = s.firstName
  lastName : r.lastName = s.lastName
  email : r.email = s.email

/-- The call leaves the table as it was. -/
def Untouched (e : ServiceEvent) : Prop :=
  (e.after perform).db.users.rows = e.before.db.users.rows

/-- One call of the request adds one row, its own, which stays; the others add none. -/
def AddsOneRow (u : Userver) (s : Submission) (cfg : ServiceConfig) (tid : ℕ) : Prop :=
  ∃ (i : ℕ) (e : ServiceEvent) (r : UserRow), cfg.trace[i]? = some e ∧ e.tid = tid ∧
    OwnRow u s r ∧ (e.after perform).db.users.rows = e.before.db.users.rows ++ [r] ∧
    r ∈ cfg.world.db.users.rows ∧
    ∀ j e', cfg.trace[j]? = some e' → e'.tid = tid → j ≠ i → Untouched e'

/-- The request is answered 201 with one new row, or 409 with none. -/
def AnsweredAsStored (u : Userver) (s : Submission) (cfg : ServiceConfig) (tid : ℕ) : Prop :=
  ∃ response, Answered cfg tid response ∧
    (response.status = 201 ∧ AddsOneRow u s cfg tid ∨
      response.status = 409 ∧ ∀ e ∈ cfg.trace, e.tid = tid → Untouched e)

/-- Every request that has ended is answered so; in particular none has thrown. -/
def AllAnswered (u : Userver) (submissions : ℕ → Submission) (cfg : ServiceConfig) : Prop :=
  ∀ tid, ¬Delivery.Running cfg tid → AnsweredAsStored u (submissions tid) cfg tid

section Runs

variable {u : Userver} {w : World} {submissions : ℕ → Submission} {sched : List (ℕ × Choice)}

/-- A request that was scheduled seven times has ended. -/
theorem ends_after_seven {tid : ℕ} (h : 7 ≤ sched.countP fun a => a.1 = tid) :
    ¬Delivery.Running (runRegistrations u w submissions sched) tid := by
  rintro ⟨c, k, hpool⟩
  set cfg := runRegistrations u w submissions sched
  have hcalls : Prog.Obeys (fun h _ => h.length < 7) (fun _ _ => True) (fun _ _ => True)
      (own perform tid cfg.trace) (cfg.pool tid) :=
    (Config.run_obeys perform (fun _ => seven_calls) sched).pool tid
  have hlength : (own perform tid cfg.trace).length = sched.countP fun a => a.1 = tid :=
    Config.own_length_of_running perform hpool
  rw [hpool] at hcalls
  have hlt := hcalls.1
  omega

/-- Every call meets the contract of its request, and so does what is left of it. -/
theorem run_registersOnce (hwf : ∀ tid, (submissions tid).WellFormed u) :
    Config.Contracts perform
      (fun tid h c => Clean h ∧ NextStatement u (submissions tid) h c)
      (fun tid h response => Clean h ∧ AnswersAfter u (submissions tid) h response)
      (fun _ h _ => ¬Clean h) (runRegistrations u w submissions sched) :=
  Config.run_obeys perform (fun tid => registersOnce (hwf tid).posts) sched

/-- A call is the lookup, the INSERT, or no statement. -/
theorem call_cases (hwf : ∀ tid, (submissions tid).WellFormed u) {i : ℕ} {e : ServiceEvent}
    (hi : (runRegistrations u w submissions sched).trace[i]? = some e) :
    e.call = .execute (submissions e.tid).lookup ∨
    (∃ now, e.call = .execute ((submissions e.tid).insertion u now) ∧
      statements (own perform e.tid ((runRegistrations u w submissions sched).trace.take i)) =
        [⟨.execute (submissions e.tid).lookup, .ok []⟩]) ∨
    ∀ s, e.call ≠ .execute s := by
  obtain ⟨_, hnext⟩ := (run_registersOnce hwf).calls i e hi
  by_cases hexec : ∃ s, e.call = .execute s
  · obtain ⟨s, hs⟩ := hexec
    rcases hnext s hs with ⟨_, rfl⟩ | ⟨hbefore, now, rfl⟩
    · exact Or.inl hs
    · exact Or.inr (Or.inl ⟨now, hs, hbefore⟩)
  · exact Or.inr (Or.inr (not_exists.mp hexec))

/-- A call lets its request go on exactly when the state before it does. -/
theorem answers_iff (hwf : ∀ tid, (submissions tid).WellFormed u) (hhash : HashFits u)
    (hatomic : Atomic (runRegistrations u w submissions sched).trace) {i : ℕ} {e : ServiceEvent}
    (hi : (runRegistrations u w submissions sched).trace[i]? = some e) :
    Answers (e.seen perform) ↔ Passes e := by
  have hmem := List.mem_of_getElem? hi
  have hcases := call_cases hwf hi
  have hfault := hatomic.nofault e hmem
  have hserial := hatomic.serials e hmem
  have hwell := hwf e.tid
  obtain ⟨tid, c, ch, before⟩ := e
  dsimp only at hcases
  rcases hcases with rfl | ⟨now, rfl, _⟩ | hother
  · exact lookup_answers (hfault _ rfl)
  · exact insertion_answers hwell hhash (hfault _ rfl) (hserial _ rfl) now
  · cases c with
    | execute s => exact absurd rfl (hother s)
    | _ => exact Iff.rfl

/-- A request that has not thrown saw no refused statement. -/
theorem clean_iff_not_thrown (hwf : ∀ tid, (submissions tid).WellFormed u) {tid : ℕ} :
    Clean (own perform tid (runRegistrations u w submissions sched).trace) ↔
      ∀ exc, (runRegistrations u w submissions sched).pool tid ≠ .throw exc := by
  have hobeys := (@run_registersOnce u w submissions sched hwf).pool tid
  cases hpool : (runRegistrations u w submissions sched).pool tid with
  | call c k =>
      rw [hpool] at hobeys
      exact iff_of_true hobeys.1.1 (by simp)
  | pure response =>
      rw [hpool] at hobeys
      exact iff_of_true hobeys.1 (by simp)
  | throw exc =>
      rw [hpool] at hobeys
      exact iff_of_false hobeys (by simp)

theorem untouched_of_no_insert (hwf : ∀ tid, (submissions tid).WellFormed u) {i : ℕ}
    {e : ServiceEvent} (hi : (runRegistrations u w submissions sched).trace[i]? = some e)
    (h : ∀ now, e.call ≠ .execute ((submissions e.tid).insertion u now)) : Untouched e := by
  have hcases := call_cases hwf hi
  obtain ⟨tid, c, ch, before⟩ := e
  dsimp only at hcases
  rcases hcases with rfl | ⟨now, rfl, _⟩ | hother
  · show (perform _ ch before).1.db.users.rows = _
    rw [lookup_world]
  · exact absurd rfl (h now)
  · show (perform c ch before).1.db.users.rows = _
    rw [perform_db c ch before hother]

/-- What a request has seen, statement by statement. -/
theorem mem_statements {tr : List ServiceEvent} {tid : ℕ} {s : Statement}
    {answer : Except Exn (List Row)} :
    ⟨.execute s, answer⟩ ∈ statements (own perform tid tr) ↔
      ⟨.execute s, answer⟩ ∈ own perform tid tr := by
  simp [statements]

theorem insertion_ne_lookup {s s' : Submission} {now : Int} : s.insertion u now ≠ s'.lookup :=
  fun h => Statement.noConfusion h

/-- A request that has only run its lookup has seen no INSERT. -/
theorem insertion_not_seen {s s' : Submission} {tr : List ServiceEvent} {e : ServiceEvent}
    {answer : Except Exn (List Row)} {now : Int}
    (h : statements (own perform e.tid tr) = [⟨.execute s'.lookup, answer⟩])
    (hcall : e.call = .execute (s.insertion u now)) :
    e.seen perform ∉ own perform e.tid tr := by
  intro hmem
  obtain ⟨tid, c, ch, before⟩ := e
  dsimp only at hcall
  subst hcall
  have hseen := mem_statements.mpr hmem
  rw [h, List.mem_singleton] at hseen
  exact insertion_ne_lookup (Call.execute.inj (Sigma.mk.inj hseen).1)

/-- A request runs one INSERT. -/
theorem one_insertion (hwf : ∀ tid, (submissions tid).WellFormed u) {i j : ℕ}
    {e e' : ServiceEvent} (hi : (runRegistrations u w submissions sched).trace[i]? = some e)
    (hj : (runRegistrations u w submissions sched).trace[j]? = some e') (htid : e'.tid = e.tid)
    {now now' : Int} (hcall : e.call = .execute ((submissions e.tid).insertion u now))
    (hcall' : e'.call = .execute ((submissions e'.tid).insertion u now')) : ¬i < j := by
  intro hij
  rcases call_cases hwf hj with hlookup | ⟨_, _, hbefore⟩ | hother
  · rw [hcall'] at hlookup
    exact insertion_ne_lookup (Call.execute.inj hlookup)
  · -- it would have seen the first INSERT before the second
    have hmem : e.seen perform ∈ own perform e'.tid
        ((runRegistrations u w submissions sched).trace.take j) :=
      (mem_own_take perform).mpr ⟨i, e, hij, hi, htid.symm, rfl⟩
    rw [htid] at hbefore hmem
    exact insertion_not_seen hbefore hcall hmem
  · exact hother _ hcall'

/-- A request that was answered has stored what its answer says. -/
theorem answeredAsStored (hwf : ∀ tid, (submissions tid).WellFormed u) (hhash : HashFits u)
    (hatomic : Atomic (runRegistrations u w submissions sched).trace) {tid : ℕ}
    {response : HttpResponse}
    (hanswer : Answered (runRegistrations u w submissions sched) tid response) :
    AnsweredAsStored u (submissions tid) (runRegistrations u w submissions sched) tid := by
  set cfg := runRegistrations u w submissions sched
  have hobeys := (@run_registersOnce u w submissions sched hwf).pool tid
  rw [show (runRegistrations u w submissions sched).pool tid = .pure response from hanswer]
    at hobeys
  refine ⟨response, hanswer, ?_⟩
  rcases hobeys.2 with ⟨hstatus, now, rows, hseen⟩ | ⟨hstatus, rows, hseen⟩
  · refine Or.inl ⟨hstatus, ?_⟩
    have hmem : (⟨.execute ((submissions tid).insertion u now), .ok rows⟩ :
        Σ c, Call.Answer c) ∈ own perform tid cfg.trace :=
      mem_statements.mp (by rw [hseen]; simp)
    obtain ⟨i, e, hi, rfl, he⟩ := (mem_own perform).mp hmem
    obtain ⟨hcall, hok⟩ := seen_execute he
    rcases insertion_cases (hwf e.tid) hhash
      (hatomic.nofault e (List.mem_of_getElem? hi) _ hcall)
      (hatomic.serials e (List.mem_of_getElem? hi) _ hcall) now
      with ⟨_, hrows, _⟩ | ⟨_, exc, heq⟩
    · have hafter : (e.after perform).db.users.rows =
          e.before.db.users.rows ++ [(submissions e.tid).row u e.choice.serial now] := by
        rw [Event.after, hcall]
        exact hrows
      refine ⟨i, e, _, hi, rfl, ⟨rfl, rfl, rfl, rfl, rfl⟩, hafter, ?_, ?_⟩
      · have hchained : Config.Chained perform w cfg.trace ∧
            cfg.world = Config.worldAfter perform w cfg.trace := Config.run_chained perform sched
        rw [hchained.2]
        refine Config.stable_end perform (P := fun w => _ ∈ w.db.users.rows) hchained.1
          (fun e' _ hrow => (mem_rows_perform e'.call e'.choice e'.before).1 _ hrow) hi ?_
        rw [hafter]
        exact List.mem_append_right _ (List.mem_singleton_self _)
      · intro j e' hj htid hne
        refine untouched_of_no_insert hwf hj ?_
        intro now' hcall'
        rcases Nat.lt_or_gt_of_ne hne with hlt | hgt
        · exact one_insertion hwf hj hi htid.symm hcall' hcall hlt
        · exact one_insertion hwf hi hj htid hcall hcall' hgt
    · rw [heq] at hok
      exact absurd hok (by simp)
  · refine Or.inr ⟨hstatus, ?_⟩
    rintro e he rfl
    obtain ⟨i, hi⟩ := List.mem_iff_getElem?.mp he
    refine untouched_of_no_insert hwf hi ?_
    intro now hcall
    have hmem : e.seen perform ∈ own perform e.tid cfg.trace :=
      (mem_own perform).mpr ⟨i, e, hi, rfl, rfl⟩
    exact insertion_not_seen hseen hcall hmem

/-- **When every registration is answered.** -/
theorem allAnswered_iff (hwf : ∀ tid, (submissions tid).WellFormed u) (hhash : HashFits u)
    (hatomic : Atomic (runRegistrations u w submissions sched).trace) :
    (∀ tid, 7 ≤ (sched.countP fun a => a.1 = tid) →
      ¬Delivery.Running (runRegistrations u w submissions sched) tid) ∧
    (AllAnswered u submissions (runRegistrations u w submissions sched) ↔
      ∀ e ∈ (runRegistrations u w submissions sched).trace, Passes e) := by
  refine ⟨fun tid => ends_after_seven, ?_, ?_⟩
  · intro hall e he
    obtain ⟨i, hi⟩ := List.mem_iff_getElem?.mp he
    rw [← answers_iff hwf hhash hatomic hi]
    have hclean : Clean (own perform e.tid (runRegistrations u w submissions sched).trace) := by
      refine (clean_iff_not_thrown hwf).mpr ?_
      intro exc hpool
      obtain ⟨response, hanswer, _⟩ := hall e.tid (by
        rintro ⟨c, k, hrunning⟩
        rw [hpool] at hrunning
        exact absurd hrunning (by simp))
      exact absurd (hpool.symm.trans hanswer) (by simp)
    exact hclean _ ((mem_own perform).mpr ⟨i, e, hi, rfl, rfl⟩)
  · intro hpasses tid hended
    have hclean : Clean (own perform tid (runRegistrations u w submissions sched).trace) := by
      intro o ho
      obtain ⟨i, e, hi, _, rfl⟩ := (mem_own perform).mp ho
      exact (answers_iff hwf hhash hatomic hi).mpr (hpasses e (List.mem_of_getElem? hi))
    cases hpool : (runRegistrations u w submissions sched).pool tid with
    | call c k => exact absurd ⟨c, k, hpool⟩ hended
    | throw exc => exact absurd hpool ((clean_iff_not_thrown hwf).mp hclean exc)
    | pure response => exact answeredAsStored hwf hhash hatomic hpool

end Runs

/-! ## A new login and the login of a deleted user -/

def ann : Submission :=
  { request := Sample.http "" "" "", login := "ann", password := "", firstName := "Ann"
    lastName := "Lee", email := "ann@example.com" }

theorem ann_wellFormed : ann.WellFormed Sample.passwordOnly :=
  { posts := ⟨_, rfl, rfl, rfl, rfl, rfl, rfl⟩
    login := by decide
    firstName := by decide
    lastName := by decide
    email := by decide }

/-- Lookup, clock and INSERT. -/
def threeCalls : List (ℕ × Choice) := List.replicate 3 (0, { serial := 1 })

def calls (w : World) : List ServiceEvent :=
  [⟨0, .execute ann.lookup, { serial := 1 }, w⟩, ⟨0, .systemNow, { serial := 1 }, w⟩,
   ⟨0, .execute (ann.insertion Sample.passwordOnly 0), { serial := 1 }, w⟩]

theorem atomic_calls {w : World} {rest : List ServiceEvent}
    (hserial : 1 ∉ w.db.users.rows.map UserRow.id)
    (hrest : ∀ e ∈ rest, ∀ s, e.call = .execute s →
      e.choice.fault = none ∧ e.choice.serial ∉ e.before.db.users.rows.map UserRow.id) :
    Atomic (calls w ++ rest) := by
  have hcalls : ∀ e ∈ calls w, e.choice = { serial := 1 } ∧ e.before = w := by simp [calls]
  refine ⟨?_, ?_⟩
  · intro e he s hcall
    rcases List.mem_append.mp he with hm | hm
    · rw [(hcalls e hm).1]
    · exact (hrest e hm s hcall).1
  · intro e he s hcall
    rcases List.mem_append.mp he with hm | hm
    · rw [(hcalls e hm).1, (hcalls e hm).2]
      exact hserial
    · exact (hrest e hm s hcall).2

/-- Ann registers twice; the second request comes between the first one's row and its event. -/
def twice : ServiceConfig :=
  runRegistrations Sample.passwordOnly Sample.empty (fun _ => ann)
    (threeCalls ++ (1, { serial := 2 }) :: List.replicate 3 (0, { serial := 1 }))

/-- The table that the second lookup meets. -/
def withAnn : World :=
  (perform (.execute (ann.insertion Sample.passwordOnly 0)) { serial := 1 } Sample.empty).1

theorem twice_trace : ∃ rest : List ServiceEvent, twice.trace = calls Sample.empty ++
      ⟨1, .execute ann.lookup, { serial := 2 }, withAnn⟩ :: rest ∧
    ∀ e ∈ rest, ∀ s, e.call ≠ .execute s :=
  ⟨[⟨0, .randomDraws, _, _⟩, ⟨0, .systemNow, _, _⟩, ⟨0, .send _ _ _, _, _⟩], rfl, by simp⟩

/-- The first request is answered 201, the second 409. -/
theorem allAnswered_ann :
    AllAnswered Sample.passwordOnly (fun _ => ann) twice ∧
      (∃ response, Answered twice 0 response ∧ response.status = 201) ∧
      ∃ response, Answered twice 1 response ∧ response.status = 409 := by
  obtain ⟨rest, htrace, hrest⟩ := twice_trace
  refine ⟨(allAnswered_iff (fun _ => ann_wellFormed) Sample.digest_fits ?_).2.mpr ?_,
    ⟨_, rfl, rfl⟩, _, rfl, rfl⟩
  · show Atomic twice.trace
    rw [htrace]
    refine atomic_calls List.not_mem_nil ?_
    intro e he s hcall
    rcases List.mem_cons.mp he with rfl | hm
    · exact ⟨rfl, by decide⟩
    · exact absurd hcall (hrest e hm s)
  · show ∀ e ∈ twice.trace, Passes e
    rw [htrace]
    intro e he
    rcases List.mem_append.mp he with hm | hm
    · simp only [calls, List.mem_cons, List.not_mem_nil, or_false] at hm
      rcases hm with rfl | rfl | rfl
      · exact ⟨by decide, fun r hr => absurd hr List.not_mem_nil⟩
      · trivial
      · exact ⟨by decide, fun r hr => absurd hr List.not_mem_nil⟩
    · rcases List.mem_cons.mp hm with rfl | hm
      · refine ⟨by decide, fun r hr _ _ => ?_⟩
        rw [List.mem_singleton.mp (hr : r ∈ [ann.row Sample.passwordOnly 1 0])]
        exact rfl
      · have hother := hrest e hm
        unfold Passes
        split
        · rename_i hcall
          exact absurd hcall (hother _)
        · rename_i hcall
          exact absurd hcall (hother _)
        · trivial

/-- A user who was deleted. -/
def deletedAnn : UserRow :=
  { Sample.ann with id := 7, email := "lee@example.com", isDeleted := some true }

def withDeleted : World := Sample.oneUser deletedAnn

/-- The deleted user's login, registered again. -/
def again : ServiceConfig :=
  runRegistrations Sample.passwordOnly withDeleted (fun _ => ann) threeCalls

/-- The lookup finds nobody, and the INSERT throws. -/
theorem allAnswered_fails_on_deleted :
    ann.WellFormed Sample.passwordOnly ∧ HashFits Sample.passwordOnly ∧
      Atomic again.trace ∧ ¬AllAnswered Sample.passwordOnly (fun _ => ann) again := by
  refine ⟨ann_wellFormed, Sample.digest_fits, ?_, ?_⟩
  · have htrace : again.trace = calls withDeleted ++ [] := rfl
    rw [htrace]
    exact atomic_calls (by decide) (by simp)
  · intro hall
    have hthrown : again.pool 0 = .throw .integrityViolation := rfl
    obtain ⟨response, hanswer, _⟩ := hall 0 (by
      rintro ⟨c, k, hrunning⟩
      exact absurd (hthrown.symm.trans hrunning) (by simp))
    exact absurd (hthrown.symm.trans hanswer) (by simp)

end MyService.Handlers.Registration
