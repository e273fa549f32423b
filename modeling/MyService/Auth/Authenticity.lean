import MyService.Auth.JwtAuthChecker
import MyService.Handlers.Calls

/-!
# Who a stored identity belongs to

Clients send requests; the seven endpoints with `auth: type: jwt-auth` reach their
handler through `CheckAuth`, which also says who the request is from. HS256 is taken
symbolically: what verifies has been generated. `stored_identities_authentic` follows a
stored owner, creator or author back through the check and the token to the login that
showed the password.
-/

namespace MyService.Auth

open Framework Userver Userver.Postgres Chrono Handlers Handlers.Calls Models Storage
  PostgresStorage

/-! ## Requests of clients -/

inductive Endpoint where
  | register
  | login
  | userSearch
  | createProject
  | getProjects
  | createTask
  | addComment
  | getComments
  | addReply
deriving DecidableEq

namespace Endpoint

/-- The request that the handler gets, with what the context holds as `user_id`. -/
def request (http : HttpRequest) (userId : Int) : Endpoint → Request
  | .register => .register http
  | .login => .login http
  | .userSearch => .userSearch http
  | .createProject => .createProject http userId
  | .getProjects => .getProjects http
  | .createTask => .createTask http userId
  | .addComment => .addComment http userId
  | .getComments => .getComments http
  | .addReply => .addReply http

/-- `auth: type: jwt-auth` in `static_config.yaml`. -/
def authenticated : Endpoint → Bool
  | .register | .login => false
  | _ => true

end Endpoint

structure ClientRequest where
  endpoint : Endpoint
  http : HttpRequest

/-- The handler runs once the check has passed; `reject` answers for the others. -/
def afterCheck (u : Userver) (reject : AuthCheckResult → HttpResponse) (r : ClientRequest) :
    AuthCheckResult × Option Int → Service HttpResponse
  | ({ status := .ok, .. }, some userId) => serve u (r.endpoint.request r.http userId)
  | (result, _) => pure (reject result)

def serveClient (u : Userver) (jwt : JwtCpp) (secret : String)
    (reject : AuthCheckResult → HttpResponse) (r : ClientRequest) : Service HttpResponse :=
  if r.endpoint.authenticated then do
    afterCheck u reject r (← checkAuth jwt secret r.http)
  else serve u (r.endpoint.request r.http 0)

def runClients (u : Userver) (jwt : JwtCpp) (secret : String)
    (reject : AuthCheckResult → HttpResponse) (w : World) (requests : ℕ → ClientRequest)
    (sched : List (ℕ × Choice)) : ServiceConfig :=
  Config.run perform (Config.start w fun tid => serveClient u jwt secret reject (requests tid))
    sched

/-! ## Whose identity a call stores -/

/-- The call stores nothing, or this id as owner, creator or author. -/
def ActsAs (userId : Int) : Call → Prop
  | .execute (.insertProject _ _ _ ownerId _ _) => ownerId = userId
  | .execute (.insertTask _ _ _ _ creatorId _ _ _ _ _) => creatorId = userId
  | .insertOne doc => doc.lookup "author_id" = some (.int32 userId)
  | _ => True

/-- Whoever the request may store as owner, creator or author is this user. -/
def OnBehalfOf (userId : Int) : Request → Prop
  | .createProject _ id | .createTask _ id | .addComment _ id => id = userId
  | _ => True

theorem onBehalfOf_request (endpoint : Endpoint) (http : HttpRequest) (userId : Int) :
    OnBehalfOf userId (endpoint.request http userId) := by
  cases endpoint with
  | createProject | createTask | addComment => exact rfl
  | _ => trivial

/-- A handler stores no other identity than the one it is given. -/
theorem actsAs_of_makes {u : Userver} {request : Request} {userId : Int}
    {h : Prog.History Call Call.Answer} {c : Call} (hmakes : Makes u request h c)
    (hidentity : OnBehalfOf userId request) : ActsAs userId c := by
  cases hmakes with
  | projectInsert | taskInsert => exact hidentity
  | commentInsert =>
      simp only [ActsAs, commentToBson]
      exact congrArg (some ∘ Bson.int32) hidentity
  | _ => trivial

/-! ## The token of a login -/

/-- A login that has made just these calls has generated the token, for the user it
found. -/
def IssuedIn (u : Userver) (http : HttpRequest) (h : Prog.History Call Call.Answer)
    (userId issuedAt reading : Int) (token : String) : Prop :=
  ∃ login rows user, h = callsToToken http login rows issuedAt reading ∧
    asSingleRow decodeUser rows = .ok user ∧ user.id = userId ∧
    token = u.signHs256 "project-manager" (toString userId) (toTimeT issuedAt) (expiry reading)
      jwtSecret

/-! ## The contract of a request -/

/-- The call stores no identity, or one that the check of this request gave; a login makes
the calls of its handler. -/
structure Authorized (u : Userver) (jwt : JwtCpp) (secret : String) (r : ClientRequest)
    (h : Prog.History Call Call.Answer) (c : Call) : Prop where
  acts : (∀ id, ActsAs id c) ∨ ∃ now token userId, [⟨.systemNow, now⟩] <+: h ∧
    Bears r.http token ∧ Verifies jwt secret token now userId ∧ ActsAs userId c
  logsIn : r.endpoint = .login → Makes u (.login r.http) h c

section ServeClient

variable {u : Userver} {jwt : JwtCpp} {secret : String} {reject : AuthCheckResult → HttpResponse}
  {r : ClientRequest}

/-- After a check that passed, the handler acts as the user that the check gave. -/
theorem obeys_checked (hauth : r.endpoint.authenticated = true) {now userId : Int}
    {token : String} (hbears : Bears r.http token)
    (hverifies : Verifies jwt secret token now userId) :
    Prog.Obeys (Authorized u jwt secret r) (fun _ _ => True) (fun _ _ => True)
      [⟨.systemNow, now⟩] (serve u (r.endpoint.request r.http userId)) := by
  have hserve := (conducts_serve u (r.endpoint.request r.http userId)).append
    [⟨.systemNow, now⟩]
  refine hserve.mono ?_ (fun _ _ _ => trivial) fun _ _ _ => trivial
  rintro _ c ⟨h, rfl, hmakes⟩
  refine ⟨?_, ?_⟩
  · exact Or.inr ⟨now, token, userId, List.prefix_append _ _, hbears, hverifies,
      actsAs_of_makes hmakes (onBehalfOf_request r.endpoint r.http userId)⟩
  · intro hlogin
    rw [hlogin] at hauth
    exact absurd hauth (by decide)

theorem afterCheck_none (result : AuthCheckResult) :
    afterCheck u reject r (result, none) = .pure (reject result) := by
  obtain ⟨status, reason⟩ := result
  cases status <;> rfl

/-- A call that stores nothing, of a request that is checked. -/
theorem authorized_of_nothing (hauth : r.endpoint.authenticated = true)
    {h : Prog.History Call Call.Answer} {c : Call} (hc : ∀ id, ActsAs id c) :
    Authorized u jwt secret r h c := by
  refine ⟨Or.inl hc, ?_⟩
  intro hlogin
  rw [hlogin] at hauth
  exact absurd hauth (by decide)

theorem obeys_serveClient :
    Prog.Obeys (Authorized u jwt secret r) (fun _ _ => True) (fun _ _ => True) []
      (serveClient u jwt secret reject r) := by
  unfold serveClient
  by_cases hauth : r.endpoint.authenticated = true
  · rw [if_pos hauth]
    by_cases hbears : ∃ token, Bears r.http token
    · obtain ⟨token, hbears⟩ := hbears
      rw [checkAuth_bears hbears]
      cases hdecode : jwt.decode token with
      | error exc =>
          show Prog.Obeys _ _ _ [] (afterCheck u reject r (refusal jwt exc, none))
          rw [afterCheck_none]
          trivial
      | ok decoded =>
          refine ⟨authorized_of_nothing hauth fun _ => trivial, ?_⟩
          intro now
          show Prog.Obeys _ _ _ [⟨.systemNow, now⟩]
            (afterCheck u reject r (verdictOf jwt (judge jwt secret decoded now)))
          cases hjudge : judge jwt secret decoded now with
          | error exc =>
              rw [verdictOf, afterCheck_none]
              trivial
          | ok userId =>
              exact obeys_checked hauth hbears ((verifies_iff hdecode).mpr hjudge)
    · obtain ⟨result, hcheck⟩ : ∃ result, checkAuth jwt secret r.http = .pure (result, none) :=
        checkAuth_no_bearer (not_exists.mp hbears)
      rw [hcheck]
      show Prog.Obeys _ _ _ [] (afterCheck u reject r (result, none))
      rw [afterCheck_none]
      trivial
  · rw [if_neg hauth]
    obtain ⟨endpoint, http⟩ := r
    cases endpoint with
    | register =>
        exact (conducts_register u http).mono
          (fun _ _ hmakes => ⟨Or.inl fun _ => actsAs_of_makes hmakes trivial,
            fun hlogin => absurd hlogin (by simp)⟩) (fun _ _ _ => trivial) fun _ _ _ => trivial
    | login =>
        exact (conducts_login u http).mono
          (fun _ _ hmakes => ⟨Or.inl fun _ => actsAs_of_makes hmakes trivial, fun _ => hmakes⟩)
          (fun _ _ _ => trivial) fun _ _ _ => trivial
    | _ => exact absurd rfl hauth

end ServeClient

/-! ## Runs -/

/-- The event at position `i` is the last of `GenerateToken` in a login request, which has
generated the token. -/
def Generated (u : Userver) (requests : ℕ → ClientRequest) (tr : List ServiceEvent) (i : ℕ)
    (userId issuedAt reading : Int) (token : String) : Prop :=
  ∃ e, tr[i]? = some e ∧ (requests e.tid).endpoint = .login ∧
    IssuedIn u (requests e.tid).http (own perform e.tid (tr.take (i + 1))) userId issuedAt
      reading token

/-- The event at position `j` is the clock reading of a check, which accepts the token. -/
def Accepted (jwt : JwtCpp) (secret : String) (requests : ℕ → ClientRequest)
    (tr : List ServiceEvent) (j : ℕ) (e : ServiceEvent) (token : String) (userId : Int) : Prop :=
  tr[j]? = some e ∧ e.call = .systemNow ∧ own perform e.tid (tr.take j) = [] ∧
    Bears (requests e.tid).http token ∧ Verifies jwt secret token e.choice.system userId

/-- HS256 taken symbolically: what a check accepts has been generated before it, and
jwt-cpp does with a generated token what it documents. -/
structure Symbolic (u : Userver) (jwt : JwtCpp) (secret : String)
    (requests : ℕ → ClientRequest) (tr : List ServiceEvent) : Prop where
  unforged : ∀ j e token userId, Accepted jwt secret requests tr j e token userId →
    ∃ i < j, ∃ userId' issuedAt reading, Generated u requests tr i userId' issuedAt reading token
  decodes : ∀ i userId issuedAt reading token,
    Generated u requests tr i userId issuedAt reading token →
    DecodesSigned u jwt "project-manager" (toString userId) (toTimeT issuedAt) (expiry reading)
      jwtSecret

/-- Before position `k`, the request `tid` passed a check with a token of this user. An
earlier login had looked up a row of this user, and supplied its login and the password
behind its hash; that login generated the very token that the check accepts, at most 24
hours, to the second, before the reading of the check. -/
def Authentic (u : Userver) (jwt : JwtCpp) (secret : String) (requests : ℕ → ClientRequest)
    (tr : List ServiceEvent) (k tid : ℕ) (userId : Int) : Prop :=
  ∃ (l i j : ℕ) (lookup issue check : ServiceEvent) (r : UserRow) (password token : String)
    (issuedAt : Int), l < i ∧ i < j ∧ j < k ∧
    tr[l]? = some lookup ∧ tr[i]? = some issue ∧ tr[j]? = some check ∧
    (requests lookup.tid).endpoint = .login ∧ issue.tid = lookup.tid ∧ check.tid = tid ∧
    lookup.call = .execute (selectUser r.login) ∧
    Supplies u (requests lookup.tid).http r.login password ∧
    r ∈ lookup.before.db.users.rows ∧ r.id = userId ∧ r.passwordHash = u.sha256 password ∧
    Generated u requests tr i userId issuedAt issue.choice.system token ∧
    Accepted jwt secret requests tr j check token userId ∧
    issue.call = .systemNow ∧ check.call = .systemNow ∧
    check.choice.system < issue.choice.system + (24 * 3600 + 1) * ticksPerSecond

/-- The rows and the document that a call adds have an owner, a creator, an author of
this kind. -/
structure StoresOnly (P : Int → Prop) (e : ServiceEvent) : Prop where
  owner : ∀ r ∈ (e.after perform).db.projects.rows, r ∉ e.before.db.projects.rows →
    ∃ userId, r.ownerId = some userId ∧ P userId
  creator : ∀ r ∈ (e.after perform).db.tasks.rows, r ∉ e.before.db.tasks.rows → P r.creatorId
  author : ∀ d ∈ (e.after perform).comments.docs,
    d.id ∉ e.before.comments.docs.map Document.id →
    ∃ userId, d.get? "author_id" = some (.int32 userId) ∧ P userId

/-! ### What a call adds -/

theorem execute_adds_project {db db' : Database} {serial : Int} {s : Statement}
    (h : Database.Executed db serial s db') {userId : Int} (hacts : ActsAs userId (.execute s))
    {r : ProjectRow} (hr : r ∈ db'.projects.rows) (hnew : r ∉ db.projects.rows) :
    r.ownerId = some userId := by
  cases h with
  | insertProject hrow hinsert =>
      simp only [Database.newProject, except_bind_ok, pure, Except.pure, Except.ok.injEq] at hrow
      obtain ⟨_, _, _, _, _, _, _, _, rfl⟩ := hrow
      have hmem : r ∈ db.projects.rows ++ [_] := (projects_insert_ok hinsert).1 ▸ hr
      rcases List.mem_append.mp hmem with hold | hadded
      · exact absurd hold hnew
      · rw [List.mem_singleton.mp hadded]
        exact congrArg some hacts
  | _ => exact absurd hr hnew

theorem execute_adds_task {db db' : Database} {serial : Int} {s : Statement}
    (h : Database.Executed db serial s db') {userId : Int} (hacts : ActsAs userId (.execute s))
    {r : TaskRow} (hr : r ∈ db'.tasks.rows) (hnew : r ∉ db.tasks.rows) :
    r.creatorId = userId := by
  cases h with
  | insertTask hrow hinsert =>
      simp only [Database.newTask, except_bind_ok, pure, Except.pure, Except.ok.injEq] at hrow
      obtain ⟨_, _, _, _, _, _, _, _, _, _, _, _, rfl⟩ := hrow
      have hmem : r ∈ db.tasks.rows ++ [_] := (tasks_insert_ok hinsert).1 ▸ hr
      rcases List.mem_append.mp hmem with hold | hadded
      · exact absurd hold hnew
      · rw [List.mem_singleton.mp hadded]
        exact hacts
  | _ => exact absurd hr hnew

theorem perform_adds_document {c : Call} {ch : Choice} {w : World} {userId : Int}
    (hacts : ActsAs userId c) {d : Document} (hd : d ∈ (perform c ch w).1.comments.docs)
    (hnew : d.id ∉ w.comments.docs.map Document.id) :
    d.get? "author_id" = some (.int32 userId) := by
  have hold : d ∉ w.comments.docs := fun h => hnew (List.mem_map_of_mem h)
  by_cases hinsert : ∃ doc, c = .insertOne doc
  · obtain ⟨doc, rfl⟩ := hinsert
    rcases insertOne_cases ch w doc with ⟨e, _, heq⟩ | ⟨comments, _, hok, heq⟩
    · rw [heq] at hd
      exact absurd hd hold
    · rw [heq] at hd
      rcases w.comments.insertOne_cases ch.oid doc with ⟨_, c', hc', hdocs⟩ | ⟨_, herr⟩
      · obtain rfl := Except.ok.inj (hok.symm.trans hc')
        rcases List.mem_append.mp (hdocs ▸ hd : d ∈ w.comments.docs ++ [_]) with hm | hm
        · exact absurd hm hold
        · rw [List.mem_singleton.mp hm, Collection.get?_stored _ _ (by decide)]
          exact hacts
      · exact absurd (hok.symm.trans herr) (by simp)
  · by_cases hupdate : ∃ f update, c = .updateOne f update
    · obtain ⟨f, update, rfl⟩ := hupdate
      rcases updateOne_cases ch w f update with ⟨e, _, heq⟩ | ⟨comments, n, _, hok, heq⟩
      · rw [heq] at hd
        exact absurd hd hold
      · -- an update keeps the ids
        rw [heq] at hd
        have hid : d.id ∈ comments.docs.map Document.id := List.mem_map_of_mem hd
        rw [Collection.updateOne_ids hok] at hid
        exact absurd hid hnew
    · rw [perform_comments c ch w (fun doc hc => hinsert ⟨doc, hc⟩)
        fun f update hc => hupdate ⟨f, update, hc⟩] at hd
      exact absurd hd hold

/-- A call that acts as a user stores no other identity. -/
theorem storesOnly_of_actsAs {e : ServiceEvent} {userId : Int} (h : ActsAs userId e.call) :
    StoresOnly (fun id => id = userId) e := by
  obtain ⟨tid, c, ch, w⟩ := e
  refine ⟨?_, ?_, ?_⟩
  · intro r hr hnew
    rcases perform_execute c ch w with hsame | ⟨s, rfl, hexec⟩
    · rw [Event.after, hsame] at hr
      exact absurd hr hnew
    · exact ⟨userId, execute_adds_project hexec h hr hnew, rfl⟩
  · intro r hr hnew
    rcases perform_execute c ch w with hsame | ⟨s, rfl, hexec⟩
    · rw [Event.after, hsame] at hr
      exact absurd hr hnew
    · exact execute_adds_task hexec h hr hnew
  · intro d hd hnew
    exact ⟨userId, perform_adds_document h hd hnew, rfl⟩

theorem StoresOnly.mono {P Q : Int → Prop} {e : ServiceEvent} (h : StoresOnly P e)
    (hPQ : ∀ id, P id → Q id) : StoresOnly Q e := by
  refine ⟨?_, fun r hr hnew => hPQ _ (h.creator r hr hnew), ?_⟩
  · intro r hr hnew
    obtain ⟨userId, howner, hP⟩ := h.owner r hr hnew
    exact ⟨userId, howner, hPQ _ hP⟩
  · intro d hd hnew
    obtain ⟨userId, hauthor, hP⟩ := h.author d hd hnew
    exact ⟨userId, hauthor, hPQ _ hP⟩

/-- A call that acts as everybody stores no identity at all. -/
theorem storesOnly_of_nothing {e : ServiceEvent} (h : ∀ id, ActsAs id e.call) :
    StoresOnly (fun _ => False) e := by
  have hne : ∀ id : Int, id ≠ id + 1 := fun id => by omega
  refine ⟨?_, ?_, ?_⟩
  · intro r hr hnew
    obtain ⟨id, howner, _⟩ := (storesOnly_of_actsAs (h 0)).owner r hr hnew
    obtain ⟨_, howner', rfl⟩ := (storesOnly_of_actsAs (h (id + 1))).owner r hr hnew
    exact absurd (Option.some.inj (howner.symm.trans howner')) (hne id)
  · intro r hr hnew
    have hid := (storesOnly_of_actsAs (h (r.creatorId + 1))).creator r hr hnew
    exact absurd hid (hne _)
  · intro d hd hnew
    obtain ⟨id, hauthor, _⟩ := (storesOnly_of_actsAs (h 0)).author d hd hnew
    obtain ⟨_, hauthor', rfl⟩ := (storesOnly_of_actsAs (h (id + 1))).author d hd hnew
    have hint := Option.some.inj (hauthor.symm.trans hauthor')
    exact absurd (Bson.int32.inj hint) (hne id)

/-! ### What a login saw -/

/-- The user that a lookup by login decodes is a row with this login. -/
theorem selected_user {ch : Choice} {w : World} {login : String} {rows : List Row} {user : User}
    (h : (perform (.execute (.selectUserByLogin ["id", "login", "password_hash", "first_name",
      "last_name", "email", "created_at", "is_deleted"] login)) ch w).2 = .ok rows)
    (hdecode : asSingleRow decodeUser rows = .ok user) :
    ∃ r ∈ w.db.users.rows, r.login = login ∧ UserHolds user r := by
  rcases execute_cases ch w (.selectUserByLogin ["id", "login", "password_hash", "first_name",
    "last_name", "email", "created_at", "is_deleted"] login) with
    ⟨e, _, heq⟩ | ⟨db, rows', _, hact, heq⟩
  · rw [heq] at h
    exact absurd h (by simp)
  · rw [heq] at h
    obtain rfl := Except.ok.inj h
    simp only [Database.execute, except_bind_ok, pure, Except.pure, Except.ok.injEq,
      Prod.mk.injEq] at hact
    obtain ⟨login', htext, _, rfl⟩ := hact
    have hsame : login = login' := (text_ok.mp htext).2.symm
    subst hsame
    rcases hrows : w.db.users.rows.filter fun r =>
      decide (r.login = login ∧ r.isDeleted = some false) with _ | ⟨r, _ | _⟩
    · rw [hrows] at hdecode
      exact absurd hdecode (by simp [asSingleRow])
    · have hr : r ∈ w.db.users.rows.filter fun r =>
          decide (r.login = login ∧ r.isDeleted = some false) := by
        rw [hrows]
        exact List.mem_singleton_self r
      rw [hrows] at hdecode
      obtain ⟨hmem, hlogin⟩ := List.mem_filter.mp hr
      exact ⟨r, hmem, (of_decide_eq_true hlogin).1, decodeUser_iff.mp hdecode⟩
    · rw [hrows] at hdecode
      exact absurd hdecode (by simp [asSingleRow])

section Runs

variable {u : Userver} {jwt : JwtCpp} {secret : String} {reject : AuthCheckResult → HttpResponse}
  {w : World} {requests : ℕ → ClientRequest} {sched : List (ℕ × Choice)}

theorem authorized_of_getElem {k : ℕ} {e : ServiceEvent}
    (hk : (runClients u jwt secret reject w requests sched).trace[k]? = some e) :
    Authorized u jwt secret (requests e.tid)
      (own perform e.tid ((runClients u jwt secret reject w requests sched).trace.take k))
      e.call :=
  (Config.run_obeys perform (fun _ => obeys_serveClient) sched).calls k e hk

/-- The second clock reading of `GenerateToken` comes after the password was compared. -/
theorem matches_of_makes {http : HttpRequest} {login : String} {rows : List Row} {t : Int}
    (hmakes : Makes u (.login http) [⟨.tryAcquire http.remoteAddress, true⟩,
      ⟨.execute (selectUser login), .ok rows⟩, ⟨.systemNow, t⟩] .systemNow) :
    ∃ user, Matches u http login rows user := by
  generalize hcalls : ([⟨.tryAcquire http.remoteAddress, true⟩,
    ⟨.execute (selectUser login), .ok rows⟩, ⟨.systemNow, t⟩] :
    Prog.History Call Call.Answer) = calls at hmakes
  cases hmakes with
  | loginIssue => exact absurd hcalls (by simp)
  | loginExpire issuedAt hmatches =>
      simp at hcalls
      obtain ⟨⟨rfl, rfl⟩, rfl⟩ := hcalls
      exact ⟨_, hmatches⟩
  | @eventNow _ _ h q hcompletes =>
      -- the event comes after the token, four calls later
      cases hcompletes with
      | login => exact absurd (congrArg List.length hcalls) (by simp [callsToToken])

/-- What a generated token says of the run before it. -/
theorem login_of_generated {i : ℕ} {userId issuedAt reading : Int} {token : String}
    (h : Generated u requests (runClients u jwt secret reject w requests sched).trace i userId
      issuedAt reading token) :
    ∃ (l : ℕ) (lookup issue : ServiceEvent) (r : UserRow) (password : String), l < i ∧
      (runClients u jwt secret reject w requests sched).trace[l]? = some lookup ∧
      (runClients u jwt secret reject w requests sched).trace[i]? = some issue ∧
      (requests lookup.tid).endpoint = .login ∧ issue.tid = lookup.tid ∧
      lookup.call = .execute (selectUser r.login) ∧
      Supplies u (requests lookup.tid).http r.login password ∧
      r ∈ lookup.before.db.users.rows ∧ r.id = userId ∧ r.passwordHash = u.sha256 password ∧
      issue.call = .systemNow ∧ issue.choice.system = reading := by
  set tr := (runClients u jwt secret reject w requests sched).trace with htr
  obtain ⟨issue, hi, hlogin, login, rows, user, hcalls, hdecode, hid, _⟩ := h
  have hnext : tr.take (i + 1) = tr.take i ++ [issue] := by
    rw [List.take_add_one, hi]
    rfl
  rw [hnext, own_snoc_self] at hcalls
  -- the last call is the second clock reading, the second one the lookup
  obtain ⟨hbefore, hlast⟩ : own perform issue.tid (tr.take i) =
      (callsToToken (requests issue.tid).http login rows issuedAt reading).take 3 ∧
      [issue.seen perform] = [⟨.systemNow, reading⟩] := List.append_inj' hcalls rfl
  obtain ⟨hcall, hreading⟩ := seen_systemNow (List.cons.inj hlast).1
  have hmem : (⟨.execute (selectUser login), .ok rows⟩ : Σ c, Call.Answer c) ∈
      own perform issue.tid (tr.take i) := by
    rw [hbefore]
    simp [callsToToken]
  obtain ⟨l, lookup, hlt, hl, htid, hseen⟩ := (mem_own_take perform).mp hmem
  obtain ⟨hlookup, hanswer⟩ := seen_execute hseen
  have hmakes := (authorized_of_getElem hi).logsIn hlogin
  rw [← htr, hbefore, hcall] at hmakes
  obtain ⟨user', password, hsupplies, hdecode', hmatch⟩ := matches_of_makes hmakes
  obtain rfl := Except.ok.inj (hdecode.symm.trans hdecode')
  obtain ⟨r, hr, hrlogin, hholds⟩ := selected_user hanswer hdecode
  refine ⟨l, lookup, issue, r, password, hlt, hl, hi, ?_, htid.symm, ?_, ?_, hr, ?_, ?_, hcall,
    hreading⟩
  · rw [htid]
    exact hlogin
  · rw [hrlogin]
    exact hlookup
  · rw [htid, hrlogin]
    exact hsupplies
  · rw [← hholds.id, hid]
  · rw [← hholds.passwordHash, hmatch]

theorem issued_token {i : ℕ} {tr : List ServiceEvent} {userId issuedAt reading : Int}
    {token : String} (h : Generated u requests tr i userId issuedAt reading token) :
    token = u.signHs256 "project-manager" (toString userId) (toTimeT issuedAt) (expiry reading)
      jwtSecret := by
  obtain ⟨_, _, _, _, _, _, _, _, _, htoken⟩ := h
  exact htoken

/-- A generated token verifies for the id it was generated for, until it lapses. -/
theorem claim_of_verifies {userId userId' issuedAt expiresAt now : Int} {signedWith : String}
    (hdecodes : DecodesSigned u jwt "project-manager" (toString userId') issuedAt expiresAt
      signedWith)
    (h : Verifies jwt secret
      (u.signHs256 "project-manager" (toString userId') issuedAt expiresAt signedWith) now
      userId) : userId' = userId ∧ now ≤ expiresAt * ticksPerSecond := by
  obtain ⟨decoded, hdecode, hclaim, hverify⟩ := hdecodes
  obtain ⟨decoded', text, hdecode', hok, htext, hstoi⟩ := h
  obtain rfl := Except.ok.inj (hdecode.symm.trans hdecode')
  rw [hclaim] at htext
  rw [← Json.string.inj (Option.some.inj htext), stoi_toString] at hstoi
  split at hstoi
  · exact ⟨Except.ok.inj hstoi, ((hverify _ _ _).mp hok).2.2.2⟩
  · exact absurd hstoi (by simp)

/-- A whole second that has not passed. -/
theorem lt_of_le_expiry {now reading : Int} (h : now ≤ expiry reading * ticksPerSecond) :
    now < reading + (24 * 3600 + 1) * ticksPerSecond := by
  unfold expiry toTimeT at h
  have hround := Int.mul_tdiv_add_tmod (reading + 24 * 3600 * ticksPerSecond) ticksPerSecond
  have hrest := Int.lt_tmod_of_pos (reading + 24 * 3600 * ticksPerSecond)
    (by decide : (0 : Int) < ticksPerSecond)
  rw [Int.mul_comm] at h
  linarith

/-- **Stored identities are authentic.** Whatever the clients send and however their
requests interleave, every owner, creator or author that is stored belongs to a user whose
password an earlier login has shown; the check before it accepted the token that this login
generated, within its 24 hours. -/
theorem stored_identities_authentic
    (hsymbolic : Symbolic u jwt (componentSecret none) requests
      (runClients u jwt (componentSecret none) reject w requests sched).trace)
    {k : ℕ} {e : ServiceEvent}
    (hk : (runClients u jwt (componentSecret none) reject w requests sched).trace[k]? = some e) :
    StoresOnly (Authentic u jwt (componentSecret none) requests
      (runClients u jwt (componentSecret none) reject w requests sched).trace k e.tid) e := by
  set tr := (runClients u jwt (componentSecret none) reject w requests sched).trace with htr
  rcases (authorized_of_getElem hk).acts with hnothing | ⟨now, token, userId, hfirst, hbears,
    hverifies, hacts⟩
  · exact (storesOnly_of_nothing hnothing).mono fun _ h => h.elim
  · refine (storesOnly_of_actsAs hacts).mono ?_
    intro id hsameId
    rw [hsameId]
    -- the check read the clock first
    obtain ⟨rest, hrest⟩ := hfirst
    obtain ⟨j, check, hjk, hj, htid, hseen, hempty⟩ := own_take_cons perform hrest.symm
    obtain ⟨hcall, hnow⟩ := seen_systemNow hseen
    have haccepted : Accepted jwt (componentSecret none) requests tr j check token userId := by
      refine ⟨hj, hcall, ?_, ?_, ?_⟩
      · rw [htid]
        exact hempty
      · rw [htid]
        exact hbears
      · rw [hnow]
        exact hverifies
    obtain ⟨i, hij, userId', issuedAt, reading, hgenerated⟩ :=
      hsymbolic.unforged j check token userId haccepted
    obtain ⟨hsame, hexpiry⟩ := claim_of_verifies (hsymbolic.decodes i _ _ _ _ hgenerated)
      (issued_token hgenerated ▸ hverifies)
    subst hsame
    obtain ⟨l, lookup, issue, r, password, hli, hl, hi, hlogin, hissue, hlookup, hsupplies, hr,
      hid, hhash, hcall', rfl⟩ := login_of_generated hgenerated
    refine ⟨l, i, j, lookup, issue, check, r, password, token, issuedAt, hli, hij, hjk, hl, hi, hj,
      hlogin, hissue, htid, hlookup, hsupplies, hr, hid, hhash, hgenerated, haccepted, hcall',
      hcall, ?_⟩
    rw [hnow]
    exact lt_of_le_expiry hexpiry

end Runs

/-! ## A login and a project -/

namespace Sample

/-- Two bodies: a login and a project. -/
def parser : Userver :=
  { userver with
    fromString := fun text =>
      if text = "login" then .ok (.object [("login", .string "ann"), ("password", .string "pw")])
      else MyService.Sample.keyOnly.fromString text }

def clients : ℕ → ClientRequest
  | 0 =>
      { endpoint := .login
        http := { body := "login", pathArgs := [], headers := [], remoteAddress := "10.0.0.1" } }
  | _ =>
      { endpoint := .createProject
        http := { body := "", pathArgs := [], remoteAddress := "10.0.0.1"
                  headers := [("Authorization", "Bearer 7")] } }

/-- The login up to its token, then the project up to its row. -/
def sched : List (ℕ × Choice) :=
  [(0, {}), (0, {}), (0, {}), (0, {}), (1, {}), (1, {}), (1, { serial := 1 })]

def run : ServiceConfig :=
  runClients parser jwt (componentSecret none) (fun _ => { status := 401, body := "" })
    (MyService.Sample.oneUser { MyService.Sample.ann with id := 7, passwordHash := "pw" })
    clients sched

theorem run_clock {e : ServiceEvent} (he : e ∈ run.trace) : e.choice.system = 0 := by
  have hmem : (e.tid, e.choice) ∈ sched := Config.mem_sched perform he
  simp only [sched, List.mem_cons, Prod.mk.injEq, List.not_mem_nil, or_false] at hmem
  rcases hmem with h | h | h | h | h | h | h <;> rw [h.2]

theorem run_generated : Generated parser clients run.trace 3 7 0 0 "7" := by
  refine ⟨_, rfl, rfl, "ann", _, _, rfl, rfl, ?_, rfl⟩
  rfl

/-- Every generated token was generated at the clock reading 0. -/
theorem run_decodes {i : ℕ} {userId issuedAt reading : Int} {token : String}
    (h : Generated parser clients run.trace i userId issuedAt reading token) :
    issuedAt = 0 ∧ reading = 0 := by
  obtain ⟨e, hi, _, login, rows, user, hcalls, _⟩ := h
  have hzero : ∀ t : Int, (⟨.systemNow, t⟩ : Σ c, Call.Answer c) ∈
      own perform e.tid (run.trace.take (i + 1)) → t = 0 := by
    intro t ht
    obtain ⟨j, e', _, hj, _, hseen⟩ := (mem_own_take perform).mp ht
    obtain ⟨_, hclock⟩ := seen_systemNow hseen
    rw [← hclock]
    exact run_clock (List.mem_of_getElem? hj)
  rw [hcalls] at hzero
  exact ⟨hzero issuedAt (by simp [callsToToken]), hzero reading (by simp [callsToToken])⟩

theorem run_tids : run.trace.map Event.tid = [0, 0, 0, 0, 1, 1, 1] := rfl

theorem bears_seven {n : ℕ} {token : String} (h : Bears (clients n).http token) :
    n ≠ 0 ∧ token = "7" := by
  obtain ⟨hscheme, htoken⟩ := bears_iff.mp h
  cases n with
  | zero => exact absurd hscheme (by decide)
  | succ n =>
      refine ⟨Nat.succ_ne_zero n, htoken.symm.trans ?_⟩
      show String.ofList ("Bearer 7".toList.drop 7) = "7"
      decide

theorem run_symbolic :
    Symbolic parser jwt (componentSecret none) clients run.trace := by
  refine ⟨?_, ?_⟩
  · rintro j e token userId ⟨hj, _, _, hbears, _⟩
    -- only the second client bears a token, and its calls come after the login's
    obtain ⟨htid, rfl⟩ := bears_seven hbears
    have hlist : ([0, 0, 0, 0, 1, 1, 1] : List ℕ)[j]? = some e.tid := by
      rw [← run_tids, List.getElem?_map, hj]
      rfl
    have hlate : 3 < j := by
      match j, hlist with
      | 0, h => exact absurd (Option.some.inj h).symm htid
      | 1, h => exact absurd (Option.some.inj h).symm htid
      | 2, h => exact absurd (Option.some.inj h).symm htid
      | 3, h => exact absurd (Option.some.inj h).symm htid
      | j + 4, _ => omega
    exact ⟨3, hlate, 7, 0, 0, run_generated⟩
  · intro i userId issuedAt reading token hgenerated
    obtain ⟨rfl, rfl⟩ := run_decodes hgenerated
    exact decodesSigned (toString userId)

end Sample

theorem stored_identities_authentic_project :
    Authentic Sample.parser Sample.jwt (componentSecret none) Sample.clients Sample.run.trace
      6 1 7 := by
  have hstored := stored_identities_authentic Sample.run_symbolic (k := 6) rfl
  obtain ⟨userId, howner, hauthentic⟩ := hstored.owner
    { id := 1, name := "p", description := some "", key := some "", ownerId := some 7
      createdAt := some (fromTimePointTz 0) } (List.mem_singleton.mpr rfl) List.not_mem_nil
  rw [Option.some.inj howner]
  exact hauthentic

end MyService.Auth
