import MyService.Auth.Authenticity
import MyService.Auth.PasswordSecrecy
import MyService.Event.Agreement
import MyService.Storage.Nullability

/-!
# From registration to a checked token

What a registration stores is what a login compares and what a check gives back. Any
requests may run in between: no statement of the service changes or deletes a user, so
from the INSERT on, a login with the same password ends in a token of that row, and a
login with another password never does.
-/

namespace MyService.Auth.Session

open Framework Chrono Userver Userver.Postgres Models Handlers Handlers.Calls Storage
  Storage.PostgresStorage Event Nullability

/-! ## Credentials in a body -/

/-- The lookup of a user. -/
abbrev lookup (login : String) : Call := .execute (selectUser login)

theorem supplies_unique {u : Userver} {http : HttpRequest}
    {login login' password password' : String}
    (h : Supplies u http login password) (h' : Supplies u http login' password') :
    login = login' ∧ password = password' := by
  obtain ⟨json, l, p, hjson, hl, hlogin, hp, hpassword⟩ := h
  obtain ⟨json', l', p', hjson', hl', hlogin', hp', hpassword'⟩ := h'
  obtain rfl := Except.ok.inj (hjson.symm.trans hjson')
  obtain rfl := Except.ok.inj (hl.symm.trans hl')
  obtain rfl := Except.ok.inj (hp.symm.trans hp')
  exact ⟨Except.ok.inj (hlogin.symm.trans hlogin'),
    Except.ok.inj (hpassword.symm.trans hpassword')⟩

/-! ## What a login with credentials ends in -/

/-- The token of an answer. -/
def Grants (u : Userver) (response : HttpResponse) (userId issuedAt reading : Int) : Prop :=
  response.status = 200 ∧ response.body = u.toString (.object [("token", .string
    (u.signHs256 "project-manager" (toString userId) (toTimeT issuedAt) (expiry reading)
      jwtSecret))])

/-- The limiter refused, the password or the login is wrong, or the token is of the user
that was found. -/
def Concludes (u : Userver) (http : HttpRequest) (login password : String)
    (h : Prog.History Call Call.Answer) (response : HttpResponse) : Prop :=
  ⟨.tryAcquire http.remoteAddress, false⟩ ∈ h ∨
    ∃ rows, ⟨lookup login, .ok rows⟩ ∈ h ∧
      ((response.status = 401 ∧ ∀ user, rows ≠ [] → asSingleRow decodeUser rows = .ok user →
          user.passwordHash ≠ u.sha256 password) ∨
        ∃ user issuedAt reading, asSingleRow decodeUser rows = .ok user ∧
          user.passwordHash = u.sha256 password ∧ ⟨.systemNow, issuedAt⟩ ∈ h ∧
          ⟨.systemNow, reading⟩ ∈ h ∧ Grants u response user.id issuedAt reading)

/-- Only the lookup can throw. -/
def Breaks (login : String) (h : Prog.History Call Call.Answer) (_ : Exn) : Prop :=
  ∃ answer, ⟨lookup login, answer⟩ ∈ h ∧
    ((∃ e, answer = .error e) ∨
      ∃ rows e, answer = .ok rows ∧ rows ≠ [] ∧ asSingleRow decodeUser rows = .error e)

section Contract

variable {u : Userver} {http : HttpRequest} {login password : String}
  {h : Prog.History Call Call.Answer}

theorem concludes_of_returns (hsupplies : Supplies u http login password)
    {response : HttpResponse} (hreturns : Returns u (.login http) h response) :
    Concludes u http login password h response := by
  cases hreturns with
  | loginRefused info => exact Or.inl List.mem_cons_self
  | loginMissing hunread => exact absurd hsupplies (hunread login password)
  | loginUnknown hsupplies' =>
      obtain ⟨rfl, rfl⟩ := supplies_unique hsupplies hsupplies'
      exact Or.inr ⟨[], by simp, Or.inl ⟨rfl, fun _ hne => absurd rfl hne⟩⟩
  | @loginWrong _ _ _ rows user hsupplies' hdecode hwrong =>
      obtain ⟨rfl, rfl⟩ := supplies_unique hsupplies hsupplies'
      refine Or.inr ⟨rows, by simp, Or.inl ⟨rfl, fun user' _ hdecode' => ?_⟩⟩
      rw [← Except.ok.inj (hdecode.symm.trans hdecode')]
      exact hwrong
  | @loggedIn _ user _ issuedAt reading h info hsent =>
      obtain ⟨h₀, hbefore, hcompletes⟩ := hsent.completes
      cases hcompletes with
      | @login _ login' rows _ _ _ hmatches =>
          obtain ⟨password', hsupplies', hdecode, hright⟩ := hmatches
          obtain ⟨rfl, rfl⟩ := supplies_unique hsupplies hsupplies'
          have hcalls : ∀ o ∈ callsToToken http login rows issuedAt reading,
              o ∈ h ++ [⟨.getInfo http.remoteAddress, info⟩] := fun o ho =>
            List.mem_append_left _ (hbefore.subset ho)
          exact Or.inr ⟨rows, hcalls _ (by simp [callsToToken]), Or.inr ⟨user, issuedAt, reading,
            hdecode, hright, hcalls _ (by simp [callsToToken]),
            hcalls _ (by simp [callsToToken]), rfl, rfl⟩⟩

theorem breaks_of_throws (hsupplies : Supplies u http login password) {e : Exn}
    (hthrows : Throws u (.login http) h) : Breaks login h e := by
  cases hthrows with
  | unread hunread => exact absurd hsupplies (hunread login password)
  | @lookup _ _ answer hsupplies' hfails =>
      obtain ⟨rfl, rfl⟩ := supplies_unique hsupplies hsupplies'
      exact ⟨answer, by simp, hfails⟩

/-- A registration inserts the login and the hash of the password that its body has. -/
theorem inserts_of_makes {hash firstName lastName email : String} {createdAt : Int}
    {returning : List String} (hmakes : Makes u (.register http) h
      (.execute (.insertUser login hash firstName lastName email createdAt returning))) :
    ∃ password, Supplies u http login password ∧ hash = u.sha256 password := by
  cases hmakes with
  | registerInsert _ _ _ _ hsupplies => exact ⟨_, hsupplies, rfl⟩

end Contract

/-! ## The row in between -/

/-- An INSERT into `users` came back. -/
def Registers (e : ServiceEvent) : Prop :=
  ∃ login hash firstName lastName email createdAt returning rows,
    e.seen perform = ⟨.execute (.insertUser login hash firstName lastName email createdAt
      returning), .ok rows⟩

/-- What a registration has stored. -/
structure Holds (r : UserRow) (id : Int) (login hash : String) : Prop where
  id : r.id = id
  nulFree : NulFree login
  login : r.login = login
  hash : r.passwordHash = hash
  filled : UserFilled r
  active : r.isDeleted = some false

/-- A login that `VARCHAR(50)` takes as it is, and its password's hash, are in the row. -/
theorem stored_of_registers {u : Userver} (hfits : HashFits u) {e : ServiceEvent}
    {http : HttpRequest} {login password : String} (hsupplies : Supplies u http login password)
    (hlogin : login.toList.length ≤ 50) (hregisters : Registers e)
    (hinserts : ∀ login hash firstName lastName email createdAt returning,
      e.call = .execute (.insertUser login hash firstName lastName email createdAt returning) →
        ∃ password, Supplies u http login password ∧ hash = u.sha256 password) :
    ∃ r, Holds r e.choice.serial login (u.sha256 password) ∧
      (Agreement.Stored.user r).AddedBy e.before.db (e.after perform).db := by
  obtain ⟨login', hash, firstName, lastName, email, createdAt, returning, rows, hseen⟩ :=
    hregisters
  obtain ⟨hcall, hanswer⟩ := seen_execute hseen
  obtain ⟨password', hsupplies', rfl⟩ := hinserts _ _ _ _ _ _ _ hcall
  obtain ⟨rfl, rfl⟩ := supplies_unique hsupplies hsupplies'
  rcases execute_cases e.choice e.before _ with ⟨exc, _, heq⟩ | ⟨db, rows', _, hact, heq⟩
  · rw [heq] at hanswer
    exact absurd hanswer (by simp)
  · rw [Event.after, hcall, heq]
    simp only [Database.execute, except_bind_ok, pure, Except.pure, Except.ok.injEq,
      Prod.mk.injEq] at hact
    obtain ⟨row, hrow, users, hinsert, rfl, _⟩ := hact
    refine ⟨row, ?_, users_insert_ok hinsert⟩
    simp only [Database.newUser, except_bind_ok, pure, Except.pure, Except.ok.injEq] at hrow
    obtain ⟨_, hlogin', _, hhash, _, _, _, _, _, _, rfl⟩ := hrow
    obtain ⟨hnul, rfl⟩ := (varchar_ok hlogin).mp hlogin'
    obtain ⟨_, rfl⟩ := (varchar_ok (hfits password).1).mp hhash
    exact ⟨rfl, hnul, rfl, rfl, rfl, rfl⟩

/-- The lookup finds the row, which decodes. -/
theorem lookup_finds {ch : Choice} {w : World} {r : UserRow} {id : Int} {login hash : String}
    (hr : r ∈ w.db.users.rows) (hholds : Holds r id login hash) (hfault : ch.fault = none)
    {answer : Except Exn (List Row)} (hanswer : (perform (lookup login) ch w).2 = answer) :
    ∃ rows user, answer = .ok rows ∧ rows ≠ [] ∧ asSingleRow decodeUser rows = .ok user ∧
      user.id = id ∧ user.passwordHash = hash := by
  have hmem : r ∈ w.db.users.rows.filter fun r =>
      decide (r.login = login ∧ r.isDeleted = some false) :=
    List.mem_filter.mpr ⟨hr, decide_eq_true ⟨hholds.login, hholds.active⟩⟩
  have hone : w.db.users.rows.filter (fun r =>
      decide (r.login = login ∧ r.isDeleted = some false)) = [r] := by
    have hkey : ∀ r : UserRow, decide (r.login = login ∧ r.isDeleted = some false) = true →
        r.login = login := fun r hr => (of_decide_eq_true hr).1
    rcases unique_row w.db.users.logins_nodup hkey with hnil | ⟨r', hr'⟩
    · rw [hnil] at hmem
      exact absurd hmem (by simp)
    · rw [hr'] at hmem ⊢
      rw [List.mem_singleton.mp hmem]
  obtain ⟨user, huser⟩ := exists_userHolds.mpr ⟨hholds.filled, by rw [hholds.active]; rfl⟩
  have hselect : w.db.execute ch.serial (.selectUserByLogin Query.userColumns login) =
      .ok (w.db, [pick Query.userColumns r.columns]) :=
    getUserByLogin_ok.mpr ⟨hholds.nulFree, rfl, by rw [rowsByLogin, hone]; rfl⟩
  refine ⟨[pick Query.userColumns r.columns], user, ?_, by simp, decodeUser_iff.mpr huser,
    huser.id.trans hholds.id, huser.passwordHash.trans hholds.hash⟩
  rw [← hanswer]
  show (serverCall ch w (fun db => { w with db }) (w.db.execute ch.serial
    (.selectUserByLogin Query.userColumns login))).2 = _
  rw [hselect]
  rcases serverCall_ok ch w (fun db => { w with db }) w.db [pick Query.userColumns r.columns]
    with ⟨exc, hexc, _⟩ | ⟨_, heq⟩
  · exact absurd (hfault.symm.trans hexc) (by simp)
  · rw [heq]

/-- The lookups of the history found the row. -/
def Finds (login : String) (id : Int) (hash : String) (h : Prog.History Call Call.Answer) :
    Prop :=
  ∀ answer, ⟨lookup login, answer⟩ ∈ h → ∃ rows user, answer = .ok rows ∧ rows ≠ [] ∧
    asSingleRow decodeUser rows = .ok user ∧ user.id = id ∧ user.passwordHash = hash

section Finds

variable {u : Userver} {http : HttpRequest} {login hash password : String} {id : Int}
  {h : Prog.History Call Call.Answer}

theorem not_breaks (hfinds : Finds login id hash h) (x : Exn) : ¬Breaks login h x := by
  rintro ⟨answer, hmem, hthrew⟩
  obtain ⟨rows, user, rfl, _, hdecode, _, _⟩ := hfinds answer hmem
  rcases hthrew with ⟨exc, herror⟩ | ⟨rows', exc, hrows, _, herror⟩
  · exact absurd herror (by simp)
  · rw [← Except.ok.inj hrows, hdecode] at herror
    exact absurd herror (by simp)

/-- What the login of a stored user is answered: a token when the password is right, and 401
when it is not. -/
def Settles (u : Userver) (id : Int) (hash password : String)
    (h : Prog.History Call Call.Answer) (response : HttpResponse) : Prop :=
  (hash = u.sha256 password → ∃ issuedAt reading, ⟨.systemNow, issuedAt⟩ ∈ h ∧
    ⟨.systemNow, reading⟩ ∈ h ∧ Grants u response id issuedAt reading) ∧
    (hash ≠ u.sha256 password → response.status = 401)

theorem settles (hfinds : Finds login id hash h)
    (hgranted : ⟨.tryAcquire http.remoteAddress, false⟩ ∉ h) {response : HttpResponse}
    (hconcludes : Concludes u http login password h response) :
    Settles u id hash password h response := by
  rcases hconcludes with hlimited | ⟨rows, hmem, hresult⟩
  · exact absurd hlimited hgranted
  · obtain ⟨rows', user, hrows, hne, hdecode, hid, hhash⟩ := hfinds _ hmem
    obtain rfl := Except.ok.inj hrows
    rcases hresult with ⟨hstatus, hwrong⟩ |
      ⟨user', issuedAt, reading, hdecode', hright, hissued, hread, hgrants⟩
    · refine ⟨fun heq => ?_, fun _ => hstatus⟩
      exact absurd (hhash.trans heq) (hwrong user hne hdecode)
    · obtain rfl := Except.ok.inj (hdecode.symm.trans hdecode')
      rw [hid] at hgrants
      refine ⟨fun _ => ⟨issuedAt, reading, hissued, hread, hgrants⟩, fun hne => ?_⟩
      exact absurd (hhash.symm.trans hright) hne

end Finds

/-! ## Runs -/

section Runs

variable {u : Userver} {w : World} {requests : ℕ → Request} {sched : List (ℕ × Choice)}

/-- The row of a registration is there at every later call. -/
theorem run_stored (hfits : HashFits u) {k : ℕ} {e : ServiceEvent} {http : HttpRequest}
    {login password : String} (hregister : requests e.tid = .register http)
    (hsupplies : Supplies u http login password) (hlogin : login.toList.length ≤ 50)
    (hk : (runService u w requests sched).trace[k]? = some e) (hregisters : Registers e) :
    ∃ r, Holds r e.choice.serial login (u.sha256 password) ∧
      ∀ (k' : ℕ) (e' : ServiceEvent), (runService u w requests sched).trace[k']? = some e' →
        k < k' → r ∈ e'.before.db.users.rows := by
  have hmakes := (conducts_run u w requests sched).calls k e hk
  rw [hregister] at hmakes
  obtain ⟨r, hholds, hadded⟩ := stored_of_registers hfits hsupplies hlogin hregisters
    fun _ _ _ _ _ _ _ hcall => inserts_of_makes (hcall ▸ hmakes)
  exact ⟨r, hholds, fun k' e' hk' hlt => (Agreement.added_stays hk hadded).1 k' e' hk' hlt⟩

/-- A login that is over has concluded, or its lookup threw. -/
theorem run_concludes {j : ℕ} {http : HttpRequest} {login password : String}
    (hlogin : requests j = .login http) (hsupplies : Supplies u http login password) :
    Prog.Obeys (fun _ _ => True) (Concludes u http login password) (Breaks login)
      (own perform j (runService u w requests sched).trace)
      ((runService u w requests sched).pool j) := by
  have hends := (conducts_run u w requests sched).pool j
  rw [hlogin] at hends
  exact hends.mono (fun _ _ _ => trivial)
    (fun _ _ hreturns => concludes_of_returns hsupplies hreturns)
    fun _ _ hthrows => breaks_of_throws hsupplies hthrows

/-- A login whose lookup comes after the row is stored, and does not fail, ends settled. -/
theorem run_login {r : UserRow} {id : Int} {login hash password : String} {j : ℕ}
    {http : HttpRequest} (hholds : Holds r id login hash) (hlogin : requests j = .login http)
    (hsupplies : Supplies u http login password)
    (hrow : ∀ e ∈ (runService u w requests sched).trace, e.tid = j → r ∈ e.before.db.users.rows)
    (hfault : ∀ e ∈ (runService u w requests sched).trace, e.tid = j → e.call = lookup login →
      e.choice.fault = none)
    (hgranted : ⟨.tryAcquire http.remoteAddress, false⟩ ∉
      own perform j (runService u w requests sched).trace)
    (hdone : ¬Delivery.Running (runService u w requests sched) j) :
    ∃ response, Answered (runService u w requests sched) j response ∧
      Settles u id hash password (own perform j (runService u w requests sched).trace)
        response := by
  have hfinds : Finds login id hash (own perform j (runService u w requests sched).trace) := by
    intro answer hmem
    obtain ⟨i, e, hi, htid, hseen⟩ := (mem_own perform).mp hmem
    have he := List.mem_of_getElem? hi
    obtain ⟨hcall, hanswer⟩ := seen_execute hseen
    exact lookup_finds (hrow e he htid) hholds (hfault e he htid hcall) hanswer
  have hends := @run_concludes u w requests sched j http login password hlogin hsupplies
  cases hpool : (runService u w requests sched).pool j with
  | call c f => exact absurd ⟨c, f, hpool⟩ hdone
  | throw x =>
      rw [hpool] at hends
      exact absurd hends (not_breaks hfinds x)
  | pure response =>
      rw [hpool] at hends
      exact ⟨response, hpool, settles hfinds hgranted hends⟩

end Runs

/-- The check passes a request with the token in its header, and gives this id, from the
second of its issue to the second it lapses in. -/
def Recognised (u : Userver) (userId issuedAt reading : Int) : Prop :=
  ∀ (jwt : JwtCpp) (request : HttpRequest) (cs : ℕ → Choice) (w : World),
    DecodesSigned u jwt "project-manager" (toString userId) (toTimeT issuedAt) (expiry reading)
      jwtSecret →
    Bears request (u.signHs256 "project-manager" (toString userId) (toTimeT issuedAt)
      (expiry reading) jwtSecret) →
    (Accepts jwt (componentSecret none) request userId cs w ↔
      toTimeT issuedAt * ticksPerSecond ≤ (cs 0).system ∧
        (cs 0).system ≤ expiry reading * ticksPerSecond)

theorem recognised {u : Userver} {userId issuedAt reading : Int}
    (hid : -2 ^ 31 ≤ userId ∧ userId < 2 ^ 31) : Recognised u userId issuedAt reading := by
  intro jwt request cs w hjwt hbears
  have hsigned := hjwt
  obtain ⟨decoded, hdecode, _⟩ := hjwt
  rw [accepts_iff hbears hdecode, verifies_signed hid hsigned]
  exact and_iff_right rfl

/-- **A registered user is recognised.** A registration whose INSERT came back, then a login
with the same login name that starts afterwards, whose lookup does not fail and which meets
no full window, any requests running beside them: with a password of the same hash the login
is answered 200 with a token that the check takes for the new row's id; with another it is
answered 401. -/
theorem registered_user_is_recognised {u : Userver} {w : World} {requests : ℕ → Request}
    {sched : List (ℕ × Choice)} (hfits : HashFits u)
    (hserial : ∀ a ∈ sched, -2 ^ 31 ≤ a.2.serial ∧ a.2.serial < 2 ^ 31) {k : ℕ}
    {e : ServiceEvent} {http http' : HttpRequest} {login password password' : String} {j : ℕ}
    (hregister : requests e.tid = .register http) (hsupplies : Supplies u http login password)
    (hlength : login.toList.length ≤ 50)
    (hk : (runService u w requests sched).trace[k]? = some e) (hregisters : Registers e)
    (hlogin : requests j = .login http') (hsupplies' : Supplies u http' login password')
    (hafter : ∀ (k' : ℕ) (e' : ServiceEvent),
      (runService u w requests sched).trace[k']? = some e' → e'.tid = j → k < k')
    (hfault : ∀ e' ∈ (runService u w requests sched).trace, e'.tid = j →
      e'.call = .execute (selectUser login) → e'.choice.fault = none)
    (hgranted : ⟨.tryAcquire http'.remoteAddress, false⟩ ∉
      own perform j (runService u w requests sched).trace)
    (hdone : ¬Delivery.Running (runService u w requests sched) j) :
    ∃ response, Answered (runService u w requests sched) j response ∧
      (u.sha256 password = u.sha256 password' → ∃ issuedAt reading,
        ⟨.systemNow, issuedAt⟩ ∈ own perform j (runService u w requests sched).trace ∧
        ⟨.systemNow, reading⟩ ∈ own perform j (runService u w requests sched).trace ∧
        Grants u response e.choice.serial issuedAt reading ∧
        Recognised u e.choice.serial issuedAt reading) ∧
      (u.sha256 password ≠ u.sha256 password' → response.status = 401) := by
  obtain ⟨r, hholds, hstays⟩ := run_stored hfits hregister hsupplies hlength hk hregisters
  have hrow : ∀ e' ∈ (runService u w requests sched).trace, e'.tid = j →
      r ∈ e'.before.db.users.rows := by
    intro e' he' htid
    obtain ⟨k', hk'⟩ := List.mem_iff_getElem?.mp he'
    exact hstays k' e' hk' (hafter k' e' hk' htid)
  obtain ⟨response, hanswer, hright, hwrong⟩ :=
    run_login hholds hlogin hsupplies' hrow hfault hgranted hdone
  refine ⟨response, hanswer, fun heq => ?_, hwrong⟩
  obtain ⟨issuedAt, reading, hissued, hread, hgrants⟩ := hright heq
  exact ⟨issuedAt, reading, hissued, hread, hgrants,
    recognised (hserial _ (Config.mem_sched perform (List.mem_of_getElem? hk)))⟩

/-! ## Ann registers and logs in twice -/

/-- A registration, a login with its password and one with another. -/
def clients : ℕ → Request
  | 0 => .register (Sample.http "abc" "" "")
  | 1 => .login (Sample.http "abc" "" "")
  | _ => .login (Sample.http "" "" "")

/-- The registration up to its row, the first login, whose event Kafka does not take, and the
second. -/
def sched : List (ℕ × Choice) :=
  List.replicate 3 (0, { serial := 7 }) ++ List.replicate 6 (1, Sample.plain) ++
    [(1, { fault := some .writeError }), (1, Sample.plain)] ++ List.replicate 2 (2, Sample.plain)

def run : ServiceConfig := runService Sample.passwordOnly Sample.empty clients sched

theorem run_tids : run.trace.map Event.tid = [0, 0, 0, 1, 1, 1, 1, 1, 1, 1, 1, 2, 2] := rfl

/-- The first three calls are the registration's. -/
theorem run_late {k : ℕ} {e : ServiceEvent} (hk : run.trace[k]? = some e) (he : e.tid ≠ 0) :
    2 < k := by
  have htid : ([0, 0, 0, 1, 1, 1, 1, 1, 1, 1, 1, 2, 2] : List ℕ)[k]? = some e.tid := by
    rw [← run_tids, List.getElem?_map, hk]
    rfl
  match k, htid with
  | 0, h => exact absurd (Option.some.inj h).symm he
  | 1, h => exact absurd (Option.some.inj h).symm he
  | 2, h => exact absurd (Option.some.inj h).symm he
  | k + 3, _ => omega

/-- PostgreSQL failed a statement. -/
def failed : ServiceEvent → Bool
  | ⟨_, .execute _, choice, _⟩ => choice.fault.isSome
  | _ => false

theorem run_executes {e : ServiceEvent} (he : e ∈ run.trace) {s : Statement}
    (hcall : e.call = .execute s) : e.choice.fault = none := by
  have hnone : run.trace.any failed = false := rfl
  have hfault := List.any_eq_false.mp hnone e he
  obtain ⟨tid, c, choice, before⟩ := e
  obtain rfl := hcall
  simpa [failed] using hfault

theorem run_serial {a : ℕ × Choice} (ha : a ∈ sched) :
    -2 ^ 31 ≤ a.2.serial ∧ a.2.serial < 2 ^ 31 := by
  simp only [sched, List.mem_append, List.mem_replicate, List.mem_cons, List.not_mem_nil,
    or_false] at ha
  rcases ha with ((⟨_, rfl⟩ | ⟨_, rfl⟩) | rfl | rfl) | ⟨_, rfl⟩ <;> decide

theorem supplies (password : String) :
    Supplies Sample.passwordOnly (Sample.http password "" "") "ann" password :=
  ⟨_, _, _, rfl, rfl, rfl, rfl, rfl⟩

/-- The limiter refused. -/
def refused : (Σ c, Call.Answer c) → Bool
  | ⟨.tryAcquire _, granted⟩ => !granted
  | _ => false

theorem not_mem_of_refused {address : String} {h : Prog.History Call Call.Answer}
    (hnone : h.any refused = false) : ⟨.tryAcquire address, false⟩ ∉ h := fun hmem =>
  absurd (List.any_eq_true.mpr ⟨_, hmem, rfl⟩) (by rw [hnone]; decide)

theorem not_running {j : ℕ} {response : HttpResponse} (h : run.pool j = .pure response) :
    ¬Delivery.Running run j := by
  rintro ⟨c, f, hcall⟩
  rw [h] at hcall
  cases hcall

/-- The first login is answered with a token of row 7, the second with 401. -/
theorem registered_user_is_recognised_ann :
    (∃ response issuedAt reading, Answered run 1 response ∧
      Grants Sample.passwordOnly response 7 issuedAt reading ∧
      Recognised Sample.passwordOnly 7 issuedAt reading) ∧
      ∃ response, Answered run 2 response ∧ response.status = 401 := by
  have hlogin : ∀ (j : ℕ) (password : String), j ≠ 0 →
      clients j = .login (Sample.http password "" "") →
      ⟨.tryAcquire (Sample.http password "" "").remoteAddress, false⟩ ∉ own perform j run.trace →
      ¬Delivery.Running run j →
      ∃ response, Answered run j response ∧
        (Sample.digest "abc" = Sample.digest password → ∃ issuedAt reading,
          Grants Sample.passwordOnly response 7 issuedAt reading ∧
          Recognised Sample.passwordOnly 7 issuedAt reading) ∧
        (Sample.digest "abc" ≠ Sample.digest password →
          response.status = 401) := by
    intro j password hj hclient hgranted hdone
    have hhash : HashFits Sample.passwordOnly := Sample.digest_fits
    obtain ⟨response, hanswer, hright, hwrong⟩ :=
      registered_user_is_recognised hhash (fun _ => run_serial)
        (k := 2) rfl (supplies "abc") (by decide) rfl ⟨_, _, _, _, _, _, _, _, rfl⟩ hclient
        (supplies password) (fun k' e' hk' htid => run_late hk' (by rw [htid]; exact hj))
        (fun e' he' _ hcall => run_executes he' hcall) hgranted hdone
    refine ⟨response, hanswer, fun heq => ?_, hwrong⟩
    obtain ⟨issuedAt, reading, _, _, hgrants, hrecognised⟩ := hright heq
    exact ⟨issuedAt, reading, hgrants, hrecognised⟩
  refine ⟨?_, ?_⟩
  · obtain ⟨response, hanswer, hright, _⟩ := hlogin 1 "abc" (by decide) rfl
      (not_mem_of_refused rfl) (not_running rfl)
    obtain ⟨issuedAt, reading, hgrants, hrecognised⟩ := hright rfl
    exact ⟨response, issuedAt, reading, hanswer, hgrants, hrecognised⟩
  · obtain ⟨response, hanswer, _, hwrong⟩ := hlogin 2 "" (by decide) rfl (not_mem_of_refused rfl)
      (not_running rfl)
    exact ⟨response, hanswer, hwrong (by decide)⟩

end MyService.Auth.Session
