import MyService.Framework.Lockstep
import MyService.Handlers.Calls
import MyService.Storage.Nullability
import Mathlib.Data.List.Forall2

/-!
# Password secrecy

Two runs of the service that differ in the password of one user, to whom nobody logs in:
`noninterference` says that they give the same answers, publish the same events and fill
the cache the same way. The runs are in lockstep; the tables differ in the hash of that
user alone.
-/

namespace MyService.Auth.PasswordSecrecy

open Framework Userver Userver.Postgres Models Handlers Handlers.Calls Event EventProducer
  Storage Storage.PostgresStorage Storage.Nullability
open Framework.Prog (Lockstep)

/-! ## What the two runs differ in -/

/-- The same row but for the hash, which only this user's row may have changed. -/
def RowAlike (login : String) (r r' : UserRow) : Prop :=
  ∃ hash, r' = { r with passwordHash := hash } ∧ (r.login ≠ login → hash = r.passwordHash)

/-- The same tables but for the hash of this user. -/
def TablesAlike (login : String) (db db' : Database) : Prop :=
  ∃ users : Users, List.Forall₂ (RowAlike login) db.users.rows users.rows ∧
    db' = { db with users := users }

/-- The same world but for the hash of this user. -/
def SameButHash (login : String) (w w' : World) : Prop :=
  ∃ db, TablesAlike login w.db db ∧ w' = { w with db := db }

/-- A row that this name is stored in belongs to the user. -/
def StoredAs (login name : String) : Prop := ∀ stored, varchar 50 name = .ok stored → stored = login

/-- The selected rows are the same users but for their hashes. -/
def RowsAlike (columns : List String) (rows rows' : List Row) : Prop :=
  ∃ us us' : List UserRow,
    List.Forall₂ (fun r r' => ∃ hash, r' = { r with passwordHash := hash }) us us' ∧
    rows = us.map (fun r => pick columns r.columns) ∧
    rows' = us'.map (fun r => pick columns r.columns)

/-- The columns of a query on `users`. -/
def userSelection : Statement → Option (List String)
  | .selectUserByLogin columns _ => some columns
  | .selectUsersByLogin columns _ _ => some columns
  | .selectUsersByName columns _ _ _ => some columns
  | _ => none

/-- A call that is answered the same in both runs. -/
def Visible (login : String) : Call → Prop
  | .execute (.selectUserByLogin _ name) => name ≠ login
  | .execute (.selectUsersByLogin _ _ _) | .execute (.selectUsersByName _ _ _ _)
  | .execute (.insertUser _ _ _ _ _ _ _) => False
  | _ => True

/-- The calls of the two runs, and how their answers are alike. -/
inductive Together (login : String) : Prog.Interface Call Call.Answer
  | visible {c : Call} (h : Visible login c) : Together login c c Eq
  | select {s : Statement} {columns : List String} (h : userSelection s = some columns) :
      Together login (.execute s) (.execute s) (ExceptRel (RowsAlike columns))
  | insert {name hash hash' firstName lastName email : String} {createdAt : Int}
      {columns : List String} (hfits : Fits 255 hash) (hfits' : Fits 255 hash')
      (h : hash' = hash ∨ StoredAs login name) :
      Together login
        (.execute (.insertUser name hash firstName lastName email createdAt columns))
        (.execute (.insertUser name hash' firstName lastName email createdAt columns))
        (ExceptRel (RowsAlike columns))

/-! ## Statements on the two tables -/

section Statements

variable {login : String} {rows rows' : List UserRow} {db : Database} {users : Users}

theorem RowAlike.refl (r : UserRow) : RowAlike login r r := ⟨r.passwordHash, rfl, fun _ => rfl⟩

/-- A function that does not read the hash. -/
theorem map_alike {K : Type} {f : UserRow → K}
    (hf : ∀ r hash, f { r with passwordHash := hash } = f r)
    (h : List.Forall₂ (RowAlike login) rows rows') : rows'.map f = rows.map f := by
  induction h with
  | nil => rfl
  | cons hr _ ih =>
      obtain ⟨hash, rfl, _⟩ := hr
      rw [List.map_cons, List.map_cons, ih, hf]

theorem filter_alike {p : UserRow → Bool}
    (hp : ∀ r hash, p { r with passwordHash := hash } = p r)
    (h : List.Forall₂ (RowAlike login) rows rows') :
    List.Forall₂ (RowAlike login) (rows.filter p) (rows'.filter p) := by
  refine List.rel_filter ?_ h
  rintro r _ ⟨hash, rfl, _⟩
  exact iff_of_eq (congrArg (· = true) (hp r hash).symm)

/-- Rows of other users are the same. -/
theorem filter_eq_of_others {p : UserRow → Bool}
    (hp : ∀ r hash, p { r with passwordHash := hash } = p r)
    (hothers : ∀ r, p r = true → r.login ≠ login)
    (h : List.Forall₂ (RowAlike login) rows rows') : rows'.filter p = rows.filter p := by
  induction h with
  | nil => rfl
  | @cons r _ _ _ hr _ ih =>
      obtain ⟨hash, rfl, hsame⟩ := hr
      by_cases hpr : p r = true
      · obtain rfl := hsame (hothers r hpr)
        rw [List.filter_cons_of_pos hpr, List.filter_cons_of_pos hpr, ih]
      · rw [List.filter_cons_of_neg hpr, List.filter_cons_of_neg (by rwa [hp]), ih]

theorem rowsAlike_of_forall₂ (columns : List String)
    (h : List.Forall₂ (RowAlike login) rows rows') :
    RowsAlike columns (rows.map fun r => pick columns r.columns)
      (rows'.map fun r => pick columns r.columns) := by
  refine ⟨rows, rows', h.imp ?_, rfl, rfl⟩
  rintro r r' ⟨hash, hr, _⟩
  exact ⟨hash, hr⟩

/-- What the two statements leave and return. -/
def StepAlike (login : String) (RR : List Row → List Row → Prop) :
    Except Exn (Database × List Row) → Except Exn (Database × List Row) → Prop :=
  ExceptRel fun x x' => TablesAlike login x.1 x'.1 ∧ RR x.2 x'.2

/-- The INSERT of a user, with the hash of either run. -/
theorem newUser_hash {serial : Int} {name hash hash' firstName lastName email : String}
    {createdAt : Int} (hfits : Fits 255 hash) (hfits' : Fits 255 hash') :
    Database.newUser serial name hash' firstName lastName email createdAt =
      (fun r : UserRow => { r with passwordHash := hash' }) <$>
        Database.newUser serial name hash firstName lastName email createdAt := by
  have hstore : varchar 255 hash = .ok hash := (varchar_ok hfits.1).mpr ⟨hfits.2, rfl⟩
  have hstore' : varchar 255 hash' = .ok hash' := (varchar_ok hfits'.1).mpr ⟨hfits'.2, rfl⟩
  unfold Database.newUser
  rw [hstore, hstore']
  cases varchar 50 name with
  | error e => rfl
  | ok _ =>
      cases varchar 100 firstName with
      | error e => rfl
      | ok _ =>
          cases varchar 100 lastName with
          | error e => rfl
          | ok _ => cases varchar 255 email <;> rfl

theorem insert_alike {t t' : Users} (h : List.Forall₂ (RowAlike login) t.rows t'.rows)
    {r r' : UserRow} (hr : RowAlike login r r') :
    ExceptRel (fun t t' : Users => List.Forall₂ (RowAlike login) t.rows t'.rows)
      (t.insert r) (t'.insert r') := by
  have hids := map_alike (f := UserRow.id) (fun _ _ => rfl) h
  have hlogins := map_alike (f := UserRow.login) (fun _ _ => rfl) h
  have hemails := map_alike (f := UserRow.email) (fun _ _ => rfl) h
  have hcond : (r'.id ∉ t'.rows.map UserRow.id ∧ r'.login ∉ t'.rows.map UserRow.login ∧
      r'.email ∉ t'.rows.map UserRow.email) ↔ r.id ∉ t.rows.map UserRow.id ∧
      r.login ∉ t.rows.map UserRow.login ∧ r.email ∉ t.rows.map UserRow.email := by
    obtain ⟨hash, rfl, _⟩ := hr
    rw [hids, hlogins, hemails]
  unfold Users.insert
  by_cases hnew : r.id ∉ t.rows.map UserRow.id ∧ r.login ∉ t.rows.map UserRow.login ∧
      r.email ∉ t.rows.map UserRow.email
  · rw [dif_pos hnew, dif_pos (hcond.mpr hnew)]
    exact .ok (List.rel_append h (.cons hr .nil))
  · rw [dif_neg hnew, dif_neg (mt hcond.mp hnew)]
    exact .error _

section Execute

variable (h : List.Forall₂ (RowAlike login) db.users.rows users.rows)
include h

theorem execute_insertUser {serial : Int} {name hash hash' firstName lastName email : String}
    {createdAt : Int} {columns : List String} (hfits : Fits 255 hash) (hfits' : Fits 255 hash')
    (hhash : hash' = hash ∨ StoredAs login name) :
    StepAlike login (RowsAlike columns)
      (db.execute serial (.insertUser name hash firstName lastName email createdAt columns))
      (Database.execute { db with users := users } serial
        (.insertUser name hash' firstName lastName email createdAt columns)) := by
  simp only [Database.execute]
  rw [newUser_hash hfits hfits']
  cases hrow : Database.newUser serial name hash firstName lastName email createdAt with
  | error e => exact .error e
  | ok row =>
      have hstored : row.passwordHash = hash ∧ varchar 50 name = .ok row.login := by
        simp only [Database.newUser, except_bind_ok, pure, Except.pure, Except.ok.injEq,
          varchar_ok hfits.1] at hrow
        obtain ⟨_, hlogin, _, ⟨_, rfl⟩, _, _, _, _, _, _, rfl⟩ := hrow
        exact ⟨rfl, hlogin⟩
      have halike : RowAlike login row { row with passwordHash := hash' } := by
        refine ⟨hash', rfl, ?_⟩
        intro hother
        rcases hhash with hsame | hstoredAs
        · rw [hsame, hstored.1]
        · exact absurd (hstoredAs _ hstored.2) hother
      refine (insert_alike h halike).bind ?_
      intro users users' hrows
      refine .ok ⟨⟨users', hrows, rfl⟩, [row], [{ row with passwordHash := hash' }], ?_, rfl, rfl⟩
      exact .cons ⟨hash', rfl⟩ .nil

/-- The tables differ as before, and the answers are alike. -/
theorem selected {RR : List Row → List Row → Prop} {rows rows' : List Row}
    (hrows : RR rows rows') :
    StepAlike login RR (.ok (db, rows)) (.ok ({ db with users := users }, rows')) :=
  .ok ⟨⟨users, h, rfl⟩, hrows⟩

theorem execute_select {serial : Int} {s : Statement} {columns : List String}
    (hs : userSelection s = some columns) :
    StepAlike login (RowsAlike columns) (db.execute serial s)
      (Database.execute { db with users := users } serial s) := by
  cases s with
  | selectUserByLogin cols name =>
      obtain rfl := Option.some.inj hs
      refine (ExceptRel.refl (text name)).bind ?_
      rintro name _ rfl
      refine selected h (rowsAlike_of_forall₂ _ (filter_alike (fun _ _ => rfl) h))
  | selectUsersByLogin cols pattern limit =>
      obtain rfl := Option.some.inj hs
      refine (ExceptRel.refl (text pattern)).bind ?_
      rintro pattern _ rfl
      exact selected h (rowsAlike_of_forall₂ _
        (List.forall₂_take limit (filter_alike (fun _ _ => rfl) h)))
  | selectUsersByName cols first last limit =>
      obtain rfl := Option.some.inj hs
      refine (ExceptRel.refl (text first)).bind ?_
      rintro first _ rfl
      refine (ExceptRel.refl (text last)).bind ?_
      rintro last _ rfl
      exact selected h (rowsAlike_of_forall₂ _
        (List.forall₂_take limit (filter_alike (fun _ _ => rfl) h)))
  | _ => exact absurd hs (by simp [userSelection])

theorem execute_visible (serial : Int) {s : Statement} (hs : Visible login (.execute s)) :
    StepAlike login Eq (db.execute serial s)
      (Database.execute { db with users := users } serial s) := by
  have hids : Database.userIds { db with users := users } = db.userIds :=
    map_alike (fun _ _ => rfl) h
  cases s with
  | insertUser _ _ _ _ _ _ _ => exact hs.elim
  | selectUsersByLogin _ _ _ => exact hs.elim
  | selectUsersByName _ _ _ _ => exact hs.elim
  | insertProject name description key ownerId createdAt cols =>
      have hnew : Database.newProject { db with users := users } serial name description key
          ownerId createdAt = db.newProject serial name description key ownerId createdAt := by
        simp only [Database.newProject, hids]
      simp only [Database.execute, hnew]
      refine (ExceptRel.refl _).bind ?_
      rintro row _ rfl
      refine (ExceptRel.refl (db.projects.insert row)).bind ?_
      rintro projects _ rfl
      exact .ok ⟨⟨users, h, rfl⟩, rfl⟩
  | insertTask title description status projectId creatorId assigneeId priority createdAt
      updatedAt cols =>
      have hnew : Database.newTask { db with users := users } serial title description status
          projectId creatorId assigneeId priority createdAt updatedAt =
            db.newTask serial title description status projectId creatorId assigneeId priority
              createdAt updatedAt := by
        simp only [Database.newTask, hids, Database.projectIds]
      simp only [Database.execute, hnew]
      refine (ExceptRel.refl _).bind ?_
      rintro row _ rfl
      refine (ExceptRel.refl (db.tasks.insert row)).bind ?_
      rintro tasks _ rfl
      exact .ok ⟨⟨users, h, rfl⟩, rfl⟩
  | selectUserByLogin cols name =>
      cases hname : text name with
      | error e =>
          simp only [Database.execute, hname]
          exact .error e
      | ok name' =>
          have hsame : name' = name := (text_ok.mp hname).2
          have hne : name' ≠ login := hsame ▸ hs
          simp only [Database.execute, hname]
          refine selected h (congrArg _ (filter_eq_of_others (fun _ _ => rfl) ?_ h).symm)
          intro r hr
          rw [(of_decide_eq_true hr).1]
          exact hne
  | selectProjectById cols id => exact selected h rfl
  | selectProjectsByCreation cols limit => exact selected h rfl

end Execute

end Statements

/-! ## One call of each run -/

section Perform

variable {login : String} {w w' : World} {ch : Choice}

/-- A call that is no statement does not look at the tables. -/
theorem perform_with_db {c : Call} (hc : ∀ s, c ≠ .execute s) (db : Database) :
    perform c ch { w with db := db } =
      ({ (perform c ch w).1 with db := db }, (perform c ch w).2) := by
  cases c with
  | execute s => exact absurd rfl (hc s)
  | insertOne doc =>
      simp only [perform, serverCall]
      cases ch.fault <;> cases w.comments.insertOne ch.oid doc <;> rfl
  | find f =>
      simp only [perform, serverCall]
      cases ch.fault <;> rfl
  | findOne f =>
      simp only [perform, serverCall]
      cases ch.fault <;> rfl
  | updateOne f u =>
      simp only [perform, serverCall]
      cases ch.fault <;> cases w.comments.updateOne f u <;> rfl
  | send topic key message =>
      simp only [perform, serverCall]
      cases ch.fault <;> rfl
  | _ => rfl

theorem perform_execute_alike (ch : Choice) {s s' : Statement} {db : Database}
    {RR : List Row → List Row → Prop} (hdb : TablesAlike login w.db db)
    (hstep : StepAlike login RR (w.db.execute ch.serial s) (db.execute ch.serial s')) :
    SameButHash login (perform (.execute s) ch w).1
        (perform (.execute s') ch { w with db := db }).1 ∧
      ExceptRel RR (perform (.execute s) ch w).2
        (perform (.execute s') ch { w with db := db }).2 := by
  simp only [perform, serverCall]
  cases ch.fault with
  | some e => exact ⟨⟨db, hdb, rfl⟩, .error e⟩
  | none =>
      revert hstep
      generalize w.db.execute ch.serial s = x
      generalize db.execute ch.serial s' = x'
      rintro (⟨htables, hrows⟩ | e)
      · exact ⟨⟨_, htables, rfl⟩, .ok hrows⟩
      · exact ⟨⟨db, hdb, rfl⟩, .error e⟩

/-- **Unwinding.** Calls that go together keep the worlds alike and are answered alike. -/
theorem perform_together (c c' : Call) (RA : c.Answer → c'.Answer → Prop)
    (hc : Together login c c' RA) (ch : Choice) (w w' : World) (hw : SameButHash login w w') :
    SameButHash login (perform c ch w).1 (perform c' ch w').1 ∧
      RA (perform c ch w).2 (perform c' ch w').2 := by
  obtain ⟨db, hdb, rfl⟩ := hw
  obtain ⟨users, husers, rfl⟩ := hdb
  cases hc with
  | visible hvisible =>
      by_cases hexec : ∃ s, c = .execute s
      · obtain ⟨s, rfl⟩ := hexec
        obtain ⟨hworld, hanswer⟩ := perform_execute_alike ch ⟨users, husers, rfl⟩
          (execute_visible husers ch.serial hvisible)
        exact ⟨hworld, hanswer.eq⟩
      · have hother := not_exists.mp hexec
        have hdb : TablesAlike login (perform c ch w).1.db { w.db with users := users } := by
          rw [perform_db c ch w hother]
          exact ⟨users, husers, rfl⟩
        rw [perform_with_db hother { w.db with users := users }]
        exact ⟨⟨_, hdb, rfl⟩, rfl⟩
  | select hs =>
      exact perform_execute_alike ch ⟨users, husers, rfl⟩ (execute_select husers hs)
  | insert hfits hfits' hhash =>
      exact perform_execute_alike ch ⟨users, husers, rfl⟩
        (execute_insertUser husers hfits hfits' hhash)

end Perform

/-! ## Decoding -/

/-- The same user but for the hash. -/
def UserAlike (m m' : User) : Prop := ∃ hash, m' = { m with passwordHash := hash }

section Decode

variable {rows rows' : List Row}

theorem decodeUser_hash (r : UserRow) (hash : String) :
    decodeUser ((pick Query.userColumns
      { r with passwordHash := hash }.columns).map Prod.snd) =
      (fun m : User => { m with passwordHash := hash }) <$>
        decodeUser ((pick Query.userColumns r.columns).map Prod.snd) := by
  obtain ⟨id, name, _, firstName, lastName, email, createdAt, isDeleted⟩ := r
  cases createdAt <;> cases isDeleted <;> rfl

theorem decodeUser_alike (r : UserRow) (hash : String) :
    ExceptRel UserAlike (decodeUser ((pick Query.userColumns r.columns).map Prod.snd))
      (decodeUser ((pick Query.userColumns
        { r with passwordHash := hash }.columns).map Prod.snd)) := by
  rw [decodeUser_hash r hash]
  cases decodeUser ((pick Query.userColumns r.columns).map Prod.snd) with
  | error e => exact .error e
  | ok m => exact .ok ⟨hash, rfl⟩

theorem asSingleRow_alike (h : RowsAlike Query.userColumns rows rows') :
    ExceptRel UserAlike (asSingleRow decodeUser rows) (asSingleRow decodeUser rows') := by
  obtain ⟨us, us', hus, rfl, rfl⟩ := h
  rcases hus with _ | ⟨⟨hash, rfl⟩, _ | _⟩
  · exact .error _
  · exact decodeUser_alike _ hash
  · exact .error _

theorem asContainer_alike (h : RowsAlike Query.userColumns rows rows') :
    ExceptRel (List.Forall₂ UserAlike) (asContainer decodeUser rows)
      (asContainer decodeUser rows') := by
  obtain ⟨us, us', hus, rfl, rfl⟩ := h
  unfold asContainer
  induction hus with
  | nil => exact .ok .nil
  | cons hr _ ih =>
      obtain ⟨hash, rfl⟩ := hr
      simp only [List.map_cons, List.mapM_cons]
      refine (decodeUser_alike _ hash).bind ?_
      intro m m' hm
      exact ih.bind fun ms ms' hms => .ok (.cons hm hms)

theorem isEmpty_alike {columns : List String} (h : RowsAlike columns rows rows') :
    rows'.isEmpty = rows.isEmpty := by
  obtain ⟨us, us', hus, rfl, rfl⟩ := h
  cases hus <;> rfl

end Decode

/-! ## The handlers -/

section Handlers

variable {login : String} {u : Userver}

/-- A call of both runs, and what follows it. -/
theorem lockstep_execute_bind {α β : Type} {RR : α → β → Prop} {RS : List Row → List Row → Prop}
    {s s' : Statement} {f : List Row → Service α} {f' : List Row → Service β}
    (hs : Together login (.execute s) (.execute s') (ExceptRel RS))
    (hf : ∀ rows rows', RS rows rows' → Lockstep (Together login) RR (f rows) (f' rows')) :
    Lockstep (Together login) RR (execute s >>= f) (execute s' >>= f') :=
  .call hs fun _ _ hanswer => Lockstep.ofExcept_bind hanswer hf

/-- A program all of whose calls are visible. -/
theorem lockstep_visible {α : Type} {p : Service α}
    (hp : Prog.Obeys (fun _ c => Visible login c) (fun _ _ => True) (fun _ _ => True) [] p) :
    Lockstep (Together login) Eq p p :=
  Lockstep.refl (fun _ => .visible) hp

/-- A search shows no hash. -/
theorem renderUsers_alike {users users' : List User} (h : List.Forall₂ UserAlike users users') :
    renderUsers users' = renderUsers users := by
  have hitems : ∀ shown, users'.foldlM (fun result user => Json.pushBack (userItem user) result)
      shown = users.foldlM (fun result user => Json.pushBack (userItem user) result) shown := by
    induction h with
    | nil => exact fun _ => rfl
    | cons hm _ ih =>
        obtain ⟨hash, rfl⟩ := hm
        intro shown
        rw [List.foldlM_cons, List.foldlM_cons]
        exact bind_congr ih
  exact hitems _

theorem lockstep_searched {s : Statement} (hs : userSelection s = some Query.userColumns)
    (f : Json → Service HttpResponse) (hf : ∀ j, Lockstep (Together login) Eq (f j) (f j)) :
    Lockstep (Together login) Eq
      (execute s >>= fun rows => Prog.ofExcept (asContainer decodeUser rows) >>= fun users =>
        Prog.ofExcept (renderUsers users) >>= f)
      (execute s >>= fun rows => Prog.ofExcept (asContainer decodeUser rows) >>= fun users =>
        Prog.ofExcept (renderUsers users) >>= f) := by
  refine lockstep_execute_bind (.select hs) ?_
  intro rows rows' hrows
  refine Lockstep.ofExcept_bind (asContainer_alike hrows) ?_
  intro users users' husers
  rw [renderUsers_alike husers]
  exact Lockstep.same_bind fun j _ => hf j

theorem lockstep_userSearch (http : HttpRequest) :
    Lockstep (Together login) Eq (userSearchHandler u http) (userSearchHandler u http) := by
  unfold userSearchHandler PostgresStorage.searchUsersByLogin
    PostgresStorage.searchUsersByFirstNameLastName
  simp only [Prog.liftM_eq, Prog.bind_assoc]
  refine Lockstep.ite ?_ fun _ => Lockstep.ite ?_ fun _ => .pure rfl
  · intro _
    exact lockstep_searched rfl _ fun j => .pure rfl
  · intro _
    exact lockstep_searched rfl _ fun j => .pure rfl

/-! ### Registration -/

/-- The two bodies of a registration: one and the same, or the members of an object that
differ in the password, a text, of a request to register the user. -/
def BodiesAlike (login : String) (json json' : Json) : Prop :=
  json' = json ∨ ∃ members members', json = .object members ∧ json' = .object members' ∧
    (∀ key, key ≠ "password" → members'.lookup key = members.lookup key) ∧
    (∃ password password', members.lookup "password" = some (.string password) ∧
      members'.lookup "password" = some (.string password')) ∧
    ∀ name, members.lookup "login" = some (.string name) → StoredAs login name

theorem hasMember_alike {json json' : Json} (h : BodiesAlike login json json') (key : String) :
    json'.hasMember key = json.hasMember key := by
  rcases h with rfl | ⟨members, members', rfl, rfl, hrest, ⟨password, password', hp, hp'⟩, _⟩
  · rfl
  · show Except.ok (members'.lookup key).isSome = Except.ok (members.lookup key).isSome
    by_cases hkey : key = "password"
    · rw [hkey, hp, hp']
      rfl
    · rw [hrest key hkey]

theorem member_alike {json json' : Json} (h : BodiesAlike login json json') {key : String}
    (hkey : key ≠ "password") : json'.member key = json.member key := by
  rcases h with rfl | ⟨members, members', rfl, rfl, hrest, _, _⟩
  · rfl
  · exact congrArg Except.ok (hrest key hkey)

/-- The passwords differ only in a request to register the user. -/
theorem password_alike {json json' : Json} (h : BodiesAlike login json json') {name : String}
    {l : Option Json} (hl : json.member "login" = .ok l) (hname : Json.asString l = .ok name) :
    ExceptRel (fun p p' => p' = p ∨ StoredAs login name)
      (json.member "password" >>= Json.asString) (json'.member "password" >>= Json.asString) := by
  rcases h with rfl | ⟨members, members', rfl, rfl, _, ⟨password, password', hp, hp'⟩, hlogin⟩
  · cases json'.member "password" >>= Json.asString with
    | error e => exact .error e
    | ok p => exact .ok (Or.inl rfl)
  · have hmember : members.lookup "login" = l := Except.ok.inj hl
    have hstored : members.lookup "login" = some (.string name) := by
      rw [hmember]
      cases l with
      | none => exact absurd hname (by simp [Json.asString])
      | some j => cases j <;> simp_all [Json.asString]
    show ExceptRel _ (Json.asString (members.lookup "password"))
      (Json.asString (members'.lookup "password"))
    rw [hp, hp']
    exact .ok (Or.inr (hlogin name hstored))

theorem lockstep_password {json json' : Json} (h : BodiesAlike login json json') {name : String}
    {l : Option Json} (hl : json.member "login" = .ok l) (hname : Json.asString l = .ok name)
    {f f' : String → Service HttpResponse}
    (hf : ∀ p p', p' = p ∨ StoredAs login name → Lockstep (Together login) Eq (f p) (f' p')) :
    Lockstep (Together login) Eq
      (Prog.ofExcept (json.member "password") >>= fun j => Prog.ofExcept (Json.asString j) >>= f)
      (Prog.ofExcept (json'.member "password") >>= fun j =>
        Prog.ofExcept (Json.asString j) >>= f') := by
  have hbind : Lockstep (Together login) Eq
      (Prog.ofExcept (json.member "password" >>= Json.asString) >>= f)
      (Prog.ofExcept (json'.member "password" >>= Json.asString) >>= f') :=
    Lockstep.ofExcept_bind (password_alike h hl hname) hf
  simpa only [Prog.ofExcept_bind, Prog.bind_assoc] using hbind

/-- Whether the lookup found somebody. -/
theorem lockstep_found {rows rows' : List Row} (h : RowsAlike Query.userColumns rows rows') :
    Lockstep (Together login) (fun found found' : Option User => found'.isSome = found.isSome)
      (if rows.isEmpty = true then pure none
        else Prog.ofExcept (asSingleRow decodeUser rows) >>= fun m => pure (some m))
      (if rows'.isEmpty = true then pure none
        else Prog.ofExcept (asSingleRow decodeUser rows') >>= fun m => pure (some m)) := by
  rw [isEmpty_alike h]
  refine Lockstep.ite (fun _ => .pure rfl) ?_
  intro _
  exact Lockstep.ofExcept_bind (asSingleRow_alike h) fun _ _ _ => .pure rfl

/-- The seven columns of `CreateUser` never decode. -/
theorem lockstep_created {rows rows' : List Row}
    (h : RowsAlike ["id", "login", "password_hash", "first_name", "last_name", "email",
      "created_at"] rows rows') :
    Lockstep (Together login) Eq
      (if rows.isEmpty = true then pure none
        else Prog.ofExcept (asSingleRow decodeUser rows) >>= fun m => pure (some m))
      (if rows'.isEmpty = true then pure none
        else Prog.ofExcept (asSingleRow decodeUser rows') >>= fun m => pure (some m)) := by
  obtain ⟨us, us', hus, rfl, rfl⟩ := h
  rcases hus with _ | ⟨_, _ | _⟩
  · exact .pure rfl
  · exact .throw _
  · exact .throw _

theorem lockstep_register (hhash : HashFits u) {http http' : HttpRequest}
    (hheaders : http'.headers = http.headers)
    (hbody : ExceptRel (BodiesAlike login) (u.fromString http.body) (u.fromString http'.body)) :
    Lockstep (Together login) Eq (registerHandler u http) (registerHandler u http') := by
  have hheader : http'.getHeader "X-Request-Id" = http.getHeader "X-Request-Id" := by
    rw [HttpRequest.getHeader, HttpRequest.getHeader, hheaders]
  unfold registerHandler registerWith PostgresStorage.getUserByLogin PostgresStorage.createUser
  simp only [Prog.liftM_eq, Prog.bind_assoc, hheader]
  refine Lockstep.ofExcept_bind hbody ?_
  intro json json' hjson
  simp only [hasMember_alike hjson, member_alike hjson (by decide : "login" ≠ "password"),
    member_alike hjson (by decide : "first_name" ≠ "password"),
    member_alike hjson (by decide : "last_name" ≠ "password"),
    member_alike hjson (by decide : "email" ≠ "password")]
  refine Lockstep.same_bind fun _ _ => Lockstep.same_bind fun _ _ => Lockstep.same_bind fun _ _ =>
    Lockstep.same_bind fun _ _ => Lockstep.same_bind fun _ _ => ?_
  refine Lockstep.ite (fun _ => .pure rfl) ?_
  intro _
  refine Lockstep.same_bind fun l hl => Lockstep.same_bind fun name hname => ?_
  refine lockstep_execute_bind (.select rfl) ?_
  intro rows rows' hrows
  refine (lockstep_found hrows).bind ?_
  intro found found' hfound
  rw [hfound]
  refine Lockstep.ite (fun _ => .pure rfl) ?_
  intro _
  refine lockstep_password hjson hl hname ?_
  intro p p' hp
  refine Lockstep.same_bind fun _ _ => Lockstep.same_bind fun firstName _ => ?_
  refine Lockstep.same_bind fun _ _ => Lockstep.same_bind fun lastName _ => ?_
  refine Lockstep.same_bind fun _ _ => Lockstep.same_bind fun email _ => ?_
  refine .call (.visible trivial) ?_
  rintro createdAt _ rfl
  have hinsert : u.sha256 p' = u.sha256 p ∨ StoredAs login name := hp.imp_left (congrArg u.sha256)
  refine lockstep_execute_bind (.insert (hhash p) (hhash p') hinsert) ?_
  intro rows rows' hrows
  refine (lockstep_created hrows).bind ?_
  rintro created _ rfl
  refine lockstep_visible ?_
  cases created with
  | none => simp [valueOf]
  | some created =>
      simp [publishUserRegistered, publish, generateEventId, getCurrentTimestampISO, valueOf,
        Visible, Prog.ite_bind]

/-! ### The other requests -/

/-- A request to log this user in. -/
def LogsIn (u : Userver) (http : HttpRequest) (login : String) : Prop :=
  ∃ json l, u.fromString http.body = .ok json ∧ json.member "login" = .ok l ∧
    Json.asString l = .ok login

/-- A request that reads no hash of this user. -/
def Oblivious (u : Userver) (login : String) : Request → Prop
  | .register _ | .userSearch _ => False
  | .login http => ¬LogsIn u http login
  | _ => True

theorem visible_of_makes {request : Request} {h : Prog.History Call Call.Answer} {c : Call}
    (hrequest : Oblivious u login request) (hmakes : Makes u request h c) : Visible login c := by
  cases hmakes with
  | registerLookup | registerInsert | searchLogin | searchName => exact hrequest.elim
  | loginLookup hsupplies =>
      obtain ⟨json, l, _, hjson, hl, hlogin, _, _⟩ := hsupplies
      rintro rfl
      exact hrequest ⟨json, l, hjson, hl, hlogin⟩
  | _ => trivial

theorem lockstep_oblivious {request : Request} (hrequest : Oblivious u login request) :
    Lockstep (Together login) Eq (serve u request) (serve u request) :=
  lockstep_visible ((conducts_serve u request).mono
    (fun _ _ hmakes => visible_of_makes hrequest hmakes) (fun _ _ _ => trivial)
    fun _ _ _ => trivial)

/-- The requests of the two runs: the same request, which does not log the user in, or two
registrations with different passwords of the user. -/
inductive RequestsAlike (u : Userver) (login : String) : Request → Request → Prop
  | same {r : Request} (h : ∀ http, r = .login http → ¬LogsIn u http login) :
      RequestsAlike u login r r
  | register {http http' : HttpRequest} (hrest : http' = { http with body := http'.body })
      (hbody : ExceptRel (BodiesAlike login) (u.fromString http.body)
        (u.fromString http'.body)) :
      RequestsAlike u login (.register http) (.register http')

theorem lockstep_serve (hhash : HashFits u) {r r' : Request} (h : RequestsAlike u login r r') :
    Lockstep (Together login) Eq (serve u r) (serve u r') := by
  cases h with
  | register hrest hbody =>
      refine lockstep_register hhash ?_ hbody
      rw [hrest]
  | same hlogin =>
      cases r with
      | register http =>
          refine lockstep_register hhash rfl ?_
          cases u.fromString http.body with
          | error e => exact .error e
          | ok json => exact .ok (Or.inl rfl)
      | userSearch http => exact lockstep_userSearch http
      | login http => exact lockstep_oblivious (hlogin http rfl)
      | _ => exact lockstep_oblivious trivial

end Handlers

/-! ## Two runs -/

section Runs

variable {u : Userver} {login : String} {w w' : World} {requests requests' : ℕ → Request}

theorem ends_alike {α : Type} {p p' : Service α} (h : Lockstep (Together login) Eq p p') :
    (∀ a, p = .pure a ↔ p' = .pure a) ∧ ∀ exc, p = .throw exc ↔ p' = .throw exc := by
  cases h with
  | pure hab => simp [hab]
  | throw e => simp
  | call _ _ => simp

/-- **Non-interference.** The two runs give the same answers, let the same exceptions out,
publish the same records and leave the same cache; the worlds still differ in the hash of
this user alone. -/
theorem noninterference (hhash : HashFits u)
    (hrequests : ∀ tid, RequestsAlike u login (requests tid) (requests' tid))
    (hw : SameButHash login w w') (sched : List (ℕ × Choice)) :
    (∀ tid response, Answered (runService u w requests sched) tid response ↔
      Answered (runService u w' requests' sched) tid response) ∧
    (∀ tid exc, (runService u w requests sched).pool tid = .throw exc ↔
      (runService u w' requests' sched).pool tid = .throw exc) ∧
    (runService u w requests sched).world.topics =
      (runService u w' requests' sched).world.topics ∧
    (runService u w requests sched).world.cache =
      (runService u w' requests' sched).world.cache ∧
    SameButHash login (runService u w requests sched).world
      (runService u w' requests' sched).world := by
  have hstart : ∀ tid, Lockstep (Together login) Eq (serve u (requests tid))
      (serve u (requests' tid)) := fun tid => lockstep_serve hhash (hrequests tid)
  obtain ⟨hworld, hpool⟩ : SameButHash login (runService u w requests sched).world
      (runService u w' requests' sched).world ∧ ∀ tid, Lockstep (Together login) Eq
        ((runService u w requests sched).pool tid)
        ((runService u w' requests' sched).pool tid) :=
    Config.run_lockstep perform perform_together hw hstart sched
  refine ⟨fun tid response => (ends_alike (hpool tid)).1 response,
    fun tid exc => (ends_alike (hpool tid)).2 exc, ?_, ?_, hworld⟩
  · obtain ⟨db, _, heq⟩ := hworld
    exact (congrArg World.topics heq).symm
  · obtain ⟨db, _, heq⟩ := hworld
    exact (congrArg World.cache heq).symm

end Runs

/-! ## Two passwords -/

/-- Ann registers with this password, and somebody searches for her. -/
def requests (password : String) : ℕ → Request
  | 0 => .register (Sample.http password "" "")
  | _ => .userSearch { Sample.http "" "" "" with args := [("login", "ann")] }

theorem requests_alike (tid : ℕ) :
    RequestsAlike Sample.passwordOnly "ann" (requests "abc" tid) (requests "" tid) := by
  match tid with
  | 0 =>
      refine .register rfl (.ok (Or.inr ⟨_, _, rfl, rfl, ?_, ⟨"abc", "", rfl, rfl⟩, ?_⟩))
      · intro key hkey
        have hother : (key == "password") = false := beq_false_of_ne hkey
        simp [List.lookup_cons, hother]
      · rintro name ⟨⟩ stored hstored
        exact ((varchar_ok (by decide)).mp hstored).2
  | tid + 1 =>
      refine .same ?_
      intro http hlogin
      exact absurd hlogin (by simp [requests])

/-- Lookup, clock and INSERT, then the search. -/
def sched : List (ℕ × Choice) := List.replicate 3 (0, { serial := 1 }) ++ [(1, { serial := 1 })]

/-- The search shows Ann the same in both runs. -/
theorem noninterference_ann :
    Answered (runService Sample.passwordOnly Sample.empty (requests "abc") sched) 1
        { body := Sample.body } ∧
      Answered (runService Sample.passwordOnly Sample.empty (requests "") sched) 1
        { body := Sample.body } := by
  have habc : Answered (runService Sample.passwordOnly Sample.empty (requests "abc") sched) 1
      { body := Sample.body } := rfl
  have hsame : SameButHash "ann" Sample.empty Sample.empty :=
    ⟨_, ⟨_, List.forall₂_same.mpr fun r _ => RowAlike.refl r, rfl⟩, rfl⟩
  have hhash : HashFits Sample.passwordOnly := Sample.digest_fits
  exact ⟨habc, ((noninterference hhash requests_alike hsame sched).1 1 _).mp habc⟩

end MyService.Auth.PasswordSecrecy
