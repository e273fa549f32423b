import MyService.Cache.CacheManager
import MyService.Framework.Interleaving
import MyService.RateLimit.SlidingWindow
import MyService.Userver.Mongo
import MyService.Userver.Postgres

/-!
# What the requests share

The process and its servers as one state, and the calls a request handler makes
on it. Each call is atomic: a cache or limiter call holds its mutex, a statement,
a MongoDB operation and a Kafka send succeed fully or throw without effect. What
the environment decides about a call (clock readings, faults, assigned ids,
random draws) is its `Choice`.
-/

namespace MyService

open Framework Userver Userver.Postgres Cache RateLimit

/-- A record in a Kafka topic. The value is kept as the JSON that `ToString`
writes. -/
structure KafkaRecord where
  topic : String
  key : String
  message : Json

structure World where
  db : Database
  /-- the collection `comments` -/
  comments : Collection
  /-- every record sent, oldest first -/
  topics : List KafkaRecord
  cache : CacheManager
  /-- `login_limiter` -/
  limiter : SlidingWindowLimiter

/-- The process just started: its cache is empty and its limiter unused. -/
def World.boot (db : Database) (comments : Collection) (topics : List KafkaRecord) : World :=
  { db := db, comments := comments, topics := topics, cache := CacheManager.empty
    limiter := SlidingWindowLimiter.new 5 60 }

inductive Call where
  | cacheGet (key : String)
  | cacheSet (key value : String) (ttlSeconds : Int)
  | cacheInvalidate (key : String)
  | cacheInvalidateByPrefix (pfx : String)
  | tryAcquire (key : String)
  | getInfo (key : String)
  | execute (statement : Statement)
  | insertOne (doc : List (String × Bson))
  | find (filter : Filter)
  | findOne (filter : Filter)
  | updateOne (filter : Filter) (update : Update)
  | send (topic key : String) (message : Json)
  | systemNow
  | randomDraws

abbrev Call.Answer : Call → Type
  | .cacheGet _ => Option String
  | .cacheSet _ _ _ => Unit
  | .cacheInvalidate _ => Unit
  | .cacheInvalidateByPrefix _ => Unit
  | .tryAcquire _ => Bool
  | .getInfo _ => RateLimitInfo
  | .execute _ => Except Exn (List Row)
  | .insertOne _ => Except Exn Unit
  | .find _ => Except Exn (List Document)
  | .findOne _ => Except Exn (Option Document)
  | .updateOne _ _ => Except Exn ℕ
  | .send _ _ _ => Except Exn Unit
  | .systemNow => Int
  | .randomDraws => ℕ → Fin 16

/-- What the environment decides about one call. -/
structure Choice where
  /-- the `steady_clock` reading -/
  steady : Int := 0
  /-- the second `steady_clock` reading of a granted `TryAcquire` -/
  stamp : Int := 0
  /-- the `system_clock` reading -/
  system : Int := 0
  /-- the server fails the call -/
  fault : Option Exn := none
  /-- the next value of the table's id sequence -/
  serial : Int := 0
  /-- the `_id` MongoDB assigns -/
  oid : Oid := Oid.zeros
  /-- the draws of one random generator -/
  draws : ℕ → Fin 16 := fun _ => digitZero

/-- A call on a server: it fails by choice, or `act` decides; `put` is the world
with the new value of the component the call works on. -/
def serverCall {X α : Type} (ch : Choice) (w : World) (put : X → World)
    (act : Except Exn (X × α)) : World × Except Exn α :=
  match ch.fault, act with
  | some e, _ => (w, .error e)
  | none, .error e => (w, .error e)
  | none, .ok (x, a) => (put x, .ok a)

/-- Perform one call. -/
def perform : (c : Call) → Choice → World → World × c.Answer
  | .cacheGet key, ch, w =>
      ({ w with cache := (w.cache.get key ch.steady).2 }, (w.cache.get key ch.steady).1)
  | .cacheSet key value ttl, ch, w =>
      ({ w with cache := w.cache.set key value ttl ch.steady }, ())
  | .cacheInvalidate key, _, w => ({ w with cache := w.cache.invalidate key }, ())
  | .cacheInvalidateByPrefix pfx, _, w =>
      ({ w with cache := w.cache.invalidateByPrefix pfx }, ())
  | .tryAcquire key, ch, w =>
      ({ w with limiter := (w.limiter.tryAcquire key ch.steady ch.stamp).2 },
        (w.limiter.tryAcquire key ch.steady ch.stamp).1)
  | .getInfo key, ch, w =>
      ({ w with limiter := (w.limiter.getInfo key ch.steady).2 },
        (w.limiter.getInfo key ch.steady).1)
  | .execute s, ch, w =>
      serverCall ch w (fun db => { w with db := db }) (w.db.execute ch.serial s)
  | .insertOne doc, ch, w =>
      serverCall ch w (fun comments => { w with comments := comments })
        ((w.comments.insertOne ch.oid doc).map fun comments => (comments, ()))
  | .find f, ch, w => serverCall ch w (fun _ : Unit => w) (.ok ((), w.comments.find f))
  | .findOne f, ch, w => serverCall ch w (fun _ : Unit => w) (.ok ((), w.comments.findOne f))
  | .updateOne f u, ch, w =>
      serverCall ch w (fun comments => { w with comments := comments })
        (w.comments.updateOne f u)
  | .send topic key message, ch, w =>
      serverCall ch w (fun topics => { w with topics := topics })
        (.ok (w.topics ++ [⟨topic, key, message⟩], ()))
  | .systemNow, ch, w => (w, ch.system)
  | .randomDraws, ch, w => (w, ch.draws)

/-- What a request handler does: it returns a value or lets an exception out. -/
abbrev Service (α : Type) : Type := Prog Call Call.Answer Exn α

/-! The calls that cannot fail, as programs. -/

@[simp] def cacheGet (key : String) : Service (Option String) := Prog.ask (Call.cacheGet key)

@[simp] def cacheSet (key value : String) (ttlSeconds : Int) : Service Unit :=
  Prog.ask (Call.cacheSet key value ttlSeconds)

@[simp] def cacheInvalidate (key : String) : Service Unit := Prog.ask (Call.cacheInvalidate key)

@[simp] def cacheInvalidateByPrefix (pfx : String) : Service Unit :=
  Prog.ask (Call.cacheInvalidateByPrefix pfx)

@[simp] def tryAcquire (key : String) : Service Bool := Prog.ask (Call.tryAcquire key)

@[simp] def getInfo (key : String) : Service RateLimitInfo := Prog.ask (Call.getInfo key)

@[simp] def systemNow : Service Int := Prog.ask Call.systemNow

@[simp] def randomDraws : Service (ℕ → Fin 16) := Prog.ask Call.randomDraws

/-! ## What each call does -/

/-- A server call fails and changes nothing, or its action happens. -/
theorem serverCall_cases {X α : Type} (ch : Choice) (w : World) (put : X → World)
    (act : Except Exn (X × α)) :
    (∃ e, (ch.fault = some e ∨ ch.fault = none ∧ act = .error e) ∧
      serverCall ch w put act = (w, .error e)) ∨
    ∃ x a, ch.fault = none ∧ act = .ok (x, a) ∧ serverCall ch w put act = (put x, .ok a) := by
  unfold serverCall
  cases ch.fault with
  | some e => exact Or.inl ⟨e, Or.inl rfl, rfl⟩
  | none =>
      cases act with
      | error e => exact Or.inl ⟨e, Or.inr ⟨rfl, rfl⟩, rfl⟩
      | ok r => exact Or.inr ⟨r.1, r.2, rfl, rfl, rfl⟩

/-- A server call whose action cannot fail by itself. -/
theorem serverCall_ok {X α : Type} (ch : Choice) (w : World) (put : X → World) (x : X)
    (a : α) :
    (∃ e, ch.fault = some e ∧ serverCall ch w put (.ok (x, a)) = (w, .error e)) ∨
    ch.fault = none ∧ serverCall ch w put (.ok (x, a)) = (put x, .ok a) := by
  unfold serverCall
  cases ch.fault with
  | some e => exact Or.inl ⟨e, rfl, rfl⟩
  | none => exact Or.inr ⟨rfl, rfl⟩

section Cases

variable (ch : Choice) (w : World)

theorem execute_cases (s : Statement) :
    (∃ e, (ch.fault = some e ∨ ch.fault = none ∧ w.db.execute ch.serial s = .error e) ∧
      perform (.execute s) ch w = (w, .error e)) ∨
    ∃ db rows, ch.fault = none ∧ w.db.execute ch.serial s = .ok (db, rows) ∧
      perform (.execute s) ch w = ({ w with db := db }, .ok rows) :=
  serverCall_cases ch w _ _

theorem insertOne_cases (doc : List (String × Bson)) :
    (∃ e, (ch.fault = some e ∨ ch.fault = none ∧
        w.comments.insertOne ch.oid doc = .error e) ∧
      perform (.insertOne doc) ch w = (w, .error e)) ∨
    ∃ comments, ch.fault = none ∧ w.comments.insertOne ch.oid doc = .ok comments ∧
      perform (.insertOne doc) ch w = ({ w with comments := comments }, .ok ()) := by
  cases hi : w.comments.insertOne ch.oid doc with
  | error e =>
      -- the collection refuses, whatever the server does
      have hperform : perform (.insertOne doc) ch w =
          serverCall ch w (fun comments => { w with comments := comments }) (.error e) := by
        show serverCall ch w _ ((w.comments.insertOne ch.oid doc).map _) = _
        rw [hi]
        rfl
      rcases serverCall_cases ch w (fun comments => { w with comments := comments })
        (.error e : Except Exn (Collection × Unit)) with ⟨e', he, heq⟩ | ⟨_, _, _, hact, _⟩
      · refine Or.inl ⟨e', he.imp_right fun h => ⟨h.1, ?_⟩, hperform.trans heq⟩
        rw [Except.error.inj h.2]
      · exact absurd hact (by simp)
  | ok comments =>
      have hperform : perform (.insertOne doc) ch w =
          serverCall ch w (fun comments => { w with comments := comments })
            (.ok (comments, ())) := by
        show serverCall ch w _ ((w.comments.insertOne ch.oid doc).map _) = _
        rw [hi]
        rfl
      rcases serverCall_ok ch w (fun comments => { w with comments := comments }) comments ()
        with ⟨e, he, heq⟩ | ⟨hf, heq⟩
      · exact Or.inl ⟨e, Or.inl he, hperform.trans heq⟩
      · exact Or.inr ⟨comments, hf, rfl, hperform.trans heq⟩

theorem updateOne_cases (f : Filter) (u : Update) :
    (∃ e, (ch.fault = some e ∨ ch.fault = none ∧ w.comments.updateOne f u = .error e) ∧
      perform (.updateOne f u) ch w = (w, .error e)) ∨
    ∃ comments n, ch.fault = none ∧ w.comments.updateOne f u = .ok (comments, n) ∧
      perform (.updateOne f u) ch w = ({ w with comments := comments }, .ok n) :=
  serverCall_cases ch w _ _

theorem find_cases (f : Filter) :
    (∃ e, ch.fault = some e ∧ perform (.find f) ch w = (w, .error e)) ∨
    ch.fault = none ∧ perform (.find f) ch w = (w, .ok (w.comments.find f)) :=
  serverCall_ok ch w (fun _ : Unit => w) () _

theorem findOne_cases (f : Filter) :
    (∃ e, ch.fault = some e ∧ perform (.findOne f) ch w = (w, .error e)) ∨
    ch.fault = none ∧ perform (.findOne f) ch w = (w, .ok (w.comments.findOne f)) :=
  serverCall_ok ch w (fun _ : Unit => w) () _

theorem send_cases (topic key : String) (message : Json) :
    (∃ e, ch.fault = some e ∧ perform (.send topic key message) ch w = (w, .error e)) ∨
    ch.fault = none ∧ perform (.send topic key message) ch w =
      ({ w with topics := w.topics ++ [⟨topic, key, message⟩] }, .ok ()) :=
  serverCall_ok ch w (fun topics => { w with topics := topics }) _ ()

@[simp] theorem perform_systemNow : perform .systemNow ch w = (w, ch.system) := rfl

@[simp] theorem perform_findOne_world (f : Filter) : (perform (.findOne f) ch w).1 = w := by
  rcases findOne_cases ch w f with ⟨e, _, heq⟩ | ⟨_, heq⟩
  · rw [heq]
  · rw [heq]

end Cases

/-- What a server call leaves alone. -/
theorem serverCall_frame {X α Y : Type} {ch : Choice} {w : World} {put : X → World}
    {act : Except Exn (X × α)} (π : World → Y) (h : ∀ x, π (put x) = π w) :
    π (serverCall ch w put act).1 = π w := by
  rcases serverCall_cases ch w put act with ⟨e, _, heq⟩ | ⟨x, a, _, _, heq⟩
  · rw [heq]
  · rw [heq]
    exact h x

section Frame

variable (c : Call) (ch : Choice) (w : World)

theorem perform_db (h : ∀ s, c ≠ .execute s) : (perform c ch w).1.db = w.db := by
  cases c with
  | execute s => exact absurd rfl (h s)
  | insertOne _ | find _ | findOne _ | updateOne _ _ | send _ _ _ =>
      exact serverCall_frame World.db fun _ => rfl
  | _ => rfl

theorem perform_comments (hinsert : ∀ doc, c ≠ .insertOne doc)
    (hupdate : ∀ f u, c ≠ .updateOne f u) : (perform c ch w).1.comments = w.comments := by
  cases c with
  | insertOne doc => exact absurd rfl (hinsert doc)
  | updateOne f u => exact absurd rfl (hupdate f u)
  | execute _ | find _ | findOne _ | send _ _ _ =>
      exact serverCall_frame World.comments fun _ => rfl
  | _ => rfl

theorem perform_topics (h : ∀ topic key message, c ≠ .send topic key message) :
    (perform c ch w).1.topics = w.topics := by
  cases c with
  | send topic key message => exact absurd rfl (h topic key message)
  | execute _ | insertOne _ | find _ | findOne _ | updateOne _ _ =>
      exact serverCall_frame World.topics fun _ => rfl
  | _ => rfl

/-- The cache's part of a call. -/
def cacheCall : Call → Choice → Option CacheManager.Call
  | .cacheGet key, ch => some (.get key ch.steady)
  | .cacheSet key value ttl, ch => some (.set key value ttl ch.steady)
  | .cacheInvalidate key, _ => some (.invalidate key)
  | .cacheInvalidateByPrefix pfx, _ => some (.invalidateByPrefix pfx)
  | _, _ => none

theorem perform_cache :
    (perform c ch w).1.cache =
      match cacheCall c ch with
      | some call => w.cache.apply call
      | none => w.cache := by
  cases c with
  | execute _ | insertOne _ | find _ | findOne _ | updateOne _ _ | send _ _ _ =>
      exact serverCall_frame World.cache fun _ => rfl
  | _ => rfl

/-- The limiter's part of a call. -/
def limiterCall : Call → Choice → Option SlidingWindowLimiter.Call
  | .tryAcquire key, ch => some (.tryAcquire key ch.steady ch.stamp)
  | .getInfo key, ch => some (.getInfo key ch.steady)
  | _, _ => none

theorem perform_limiter :
    (perform c ch w).1.limiter =
      match limiterCall c ch with
      | some (.tryAcquire key now stamp) => (w.limiter.tryAcquire key now stamp).2
      | some (.getInfo key now) => (w.limiter.getInfo key now).2
      | none => w.limiter := by
  cases c with
  | execute _ | insertOne _ | find _ | findOne _ | updateOne _ _ | send _ _ _ =>
      exact serverCall_frame World.limiter fun _ => rfl
  | _ => rfl

end Frame

/-! ## Small worlds -/

namespace Sample

/-- Nothing stored, nothing sent. -/
def empty : World := World.boot Database.empty Collection.empty []

def ann : UserRow :=
  { id := 1, login := "ann", passwordHash := "x", firstName := "Ann", lastName := "Lee"
    email := "ann@example.com", createdAt := some 0, isDeleted := some false }

/-- The tables with this user alone. -/
def userTable (r : UserRow) : Database :=
  { Database.empty with
    users := ⟨[r], List.nodup_singleton _, List.nodup_singleton _, List.nodup_singleton _⟩ }

def oneUser (r : UserRow) : World := World.boot (userTable r) Collection.empty []

/-- The id that ends in this digit. -/
def idOf (n : ℕ) : Oid :=
  ⟨List.replicate 23 digitZero ++ [⟨n % 16, Nat.mod_lt n (Nat.succ_pos 15)⟩], rfl⟩

end Sample

end MyService
