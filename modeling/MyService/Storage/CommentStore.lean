import MyService.Framework.KeyedStore
import MyService.Framework.Sequential
import MyService.Storage.CommentCodec

/-!
# MongoStorage is a store of comments

What the class is for: comments under their ids, listed by task, oldest first; a reply goes
to the end of its comment's replies. `CommentStore` says so with records alone. The class
keeps BSON documents, and each operation is one query of the server that can fail.
`mongoStorage_refines` is the connection: whatever operations are made, in any order and
with any failures, the results are those of the store, and the documents still represent it.

`DeleteComment` is not reached by any request; its query extends the calls of the service.
-/

namespace MyService.Storage

open Framework Userver Chrono Models MongoStorage CommentCodec

/-- Comments as they read back, under their ids. -/
abbrev CommentStore : Type := KeyedStore Oid Comment

namespace CommentStore

/-! ## The queries -/

inductive StorageCall where
  | service (c : Call)
  | deleteOne (filter : Filter)

abbrev StorageCall.Answer : StorageCall → Type
  | .service c => c.Answer
  | .deleteOne _ => Except Exn ℕ

def performStorage : (c : StorageCall) → Choice → World → World × c.Answer
  | .service c, ch, w => perform c ch w
  | .deleteOne f, ch, w =>
      serverCall ch w (fun comments => { w with comments := comments })
        (.ok (w.comments.deleteOne f))

abbrev StorageProg (α : Type) : Type := Prog StorageCall StorageCall.Answer Exn α

/-- A program of the service's calls. -/
def ofService {α : Type} : Service α → StorageProg α
  | .pure a => .pure a
  | .throw e => .throw e
  | .call c k => .call (.service c) fun r => ofService (k r)

theorem exec_ofService {α : Type} (p : Service α) (cs : ℕ → Choice) (w : World) :
    (ofService p).exec performStorage cs w = p.exec perform cs w := by
  induction p generalizing cs w with
  | pure a => rfl
  | throw e => rfl
  | call c k ih => exact ih _ _ _

def deleteComment (id : String) : StorageProg Unit := do
  let oid ← Oid.ofString id
  let _ ← Prog.ofExcept (← Prog.ask (.deleteOne (idFilter oid)))

/-! ## The operations -/

inductive Operation where
  | insertComment (comment : Comment)
  | getCommentsByTask (taskId : Int)
  | getCommentById (id : String)
  | addReply (commentId : String) (reply : Reply)
  | deleteComment (id : String)
  | getTaskIdByCommentId (commentId : String)

inductive Outcome where
  | done
  | listed (comments : List Comment)
  | found (comment : Option Comment)
  | task (taskId : Int)
deriving DecidableEq

/-- The member function. -/
def Operation.program : Operation → StorageProg Outcome
  | .insertComment comment => ofService do
      MongoStorage.insertComment comment
      return .done
  | .getCommentsByTask taskId => ofService do
      return .listed (← MongoStorage.getCommentsByTask taskId)
  | .getCommentById id => ofService do
      return .found (← MongoStorage.getCommentById id)
  | .addReply commentId reply => ofService do
      MongoStorage.addReply commentId reply
      return .done
  | .deleteComment id => do
      CommentStore.deleteComment id
      return .done
  | .getTaskIdByCommentId commentId => ofService do
      return .task (← MongoStorage.getTaskIdByCommentId commentId)

/-- The ids in a comment are of type `int`. -/
def Operation.Typed : Operation → Prop
  | .insertComment comment => IsInt comment.taskId ∧ IsInt comment.authorId
  | _ => True

/-! ## The store -/

/-- What the environment decides about one operation. -/
structure Environment where
  fault : Option Exn
  /-- the id the server assigns -/
  assigned : Oid
  now : Int

/-- The reply at the end, as it reads back. -/
def addedReply (reply : Reply) (now : Int) (c : Comment) : Comment :=
  { c with
    replies := c.replies ++ [replyOnMillis reply]
    updatedAt := some (onMillis now) }

/-- A query on the store. -/
def query (env : Environment) (s : CommentStore) (act : CommentStore × Except Exn Outcome) :
    CommentStore × Except Exn Outcome :=
  match env.fault with
  | some e => (s, .error e)
  | none => act

/-- A query for an id, which must be well formed. -/
def queryId (env : Environment) (s : CommentStore) (id : String)
    (act : Oid → CommentStore × Except Exn Outcome) : CommentStore × Except Exn Outcome :=
  match Oid.ofString id with
  | .error e => (s, .error e)
  | .ok oid => query env s (act oid)

def step (env : Environment) (s : CommentStore) : Operation → CommentStore × Except Exn Outcome
  | .insertComment comment =>
      query env s <|
        match s.insert? env.assigned (onMillisUnder env.assigned comment) with
        | some s' => (s', .ok .done)
        | none => (s, .error .duplicateKey)
  | .getCommentsByTask taskId =>
      query env s (s, .ok (.listed (s.valuesWhere fun c => c.taskId = taskId)))
  | .getCommentById id => queryId env s id fun oid => (s, .ok (.found (s.get? oid)))
  | .addReply commentId reply =>
      queryId env s commentId fun oid => (s.modify oid (addedReply reply env.now), .ok .done)
  | .deleteComment id => queryId env s id fun oid => (s.erase oid, .ok .done)
  | .getTaskIdByCommentId commentId =>
      match queryId env s commentId fun oid =>
        (s, .ok (.task (((s.get? oid).map Comment.taskId).getD (-1)))) with
      | (s, .ok outcome) => (s, .ok outcome)
      | (s, .error _) => (s, .ok (.task (-1)))

/-- The choices that an operation meets: `AddReply` reads the clock before its query. -/
def environmentOf (cs : ℕ → Choice) : Operation → Environment
  | .addReply _ _ => { fault := (cs 1).fault, assigned := (cs 1).oid, now := (cs 0).system }
  | _ => { fault := (cs 0).fault, assigned := (cs 0).oid, now := (cs 0).system }

/-- Operations one after the other: the results, and the store at the end. -/
def steps :
    List (Operation × (ℕ → Choice)) → CommentStore → List (Except Exn Outcome) × CommentStore
  | [], s => ([], s)
  | (op, cs) :: ops, s =>
      let r := step (environmentOf cs op) s op
      (r.2 :: (steps ops r.1).1, (steps ops r.1).2)

/-! ## Representation -/

/-- The document is the comment that reads back so. -/
def Stands (o : Oid) (c : Comment) (d : Document) : Prop :=
  ∃ written, Holds o written d ∧ c = onMillisUnder o written ∧ IsInt written.taskId ∧
    IsInt written.authorId

/-- The collection holds the comments of the store and nothing else. -/
def Refines (s : CommentStore) (c : Collection) : Prop :=
  KeyedStore.Represents Stands s c.docs

theorem tellsKey_stands : KeyedStore.TellsKey Stands Document.hasId := by
  rintro ⟨o, c⟩ d k ⟨written, hholds, _⟩
  rw [Bool.eq_iff_iff, Document.hasId_iff, hholds.id]
  simp [KeyedStore.under]

theorem Stands.reads {o : Oid} {c : Comment} {d : Document} (h : Stands o c d) :
    commentFromBson d = .ok c := by
  obtain ⟨written, hholds, rfl, htask, hauthor⟩ := h
  exact hholds.commentFromBson htask hauthor

theorem stands_stored {comment : Comment} (o : Oid) (htask : IsInt comment.taskId)
    (hauthor : IsInt comment.authorId) :
    Stands o (onMillisUnder o comment) (Collection.stored o (commentToBson comment)) :=
  ⟨comment, holds_stored o comment, rfl, htask, hauthor⟩

theorem Stands.addedReply {o : Oid} {c : Comment} {d d' : Document} {reply : Reply} {now : Int}
    (h : Stands o c d) (happly : (replyUpdate reply now).apply d = .ok d') :
    Stands o (addedReply reply now c) d' := by
  obtain ⟨written, hholds, rfl, htask, hauthor⟩ := h
  obtain ⟨d'', happly', hreplied⟩ := hholds.replyUpdate reply now
  rw [happly] at happly'
  obtain rfl := Except.ok.inj happly'
  refine ⟨withReply written reply now, hreplied, ?_, htask, hauthor⟩
  simp [CommentStore.addedReply, onMillisUnder, withReply]

/-- The documents of a list of comments read back as the list. -/
theorem mapM_commentFromBson {comments : List Comment} {docs : List Document}
    (hstands : List.Forall₂ (fun c d => ∃ o, Stands o c d) comments docs) :
    docs.mapM commentFromBson = .ok comments := by
  induction hstands with
  | nil => rfl
  | cons hhead _ ih =>
      obtain ⟨o, hstands⟩ := hhead
      rw [List.mapM_cons, hstands.reads, ih]
      rfl

theorem taskId_matches {o : Oid} {c : Comment} {d : Document} (hstands : Stands o c d)
    (taskId : Int) :
    decide (c.taskId = taskId) = Filter.matches ⟨"task_id", .int32 taskId⟩ d := by
  obtain ⟨written, hholds, rfl, _⟩ := hstands
  rw [Filter.matches, hholds.taskId]
  simp [Bson.matchedBy, Bson.equals, Bson.number?, onMillisUnder, eq_comm]

theorem Stands.asInt_taskId {o : Oid} {c : Comment} {d : Document} (h : Stands o c d) :
    Bson.asInt (d.get? "task_id") = .ok c.taskId := by
  obtain ⟨written, hholds, rfl, htask, _⟩ := h
  rw [hholds.taskId, asInt_int32 htask]
  rfl

/-- No stored comment refuses a reply. -/
theorem updateOne_refines {s : CommentStore} {c : Collection} (h : Refines s c) (oid : Oid)
    (reply : Reply) (now : Int) :
    ∃ c' n, c.updateOne (idFilter oid) (replyUpdate reply now) = .ok (c', n) ∧
      Refines (s.modify oid (CommentStore.addedReply reply now)) c' := by
  have hmatches : ∀ d, (idFilter oid).matches d = d.hasId oid := Filter.matches_oid oid
  rcases Collection.updateOne_cases c (idFilter oid) (replyUpdate reply now) with
    ⟨hnone, heq⟩ | ⟨pre, d, post, hsplit, _, hd, ⟨d', c', happly, hdocs, heq⟩ | ⟨e, herror, _⟩⟩
  · refine ⟨c, 0, heq, h.modify_absent tellsKey_stands (fun d hd => ?_) _⟩
    rw [← hmatches, hnone d hd]
    simp
  · refine ⟨c', 1, heq, ?_⟩
    rw [hmatches] at hd
    show KeyedStore.Represents Stands _ c'.docs
    rw [Refines, hsplit] at h
    rw [hdocs]
    exact h.modify tellsKey_stands hd fun v hstands => hstands.addedReply happly
  · obtain ⟨o, v, written, hholds, _⟩ := h.rep_of_mem (d := d) (by rw [hsplit]; simp)
    obtain ⟨d', happly, _⟩ := hholds.replyUpdate reply now
    rw [herror] at happly
    exact absurd happly (by simp)

/-! ## Simulation -/

/-- A program of one query. -/
theorem exec_query (c : StorageCall) (f : c.Answer → Except Exn Outcome) (cs : ℕ → Choice)
    (w : World) :
    (Prog.call c fun r => Prog.ofExcept (f r) : StorageProg Outcome).exec performStorage cs w =
      (f (performStorage c (cs 0) w).2, (performStorage c (cs 0) w).1) := by
  rw [Prog.exec_call]
  cases f (performStorage c (cs 0) w).2 <;> rfl

/-- The program and the step have the same outcome, and the documents represent the store
that the step leaves. -/
def Simulates (s : CommentStore) (w : World) (cs : ℕ → Choice) (op : Operation) : Prop :=
  (op.program.exec performStorage cs w).1 = (step (environmentOf cs op) s op).2 ∧
    Refines (step (environmentOf cs op) s op).1 (op.program.exec performStorage cs w).2.comments

/-- A malformed id makes no query. -/
theorem simulates_malformed {s : CommentStore} {w : World} (h : Refines s w.comments)
    {cs : ℕ → Choice} {op : Operation} (outcome : Except Exn Outcome)
    (hexec : op.program.exec performStorage cs w = (outcome, w))
    (hstep : step (environmentOf cs op) s op = (s, outcome)) : Simulates s w cs op := by
  unfold Simulates
  rw [hexec, hstep]
  exact ⟨rfl, h⟩

theorem program_insertComment (comment : Comment) :
    (Operation.insertComment comment).program =
      .call (.service (.insertOne (commentToBson comment))) fun r =>
        Prog.ofExcept (r.map fun _ => .done) := by
  simp [Operation.program, MongoStorage.insertComment, ofService]
  funext r
  cases r <;> rfl

theorem program_getCommentsByTask (taskId : Int) :
    (Operation.getCommentsByTask taskId).program =
      .call (.service (.find ⟨"task_id", .int32 taskId⟩)) fun r =>
        Prog.ofExcept (r >>= fun docs => Outcome.listed <$> docs.mapM commentFromBson) := by
  simp [Operation.program, MongoStorage.getCommentsByTask, ofService]
  funext r
  cases r with
  | error e => rfl
  | ok docs =>
      show ofService (Prog.ofExcept (docs.mapM commentFromBson) >>= _) = Prog.ofExcept (_ <$> _)
      cases docs.mapM commentFromBson <;> rfl

section Queries

variable {id : String} {oid : Oid} (hoid : Oid.ofString id = .ok oid)

include hoid

theorem program_getCommentById :
    (Operation.getCommentById id).program =
      .call (.service (.findOne (idFilter oid))) fun r =>
        Prog.ofExcept (r >>= fun doc =>
          match doc with
          | none => .ok (.found none)
          | some d => (fun c => .found (some c)) <$> commentFromBson d) := by
  simp [Operation.program, MongoStorage.getCommentById, hoid, ofService]
  funext r
  cases r with
  | error e => rfl
  | ok doc =>
      cases doc with
      | none => rfl
      | some d =>
          show ofService ((Prog.ofExcept (commentFromBson d) >>= _) >>= _) =
            Prog.ofExcept (_ <$> commentFromBson d)
          cases commentFromBson d <;> rfl

theorem program_addReply (reply : Reply) :
    (Operation.addReply id reply).program =
      .call (.service .systemNow) fun now =>
        .call (.service (.updateOne (idFilter oid) (replyUpdate reply now))) fun r =>
          Prog.ofExcept (r.map fun _ => .done) := by
  simp [Operation.program, MongoStorage.addReply, hoid, ofService]
  funext now
  congr 1
  funext r
  cases r <;> rfl

theorem program_deleteComment :
    (Operation.deleteComment id).program =
      .call (.deleteOne (idFilter oid)) fun r => Prog.ofExcept (r.map fun _ => .done) := by
  simp [Operation.program, CommentStore.deleteComment, hoid]
  funext r
  cases r <;> rfl

theorem program_getTaskIdByCommentId :
    (Operation.getTaskIdByCommentId id).program =
      .call (.service (.findOne (idFilter oid))) fun r =>
        Prog.ofExcept (.ok (.task (taskIdOf r))) := by
  simp only [Operation.program, getTaskIdByCommentId_eq, hoid]
  rfl

end Queries

section Simulation

variable {s : CommentStore} {w : World} (h : Refines s w.comments) (cs : ℕ → Choice)

include h

theorem simulates_insertComment {comment : Comment}
    (htyped : (Operation.insertComment comment).Typed) :
    Simulates s w cs (.insertComment comment) := by
  unfold Simulates
  rw [program_insertComment, exec_query]
  simp only [performStorage, step, environmentOf, query]
  rcases insertOne_cases (cs 0) w (commentToBson comment) with
    ⟨e, he | ⟨hfault, herror⟩, heq⟩ | ⟨comments, hfault, hok, heq⟩
  · rw [heq, he]
    exact ⟨rfl, h⟩
  · rw [heq, hfault]
    rcases w.comments.insertOne_cases (cs 0).oid (commentToBson comment) with
      ⟨_, c', hok, _⟩ | ⟨⟨d, hd, hid⟩, hduplicate⟩
    · rw [herror] at hok
      exact absurd hok (by simp)
    · rw [documentId_commentToBson] at hid
      have htaken : s.insert? (cs 0).oid (onMillisUnder (cs 0).oid comment) = none :=
        (h.insert?_eq_none tellsKey_stands _).mpr ⟨d, hd, Document.hasId_iff.mpr hid⟩
      rw [herror] at hduplicate
      rw [htaken, Except.error.inj hduplicate]
      exact ⟨rfl, h⟩
  · rw [heq, hfault]
    rcases w.comments.insertOne_cases (cs 0).oid (commentToBson comment) with
      ⟨hnew, c', hok', hdocs⟩ | ⟨_, hduplicate⟩
    · obtain rfl : comments = c' := Except.ok.inj (hok.symm.trans hok')
      rw [documentId_commentToBson] at hnew hdocs
      cases hinsert : s.insert? (cs 0).oid (onMillisUnder (cs 0).oid comment) with
      | none =>
          obtain ⟨d, hd, hid⟩ := (h.insert?_eq_none tellsKey_stands _).mp hinsert
          exact absurd (Document.hasId_iff.mp hid) (hnew d hd)
      | some s' =>
          refine ⟨rfl, ?_⟩
          show KeyedStore.Represents Stands s' comments.docs
          rw [hdocs]
          exact h.insert? (stands_stored _ htyped.1 htyped.2) hinsert
    · rw [hok] at hduplicate
      exact absurd hduplicate (by simp)

theorem simulates_getCommentsByTask (taskId : Int) :
    Simulates s w cs (.getCommentsByTask taskId) := by
  unfold Simulates
  rw [program_getCommentsByTask, exec_query]
  simp only [performStorage, step, environmentOf, query]
  rcases find_cases (cs 0) w ⟨"task_id", .int32 taskId⟩ with ⟨e, he, heq⟩ | ⟨hfault, heq⟩
  · rw [heq, he]
    exact ⟨rfl, h⟩
  · rw [heq, hfault]
    have hlisted := h.valuesWhere (p := fun c => decide (c.taskId = taskId))
      (q := Filter.matches ⟨"task_id", .int32 taskId⟩) fun o c d hstands =>
        taskId_matches hstands taskId
    refine ⟨?_, h⟩
    show (w.comments.find _).mapM commentFromBson >>= _ = _
    rw [show (w.comments.find _).mapM commentFromBson = _ from mapM_commentFromBson hlisted]
    rfl

/-- The lookup by id. -/
theorem find?_stands (oid : Oid) :
    Option.Rel (Stands oid) (s.get? oid) (w.comments.findOne (idFilter oid)) := by
  have hfind := h.get? tellsKey_stands oid
  rwa [show Document.hasId oid = (idFilter oid).matches from
    funext fun d => (Filter.matches_oid oid d).symm] at hfind

theorem simulates_getCommentById (id : String) : Simulates s w cs (.getCommentById id) := by
  cases hoid : Oid.ofString id with
  | error e =>
      refine simulates_malformed h (.error e) ?_ (by simp [step, queryId, hoid])
      simp [Operation.program, exec_ofService, MongoStorage.getCommentById, hoid]
  | ok oid =>
      unfold Simulates
      rw [program_getCommentById hoid, exec_query]
      simp only [performStorage, step, queryId, hoid, environmentOf, query]
      rcases findOne_cases (cs 0) w (idFilter oid) with ⟨e, he, heq⟩ | ⟨hfault, heq⟩
      · rw [heq, he]
        exact ⟨rfl, h⟩
      · rw [heq, hfault]
        refine ⟨?_, h⟩
        have hfind := find?_stands h oid
        revert hfind
        generalize s.get? oid = x
        generalize w.comments.findOne (idFilter oid) = y
        rintro (⟨hstands⟩ | _)
        · show (fun c => Outcome.found (some c)) <$> commentFromBson _ = _
          rw [hstands.reads]
          rfl
        · rfl

theorem simulates_addReply (commentId : String) (reply : Reply) :
    Simulates s w cs (.addReply commentId reply) := by
  cases hoid : Oid.ofString commentId with
  | error e =>
      refine simulates_malformed h (.error e) ?_ (by simp [step, queryId, hoid])
      simp [Operation.program, exec_ofService, MongoStorage.addReply, hoid]
  | ok oid =>
      unfold Simulates
      rw [program_addReply hoid, Prog.exec_call, exec_query]
      simp only [performStorage, perform_systemNow, step, queryId, hoid, environmentOf, query]
      obtain ⟨comments, n, hok, hrefines⟩ := updateOne_refines h oid reply (cs 0).system
      rcases updateOne_cases (cs 1) w (idFilter oid) (replyUpdate reply (cs 0).system) with
        ⟨e, he | ⟨_, herror⟩, heq⟩ | ⟨comments', n', hfault, hok', heq⟩
      · simp only [zero_add, heq, he]
        exact ⟨rfl, h⟩
      · rw [herror] at hok
        exact absurd hok (by simp)
      · obtain ⟨rfl, rfl⟩ := Prod.mk.inj (Except.ok.inj (hok.symm.trans hok'))
        simp only [zero_add, heq, hfault]
        exact ⟨rfl, hrefines⟩

theorem simulates_deleteComment (id : String) : Simulates s w cs (.deleteComment id) := by
  cases hoid : Oid.ofString id with
  | error e =>
      refine simulates_malformed h (.error e) ?_ (by simp [step, queryId, hoid])
      simp [Operation.program, CommentStore.deleteComment, hoid]
  | ok oid =>
      unfold Simulates
      rw [program_deleteComment hoid, exec_query]
      simp only [performStorage, step, queryId, hoid, environmentOf, query]
      rcases serverCall_ok (cs 0) w (fun comments => { w with comments := comments })
          (w.comments.deleteOne (idFilter oid)).1 (w.comments.deleteOne (idFilter oid)).2 with
        ⟨e, he, heq⟩ | ⟨hfault, heq⟩
      · rw [heq, he]
        exact ⟨rfl, h⟩
      · rw [heq, hfault]
        refine ⟨rfl, ?_⟩
        have herase := h.erase tellsKey_stands oid
        rwa [show Document.hasId oid = (idFilter oid).matches from
          funext fun d => (Filter.matches_oid oid d).symm] at herase

theorem simulates_getTaskIdByCommentId (commentId : String) :
    Simulates s w cs (.getTaskIdByCommentId commentId) := by
  cases hoid : Oid.ofString commentId with
  | error e =>
      refine simulates_malformed h (.ok (.task (-1))) ?_ (by simp [step, queryId, hoid])
      simp [Operation.program, exec_ofService, getTaskIdByCommentId_eq, hoid]
  | ok oid =>
      unfold Simulates
      rw [program_getTaskIdByCommentId hoid, exec_query]
      simp only [performStorage, step, queryId, hoid, environmentOf, query]
      rcases findOne_cases (cs 0) w (idFilter oid) with ⟨e, he, heq⟩ | ⟨hfault, heq⟩
      · rw [heq, he]
        exact ⟨rfl, h⟩
      · rw [heq, hfault]
        refine ⟨?_, h⟩
        have hfind := find?_stands h oid
        revert hfind
        generalize s.get? oid = x
        generalize w.comments.findOne (idFilter oid) = y
        rintro (⟨hstands⟩ | _)
        · rw [taskIdOf, hstands.asInt_taskId]
          rfl
        · rfl

/-- **One operation.** -/
theorem simulates {op : Operation} (htyped : op.Typed) : Simulates s w cs op := by
  cases op with
  | insertComment comment => exact simulates_insertComment h cs htyped
  | getCommentsByTask taskId => exact simulates_getCommentsByTask h cs taskId
  | getCommentById id => exact simulates_getCommentById h cs id
  | addReply commentId reply => exact simulates_addReply h cs commentId reply
  | deleteComment id => exact simulates_deleteComment h cs id
  | getTaskIdByCommentId commentId => exact simulates_getTaskIdByCommentId h cs commentId

end Simulation

/-! ## Runs -/

/-- The member functions called in turn, each with the choices that it meets. -/
def runStorage (ops : List (Operation × (ℕ → Choice))) (w : World) :
    List (Except Exn Outcome) × World :=
  Prog.execAll performStorage (ops.map fun op => (op.1.program, op.2)) w

/-- **MongoStorage is a store of comments.** Whatever operations are made, in any order and
with any failures, the results are those of the store, and the collection represents the
store they leave. -/
theorem mongoStorage_refines {s : CommentStore} {w : World} (h : Refines s w.comments)
    {ops : List (Operation × (ℕ → Choice))} (htyped : ∀ op ∈ ops, op.1.Typed) :
    (runStorage ops w).1 = (steps ops s).1 ∧
      Refines (steps ops s).2 (runStorage ops w).2.comments := by
  induction ops generalizing s w with
  | nil => exact ⟨rfl, h⟩
  | cons op ops ih =>
      obtain ⟨hoperation, hrest⟩ := List.forall_mem_cons.mp htyped
      obtain ⟨houtcome, hrefines⟩ := simulates h op.2 hoperation
      obtain ⟨houtcomes, hfinal⟩ := ih hrefines hrest
      exact ⟨List.cons_eq_cons.mpr ⟨houtcome, houtcomes⟩, hfinal⟩

/-- A comment is added, gets a reply, is read and deleted. The second insert meets its id, the
listing fails, and the last id is malformed. -/
def sampleOperations : List (Operation × (ℕ → Choice)) :=
  [(.insertComment sample, fun _ => {}),
   (.insertComment sample, fun _ => {}),
   (.addReply Oid.zeros.toString ⟨"cal", "no", 3999999⟩, fun _ => { system := 4500000 }),
   (.getCommentById Oid.zeros.toString, fun _ => {}),
   (.getCommentsByTask 7, fun _ => { fault := some .writeError }),
   (.deleteComment Oid.zeros.toString, fun _ => {}),
   (.getTaskIdByCommentId Oid.zeros.toString, fun _ => {}),
   (.getCommentById "xyz", fun _ => {})]

theorem mongoStorage_refines_sample :
    (runStorage sampleOperations (World.boot Postgres.Database.empty Collection.empty [])).1 =
      [.ok .done, .error .duplicateKey, .ok .done,
       .ok (.found (some { sample with
         id := "000000000000000000000000"
         createdAt := 1000000
         updatedAt := some 4000000
         replies := [⟨"bob", "yes", 2000000⟩, ⟨"cal", "no", 3000000⟩] })),
       .error .writeError, .ok .done, .ok (.task (-1)), .error .invalidOid] := by
  have hempty : Refines KeyedStore.empty
      (World.boot Postgres.Database.empty Collection.empty []).comments :=
    KeyedStore.represents_empty
  have htyped : ∀ op ∈ sampleOperations, op.1.Typed := by
    simp [sampleOperations, Operation.Typed, IsInt, sample]
  exact (mongoStorage_refines hempty htyped).1.trans (by decide)

end CommentStore

end MyService.Storage
