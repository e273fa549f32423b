import MyService.Models
import MyService.World

/-!
# MongoStorage

The collection `comments`. `GetTaskIdByCommentId` answers `-1` for every failure;
`AddReply` does not look at the matched count of its update.
-/

namespace MyService.Storage.MongoStorage

open Framework Userver Models
open Framework.Prog (ask)

def insertComment (comment : Comment) : Service Unit := do
  Prog.ofExcept (← ask (.insertOne (commentToBson comment)))

def getCommentsByTask (taskId : Int) : Service (List Comment) := do
  let filter : Filter := { field := "task_id", value := .int32 taskId }
  let docs ← Prog.ofExcept (← ask (.find filter))
  Prog.ofExcept (docs.mapM commentFromBson)

/-- The query for a comment id. -/
def idFilter (oid : Oid) : Filter := { field := "_id", value := .oid oid }

def getCommentById (id : String) : Service (Option Comment) := do
  let oid ← Oid.ofString id
  let doc ← Prog.ofExcept (← ask (.findOne (idFilter oid)))
  match doc with
  | none => return none
  | some doc => return some (← commentFromBson doc)

/-- The update of `AddReply`. -/
def replyUpdate (reply : Reply) (now : Int) : Update :=
  { push := ("replies", replyToBson reply), set := ("updated_at", dateOf now) }

def addReply (commentId : String) (reply : Reply) : Service Unit := do
  let oid ← Oid.ofString commentId
  let now ← systemNow
  let _ ← Prog.ofExcept (← ask (.updateOne (idFilter oid) (replyUpdate reply now)))

def getTaskIdByCommentId (commentId : String) : Service Int := do
  try
    let oid ← Oid.ofString commentId
    let result ← Prog.ofExcept (← ask (.findOne (idFilter oid)))
    match result with
    | some doc =>
        try Bson.asInt (doc.get? "task_id")
        catch _ => return -1
    | none => return -1
  catch _ => return -1

/-- The task id that a lookup's result gives. -/
def taskIdOf : Except Exn (Option Document) → Int
  | .ok (some doc) => (Bson.asInt (doc.get? "task_id")).toOption.getD (-1)
  | _ => -1

/-- A lookup that gives a task has read it off the document. -/
theorem asInt_of_taskIdOf_pos {doc : Document} (h : 0 < taskIdOf (.ok (some doc))) :
    Bson.asInt (doc.get? "task_id") = .ok (taskIdOf (.ok (some doc))) := by
  simp only [taskIdOf] at h ⊢
  cases hint : Bson.asInt (doc.get? "task_id") with
  | error e =>
      rw [hint] at h
      exact absurd h (by simp [Except.toOption])
  | ok n => rfl

/-- The lookup is one query, or none for a malformed id. -/
theorem getTaskIdByCommentId_eq (commentId : String) :
    getTaskIdByCommentId commentId =
      match Oid.ofString commentId with
      | .ok oid => .call (.findOne (idFilter oid)) fun result => .pure (taskIdOf result)
      | .error _ => .pure (-1) := by
  cases hoid : Oid.ofString commentId with
  | error e =>
      simp [getTaskIdByCommentId, hoid]
      rfl
  | ok oid =>
      simp [getTaskIdByCommentId, hoid]
      ext result
      cases result with
      | error e => rfl
      | ok found =>
          cases found with
          | none => rfl
          | some doc =>
              cases hn : Bson.asInt (doc.get? "task_id") with
              | error e => simp [taskIdOf, hn]; rfl
              | ok n => simp [taskIdOf, hn]; rfl

/-! ## What a reply does to a document -/

/-- The stored replies; none yet where the field is missing. -/
def replies? (d : Document) : Option (List Bson) :=
  match d.get? "replies" with
  | none => some []
  | some (.array items) => some items
  | some _ => none

theorem replies?_eq_none {d : Document} {v : Bson} (hv : d.get? "replies" = some v)
    (harray : ∀ items, v ≠ .array items) : replies? d = none := by
  rw [replies?, hv]
  cases v with
  | array items => exact absurd rfl (harray items)
  | _ => rfl

/-- `d'` is `d` with this reply at the end. -/
structure Extends (reply : Reply) (d d' : Document) : Prop where
  id : d'.id = d.id
  replies : ∃ items, replies? d = some items ∧
    replies? d' = some (items ++ [replyToBson reply])
  other : ∀ key, key ≠ "replies" → key ≠ "updated_at" → d'.get? key = d.get? key

/-- And `d'` was updated at this time. -/
structure Replied (reply : Reply) (now : Int) (d d' : Document) : Prop
    extends Extends reply d d' where
  updatedAt : d'.get? "updated_at" = some (dateOf now)

/-- The update of `AddReply` extends the document, or its `replies` is no array. -/
theorem apply_replyUpdate_cases (reply : Reply) (now : Int) (d : Document) :
    (∃ d', (replyUpdate reply now).apply d = .ok d' ∧ Replied reply now d d') ∨
    (replyUpdate reply now).apply d = .error .writeError ∧ replies? d = none := by
  have hreplies : d.get? "replies" = d.fields.lookup "replies" := rfl
  -- a push that goes through writes `items` and the reply
  have hextends : ∀ items, replies? d = some items →
      Replied reply now d { d with
        fields := setField "updated_at" (dateOf now)
          (setField "replies" (.array (items ++ [replyToBson reply])) d.fields) } := by
    intro items hitems
    refine ⟨⟨rfl, ⟨items, hitems, ?_⟩, fun key hkey hkey' => ?_⟩, ?_⟩
    · simp [replies?, Document.get?, lookup_setField]
    · simp [Document.get?, lookup_setField, hkey, hkey']
    · simp [Document.get?, lookup_setField]
  rcases pushField_cases "replies" (replyToBson reply) d.fields with
    ⟨items, hitems, hpush⟩ | ⟨⟨v, hv, harray⟩, hpush⟩
  · refine Or.inl ⟨_, ?_, hextends items ?_⟩
    · rw [Update.apply, replyUpdate, hpush]
      rfl
    · rw [replies?, hreplies]
      rcases hitems with h | ⟨h, rfl⟩
      · rw [h]
      · rw [h]
  · refine Or.inr ⟨?_, replies?_eq_none (hreplies.trans hv) harray⟩
    rw [Update.apply, replyUpdate, hpush]
    rfl

/-- A document with this id is the only one. -/
theorem eq_of_id {c : Collection} {d d' : Document} (hd : d ∈ c.docs) (hd' : d' ∈ c.docs)
    (h : d.id = d'.id) : d = d' :=
  List.inj_on_of_nodup_map c.ids_nodup hd hd' h

/-- The query for its id finds it. -/
theorem findOne_of_id {c : Collection} {oid : Oid} {d : Document} (hd : d ∈ c.docs)
    (hid : d.id = .oid oid) : c.findOne (idFilter oid) = some d := by
  cases hf : c.findOne (idFilter oid) with
  | none =>
      have hno := List.find?_eq_none.mp hf d hd
      rw [idFilter, Filter.matches_oid, Document.hasId_iff] at hno
      exact absurd hid hno
  | some d' =>
      have hmatch := List.find?_some hf
      rw [idFilter, Filter.matches_oid, Document.hasId_iff] at hmatch
      rw [eq_of_id (List.mem_of_find?_eq_some hf) hd (hmatch.trans hid.symm)]

/-- What the update of `AddReply` can do to the collection. -/
theorem updateReply_cases (c : Collection) (oid : Oid) (reply : Reply) (now : Int) :
    ((∀ d ∈ c.docs, d.id ≠ .oid oid) ∧
      c.updateOne (idFilter oid) (replyUpdate reply now) = .ok (c, 0)) ∨
    ∃ pre d post, c.docs = pre ++ d :: post ∧ d.id = .oid oid ∧
      ((∃ d' c', Replied reply now d d' ∧ c'.docs = pre ++ d' :: post ∧
          c.updateOne (idFilter oid) (replyUpdate reply now) = .ok (c', 1)) ∨
        replies? d = none ∧
          ∃ e, c.updateOne (idFilter oid) (replyUpdate reply now) = .error e) := by
  have hmatch : ∀ d, (idFilter oid).matches d = d.hasId oid := Filter.matches_oid oid
  rcases Collection.updateOne_cases c (idFilter oid) (replyUpdate reply now) with
    ⟨hnone, heq⟩ | ⟨pre, d, post, hsplit, _, hd, hres⟩
  · refine Or.inl ⟨fun d hd hid => ?_, heq⟩
    have hfalse := hnone d hd
    rw [hmatch, Document.hasId_iff.mpr hid] at hfalse
    exact absurd hfalse (by simp)
  · rw [hmatch] at hd
    refine Or.inr ⟨pre, d, post, hsplit, Document.hasId_iff.mp hd, ?_⟩
    rcases apply_replyUpdate_cases reply now d with ⟨d', happly, hext⟩ | ⟨happly, hnone⟩
    · rcases hres with ⟨d'', c', h, hdocs, heq⟩ | ⟨e, h, _⟩
      · rw [happly] at h
        obtain rfl := Except.ok.inj h
        exact Or.inl ⟨d', c', hext, hdocs, heq⟩
      · rw [happly] at h
        exact absurd h (by simp)
    · rcases hres with ⟨d'', _, h, _, _⟩ | ⟨e, _, heq⟩
      · rw [happly] at h
        exact absurd h (by simp)
      · exact Or.inr ⟨hnone, e, heq⟩

theorem updateReply_absent {c : Collection} {oid : Oid} (reply : Reply) (now : Int)
    (h : ∀ d ∈ c.docs, d.id ≠ .oid oid) :
    c.updateOne (idFilter oid) (replyUpdate reply now) = .ok (c, 0) := by
  rcases updateReply_cases c oid reply now with ⟨_, heq⟩ | ⟨pre, d, post, hsplit, hid, _⟩
  · exact heq
  · exact absurd hid (h d (by rw [hsplit]; simp))

/-- The update of a document that is there. -/
theorem updateReply_present {c : Collection} {oid : Oid} {d : Document} (reply : Reply)
    (now : Int) (hd : d ∈ c.docs) (hid : d.id = .oid oid) :
    (∃ pre post d' c', c.docs = pre ++ d :: post ∧ Replied reply now d d' ∧
        c'.docs = pre ++ d' :: post ∧
        c.updateOne (idFilter oid) (replyUpdate reply now) = .ok (c', 1)) ∨
      replies? d = none ∧
        ∃ e, c.updateOne (idFilter oid) (replyUpdate reply now) = .error e := by
  rcases updateReply_cases c oid reply now with ⟨hnone, _⟩ | ⟨pre, d₀, post, hsplit, hid₀, hres⟩
  · exact absurd hid (hnone d hd)
  · have hmem : d₀ ∈ c.docs := by
      rw [hsplit]
      simp
    obtain rfl : d₀ = d := eq_of_id hmem hd (hid₀.trans hid.symm)
    rcases hres with ⟨d', c', hext, hdocs, heq⟩ | herr
    · exact Or.inl ⟨pre, post, d', c', hsplit, hext, hdocs, heq⟩
    · exact Or.inr herr

/-- A call of the service keeps a document of a kind that replies do not leave. -/
theorem exists_doc_perform {P : Document → Prop}
    (hP : ∀ reply d d', Extends reply d d' → P d → P d') {c : Call} {ch : Choice} {w : World}
    (hupdate : ∀ f update, c = .updateOne f update → ∃ oid reply now,
      f = idFilter oid ∧ update = replyUpdate reply now)
    (h : ∃ d ∈ w.comments.docs, P d) : ∃ d ∈ (perform c ch w).1.comments.docs, P d := by
  obtain ⟨d, hd, hkind⟩ := h
  by_cases hinsert : ∃ doc, c = .insertOne doc
  · obtain ⟨doc, rfl⟩ := hinsert
    rcases insertOne_cases ch w doc with ⟨e, _, heq⟩ | ⟨comments, _, hok, heq⟩
    · rw [heq]
      exact ⟨d, hd, hkind⟩
    · rw [heq]
      rcases w.comments.insertOne_cases ch.oid doc with ⟨_, c', hc', hdocs⟩ | ⟨_, herr⟩
      · rw [hok] at hc'
        obtain rfl := Except.ok.inj hc'
        exact ⟨d, by simp [hdocs, hd], hkind⟩
      · rw [hok] at herr
        exact absurd herr (by simp)
  · by_cases hpush : ∃ f update, c = .updateOne f update
    · obtain ⟨f, update, rfl⟩ := hpush
      obtain ⟨oid, reply, now, rfl, rfl⟩ := hupdate f update rfl
      rcases updateOne_cases ch w (idFilter oid) (replyUpdate reply now) with
        ⟨e, _, heq⟩ | ⟨comments, n, _, hok, heq⟩
      · rw [heq]
        exact ⟨d, hd, hkind⟩
      · rw [heq]
        rcases updateReply_cases w.comments oid reply now with
          ⟨_, hsame⟩ | ⟨pre, d₀, post, hsplit, _, hres⟩
        · rw [hsame] at hok
          obtain ⟨rfl, _⟩ := Prod.mk.inj (Except.ok.inj hok)
          exact ⟨d, hd, hkind⟩
        · rcases hres with ⟨d', c', hext, hdocs, hnew⟩ | ⟨_, e, herr⟩
          · rw [hnew] at hok
            obtain ⟨rfl, _⟩ := Prod.mk.inj (Except.ok.inj hok)
            rw [hsplit] at hd
            rcases mem_replaced d' hd with rfl | hstays
            · exact ⟨d', by simp [hdocs], hP reply d d' hext.toExtends hkind⟩
            · exact ⟨d, by rwa [hdocs], hkind⟩
          · rw [herr] at hok
            exact absurd hok (by simp)
    · rw [perform_comments c ch w (fun doc hc => hinsert ⟨doc, hc⟩)
        fun f update hc => hpush ⟨f, update, hc⟩]
      exact ⟨d, hd, hkind⟩

end MyService.Storage.MongoStorage
