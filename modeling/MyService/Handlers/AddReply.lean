import MyService.System

/-!
# What a reply does

`AddReply` looks the comment's task up, pushes the reply and publishes an event. A
failed lookup counts as task `-1` and the matched count of the push is not looked
at, so the handler confirms a reply to a comment that does not exist.
`reply_effect_iff` says for which contents of the collection, comment ids and
failures its answer, its event and the collection agree.
-/

namespace MyService.Handlers.AddReply

open Framework Userver Models Storage Event EventProducer

/-! ## The handler run alone -/

/-- The reply that the handler builds. -/
def replyOf (author text : String) (cs : ℕ → Choice) : Reply :=
  { author := author, text := text, createdAt := (cs 0).system }

/-- The task id that the lookup gives. -/
def lookedUp (oid : Oid) (cs : ℕ → Choice) (w : World) : Int :=
  MongoStorage.taskIdOf (perform (.findOne (MongoStorage.idFilter oid)) (cs 1) w).2

/-- The world after the handler's invalidation. -/
def invalidated (taskId : Int) (w : World) : World :=
  { w with
    cache :=
      if taskId > 0 then w.cache.invalidate (commentsKey taskId)
      else w.cache.invalidateByPrefix "comments:task:" }

section Exec

variable {u : Userver} {request : HttpRequest} {author text : String} {cs : ℕ → Choice}
  {w : World}

theorem exec_addReply_malformed {e : Exn} (hbody : BodyHas u request author text)
    (hoid : Oid.ofString (request.getPathArg "commentId") = .error e) :
    (addReplyHandler u request).exec perform cs w = (.error e, w) := by
  obtain ⟨json, a, t, hjson, ha, hauthor, ht, htext⟩ := hbody
  simp [addReplyHandler, MongoStorage.getTaskIdByCommentId_eq, MongoStorage.addReply, hjson,
    ha, hauthor, ht, htext, hoid]

/-- The push that the handler asks for. -/
def pushOf (oid : Oid) (author text : String) (cs : ℕ → Choice) : Call :=
  .updateOne (MongoStorage.idFilter oid)
    (MongoStorage.replyUpdate (replyOf author text cs) (cs 2).system)

theorem exec_addReply_error {oid : Oid} {e : Exn} {w₁ : World}
    (hbody : BodyHas u request author text)
    (hoid : Oid.ofString (request.getPathArg "commentId") = .ok oid)
    (hpush : perform (pushOf oid author text cs) (cs 3) w = (w₁, .error e)) :
    (addReplyHandler u request).exec perform cs w = (.error e, w₁) := by
  obtain ⟨json, a, t, hjson, ha, hauthor, ht, htext⟩ := hbody
  unfold pushOf replyOf at hpush
  simp [addReplyHandler, MongoStorage.getTaskIdByCommentId_eq, MongoStorage.addReply, hjson,
    ha, hauthor, ht, htext, hoid, hpush]

/-- What follows the event. -/
def finish (taskId : Int) : Service HttpResponse :=
  if taskId > 0 then
    .call (.cacheInvalidate (commentsKey taskId)) fun _ =>
      .pure { status := 201, body := statusOk }
  else
    .call (.cacheInvalidateByPrefix "comments:task:") fun _ =>
      .pure { status := 201, body := statusOk }

theorem exec_finish (taskId : Int) (cs : ℕ → Choice) (w : World) :
    (finish taskId).exec perform cs w =
      (.ok { status := 201, body := statusOk }, invalidated taskId w) := by
  unfold finish invalidated
  by_cases h : taskId > 0
  · rw [if_pos h, if_pos h]
    rfl
  · rw [if_neg h, if_neg h]
    rfl

theorem exec_addReply_ok {oid : Oid} {n : ℕ} {w₁ : World}
    (hbody : BodyHas u request author text)
    (hoid : Oid.ofString (request.getPathArg "commentId") = .ok oid)
    (hpush : perform (pushOf oid author text cs) (cs 3) w = (w₁, .ok n)) :
    ∃ message,
      IsMessage "CommentAdded"
        (CommentAddedEvent.mk (request.getPathArg "commentId") (lookedUp oid cs w) author
          text).toPayload message ∧
      (addReplyHandler u request).exec perform cs w =
        (.ok { status := 201, body := statusOk },
          invalidated (lookedUp oid cs w)
            (perform (.send "comment-events" (request.getPathArg "commentId") message)
              (cs (4 + callsBeforeSend (request.getHeader "X-Request-Id"))) w₁).1) := by
  obtain ⟨json, a, t, hjson, ha, hauthor, ht, htext⟩ := hbody
  unfold pushOf replyOf at hpush
  obtain ⟨message, hmessage, hrun⟩ := exec_publish_bind "comment-events"
    (request.getPathArg "commentId") "CommentAdded" (request.getHeader "X-Request-Id")
    (CommentAddedEvent.mk (request.getPathArg "commentId") (lookedUp oid cs w) author
      text).toPayload (fun _ => finish (lookedUp oid cs w)) (fun i => cs (i + 4)) w₁
  refine ⟨message, hmessage, ?_⟩
  rw [exec_finish] at hrun
  simp [addReplyHandler, MongoStorage.getTaskIdByCommentId_eq, MongoStorage.addReply, hjson,
    ha, hauthor, ht, htext, hoid, hpush, publishCommentAdded]
  rw [Nat.add_comm 4]
  exact hrun

end Exec

/-! ## The law -/

/-- The document that the comment id names. -/
def Names (commentId : String) (d : Document) : Prop :=
  ∃ oid, Oid.ofString commentId = .ok oid ∧ d.id = .oid oid

/-- Exactly this document has got exactly this reply. -/
def ExtendedIn (reply : Reply) (d : Document) (before after : Collection) : Prop :=
  ∃ pre post d', before.docs = pre ++ d :: post ∧ after.docs = pre ++ d' :: post ∧
    MongoStorage.Extends reply d d'

/-- One event was published, this one. -/
def Published (event : CommentAddedEvent) (before after : World) : Prop :=
  ∃ message, IsMessage "CommentAdded" event.toPayload message ∧
    after.topics = before.topics ++ [⟨"comment-events", event.commentId, message⟩]

/-- What a reply promises, of the result and the world that the handler leaves. -/
structure ReplyEffect (commentId : String) (reply : Reply) (before : World)
    (result : Except Exn HttpResponse) (after : World) : Prop where
  /-- It is confirmed and announced exactly if the comment exists. -/
  confirmed : ((∃ response, result = .ok response ∧ response.status = 201) ∧
    ∃ event, Published event before after) ↔ ∃ d ∈ before.comments.docs, Names commentId d
  /-- Then the comment has the reply, and the event has the comment's task. -/
  effect : ∀ d ∈ before.comments.docs, Names commentId d →
    ExtendedIn reply d before.comments after.comments ∧
    ∃ taskId, Bson.asInt (d.get? "task_id") = .ok taskId ∧
      Published ⟨commentId, taskId, reply.author, reply.text⟩ before after
  /-- Otherwise nothing changes. -/
  untouched : (¬∃ d ∈ before.comments.docs, Names commentId d) →
    after.comments = before.comments ∧ after.topics = before.topics ∧
      after.cache.store = before.cache.store

/-- The handler run alone does what a reply promises. -/
def RepliesAsPromised (u : Userver) (request : HttpRequest) (author text : String)
    (cs : ℕ → Choice) (w : World) : Prop :=
  ReplyEffect (request.getPathArg "commentId") (replyOf author text cs) w
    ((addReplyHandler u request).exec perform cs w).1
    ((addReplyHandler u request).exec perform cs w).2

/-- The failure of the handler's `Send`. -/
def sendFault (request : HttpRequest) (cs : ℕ → Choice) : Option Exn :=
  (cs (4 + callsBeforeSend (request.getHeader "X-Request-Id"))).fault

/-- Every step succeeds, but for a lookup whose failure does not show: it gives `-1`,
and the comment's task may be `-1`. -/
structure Present (request : HttpRequest) (cs : ℕ → Choice) (d : Document) : Prop where
  lookup : ∃ taskId, Bson.asInt (d.get? "task_id") = .ok taskId ∧
    ((cs 1).fault = none ∨ taskId = -1)
  array : (MongoStorage.replies? d).isSome
  push : (cs 3).fault = none
  send : sendFault request cs = none

/-- The push throws; or the event is lost and there is no cached list to drop. -/
def Absent (request : HttpRequest) (cs : ℕ → Choice) (w : World) : Prop :=
  (cs 3).fault ≠ none ∨ sendFault request cs ≠ none ∧
    ∀ key, Cache.CacheManager.hasPrefix "comments:task:" key → w.cache.store key = none

/-- When a reply does what it promises. -/
def Kept (request : HttpRequest) (cs : ℕ → Choice) (w : World) : Prop :=
  ∀ oid, Oid.ofString (request.getPathArg "commentId") = .ok oid →
    (∀ d ∈ w.comments.docs, d.id = .oid oid → Present request cs d) ∧
    ((∀ d ∈ w.comments.docs, d.id ≠ .oid oid) → Absent request cs w)

section Cases

variable {request : HttpRequest} {author text : String} {oid : Oid} {cs : ℕ → Choice}
  {w : World}

theorem not_names {commentId : String} {e : Exn} (h : Oid.ofString commentId = .error e)
    (d : Document) : ¬Names commentId d := by
  rintro ⟨oid, hoid, _⟩
  rw [h] at hoid
  exact absurd hoid (by simp)

theorem names_iff {commentId : String} (h : Oid.ofString commentId = .ok oid)
    (d : Document) : Names commentId d ↔ d.id = .oid oid := by
  unfold Names
  rw [h]
  simp

theorem lookedUp_absent (h : ∀ d ∈ w.comments.docs, d.id ≠ .oid oid) :
    lookedUp oid cs w = -1 := by
  have hfind : w.comments.findOne (MongoStorage.idFilter oid) = none := by
    refine List.find?_eq_none.mpr ?_
    intro d hd
    rw [MongoStorage.idFilter, Filter.matches_oid, Document.hasId_iff]
    exact h d hd
  unfold lookedUp
  rcases findOne_cases (cs 1) w (MongoStorage.idFilter oid) with ⟨e, _, heq⟩ | ⟨_, heq⟩
  · rw [heq]
    rfl
  · rw [heq, hfind]
    rfl

/-- The lookup gives the comment's task, unless it failed. -/
theorem lookedUp_eq_iff {d : Document} {taskId : Int} (hd : d ∈ w.comments.docs)
    (hid : d.id = .oid oid) (htask : Bson.asInt (d.get? "task_id") = .ok taskId) :
    lookedUp oid cs w = taskId ↔ (cs 1).fault = none ∨ taskId = -1 := by
  have hfind : w.comments.findOne (MongoStorage.idFilter oid) = some d :=
    MongoStorage.findOne_of_id hd hid
  unfold lookedUp
  rcases findOne_cases (cs 1) w (MongoStorage.idFilter oid) with ⟨e, he, heq⟩ | ⟨he, heq⟩
  · rw [heq, he]
    simp [MongoStorage.taskIdOf, eq_comm]
  · rw [heq, hfind, he]
    simp [MongoStorage.taskIdOf, htask, Except.toOption]

/-- An event carries one task id. -/
theorem published_taskId {commentId author text : String} {taskId taskId' : Int}
    {before after : World} {message : Json}
    (hmessage : IsMessage "CommentAdded"
      (CommentAddedEvent.mk commentId taskId author text).toPayload message)
    (htopics : after.topics = before.topics ++ [⟨"comment-events", commentId, message⟩]) :
    Published ⟨commentId, taskId', author, text⟩ before after ↔ taskId = taskId' := by
  constructor
  · rintro ⟨message', hmessage', htopics'⟩
    rw [htopics] at htopics'
    obtain rfl : message = message' := by simpa using htopics'
    exact congrArg CommentAddedEvent.taskId
      (commentAdded_unique hmessage hmessage')
  · rintro rfl
    exact ⟨message, hmessage, htopics⟩

theorem not_published {event : CommentAddedEvent} {before after : World}
    (h : after.topics = before.topics) : ¬Published event before after := by
  rintro ⟨message, _, htopics⟩
  rw [h] at htopics
  exact absurd htopics (by simp)

/-- A handler that throws and leaves everything does right for no comment only. -/
theorem effect_throw_iff {commentId : String} {reply : Reply} {e : Exn} :
    ReplyEffect commentId reply w (.error e) w ↔
      ∀ d ∈ w.comments.docs, ¬Names commentId d := by
  constructor
  · intro heffect d hd hnames
    obtain ⟨⟨response, hresponse, _⟩, _⟩ := heffect.confirmed.mpr ⟨d, hd, hnames⟩
    exact absurd hresponse (by simp)
  · intro hnone
    have hno : ¬∃ d ∈ w.comments.docs, Names commentId d := by
      rintro ⟨d, hd, hnames⟩
      exact hnone d hd hnames
    exact
      { confirmed := iff_of_false (by simp) hno
        effect := fun d hd hnames => absurd hnames (hnone d hd)
        untouched := fun _ => ⟨rfl, rfl, rfl⟩ }

/-- The invalidation by prefix shows where the cache has such a key. -/
theorem store_invalidated_absent :
    (invalidated (-1) w).cache.store = w.cache.store ↔
      ∀ key, Cache.CacheManager.hasPrefix "comments:task:" key → w.cache.store key = none := by
  rw [show (invalidated (-1) w).cache = w.cache.invalidateByPrefix "comments:task:" from rfl,
    Cache.CacheManager.store_invalidateByPrefix]
  constructor
  · intro heq key hkey
    rw [← heq]
    simp [TtlMap.Store.apply, hkey]
  · intro hnone
    funext key
    by_cases hkey : Cache.CacheManager.hasPrefix "comments:task:" key = true
    · simp [TtlMap.Store.apply, hkey, hnone key hkey]
    · simp [TtlMap.Store.apply, hkey]

variable {u : Userver}

/-- A reply to no comment. -/
theorem effect_absent_iff (hbody : BodyHas u request author text)
    (hoid : Oid.ofString (request.getPathArg "commentId") = .ok oid)
    (habsent : ∀ d ∈ w.comments.docs, d.id ≠ .oid oid) :
    RepliesAsPromised u request author text cs w ↔ Absent request cs w := by
  have hnone : ∀ d ∈ w.comments.docs, ¬Names (request.getPathArg "commentId") d :=
    fun d hd hnames => habsent d hd ((names_iff hoid d).mp hnames)
  have hno : ¬∃ d ∈ w.comments.docs, Names (request.getPathArg "commentId") d := by
    rintro ⟨d, hd, hnames⟩
    exact hnone d hd hnames
  have hmissed : w.comments.updateOne (MongoStorage.idFilter oid)
      (MongoStorage.replyUpdate (replyOf author text cs) (cs 2).system) =
        .ok (w.comments, 0) :=
    MongoStorage.updateReply_absent _ _ habsent
  rcases updateOne_cases (cs 3) w (MongoStorage.idFilter oid)
      (MongoStorage.replyUpdate (replyOf author text cs) (cs 2).system) with
    ⟨e, he, heq⟩ | ⟨comments, n, hpush, hupdate, heq⟩
  · have hfault : (cs 3).fault ≠ none := by
      rcases he with h | ⟨_, h⟩
      · rw [h]
        simp
      · rw [hmissed] at h
        exact absurd h (by simp)
    rw [RepliesAsPromised, exec_addReply_error hbody hoid heq]
    exact iff_of_true (effect_throw_iff.mpr hnone) (Or.inl hfault)
  · rw [hmissed] at hupdate
    obtain ⟨rfl, rfl⟩ := Prod.mk.inj (Except.ok.inj hupdate)
    obtain ⟨message, hmessage, hrun⟩ := exec_addReply_ok hbody hoid heq
    rw [lookedUp_absent habsent] at hmessage hrun
    rw [RepliesAsPromised, hrun, Absent, hpush, sendFault]
    rcases send_cases (cs (4 + callsBeforeSend (request.getHeader "X-Request-Id"))) w
        "comment-events" (request.getPathArg "commentId") message with
      ⟨e, hsend, hafter⟩ | ⟨hsend, hafter⟩
    · -- nothing was sent: the invalidation is all that can show
      rw [show ({ w with comments := w.comments } : World) = w from rfl, hafter, hsend]
      simp only [ne_eq, not_true_eq_false, false_or, reduceCtorEq, not_false_eq_true, true_and]
      rw [← store_invalidated_absent]
      constructor
      · intro heffect
        exact (heffect.untouched hno).2.2
      · intro hstore
        exact
          { confirmed := iff_of_false (fun h => h.2.elim fun _ => not_published rfl) hno
            effect := fun d hd hnames => absurd hnames (hnone d hd)
            untouched := fun _ => ⟨rfl, rfl, hstore⟩ }
    · rw [show ({ w with comments := w.comments } : World) = w from rfl, hafter, hsend]
      refine iff_of_false (fun heffect => hno (heffect.confirmed.mp ?_)) (by simp)
      exact ⟨⟨_, rfl, rfl⟩, _, message, hmessage, rfl⟩

/-- A reply that was pushed. -/
theorem effect_pushed_iff {d d' : Document} {c : Collection} {pre post : List Document}
    (hbody : BodyHas u request author text)
    (hoid : Oid.ofString (request.getPathArg "commentId") = .ok oid)
    (hd : d ∈ w.comments.docs) (hid : d.id = .oid oid)
    (hsplit : w.comments.docs = pre ++ d :: post) (hdocs : c.docs = pre ++ d' :: post)
    (hext : MongoStorage.Extends (replyOf author text cs) d d') (hpush : (cs 3).fault = none)
    (heq : perform (pushOf oid author text cs) (cs 3) w = ({ w with comments := c }, .ok 1)) :
    RepliesAsPromised u request author text cs w ↔ Present request cs d := by
  have hnames : Names (request.getPathArg "commentId") d := (names_iff hoid d).mpr hid
  obtain ⟨message, hmessage, hrun⟩ := exec_addReply_ok hbody hoid heq
  have hlookup : ∀ taskId, Bson.asInt (d.get? "task_id") = .ok taskId →
      (lookedUp oid cs w = taskId ↔ (cs 1).fault = none ∨ taskId = -1) :=
    fun taskId htask => lookedUp_eq_iff hd hid htask
  rw [RepliesAsPromised, hrun]
  rcases send_cases (cs (4 + callsBeforeSend (request.getHeader "X-Request-Id")))
      { w with comments := c } "comment-events" (request.getPathArg "commentId") message with
    ⟨e, hsend, hafter⟩ | ⟨hsend, hafter⟩
  · rw [hafter]
    refine iff_of_false (fun heffect => ?_) fun hpresent => ?_
    · obtain ⟨_, event, hpublished⟩ := heffect.confirmed.mpr ⟨d, hd, hnames⟩
      exact absurd hpublished (not_published rfl)
    · have hnofault := hpresent.send
      rw [sendFault, hsend] at hnofault
      exact absurd hnofault (by simp)
  · rw [hafter]
    -- the event is out: what is left is whether it carries the comment's task
    constructor
    · intro heffect
      obtain ⟨_, taskId, htask, hpublished⟩ := heffect.effect d hd hnames
      obtain ⟨items, hitems, _⟩ := hext.replies
      have hfound : lookedUp oid cs w = taskId :=
        (published_taskId hmessage rfl).mp hpublished
      exact
        { lookup := ⟨taskId, htask, (hlookup taskId htask).mp hfound⟩
          array := by rw [hitems]; rfl
          push := hpush
          send := hsend }
    · intro hpresent
      obtain ⟨taskId, htask, hfound⟩ := hpresent.lookup
      obtain rfl := (hlookup taskId htask).mpr hfound
      exact
        { confirmed := iff_of_true ⟨⟨_, rfl, rfl⟩, _, message, hmessage, rfl⟩
            ⟨d, hd, hnames⟩
          effect := fun d₁ hd₁ hnames₁ => by
            obtain rfl : d₁ = d :=
              MongoStorage.eq_of_id hd₁ hd (((names_iff hoid d₁).mp hnames₁).trans hid.symm)
            exact ⟨⟨pre, post, d', hsplit, hdocs, hext⟩, _, htask, message, hmessage, rfl⟩
          untouched := fun hno => absurd ⟨d, hd, hnames⟩ hno }

/-- A reply to a comment. -/
theorem effect_present_iff {d : Document} (hbody : BodyHas u request author text)
    (hoid : Oid.ofString (request.getPathArg "commentId") = .ok oid)
    (hd : d ∈ w.comments.docs) (hid : d.id = .oid oid) :
    RepliesAsPromised u request author text cs w ↔ Present request cs d := by
  have hnames : Names (request.getPathArg "commentId") d := (names_iff hoid d).mpr hid
  have hreply := MongoStorage.updateReply_present (replyOf author text cs) (cs 2).system hd hid
  rcases updateOne_cases (cs 3) w (MongoStorage.idFilter oid)
      (MongoStorage.replyUpdate (replyOf author text cs) (cs 2).system) with
    ⟨e, he, heq⟩ | ⟨comments, n, hpush, hupdate, heq⟩
  · -- the push throws, so the comment stays without its reply
    rw [RepliesAsPromised, exec_addReply_error hbody hoid heq]
    refine iff_of_false (fun heffect => effect_throw_iff.mp heffect d hd hnames) ?_
    intro hpresent
    rcases he with h | ⟨_, h⟩
    · rw [hpresent.push] at h
      exact absurd h (by simp)
    · rcases hreply with ⟨_, _, _, _, _, _, _, hok⟩ | ⟨hnone, _⟩
      · rw [hok] at h
        exact absurd h (by simp)
      · have harray := hpresent.array
        rw [hnone] at harray
        exact absurd harray (by simp)
  · rcases hreply with ⟨pre, post, d', c, hsplit, hext, hdocs, hok⟩ | ⟨_, e, herr⟩
    · rw [hok] at hupdate
      obtain ⟨rfl, rfl⟩ := Prod.mk.inj (Except.ok.inj hupdate)
      exact effect_pushed_iff hbody hoid hd hid hsplit hdocs hext.toExtends hpush heq
    · rw [herr] at hupdate
      exact absurd hupdate (by simp)

/-- **When a reply does what it promises.** -/
theorem reply_effect_iff (hbody : BodyHas u request author text) :
    RepliesAsPromised u request author text cs w ↔ Kept request cs w := by
  cases hoid : Oid.ofString (request.getPathArg "commentId") with
  | error e =>
      rw [RepliesAsPromised, exec_addReply_malformed hbody hoid]
      refine iff_of_true (effect_throw_iff.mpr fun d _ => not_names hoid d) ?_
      intro oid hok
      rw [hoid] at hok
      exact absurd hok (by simp)
  | ok oid =>
      have hkept : Kept request cs w ↔
          (∀ d ∈ w.comments.docs, d.id = .oid oid → Present request cs d) ∧
            ((∀ d ∈ w.comments.docs, d.id ≠ .oid oid) → Absent request cs w) := by
        unfold Kept
        rw [hoid]
        simp
      rw [hkept]
      by_cases hexists : ∃ d ∈ w.comments.docs, d.id = .oid oid
      · obtain ⟨d, hd, hid⟩ := hexists
        rw [effect_present_iff hbody hoid hd hid]
        constructor
        · intro hpresent
          refine ⟨fun d' hd' hid' => ?_, fun habsent => absurd hid (habsent d hd)⟩
          rwa [MongoStorage.eq_of_id hd' hd (hid'.trans hid.symm)]
        · exact fun h => h.1 d hd hid
      · have habsent : ∀ d ∈ w.comments.docs, d.id ≠ .oid oid :=
          fun d hd hid => hexists ⟨d, hd, hid⟩
        rw [effect_absent_iff hbody hoid habsent]
        exact ⟨fun h => ⟨fun d hd hid => absurd hid (habsent d hd), fun _ => h⟩,
          fun h => h.2 habsent⟩

end Cases

/-! ## A comment and no comment -/

/-- The text of the id that is all zeros. -/
def zeros : String := "000000000000000000000000"

/-- One comment on task 7. -/
def oneComment : World :=
  { Sample.empty with
    comments :=
      { docs := [Collection.stored Oid.zeros
          [("task_id", .int32 7), ("replies", .array [])]]
        ids_nodup := by simp } }

theorem reply_effect_oneComment :
    RepliesAsPromised Sample.userver (Sample.http Sample.body "commentId" zeros) "ann" "hi"
      (fun _ => {}) oneComment := by
  have hoid : Oid.ofString zeros = .ok Oid.zeros := by decide
  refine (reply_effect_iff (Sample.bodyHas "commentId" zeros)).mpr ?_
  intro oid hok
  obtain rfl := Except.ok.inj (hoid.symm.trans hok)
  refine ⟨fun d hd _ => ?_, fun hnone => absurd rfl (hnone _ List.mem_cons_self)⟩
  obtain rfl := List.mem_singleton.mp hd
  exact ⟨⟨7, rfl, Or.inl rfl⟩, rfl, rfl, rfl⟩

/-- A reply to a comment that does not exist is confirmed and announced. -/
theorem reply_effect_fails_on_absent :
    ¬RepliesAsPromised Sample.userver (Sample.http Sample.body "commentId" zeros) "ann" "hi"
      (fun _ => {}) Sample.empty := by
  have hoid : Oid.ofString zeros = .ok Oid.zeros := by decide
  have hnone : ∀ d ∈ Sample.empty.comments.docs, d.id ≠ .oid Oid.zeros := by
    simp [Sample.empty, World.boot, Collection.empty]
  intro heffect
  rcases (effect_absent_iff (Sample.bodyHas "commentId" zeros) hoid hnone).mp heffect with
    h | ⟨h, _⟩
  · exact h rfl
  · exact h rfl

end MyService.Handlers.AddReply
