import MyService.Storage.MongoStorage

/-!
# The BSON form of comments

What `CommentToBson` and the update of `AddReply` write is what `CommentFromBson`
reads. `Holds` says which fields a document of a comment has; the encoder
establishes it, every reply keeps it, and the decoder needs nothing else. Only the
time points change: a BSON date keeps milliseconds.
-/

namespace MyService.Storage.CommentCodec

open Userver Chrono Models MongoStorage

/-- A time point as a BSON date gives it back. -/
def onMillis (t : Int) : Int := toMillis t * 1000000

theorem asTimePoint_dateOf (t : Int) : asTimePoint (some (dateOf t)) = .ok (onMillis t) := rfl

theorem asInt_int32 {n : Int} (h : IsInt n) : Bson.asInt (some (.int32 n)) = .ok n := if_pos h

/-! ## Replies -/

def replyOnMillis (r : Reply) : Reply := { r with createdAt := onMillis r.createdAt }

theorem replyFromBson_replyToBson (r : Reply) :
    replyFromBson (replyToBson r) = .ok (replyOnMillis r) := rfl

theorem mapM_replyFromBson (replies : List Reply) :
    (replies.map replyToBson).mapM replyFromBson = .ok (replies.map replyOnMillis) := by
  induction replies with
  | nil => rfl
  | cons r rest ih =>
      rw [List.map_cons, List.mapM_cons, replyFromBson_replyToBson, ih]
      rfl

/-! ## Comments -/

/-- A comment as it is read back under the id `o`. -/
def onMillisUnder (o : Oid) (c : Comment) : Comment :=
  { c with
    id := o.toString
    createdAt := onMillis c.createdAt
    updatedAt := c.updatedAt.map onMillis
    replies := c.replies.map replyOnMillis }

/-- The document is the comment, under the id `o`. -/
structure Holds (o : Oid) (c : Comment) (d : Document) : Prop where
  id : d.id = .oid o
  taskId : d.get? "task_id" = some (.int32 c.taskId)
  author : d.get? "author" = some (.string c.author)
  authorId : d.get? "author_id" = some (.int32 c.authorId)
  text : d.get? "text" = some (.string c.text)
  createdAt : d.get? "created_at" = some (dateOf c.createdAt)
  updatedAt : d.get? "updated_at" = c.updatedAt.map dateOf
  replies : d.get? "replies" = some (.array (c.replies.map replyToBson))

/-- The document that `InsertComment` stores under the id `o`. -/
theorem holds_stored (o : Oid) (c : Comment) :
    Holds o c (Collection.stored o (commentToBson c)) := by
  have hget : ∀ key, key ≠ "_id" →
      (Collection.stored o (commentToBson c)).get? key = (commentToBson c).lookup key :=
    fun key hkey => Collection.get?_stored o (commentToBson c) hkey
  refine
    { id := rfl
      taskId := (hget _ (by decide)).trans rfl
      author := (hget _ (by decide)).trans rfl
      authorId := (hget _ (by decide)).trans rfl
      text := (hget _ (by decide)).trans rfl
      createdAt := (hget _ (by decide)).trans rfl
      updatedAt := (hget _ (by decide)).trans ?_
      replies := (hget _ (by decide)).trans ?_ }
  · unfold commentToBson
    cases c.updatedAt <;> rfl
  · unfold commentToBson
    cases c.updatedAt <;> rfl

theorem Holds.commentFromBson {o : Oid} {c : Comment} {d : Document} (h : Holds o c d)
    (htask : IsInt c.taskId) (hauthor : IsInt c.authorId) :
    commentFromBson d = .ok (onMillisUnder o c) := by
  have hid : d.get? "_id" = some (.oid o) := by
    rw [← h.id]
    rfl
  unfold Models.commentFromBson
  rw [hid, h.taskId, h.author, h.authorId, h.text, h.createdAt, h.updatedAt, h.replies,
    asInt_int32 htask, asInt_int32 hauthor, Bson.elements]
  simp only [Bson.asOid, Bson.asString, asTimePoint_dateOf, mapM_replyFromBson, bind,
    Except.bind]
  cases hupdated : c.updatedAt with
  | none =>
      simp [onMillisUnder, hupdated, pure, Except.pure]
  | some t =>
      simp [onMillisUnder, hupdated, asTimePoint_dateOf, pure, Except.pure]

/-! ## Updates -/

/-- The comment with one more reply, updated at this time. -/
def withReply (c : Comment) (r : Reply) (now : Int) : Comment :=
  { c with replies := c.replies ++ [r], updatedAt := some now }

/-- A stored comment takes a reply. -/
theorem Holds.replyUpdate {o : Oid} {c : Comment} {d : Document} (h : Holds o c d) (r : Reply)
    (now : Int) :
    ∃ d', (replyUpdate r now).apply d = .ok d' ∧ Holds o (withReply c r now) d' := by
  have hitems : replies? d = some (c.replies.map replyToBson) := by
    rw [replies?, h.replies]
  rcases apply_replyUpdate_cases r now d with ⟨d', happly, hext⟩ | ⟨_, hnone⟩
  · obtain ⟨items, hold, hnew⟩ := hext.replies
    obtain rfl := Option.some.inj (hitems.symm.trans hold)
    have hreplies :
        d'.get? "replies" = some (.array (c.replies.map replyToBson ++ [replyToBson r])) := by
      cases hv : d'.get? "replies" with
      | none => simp [replies?, hv] at hnew
      | some v =>
          cases v with
          | array items =>
              rw [replies?, hv] at hnew
              rw [Option.some.inj hnew]
          | _ => simp [replies?, hv] at hnew
    refine ⟨d', happly, ?_⟩
    exact
      { id := hext.id.trans h.id
        taskId := (hext.other "task_id" (by decide) (by decide)).trans h.taskId
        author := (hext.other "author" (by decide) (by decide)).trans h.author
        authorId := (hext.other "author_id" (by decide) (by decide)).trans h.authorId
        text := (hext.other "text" (by decide) (by decide)).trans h.text
        createdAt := (hext.other "created_at" (by decide) (by decide)).trans h.createdAt
        updatedAt := hext.updatedAt
        replies := by rw [hreplies, withReply, List.map_append]; rfl }
  · rw [hitems] at hnone
    exact absurd hnone (by simp)

/-- The updates of `AddReply` for these replies, one after the other. -/
def replyUpdates (added : List (Reply × Int)) (d : Document) : Except Exn Document :=
  added.foldlM (fun d a => (MongoStorage.replyUpdate a.1 a.2).apply d) d

def withReplies (c : Comment) (added : List (Reply × Int)) : Comment :=
  added.foldl (fun c a => withReply c a.1 a.2) c

theorem Holds.replyUpdates {o : Oid} (added : List (Reply × Int)) :
    ∀ {c : Comment} {d : Document}, Holds o c d →
      ∃ d', replyUpdates added d = .ok d' ∧ Holds o (withReplies c added) d' := by
  induction added with
  | nil =>
      intro c d h
      exact ⟨d, rfl, h⟩
  | cons a rest ih =>
      intro c d h
      obtain ⟨d', happly, hreplied⟩ := h.replyUpdate a.1 a.2
      obtain ⟨d'', hrest, hheld⟩ := ih hreplied
      refine ⟨d'', ?_, hheld⟩
      rw [CommentCodec.replyUpdates, List.foldlM_cons, happly]
      exact hrest

/-- What the replies leave of the comment. -/
theorem withReplies_eq (c : Comment) (added : List (Reply × Int)) :
    withReplies c added =
      { c with
        replies := c.replies ++ added.map Prod.fst
        updatedAt := ((added.map Prod.snd).getLast?).or c.updatedAt } := by
  induction added using List.reverseRecOn with
  | nil => simp [withReplies]
  | append_singleton added a ih =>
      rw [withReplies, List.foldl_concat, ← withReplies, ih]
      simp [withReply]

theorem withReplies_taskId (c : Comment) (added : List (Reply × Int)) :
    (withReplies c added).taskId = c.taskId := by rw [withReplies_eq]

theorem withReplies_authorId (c : Comment) (added : List (Reply × Int)) :
    (withReplies c added).authorId = c.authorId := by rw [withReplies_eq]

/-- A stored comment reads back as itself, and so does every reply added to it. -/
theorem comment_roundtrip (o : Oid) (c : Comment) (htask : IsInt c.taskId)
    (hauthor : IsInt c.authorId) :
    commentFromBson (Collection.stored o (commentToBson c)) = .ok (onMillisUnder o c) ∧
    ∀ added : List (Reply × Int), ∃ d,
      replyUpdates added (Collection.stored o (commentToBson c)) = .ok d ∧
      commentFromBson d = .ok (onMillisUnder o
        { c with
          replies := c.replies ++ added.map Prod.fst
          updatedAt := ((added.map Prod.snd).getLast?).or c.updatedAt }) ∧
      ∀ (r : Reply) (now : Int), ∃ d', (replyUpdate r now).apply d = .ok d' ∧
        commentFromBson d' = .ok (onMillisUnder o
          { c with
            replies := c.replies ++ added.map Prod.fst ++ [r]
            updatedAt := some now }) := by
  refine ⟨(holds_stored o c).commentFromBson htask hauthor, ?_⟩
  intro added
  obtain ⟨d, hd, hholds⟩ := (holds_stored o c).replyUpdates added
  have htask' : IsInt (withReplies c added).taskId := by rwa [withReplies_taskId]
  have hauthor' : IsInt (withReplies c added).authorId := by rwa [withReplies_authorId]
  refine ⟨d, hd, ?_, ?_⟩
  · rw [hholds.commentFromBson htask' hauthor', withReplies_eq]
  · intro r now
    obtain ⟨d', happly, hreplied⟩ := hholds.replyUpdate r now
    refine ⟨d', happly, ?_⟩
    rw [hreplied.commentFromBson htask' hauthor', withReply, withReplies_eq]

/-- A comment without `updated_at` and with one reply. -/
def sample : Comment :=
  { id := "", taskId := 7, author := "ann", authorId := 1, text := "hi", createdAt := 1500000,
    updatedAt := none,
    replies := [{ author := "bob", text := "yes", createdAt := 2999999 }] }

/-- The comment as it is read back, with these replies and this update. -/
def readBack (replies : List Reply) (updatedAt : Option Int) : Comment :=
  { sample with
    id := "000000000000000000000000", createdAt := 1000000, updatedAt := updatedAt
    replies := { author := "bob", text := "yes", createdAt := 2000000 } :: replies }

/-- Read back before, between and after two more replies. -/
theorem comment_roundtrip_sample :
    commentFromBson (Collection.stored Oid.zeros (commentToBson sample)) =
      .ok (readBack [] none) ∧
    ∃ d d',
      replyUpdates [(⟨"eve", "no", 3000001⟩, 3000002)]
        (Collection.stored Oid.zeros (commentToBson sample)) = .ok d ∧
      commentFromBson d = .ok (readBack [⟨"eve", "no", 3000000⟩] (some 3000000)) ∧
      (replyUpdate ⟨"ann", "why", 4999999⟩ 5000000).apply d = .ok d' ∧
      commentFromBson d' = .ok
        (readBack [⟨"eve", "no", 3000000⟩, ⟨"ann", "why", 4000000⟩] (some 5000000)) := by
  obtain ⟨hstored, hupdates⟩ := comment_roundtrip Oid.zeros sample
    ⟨by decide, by decide⟩ ⟨by decide, by decide⟩
  obtain ⟨d, hadded, hread, hnext⟩ := hupdates [(⟨"eve", "no", 3000001⟩, 3000002)]
  obtain ⟨d', happly, hread'⟩ := hnext ⟨"ann", "why", 4999999⟩ 5000000
  refine ⟨hstored.trans (by decide), d, d', hadded, hread.trans (by decide), happly,
    hread'.trans (by decide)⟩

end MyService.Storage.CommentCodec
