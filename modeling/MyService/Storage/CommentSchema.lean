import MyService.Storage.Replies
import MyService.Userver.MongoSchema

/-!
# The schema of the comments

`validation.js` creates the collection with a validator, then `data.js` drops it and its
`insertMany` creates it again, without one. From then on nothing checks the length of a text:
`schema_iff` says that the comments satisfy their schema as long as the requests' texts do,
and `validated_run` what the validator would have done.
-/

namespace MyService.Storage.CommentSchema

open Framework Userver Models Handlers Storage MongoStorage Replies

/-! ## validation.js -/

def replySchema : Schema :=
  .object ["author", "text", "created_at"]
    [("author", .string), ("text", .text 1 none), ("created_at", .date)]

def commentSchema : Schema :=
  .object ["task_id", "author", "author_id", "text", "created_at"]
    [("task_id", .int), ("author", .string), ("author_id", .int),
     ("text", .text 1 (some 5000)), ("created_at", .date), ("updated_at", .date),
     ("replies", .array replySchema)]

def validationScript : List Command :=
  [.createCollection commentSchema, .createIndex "task_id", .createIndex "created_at"]

/-! ## data.js -/

/-- An element of `replies`. -/
def dataReply (author text : String) (createdAt : Int) : Bson :=
  .document
    [("author", .string author), ("text", .string text), ("created_at", .dateTime createdAt)]

/-- The shell writes a whole number as an `int`. -/
def dataComment (taskId : Int) (author : String) (authorId : Int) (text : String)
    (createdAt : Int) (replies : List Bson) : List (String × Bson) :=
  [("task_id", .int32 taskId), ("author", .string author), ("author_id", .int32 authorId),
   ("text", .string text), ("created_at", .dateTime createdAt), ("replies", .array replies)]

def dataComments : List (List (String × Bson)) :=
  [dataComment 1 "Иван Петров" 1 "Принял. Приступаю к выполнению." 1705312800000 [],
   dataComment 1 "John Doe" 2 "Нужно добавить документацию." 1705318200000
     [dataReply "Иван Петров" "Согласен, добавлю" 1705320000000],
   dataComment 2 "Jane Smith" 3 "Какие требования к производительности?" 1705395600000 [],
   dataComment 2 "Alex Johnson" 4 "Нужно уточнить у заказчика" 1705400100000
     [dataReply "Jane Smith" "Уже уточняю, жду ответа" 1705402800000],
   dataComment 3 "Maria Garcia" 5 "Сделано, проверьте" 1705500000000 [],
   dataComment 3 "Иван Петров" 1 "Отлично, принимаю" 1705505400000 [],
   dataComment 4 "Дмитрий Соколов" 6 "В работе" 1705564800000 [],
   dataComment 5 "Елена Кузнецова" 7 "Есть вопросы по интеграции" 1705571100000 [],
   dataComment 6 "Павел Морозов" 8 "Готово" 1705665600000 [],
   dataComment 7 "Ольга Волкова" 9 "Нужна помощь" 1705681200000 [],
   dataComment 8 "Сергей Михайлов" 10 "Сделал, проверьте пожалуйста" 1705748400000
     [dataReply "Иван Петров" "Хорошо, посмотрю сегодня" 1705750200000]]

/-- The `i`-th comment gets the `_id` `ids i`. -/
def dataDocs (ids : ℕ → Oid) : List (Oid × List (String × Bson)) :=
  dataComments.zipIdx.map fun p => (ids p.2, p.1)

def dataScript (ids : ℕ → Oid) : List Command := [.drop, .insertMany (dataDocs ids)]

/-- The scripts in the order they are mounted in, on a new database. -/
def initialise (ids : ℕ → Oid) : Except Exn Namespace :=
  (validationScript ++ dataScript ids).foldlM (fun ns command => command.run ns) none

/-! ## What the schema says -/

theorem replySchema_replyToBson (reply : Reply) :
    replySchema (replyToBson reply) = true ↔ 1 ≤ reply.text.length := by
  simp [replySchema, replyToBson, Schema.object, Schema.string, Schema.text, Schema.date, dateOf,
    List.lookup_cons, List.lookup_nil]

/-- A document that satisfies the schema, field by field. -/
structure Fits (d : Document) : Prop where
  taskId : ∃ n, d.get? "task_id" = some (.int32 n)
  author : ∃ author, d.get? "author" = some (.string author)
  authorId : ∃ n, d.get? "author_id" = some (.int32 n)
  text : ∃ text, d.get? "text" = some (.string text) ∧ 1 ≤ text.length ∧ text.length ≤ 5000
  createdAt : ∃ millis, d.get? "created_at" = some (.dateTime millis)
  updatedAt : ∀ v, d.get? "updated_at" = some v → ∃ millis, v = .dateTime millis
  replies : ∀ v, d.get? "replies" = some v →
    ∃ items, v = .array items ∧ ∀ reply ∈ items, replySchema reply = true

theorem fits_iff {d : Document} : commentSchema d.toBson = true ↔ Fits d := by
  rw [commentSchema, Document.toBson, Schema.object_iff]
  simp only [Document.lookup_toBson, List.forall_mem_cons, List.not_mem_nil, false_imp_iff,
    implies_true, and_true, Option.mem_def, Option.isSome_iff_exists]
  constructor
  · rintro ⟨⟨⟨t, ht⟩, ⟨a, ha⟩, ⟨i, hi⟩, ⟨x, hx⟩, ⟨c, hc⟩⟩, ht', ha', hi', hx', hc', hu, hr⟩
    refine ⟨?_, ?_, ?_, ?_, ?_, fun v hv => Schema.date_iff.mp (hu v hv),
      fun v hv => Schema.array_iff.mp (hr v hv)⟩
    · obtain ⟨n, rfl⟩ := Schema.int_iff.mp (ht' t ht)
      exact ⟨n, ht⟩
    · obtain ⟨author, rfl⟩ := Schema.string_iff.mp (ha' a ha)
      exact ⟨author, ha⟩
    · obtain ⟨n, rfl⟩ := Schema.int_iff.mp (hi' i hi)
      exact ⟨n, hi⟩
    · obtain ⟨text, rfl, hmin, hmax⟩ := Schema.text_iff.mp (hx' x hx)
      exact ⟨text, hx, hmin, hmax 5000 rfl⟩
    · obtain ⟨millis, rfl⟩ := Schema.date_iff.mp (hc' c hc)
      exact ⟨millis, hc⟩
  · rintro ⟨⟨n, ht⟩, ⟨author, ha⟩, ⟨m, hi⟩, ⟨text, hx, hmin, hmax⟩, ⟨millis, hc⟩, hu, hr⟩
    rw [ht, ha, hi, hx, hc]
    refine ⟨by simp, ?_, ?_, ?_, ?_, ?_, fun v hv => Schema.date_iff.mpr (hu v hv),
      fun v hv => Schema.array_iff.mpr (hr v hv)⟩
    · rintro _ ⟨⟩
      rfl
    · rintro _ ⟨⟩
      rfl
    · rintro _ ⟨⟩
      rfl
    · rintro _ ⟨⟩
      refine Schema.text_iff.mpr ⟨text, rfl, hmin, ?_⟩
      rintro _ ⟨⟩
      exact hmax
    · rintro _ ⟨⟩
      rfl

/-! ## The service on a collection with a validator -/

/-- Perform one call where the comments have this validator. -/
def performOn (validator : Option Schema) : (c : Call) → Choice → World → World × c.Answer
  | .insertOne doc, ch, w =>
      if admits validator (Collection.stored (Collection.documentId ch.oid doc) doc) then
        perform (.insertOne doc) ch w
      else (w, .error .writeError)
  | .updateOne f update, ch, w =>
      -- what is checked is the document as the update would leave it
      if ((perform (.updateOne f update) ch w).1.comments.docs.find? f.matches).all
          (admits validator) then
        perform (.updateOne f update) ch w
      else (w, .error .writeError)
  | c, ch, w => perform c ch w

def runOn (validator : Option Schema) (u : Userver) (w : World) (requests : ℕ → Request)
    (sched : List (ℕ × Choice)) : ServiceConfig :=
  Config.run (performOn validator) (Config.start w fun tid => serve u (requests tid)) sched

theorem performOn_none : performOn none = perform := by
  ext c ch w : 3
  cases c with
  | insertOne doc => rfl
  | updateOne f update =>
      have hadmits : ∀ d : Option Document, d.all (admits none) = true := by
        intro d
        cases d <;> rfl
      exact if_pos (hadmits _)
  | _ => rfl

theorem runOn_none (u : Userver) (w : World) (requests : ℕ → Request)
    (sched : List (ℕ × Choice)) :
    runOn none u w requests sched = runService u w requests sched := by
  unfold runOn runService
  rw [performOn_none]

/-! ## What the requests may write -/

/-- The write of an event goes through: the server does not fail it, the `_id` of an insert
is new, the comment of an update is there. -/
def Lands (e : ServiceEvent) : Prop :=
  e.choice.fault = none ∧
    match e.call with
    | .insertOne doc => ∀ d ∈ e.before.comments.docs,
        d.id ≠ .oid (Collection.documentId e.choice.oid doc)
    | .updateOne f _ => ∃ d ∈ e.before.comments.docs, f.matches d = true
    | _ => False

/-- Every comment that a request adds has a text of 1 to 5000 characters, every reply that
one adds has a text. -/
def TextsFit (u : Userver) (requests : ℕ → Request) (tr : List ServiceEvent) : Prop :=
  ∀ e ∈ tr, Lands e → ∀ request author text, BodyHas u request author text →
    (∀ userId, requests e.tid = .addComment request userId →
      1 ≤ text.length ∧ text.length ≤ 5000) ∧
    (requests e.tid = .addReply request → 1 ≤ text.length)

theorem bodyHas_unique {u : Userver} {request : HttpRequest} {author text author' text' : String}
    (h : BodyHas u request author text) (h' : BodyHas u request author' text') :
    author = author' ∧ text = text' := by
  obtain ⟨json, a, t, hjson, ha, hauthor, ht, htext⟩ := h
  obtain ⟨json', a', t', hjson', ha', hauthor', ht', htext'⟩ := h'
  obtain rfl := Except.ok.inj (hjson.symm.trans hjson')
  obtain rfl := Except.ok.inj (ha.symm.trans ha')
  obtain rfl := Except.ok.inj (ht.symm.trans ht')
  exact ⟨Except.ok.inj (hauthor.symm.trans hauthor'), Except.ok.inj (htext.symm.trans htext')⟩

theorem replyToBson_inj {r r' : Reply} (h : replyToBson r = replyToBson r') :
    r.text = r'.text := by
  simp only [replyToBson, Bson.document.injEq, List.cons.injEq, Prod.mk.injEq,
    Bson.string.injEq] at h
  exact h.2.1.2

/-- An insert lands exactly if its document is inserted. -/
theorem inserted_iff_lands {e : ServiceEvent} {doc : List (String × Bson)}
    (hcall : e.call = .insertOne doc) : (∃ d, Inserted e d) ↔ Lands e := by
  obtain ⟨tid, c, ch, w⟩ := e
  obtain rfl : c = .insertOne doc := hcall
  unfold Lands
  rcases insertOne_cases ch w doc with ⟨x, hx, heq⟩ | ⟨comments, hfault, hok, heq⟩
  · refine iff_of_false ?_ ?_
    · rintro ⟨_, doc', hseen, _⟩
      obtain ⟨_, hanswer⟩ := Sigma.mk.inj hseen
      obtain rfl : doc = doc' := by simpa [Event.seen] using congrArg Sigma.fst hseen
      simp [Event.resp, heq] at hanswer
    · rintro ⟨hfault, hnew⟩
      rcases hx with h | ⟨_, h⟩
      · rw [show ch.fault = none from hfault] at h
        exact absurd h (by simp)
      · rcases w.comments.insertOne_cases ch.oid doc with ⟨_, _, hc', _⟩ | ⟨⟨d, hd, hid⟩, _⟩
        · rw [h] at hc'
          exact absurd hc' (by simp)
        · exact hnew d hd hid
  · refine iff_of_true ⟨_, doc, ?_, rfl⟩ ⟨hfault, ?_⟩
    · simp [Event.seen, Event.resp, heq]
    · rcases w.comments.insertOne_cases ch.oid doc with ⟨hnew, _⟩ | ⟨_, herr⟩
      · exact hnew
      · rw [hok] at herr
        exact absurd herr (by simp)

/-- An update lands exactly if it pushes its reply, where the replies are arrays. -/
theorem pushed_iff_lands {e : ServiceEvent} {oid : Oid} {reply : Reply} {now : Int}
    (hcall : e.call = .updateOne (idFilter oid) (replyUpdate reply now))
    (harray : ∀ d ∈ e.before.comments.docs, (replies? d).isSome) :
    pushed? (.oid oid) e = some (e.tid, replyToBson reply) ↔ Lands e := by
  obtain ⟨tid, c, ch, w⟩ := e
  obtain rfl : c = .updateOne (idFilter oid) (replyUpdate reply now) := hcall
  have hmatches : ∀ d, (idFilter oid).matches d = true ↔ d.id = .oid oid := by
    intro d
    rw [idFilter, Filter.matches_oid, Document.hasId_iff]
  unfold Lands
  simp only [hmatches]
  rcases updateOne_cases ch w (idFilter oid) (replyUpdate reply now) with
    ⟨x, hx, heq⟩ | ⟨comments, n, hfault, hok, heq⟩
  · refine iff_of_false ?_ ?_
    · intro hpushed
      obtain ⟨f, update, n, hseen, _, _⟩ := pushed?_eq_some hpushed
      obtain ⟨hcall, hanswer⟩ := Sigma.mk.inj hseen
      cases hcall
      simp [Event.resp, heq] at hanswer
    · rintro ⟨hfault, d, hd, hid⟩
      rcases hx with h | ⟨_, h⟩
      · rw [hfault] at h
        exact absurd h (by simp)
      · rcases updateReply_present reply now hd hid with ⟨_, _, _, _, _, _, _, hnew⟩ | ⟨hnone, _⟩
        · rw [h] at hnew
          exact absurd hnew (by simp)
        · have hsome := harray d hd
          rw [hnone] at hsome
          exact absurd hsome (by simp)
  · have hseen : Event.seen perform
        ⟨tid, .updateOne (idFilter oid) (replyUpdate reply now), ch, w⟩ =
        ⟨.updateOne (idFilter oid) (replyUpdate reply now), .ok n⟩ := by
      simp [Event.seen, Event.resp, heq]
    constructor
    · intro hpushed
      refine ⟨hfault, ?_⟩
      rcases updateReply_cases w.comments oid reply now with
        ⟨_, hsame⟩ | ⟨pre, d, post, hsplit, hid, _⟩
      · rw [hsame] at hok
        obtain ⟨_, rfl⟩ := Prod.mk.inj (Except.ok.inj hok)
        rw [pushed?, hseen] at hpushed
        exact absurd hpushed (by simp)
      · exact ⟨d, by rw [hsplit]; simp, hid⟩
    · rintro ⟨_, hexists⟩
      obtain ⟨p, hpushed⟩ := Option.isSome_iff_exists.mp (isSome_pushed? hseen hexists)
      obtain ⟨f, update, m, hseen', _, rfl⟩ := pushed?_eq_some hpushed
      cases congrArg Sigma.fst hseen'
      exact hpushed

/-! ## Along a run -/

theorem get?_of_replies? {d : Document} {items : List Bson} (h : replies? d = some items) :
    d.get? "replies" = some (.array items) ∨ d.get? "replies" = none ∧ items = [] := by
  unfold replies? at h
  split at h
  · rename_i hnone
    exact Or.inr ⟨hnone, (Option.some.inj h).symm⟩
  · rename_i items' hsome
    obtain rfl := Option.some.inj h
    exact Or.inl hsome
  · exact absurd h (by simp)

theorem Fits.accepts_replies {d : Document} (h : Fits d) {items : List Bson}
    (hitems : replies? d = some items) : ∀ reply ∈ items, replySchema reply = true := by
  rcases get?_of_replies? hitems with hsome | ⟨_, rfl⟩
  · obtain ⟨items', heq, hall⟩ := h.replies _ hsome
    obtain rfl := Bson.array.inj heq
    exact hall
  · simp

theorem Fits.isSome_replies? {d : Document} (h : Fits d) : (replies? d).isSome := by
  unfold replies?
  split
  · rfl
  · rfl
  · rename_i v harray hv
    obtain ⟨items, rfl, _⟩ := h.replies v hv
    exact absurd rfl (harray items)

theorem Fits.replied {reply : Reply} {now : Int} {d d' : Document} (h : Fits d)
    (hreplied : Replied reply now d d') (htext : 1 ≤ reply.text.length) : Fits d' := by
  have hother : ∀ key, key ≠ "replies" → key ≠ "updated_at" → d'.get? key = d.get? key :=
    hreplied.other
  refine
    { taskId := ?_, author := ?_, authorId := ?_, text := ?_, createdAt := ?_
      updatedAt := fun v hv => ?_, replies := fun v hv => ?_ }
  · rw [hother "task_id" (by decide) (by decide)]
    exact h.taskId
  · rw [hother "author" (by decide) (by decide)]
    exact h.author
  · rw [hother "author_id" (by decide) (by decide)]
    exact h.authorId
  · rw [hother "text" (by decide) (by decide)]
    exact h.text
  · rw [hother "created_at" (by decide) (by decide)]
    exact h.createdAt
  · rw [hreplied.updatedAt] at hv
    exact ⟨_, (Option.some.inj hv).symm⟩
  · obtain ⟨items, hitems, hitems'⟩ := hreplied.replies
    rcases get?_of_replies? hitems' with hsome | ⟨hnone, _⟩
    · rw [hsome] at hv
      refine ⟨_, (Option.some.inj hv).symm, fun r hr => ?_⟩
      rcases List.mem_append.mp hr with hold | hlast
      · exact h.accepts_replies hitems r hold
      · rw [List.mem_singleton.mp hlast]
        exact (replySchema_replyToBson reply).mpr htext
    · rw [hnone] at hv
      exact absurd hv (by simp)

/-- A stored comment fits if its text does. -/
theorem fits_stored_iff {o : Oid} {comment : Comment} (hnew : comment.updatedAt = none)
    (hreplies : comment.replies = []) :
    Fits (Collection.stored o (commentToBson comment)) ↔
      1 ≤ comment.text.length ∧ comment.text.length ≤ 5000 := by
  obtain ⟨id, taskId, author, authorId, text, createdAt, updatedAt, replies⟩ := comment
  obtain rfl : updatedAt = none := hnew
  obtain rfl : replies = [] := hreplies
  constructor
  · intro h
    obtain ⟨text', htext, hlength⟩ := h.text
    obtain rfl : text = text' := Bson.string.inj (Option.some.inj htext)
    exact hlength
  · intro hlength
    exact
      { taskId := ⟨_, rfl⟩, author := ⟨_, rfl⟩, authorId := ⟨_, rfl⟩
        text := ⟨_, rfl, hlength⟩, createdAt := ⟨_, rfl⟩
        updatedAt := fun v hv => absurd (show none = some v from hv) (by simp)
        replies := fun v hv => ⟨[], (Option.some.inj hv).symm, by simp⟩ }

section Runs

variable {u : Userver} {w : World} {requests : ℕ → Request} {sched : List (ℕ × Choice)}

/-- **Step.** An event whose texts fit keeps the comments in their schema. -/
theorem fits_event (htexts : TextsFit u requests (runService u w requests sched).trace)
    {e : ServiceEvent} (he : e ∈ (runService u w requests sched).trace)
    (h : ∀ d ∈ e.before.comments.docs, Fits d) :
    ∀ d ∈ (e.after perform).comments.docs, Fits d := by
  refine (run_change he).forall_docs ?_ ?_ h
  · rintro d ⟨doc, hseen, hd⟩
    have hcall : e.call = .insertOne doc := congrArg Sigma.fst hseen
    obtain ⟨request, userId, taskId, author, text, draws, now, hr, hbody, rfl⟩ :=
      insert_of_event he hcall
    have hlands : Lands e := (inserted_iff_lands hcall).mp ⟨d, _, hseen, hd⟩
    have hfit := (htexts e he hlands request author text hbody).1 userId hr
    rw [hd]
    exact (fits_stored_iff rfl rfl).mpr hfit
  · intro reply now d d' hreplied hpushed hfits
    obtain ⟨f, update, n, hseen, hfilter, hpair⟩ := pushed?_eq_some hpushed
    obtain ⟨i, hi⟩ := List.mem_iff_getElem?.mp he
    obtain ⟨request, hr, oid, author, text, createdAt, now', found, _, hbody, _, rfl, rfl⟩ :=
      update_of_event hi (congrArg Sigma.fst hseen)
    have hid : d.id = .oid oid := equals_oid_iff.mp hfilter
    have htext : reply.text = text := replyToBson_inj (Prod.mk.inj hpair).2
    have hlands : Lands e :=
      (pushed_iff_lands (congrArg Sigma.fst hseen) fun d hd => (h d hd).isSome_replies?).mp
        (by rw [← hid, hpushed, hpair]; rfl)
    have hfit := (htexts e he hlands request author text hbody).2 hr
    exact hfits.replied hreplied (htext ▸ hfit)

/-- The replies of every comment stay an array. -/
theorem isSome_replies?_event {e : ServiceEvent}
    (he : e ∈ (runService u w requests sched).trace)
    (h : ∀ d ∈ e.before.comments.docs, (replies? d).isSome) :
    ∀ d ∈ (e.after perform).comments.docs, (replies? d).isSome := by
  refine (run_change he).forall_docs ?_ ?_ h
  · intro d hinserted
    rw [replies?_of_inserted he hinserted]
    rfl
  · intro reply now d d' hreplied _ _
    obtain ⟨items, _, hitems⟩ := hreplied.replies
    rw [hitems]
    rfl

/-- The text of an inserted comment can be read off the comment it has become. -/
theorem text_of_inserted (hfits : ∀ d ∈ (runService u w requests sched).world.comments.docs, Fits d)
    {e : ServiceEvent} (he : e ∈ (runService u w requests sched).trace) (hlands : Lands e)
    {request : HttpRequest} {userId : Int} (hr : requests e.tid = .addComment request userId)
    {author text : String} (hbody : BodyHas u request author text) :
    1 ≤ text.length ∧ text.length ≤ 5000 := by
  cases hcall : e.call with
  | insertOne doc =>
      obtain ⟨request', userId', taskId, author', text', draws, now, hr', hbody', rfl⟩ :=
        insert_of_event he hcall
      obtain ⟨rfl, _⟩ := Request.addComment.inj (hr.symm.trans hr')
      obtain ⟨rfl, rfl⟩ := bodyHas_unique hbody hbody'
      obtain ⟨d, hinserted⟩ := (inserted_iff_lands hcall).mpr hlands
      obtain ⟨d', hd', hgrown⟩ := run_conserved.kept d (Or.inr ⟨e, he, hinserted⟩)
      obtain ⟨doc', hseen, rfl⟩ := hinserted
      obtain rfl := Call.insertOne.inj (hcall.symm.trans (congrArg Sigma.fst hseen))
      obtain ⟨text', htext, hlength⟩ := (hfits d' hd').text
      rw [hgrown.other "text" (by decide) (by decide)] at htext
      obtain rfl : text = text' := Bson.string.inj (Option.some.inj htext)
      exact hlength
  | updateOne f update =>
      obtain ⟨i, hi⟩ := List.mem_iff_getElem?.mp he
      obtain ⟨_, hr', _⟩ := update_of_event hi hcall
      rw [hr] at hr'
      exact absurd hr' (by simp)
  | _ =>
      have hwrite := hlands.2
      rw [hcall] at hwrite
      exact absurd hwrite id

/-- The text of a pushed reply can be read off the comment. -/
theorem text_of_pushed (hw : ∀ d ∈ w.comments.docs, Fits d)
    (hfits : ∀ d ∈ (runService u w requests sched).world.comments.docs, Fits d)
    {e : ServiceEvent} (he : e ∈ (runService u w requests sched).trace) (hlands : Lands e)
    {request : HttpRequest} (hr : requests e.tid = .addReply request)
    {author text : String} (hbody : BodyHas u request author text) : 1 ≤ text.length := by
  obtain ⟨i, hi⟩ := List.mem_iff_getElem?.mp he
  cases hcall : e.call with
  | updateOne f update =>
      obtain ⟨request', hr', oid, author', text', createdAt, now, found, _, hbody', _, rfl, rfl⟩ :=
        update_of_event hi hcall
      obtain rfl := Request.addReply.inj (hr.symm.trans hr')
      obtain ⟨rfl, rfl⟩ := bodyHas_unique hbody hbody'
      have harray : ∀ d ∈ e.before.comments.docs, (replies? d).isSome :=
        Config.stable_before perform runService_chained
          (P := fun w => ∀ d ∈ w.comments.docs, (replies? d).isSome)
          (fun e he => isSome_replies?_event he) (fun d hd => (hw d hd).isSome_replies?) hi
      have hpushed := (pushed_iff_lands hcall harray).mpr hlands
      have hmem : (e.tid, replyToBson ⟨author, text, createdAt⟩) ∈
          pushes (.oid oid) (runService u w requests sched).trace :=
        List.mem_filterMap.mpr ⟨e, he, hpushed⟩
      -- the comment it went to, as it was at first and as it is now
      obtain ⟨d, hd, hid⟩ := run_conserved.found (.oid oid) (List.ne_nil_of_mem hmem)
      obtain ⟨d₀, horigin, hid₀⟩ := run_conserved.origin d hd
      obtain ⟨d', hd', hgrown⟩ := run_conserved.kept d₀ horigin
      rw [hid₀, hid] at hgrown
      obtain ⟨items, hitems⟩ := Option.isSome_iff_exists.mp (hfits d' hd').isSome_replies?
      have hreply := (hfits d' hd').accepts_replies hitems
        (replyToBson ⟨author, text, createdAt⟩) (by
          rw [hgrown.replies] at hitems
          obtain ⟨items₀, _, rfl⟩ := Option.map_eq_some_iff.mp hitems
          exact List.mem_append_right _ (List.mem_map_of_mem hmem))
      exact (replySchema_replyToBson _).mp hreply
  | insertOne doc =>
      obtain ⟨_, _, _, _, _, _, _, hr', _⟩ := insert_of_event he hcall
      rw [hr] at hr'
      exact absurd hr' (by simp)
  | _ =>
      have hwrite := hlands.2
      rw [hcall] at hwrite
      exact absurd hwrite id

/-- **Run.** From comments that fit, they fit exactly if the texts of the run do. -/
theorem fits_run_iff (hw : ∀ d ∈ w.comments.docs, Fits d) :
    (∀ d ∈ (runService u w requests sched).world.comments.docs, Fits d) ↔
      TextsFit u requests (runService u w requests sched).trace := by
  constructor
  · intro hfits e he hlands request author text hbody
    exact ⟨fun userId hr => text_of_inserted hfits he hlands hr hbody,
      fun hr => text_of_pushed hw hfits he hlands hr hbody⟩
  · intro htexts
    rw [runService_world]
    exact Config.stable_world perform runService_chained
      (P := fun w => ∀ d ∈ w.comments.docs, Fits d) (fun e he => fits_event htexts he) hw

end Runs

/-! ## What the scripts leave -/

theorem fits_dataComment {o : Oid} {taskId : Int} {author : String} {authorId : Int}
    {text : String} {createdAt : Int} {replies : List Bson}
    (htext : 1 ≤ text.length ∧ text.length ≤ 5000)
    (hreplies : ∀ reply ∈ replies, replySchema reply = true) :
    Fits (Collection.stored o (dataComment taskId author authorId text createdAt replies)) where
  taskId := ⟨_, rfl⟩
  author := ⟨_, rfl⟩
  authorId := ⟨_, rfl⟩
  text := ⟨_, rfl, htext⟩
  createdAt := ⟨_, rfl⟩
  updatedAt := fun v hv => absurd (show none = some v from hv) (by simp)
  replies := fun v hv => ⟨replies, (Option.some.inj hv).symm, hreplies⟩

theorem fits_dataComments (o : Oid) : ∀ doc ∈ dataComments, Fits (Collection.stored o doc) := by
  simp only [dataComments, List.forall_mem_cons, List.not_mem_nil, false_imp_iff, implies_true,
    and_true]
  refine ⟨?_, ?_, ?_, ?_, ?_, ?_, ?_, ?_, ?_, ?_, ?_⟩
  all_goals exact fits_dataComment (by decide) (by decide)

/-- **The scripts.** The comments of `data.js` fit, but the validator is gone. -/
theorem initialise_unvalidated {ids : ℕ → Oid} {ns : Namespace} (h : initialise ids = .ok ns) :
    ∃ deployed, ns = some deployed ∧ deployed.validator = none ∧
      ∀ d ∈ deployed.collection.docs, Fits d := by
  -- what the first script creates is dropped, so only the `insertMany` is left
  have hlast : initialise ids = (Command.insertMany (dataDocs ids)).run none := by
    show (Command.insertMany (dataDocs ids)).run none >>= pure = _
    exact bind_pure _
  rw [hlast, Command.run] at h
  cases hdocs : (dataDocs ids).foldlM (fun c doc => c.insertOne doc.1 doc.2)
      (Namespace.forWrite none) with
  | error e =>
      rw [hdocs] at h
      exact absurd h (by simp [Functor.map, Except.map])
  | ok deployed =>
      rw [hdocs] at h
      obtain ⟨hnone, hmem⟩ := insertMany_unvalidated rfl hdocs
      refine ⟨deployed, (Except.ok.inj h).symm, hnone, fun d hd => ?_⟩
      rcases hmem d hd with hempty | ⟨doc, hdoc, rfl⟩
      · exact absurd hempty (by simp [Namespace.forWrite, Collection.empty])
      · obtain ⟨⟨fields, n⟩, hp, rfl⟩ := List.mem_map.mp hdoc
        have hdata : fields ∈ dataComments := by
          rw [← List.zipIdx_map_fst 0 dataComments]
          exact List.mem_map_of_mem (f := Prod.fst) hp
        exact fits_dataComments _ fields hdata

/-! ## The law -/

/-- **When the comments satisfy their schema.** -/
theorem schema_iff {ids : ℕ → Oid} {deployed : Validated}
    (hinit : initialise ids = .ok (some deployed)) {u : Userver} {w : World}
    (hw : w.comments = deployed.collection) {requests : ℕ → Request}
    {sched : List (ℕ × Choice)} :
    (∀ d ∈ (runOn deployed.validator u w requests sched).world.comments.docs,
        commentSchema d.toBson = true) ↔
      TextsFit u requests (runOn deployed.validator u w requests sched).trace := by
  obtain ⟨_, heq, hnone, hfits⟩ := initialise_unvalidated hinit
  obtain rfl := Option.some.inj heq
  rw [hnone, runOn_none]
  simp only [fits_iff]
  exact fits_run_iff (hw ▸ hfits)

/-! ## What the validator would have done -/

section Validator

variable {ch : Choice} {w : World}

theorem fits_insertOne (h : ∀ d ∈ w.comments.docs, Fits d) (doc : List (String × Bson)) :
    ∀ d ∈ (performOn (some commentSchema) (.insertOne doc) ch w).1.comments.docs, Fits d := by
  rw [performOn]
  split
  · rename_i hadmits
    rcases insertOne_cases ch w doc with ⟨x, _, heq⟩ | ⟨comments, _, hok, heq⟩
    · rw [heq]
      exact h
    · rw [heq]
      rcases w.comments.insertOne_cases ch.oid doc with ⟨_, c', hc', hdocs⟩ | ⟨_, herr⟩
      · rw [hok] at hc'
        obtain rfl := Except.ok.inj hc'
        intro d hd
        rw [hdocs] at hd
        rcases List.mem_append.mp hd with hold | hlast
        · exact h d hold
        · rw [List.mem_singleton.mp hlast]
          exact fits_iff.mp hadmits
      · rw [hok] at herr
        exact absurd herr (by simp)
  · exact h

theorem fits_updateOne (h : ∀ d ∈ w.comments.docs, Fits d) (oid : Oid) (reply : Reply)
    (now : Int) :
    ∀ d ∈ (performOn (some commentSchema)
      (.updateOne (idFilter oid) (replyUpdate reply now)) ch w).1.comments.docs, Fits d := by
  rw [performOn]
  split
  · rename_i hadmits
    rcases updateOne_cases ch w (idFilter oid) (replyUpdate reply now) with
      ⟨x, _, heq⟩ | ⟨comments, n, _, hok, heq⟩
    · rw [heq]
      exact h
    · rw [heq] at hadmits ⊢
      rcases updateReply_cases w.comments oid reply now with
        ⟨_, hsame⟩ | ⟨pre, d, post, hsplit, hid, ⟨d', c', hreplied, hdocs, hnew⟩ | ⟨_, x, herr⟩⟩
      · rw [hsame] at hok
        obtain ⟨rfl, _⟩ := Prod.mk.inj (Except.ok.inj hok)
        exact h
      · rw [hnew] at hok
        obtain ⟨rfl, _⟩ := Prod.mk.inj (Except.ok.inj hok)
        -- the update's document is the one of its id, so it is the one that was checked
        have hd' : c'.docs.find? (idFilter oid).matches = some d' :=
          findOne_of_id (by rw [hdocs]; simp) (hreplied.id.trans hid)
        rw [hd'] at hadmits
        rw [hsplit] at h
        intro d₁ hd₁
        rw [hdocs] at hd₁
        rcases mem_replaced d hd₁ with rfl | hold
        · exact fits_iff.mp hadmits
        · exact h d₁ hold
      · rw [herr] at hok
        exact absurd hok (by simp)
  · exact h

/-- **With the validator** that `validation.js` creates, no request could store a comment that
does not fit. -/
theorem validated_run {u : Userver} {requests : ℕ → Request} {sched : List (ℕ × Choice)}
    (hw : ∀ d ∈ w.comments.docs, Fits d) :
    ∀ d ∈ (runOn (some commentSchema) u w requests sched).world.comments.docs,
      commentSchema d.toBson = true := by
  have hcontracts : Config.Contracts (performOn (some commentSchema))
      (fun tid => Writes u (requests tid)) (fun _ _ _ => True) (fun _ _ _ => True)
      (runOn (some commentSchema) u w requests sched) :=
    Config.run_obeys _ (fun tid => writesOnly_serve u (requests tid)) sched
  obtain ⟨hchained, hworld⟩ :
      Config.Chained (performOn (some commentSchema)) w
          (runOn (some commentSchema) u w requests sched).trace ∧
        (runOn (some commentSchema) u w requests sched).world = _ :=
    Config.run_chained (performOn (some commentSchema)) sched
  simp only [fits_iff]
  rw [hworld]
  refine Config.stable_world (performOn (some commentSchema)) hchained
    (P := fun w => ∀ d ∈ w.comments.docs, Fits d) (fun e he h => ?_) hw
  obtain ⟨i, hi⟩ := List.mem_iff_getElem?.mp he
  have hwrites := hcontracts.calls i e hi
  obtain ⟨tid, c, ch, before⟩ := e
  rw [Event.after]
  cases c with
  | insertOne doc => exact fits_insertOne h doc
  | updateOne f update =>
      cases hr : requests tid with
      | addReply request =>
          rw [hr] at hwrites
          obtain ⟨oid, author, text, createdAt, now, _, _, _, _, rfl, rfl⟩ := hwrites
          exact fits_updateOne h oid _ now
      | _ =>
          rw [hr] at hwrites
          exact absurd hwrites (by simp [Writes])
  | _ =>
      rw [show performOn (some commentSchema) _ ch before = perform _ ch before from rfl,
        perform_comments _ _ _ (by simp) (by simp)]
      exact h

end Validator

/-! ## A comment without a text -/

/-- What the scripts leave, under these ids. -/
def deployedSample : Validated :=
  match initialise Sample.idOf with
  | .ok (some deployed) => deployed
  | _ => ⟨Collection.empty, none⟩

def deployedWorld : World := World.boot Postgres.Database.empty deployedSample.collection []

theorem initialise_ids : initialise Sample.idOf = .ok (some deployedSample) := by
  cases h : initialise Sample.idOf with
  | error e =>
      have hok : (initialise Sample.idOf).toOption.isSome := by decide +kernel
      rw [h] at hok
      exact absurd hok (by simp [Except.toOption])
  | ok ns =>
      obtain ⟨deployed, rfl, _⟩ := initialise_unvalidated h
      rw [deployedSample, h]

/-- Every id that MongoDB assigns is new. -/
def freshly : Choice := { Sample.plain with oid := Sample.idOf 15 }

/-- The texts of one comment fit. -/
theorem schema_iff_sample :
    TextsFit Sample.userver CommentIdentity.commentAndReplies
      (runOn deployedSample.validator Sample.userver deployedWorld
        CommentIdentity.commentAndReplies (List.replicate 7 (0, freshly))).trace := by
  refine (schema_iff initialise_ids rfl).mp ?_
  have hall : (runOn deployedSample.validator Sample.userver deployedWorld
      CommentIdentity.commentAndReplies
      (List.replicate 7 (0, freshly))).world.comments.docs.all
        (fun d => commentSchema d.toBson) = true := by
    decide +kernel
  exact List.all_eq_true.mp hall

/-- The body of a comment without a text. -/
def emptyBody : String := "\x7b\"author\": \"ann\", \"text\": \"\"\x7d"

/-- The library reads it. -/
def emptyUserver : Userver :=
  { Sample.userver with
    fromString := fun text =>
      if text = emptyBody then .ok (.object [("author", .string "ann"), ("text", .string "")])
      else .error .parseError }

/-- A comment without a text is stored. -/
theorem schema_fails :
    ¬∀ (ids : ℕ → Oid) (deployed : Validated), initialise ids = .ok (some deployed) →
      ∀ (u : Userver) (w : World), w.comments = deployed.collection →
        ∀ (requests : ℕ → Request) (sched : List (ℕ × Choice)),
          ∀ d ∈ (runOn deployed.validator u w requests sched).world.comments.docs,
            commentSchema d.toBson = true := by
  intro h
  have hrun := h Sample.idOf deployedSample initialise_ids emptyUserver deployedWorld rfl
    (fun _ => .addComment (Sample.http emptyBody "taskId" "7") 1)
    (List.replicate 7 (0, freshly))
  have hall : (runOn deployedSample.validator emptyUserver deployedWorld
      (fun _ => .addComment (Sample.http emptyBody "taskId" "7") 1)
      (List.replicate 7 (0, freshly))).world.comments.docs.all
        (fun d => commentSchema d.toBson) = false := by
    decide +kernel
  rw [List.all_eq_true.mpr hrun] at hall
  exact absurd hall (by simp)

end MyService.Storage.CommentSchema
