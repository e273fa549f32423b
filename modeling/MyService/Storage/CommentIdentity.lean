import MyService.Handlers.AddReply
import MyService.Handlers.Calls

/-!
# The identity of a comment

`AddComment` publishes its event under the id it generated, but the document goes
to MongoDB without it and gets another. `comment_identity` shows that this is all
that separates the events from the collection: in a run where MongoDB happens to
assign the generated ids, and replies write ids as `ToString` does, every event
names the document it is about.
-/

namespace MyService.Storage.CommentIdentity

open Framework Userver Models Handlers Calls Event EventProducer

/-! ## What the handlers do with comments -/

/-- The calls on comments and on Kafka that a request makes, each after what. -/
def Allowed : Request → Prog.History Call Call.Answer → Call → Prop
  | .addComment _ _, h, .insertOne doc => ∃ (draws : ℕ → Fin 16) (now : Int) (comment : Comment),
      h = [⟨.randomDraws, draws⟩, ⟨.systemNow, now⟩] ∧ doc = commentToBson comment
  | .addComment _ _, h, .send _ key message =>
      ∃ (draws : ℕ → Fin 16) (now : Int) (comment : Comment) (q : Prog.History Call Call.Answer),
        h = [⟨.randomDraws, draws⟩, ⟨.systemNow, now⟩,
          ⟨.insertOne (commentToBson comment), .ok ()⟩] ++ q ∧
        key = generateCommentId draws ∧
        IsMessage "CommentAdded" (CommentAddedEvent.mk (generateCommentId draws)
          comment.taskId comment.author comment.text).toPayload message
  | .addReply request, _, .updateOne f update => ∃ oid reply now,
      Oid.ofString (request.getPathArg "commentId") = .ok oid ∧
      f = MongoStorage.idFilter oid ∧ update = MongoStorage.replyUpdate reply now
  | .addReply request, _, .send _ key _ => key = request.getPathArg "commentId"
  | _, _, .insertOne _ => False
  | _, _, .updateOne _ _ => False
  | _, _, _ => True

-- the equations of `Allowed`, derived once here and not in each proof below
attribute [local grind =] Allowed

/-- The contract: only such calls. -/
def Keeps (request : Request) : Service HttpResponse → Prop :=
  Prog.Obeys (Allowed request) (fun _ _ => True) (fun _ _ => True) []

theorem keeps_serve (u : Userver) (request : Request) : Keeps request (serve u request) := by
  refine (conducts_serve u request).mono (fun h c hmakes => ?_) (fun _ _ _ => trivial)
    fun _ _ _ => trivial
  cases hmakes with
  | commentInsert draws now => exact ⟨draws, now, _, rfl, rfl⟩
  | replyUpdate createdAt now found hoid => exact ⟨_, _, _, hoid, rfl, rfl⟩
  | eventSend hcompletes hquiet hlength hmessage =>
      cases hcompletes with
      | addComment draws now => exact ⟨draws, now, _, _, rfl, rfl, hmessage⟩
      | addReply => exact rfl
      | _ => trivial
  | eventDraws | eventNow => cases request <;> trivial
  | _ => trivial

/-! ## The law -/

/-- A `Send` that succeeded, of this event. -/
def Publishes (e : ServiceEvent) (key : String) (event : CommentAddedEvent) : Prop :=
  ∃ topic message, e.call = .send topic key message ∧ e.choice.fault = none ∧
    IsMessage "CommentAdded" event.toPayload message

/-- An `InsertOne` that succeeded, under this `_id`. -/
def Inserts (e : ServiceEvent) (oid : Oid) : Prop :=
  ∃ doc, e.seen perform = ⟨.insertOne doc, .ok ()⟩ ∧ e.choice.oid = oid

/-- The document is the comment of the event. -/
structure Records (event : CommentAddedEvent) (d : Document) : Prop where
  id : AddReply.Names event.commentId d
  taskId : d.get? "task_id" = some (.int32 event.taskId)
  author : d.get? "author" = some (.string event.author)
  text : d.get? "text" = some (.string event.text)

def ByAddComment (requests : ℕ → Request) (e : ServiceEvent) : Prop :=
  ∃ request userId, requests e.tid = .addComment request userId

/-- The comment that an event is about: the document that its `AddComment` inserted or
its `AddReply` addressed. -/
def About (requests : ℕ → Request) (tr : List ServiceEvent) (e : ServiceEvent) (oid : Oid) :
    Prop :=
  match requests e.tid with
  | .addComment _ _ => ∃ e' ∈ tr, e'.tid = e.tid ∧ Inserts e' oid
  | .addReply request => Oid.ofString (request.getPathArg "commentId") = .ok oid
  | _ => False

/-- Comments and events agree on the identity of comments. -/
structure Identified (requests : ℕ → Request) (cfg : ServiceConfig) : Prop where
  /-- What `AddComment` published is in the collection under the published id. -/
  recorded : ∀ e ∈ cfg.trace, ByAddComment requests e → ∀ key event, Publishes e key event →
    ∃ d ∈ cfg.world.comments.docs, Records event d
  /-- A reply to the published id extends that document. -/
  extended : ∀ (i j : ℕ) (e e' : ServiceEvent), cfg.trace[i]? = some e →
    cfg.trace[j]? = some e' → i < j → ByAddComment requests e →
    ∀ key event, Publishes e key event → ∀ request, requests e'.tid = .addReply request →
      Oid.ofString (request.getPathArg "commentId") = Oid.ofString event.commentId →
      ∀ f update, e'.call = .updateOne f update → e'.choice.fault = none →
        ∃ d ∈ e'.before.comments.docs, Records event d ∧
          ∃ reply, AddReply.ExtendedIn reply d e'.before.comments (e'.after perform).comments
  /-- The events of one comment have one key. -/
  sameKey : ∀ e ∈ cfg.trace, ∀ e' ∈ cfg.trace, ∀ key key' event event' oid,
    Publishes e key event → Publishes e' key' event' → About requests cfg.trace e oid →
      About requests cfg.trace e' oid → key = key'

/-- Every published comment was assigned the id that its thread had drawn. -/
def AssignedAsDrawn (tr : List ServiceEvent) : Prop :=
  ∀ (i j : ℕ) (e e' : ServiceEvent) (oid : Oid), tr[i]? = some e → tr[j]? = some e' → i < j →
    e.tid = e'.tid → e.call = .randomDraws → Inserts e' oid →
    (∃ s ∈ tr, s.tid = e.tid ∧ ∃ key event, Publishes s key event) →
      oid = drawnOid e.choice.draws

/-- Every published reply addressed its comment by the text that `ToString` writes. -/
def AddressedAsWritten (requests : ℕ → Request) (tr : List ServiceEvent) : Prop :=
  ∀ e ∈ tr, ∀ request, requests e.tid = .addReply request →
    (∃ key event, Publishes e key event) →
      ∀ oid, Oid.ofString (request.getPathArg "commentId") = .ok oid →
        request.getPathArg "commentId" = oid.toString

/-! ## A recorded comment stays -/

/-- The comment is in the collection and can take replies. -/
def Persists (event : CommentAddedEvent) (w : World) : Prop :=
  ∃ d ∈ w.comments.docs, Records event d ∧ (MongoStorage.replies? d).isSome

/-- A reply changes neither what the event says nor that the replies are an array. -/
theorem Records.extends {event : CommentAddedEvent} {reply : Reply} {d d' : Document}
    (h : Records event d) (hext : MongoStorage.Extends reply d d') :
    Records event d' ∧ (MongoStorage.replies? d').isSome := by
  obtain ⟨items, _, hitems⟩ := hext.replies
  refine ⟨?_, by rw [hitems]; rfl⟩
  exact
    { id := h.id.imp fun oid hoid => ⟨hoid.1, hext.id.trans hoid.2⟩
      taskId := (hext.other "task_id" (by decide) (by decide)).trans h.taskId
      author := (hext.other "author" (by decide) (by decide)).trans h.author
      text := (hext.other "text" (by decide) (by decide)).trans h.text }

section Runs

variable {u : Userver} {w : World} {requests : ℕ → Request} {sched : List (ℕ × Choice)}

theorem run_keeps :
    Config.Contracts perform (fun tid => Allowed (requests tid)) (fun _ _ _ => True)
      (fun _ _ _ => True) (runService u w requests sched) :=
  Config.run_obeys perform (fun tid => keeps_serve u (requests tid)) sched

/-- The calls of the run keep to their contracts. -/
theorem allowed_of_getElem {i : ℕ} {e : ServiceEvent}
    (hi : (runService u w requests sched).trace[i]? = some e) :
    Allowed (requests e.tid) (own perform e.tid
      ((runService u w requests sched).trace.take i)) e.call :=
  run_keeps.calls i e hi

/-- Every update of the run is a reply's. -/
theorem replyUpdate_of_event {e : ServiceEvent}
    (he : e ∈ (runService u w requests sched).trace) {f : Filter} {update : Update}
    (hc : e.call = .updateOne f update) :
    ∃ oid reply now, f = MongoStorage.idFilter oid ∧
      update = MongoStorage.replyUpdate reply now := by
  obtain ⟨i, hi⟩ := List.mem_iff_getElem?.mp he
  have hallowed := allowed_of_getElem hi
  rw [hc] at hallowed
  cases hr : requests e.tid with
  | addReply request =>
      rw [hr] at hallowed
      obtain ⟨oid, reply, now, _, hf, hu⟩ := hallowed
      exact ⟨oid, reply, now, hf, hu⟩
  | _ =>
      rw [hr] at hallowed
      exact absurd hallowed (by simp [Allowed])

theorem persists_event {event : CommentAddedEvent} :
    ∀ e ∈ (runService u w requests sched).trace, Persists event e.before →
      Persists event (e.after perform) := by
  intro e he
  exact MongoStorage.exists_doc_perform (fun reply d d' hext h => h.1.extends hext)
    fun f update => replyUpdate_of_event he

/-- A thread has made two calls when it inserts. -/
theorem own_length_insert {i : ℕ} {e : ServiceEvent} {oid : Oid}
    (hi : (runService u w requests sched).trace[i]? = some e) (he : Inserts e oid) :
    (own perform e.tid ((runService u w requests sched).trace.take i)).length = 2 := by
  obtain ⟨doc, hdoc, _⟩ := he
  have hallowed := allowed_of_getElem hi
  rw [show e.call = .insertOne doc from congrArg Sigma.fst hdoc] at hallowed
  cases hr : requests e.tid with
  | addComment request userId =>
      rw [hr] at hallowed
      obtain ⟨draws, now, comment, hown, _⟩ := hallowed
      rw [hown]
      rfl
  | _ =>
      rw [hr] at hallowed
      exact absurd hallowed (by simp [Allowed])

/-- A thread inserts once. -/
theorem insert_unique {i j : ℕ} {e e' : ServiceEvent} {oid oid' : Oid}
    (hi : (runService u w requests sched).trace[i]? = some e)
    (hj : (runService u w requests sched).trace[j]? = some e') (htid : e.tid = e'.tid)
    (he : Inserts e oid) (he' : Inserts e' oid') : oid = oid' := by
  have hlength := own_length_insert hj he'
  rw [← htid, ← own_length_insert hi he] at hlength
  obtain rfl : j = i := eq_of_own_length perform hj hi htid.symm rfl hlength
  rw [hi] at hj
  obtain rfl := Option.some.inj hj
  obtain ⟨_, _, rfl⟩ := he
  obtain ⟨_, _, rfl⟩ := he'
  rfl

/-- The draws that a thread saw are the environment's. -/
theorem draws_of_seen {e : ServiceEvent} {draws : ℕ → Fin 16}
    (h : e.seen perform = ⟨.randomDraws, draws⟩) :
    e.call = .randomDraws ∧ e.choice.draws = draws := by
  obtain ⟨tid, c, ch, before⟩ := e
  obtain rfl : c = .randomDraws := congrArg Sigma.fst h
  exact ⟨rfl, by simpa [Event.seen, Event.resp, perform] using h⟩

/-- An inserted comment is in the collection under the assigned id. -/
theorem persists_inserted {e : ServiceEvent} {comment : Comment}
    (h : e.seen perform = ⟨.insertOne (commentToBson comment), .ok ()⟩) :
    Persists ⟨e.choice.oid.toString, comment.taskId, comment.author, comment.text⟩
      (e.after perform) := by
  obtain ⟨tid, c, ch, before⟩ := e
  obtain rfl : c = .insertOne (commentToBson comment) := congrArg Sigma.fst h
  have hresp : (perform (.insertOne (commentToBson comment)) ch before).2 = .ok () := by
    simpa [Event.seen, Event.resp] using h
  rw [Event.after]
  rcases insertOne_cases ch before (commentToBson comment) with
    ⟨x, _, heq⟩ | ⟨comments, _, hok, heq⟩
  · rw [heq] at hresp
    exact absurd hresp (by simp)
  · rw [heq]
    rcases before.comments.insertOne_cases ch.oid (commentToBson comment) with
      ⟨_, c', hc', hdocs⟩ | ⟨_, herr⟩
    · rw [hok] at hc'
      obtain rfl := Except.ok.inj hc'
      -- the document comes without an id, so it gets the assigned one
      rw [documentId_commentToBson] at hdocs
      refine ⟨Collection.stored ch.oid (commentToBson comment), by simp [hdocs], ?_, ?_⟩
      · exact
          { id := ⟨ch.oid, Oid.ofString_toString ch.oid, rfl⟩
            taskId := by cases comment.updatedAt <;> rfl
            author := by cases comment.updatedAt <;> rfl
            text := by cases comment.updatedAt <;> rfl }
      · unfold MongoStorage.replies? commentToBson
        cases comment.updatedAt <;> rfl
    · rw [hok] at herr
      exact absurd herr (by simp)

/-- **Where a published comment comes from.** Its thread inserted it before, with what
the event says of it; the published id and the key are the drawn id, which is the
document's where it was assigned as drawn. -/
theorem published_inserted
    (hassigned : AssignedAsDrawn (runService u w requests sched).trace) {i : ℕ}
    {e : ServiceEvent} {key : String} {event : CommentAddedEvent}
    (hi : (runService u w requests sched).trace[i]? = some e)
    (hby : ByAddComment requests e) (hpublishes : Publishes e key event) :
    ∃ j e' oid, j < i ∧ (runService u w requests sched).trace[j]? = some e' ∧
      e'.tid = e.tid ∧ Inserts e' oid ∧ key = oid.toString ∧
      Persists event (e'.after perform) := by
  obtain ⟨request, userId, hr⟩ := hby
  obtain ⟨topic, message, hcall, hsent, hmessage⟩ := id hpublishes
  have hallowed := allowed_of_getElem hi
  rw [hr, hcall] at hallowed
  obtain ⟨draws, now, comment, q, hown, rfl, hmessage'⟩ := hallowed
  obtain rfl := commentAdded_unique hmessage hmessage'
  -- the insert, and what its thread had drawn by then
  obtain ⟨j, e', hj, he', htid, hseen⟩ := (mem_own_take perform).mp
    (show ⟨.insertOne (commentToBson comment), .ok ()⟩ ∈ own perform e.tid
      ((runService u w requests sched).trace.take i) by rw [hown]; simp)
  have hallowed' := allowed_of_getElem he'
  rw [htid, hr, show e'.call = .insertOne (commentToBson comment) from
    congrArg Sigma.fst hseen] at hallowed'
  obtain ⟨draws', now', comment', hown', _⟩ := hallowed'
  -- both histories begin with the same draws
  have hprefix := own_take_isPrefix perform e.tid (runService u w requests sched).trace hj.le
  rw [hown', hown] at hprefix
  obtain rfl : draws' = draws := by
    have hhead := List.cons_prefix_cons.mp hprefix
    simpa using hhead.1
  obtain ⟨k, e'', hk, he'', htid', hseen'⟩ := (mem_own_take perform).mp
    (show ⟨.randomDraws, draws'⟩ ∈ own perform e.tid
      ((runService u w requests sched).trace.take j) by rw [hown']; simp)
  obtain ⟨hcall', hdraws⟩ := draws_of_seen hseen'
  have hoid : e'.choice.oid = drawnOid draws' := by
    rw [← hdraws]
    exact hassigned k j e'' e' _ he'' he' hk (htid'.trans htid.symm) hcall' ⟨_, hseen, rfl⟩
      ⟨e, List.mem_of_getElem? hi, htid'.symm, _, _, hpublishes⟩
  have hid : generateCommentId draws' = e'.choice.oid.toString := by
    rw [generateCommentId_eq, hoid]
  rw [hid]
  exact ⟨j, e', e'.choice.oid, hj, he', htid, ⟨_, hseen, rfl⟩, rfl, persists_inserted hseen⟩

/-- The key of an event is its comment's id as `ToString` writes it. -/
theorem key_of_about (hassigned : AssignedAsDrawn (runService u w requests sched).trace)
    (haddressed : AddressedAsWritten requests (runService u w requests sched).trace)
    {e : ServiceEvent} {key : String} {event : CommentAddedEvent} {oid : Oid}
    (he : e ∈ (runService u w requests sched).trace) (hpublishes : Publishes e key event)
    (habout : About requests (runService u w requests sched).trace e oid) :
    key = oid.toString := by
  obtain ⟨i, hi⟩ := List.mem_iff_getElem?.mp he
  unfold About at habout
  split at habout
  · rename_i request userId hr
    obtain ⟨j, e₁, oid₁, _, hj, htid, hinserts, hkey, _⟩ :=
      published_inserted hassigned hi ⟨request, userId, hr⟩ hpublishes
    obtain ⟨e₂, he₂, htid₂, hinserts₂⟩ := habout
    obtain ⟨k, hk⟩ := List.mem_iff_getElem?.mp he₂
    rw [hkey, insert_unique hj hk (htid.trans htid₂.symm) hinserts hinserts₂]
  · rename_i request hr
    rw [← haddressed e he request hr ⟨key, event, hpublishes⟩ oid habout]
    have hallowed := allowed_of_getElem hi
    obtain ⟨topic, message, hcall, _, _⟩ := hpublishes
    rw [hr, hcall] at hallowed
    exact hallowed
  · exact absurd habout id

/-- A reply to a comment that persists extends it. -/
theorem extendedIn_of_persists {event : CommentAddedEvent} {e : ServiceEvent} {oid : Oid}
    {reply : Reply} {now : Int} (hnames : Oid.ofString event.commentId = .ok oid)
    (hcall : e.call = .updateOne (MongoStorage.idFilter oid) (MongoStorage.replyUpdate reply now))
    (hok : e.choice.fault = none) (h : Persists event e.before) :
    ∃ d ∈ e.before.comments.docs, Records event d ∧
      AddReply.ExtendedIn reply d e.before.comments (e.after perform).comments := by
  obtain ⟨d, hd, hrecords, hreplies⟩ := h
  obtain ⟨tid, c, ch, before⟩ := e
  simp only at hcall hok hd
  subst hcall
  have hid : d.id = .oid oid := (AddReply.names_iff hnames d).mp hrecords.id
  refine ⟨d, hd, hrecords, ?_⟩
  rw [Event.after]
  rcases MongoStorage.updateReply_present reply now hd hid with
    ⟨pre, post, d', c', hsplit, hext, hdocs, hnew⟩ | ⟨hnone, _⟩
  · rcases updateOne_cases ch before (MongoStorage.idFilter oid)
        (MongoStorage.replyUpdate reply now) with ⟨x, hx, _⟩ | ⟨comments, n, _, hupd, heq⟩
    · rcases hx with h | ⟨_, h⟩
      · rw [hok] at h
        exact absurd h (by simp)
      · rw [hnew] at h
        exact absurd h (by simp)
    · rw [hnew] at hupd
      obtain ⟨rfl, _⟩ := Prod.mk.inj (Except.ok.inj hupd)
      rw [heq]
      exact ⟨pre, post, d', hsplit, hdocs, hext.toExtends⟩
  · rw [hnone] at hreplies
    exact absurd hreplies (by simp)

/-- **Comment identity.** Where MongoDB assigns every published comment the id that was
drawn for it, and replies write ids as `ToString` does, comments and events agree in
every state of every run. -/
theorem comment_identity
    (hassigned : AssignedAsDrawn (runService u w requests sched).trace)
    (haddressed : AddressedAsWritten requests (runService u w requests sched).trace) :
    Identified requests (runService u w requests sched) where
  recorded := by
    intro e he hby key event hpublishes
    obtain ⟨i, hi⟩ := List.mem_iff_getElem?.mp he
    obtain ⟨j, e', oid, _, hj, _, _, _, hpersists⟩ :=
      published_inserted hassigned hi hby hpublishes
    rw [runService_world]
    obtain ⟨d, hd, hrecords, _⟩ :=
      Config.stable_end perform runService_chained persists_event hj hpersists
    exact ⟨d, hd, hrecords⟩
  extended := by
    intro i j e e' hi hj hij hby key event hpublishes request hr haddress f update hcall hok
    obtain ⟨k, e₁, oid, hk, hk', _, _, _, hpersists⟩ :=
      published_inserted hassigned hi hby hpublishes
    have hbefore : Persists event e'.before :=
      Config.stable_later perform runService_chained persists_event hk' hj (hk.trans hij)
        hpersists
    have hallowed := allowed_of_getElem hj
    rw [hr, hcall] at hallowed
    obtain ⟨oid', reply, now, hoid', rfl, rfl⟩ := hallowed
    rw [haddress] at hoid'
    obtain ⟨d, hd, hrecords, hext⟩ := extendedIn_of_persists hoid' hcall hok hbefore
    exact ⟨d, hd, hrecords, reply, hext⟩
  sameKey := by
    intro e he e' he' key key' event event' oid hp hp' habout habout'
    rw [key_of_about hassigned haddressed he hp habout,
      key_of_about hassigned haddressed he' hp' habout']

end Runs

/-! ## A comment and its reply -/

/-- Request 0 comments on task 7, the others reply to the comment with the id of zeros. -/
def commentAndReplies (tid : ℕ) : Request :=
  if tid = 0 then .addComment (Sample.http Sample.body "taskId" "7") 1
  else .addReply (Sample.http Sample.body "commentId" AddReply.zeros)

/-- Every draw is 0 and the assigned id is zeros. -/
theorem comment_identity_commentAndReplies :
    Identified commentAndReplies (runService Sample.userver Sample.empty commentAndReplies
      (List.replicate 7 (0, Sample.plain) ++ List.replicate 8 (1, Sample.plain))) := by
  refine comment_identity ?_ ?_
  · intro i j e e' oid hi hj _ _ _ hinserts _
    have hchoice : ∀ e ∈ (runService Sample.userver Sample.empty commentAndReplies
        (List.replicate 7 (0, Sample.plain) ++ List.replicate 8 (1, Sample.plain))).trace,
        e.choice = Sample.plain := by
      intro e he
      have hsched := Config.mem_sched perform he
      rcases List.mem_append.mp hsched with h | h
      · exact (Prod.mk.inj (List.eq_of_mem_replicate h)).2
      · exact (Prod.mk.inj (List.eq_of_mem_replicate h)).2
    obtain ⟨_, _, rfl⟩ := hinserts
    rw [hchoice e (List.mem_of_getElem? hi), hchoice e' (List.mem_of_getElem? hj)]
    decide
  · intro e _ request hr _ oid hoid
    unfold commentAndReplies at hr
    split at hr
    · exact absurd hr (by simp)
    · obtain rfl := Request.addReply.inj hr
      have hzeros : Oid.ofString AddReply.zeros = .ok Oid.zeros := by decide
      obtain rfl := Except.ok.inj (hzeros.symm.trans hoid)
      decide

/-- The same comment with other draws: its event names no document. -/
theorem comment_identity_fails :
    ¬Identified commentAndReplies (runService Sample.userver Sample.empty commentAndReplies
      ((0, { Sample.plain with draws := fun _ => 1 }) :: List.replicate 6 (0, Sample.plain))) := by
  intro h
  set cfg := runService Sample.userver Sample.empty commentAndReplies
    ((0, { Sample.plain with draws := fun _ => 1 }) :: List.replicate 6 (0, Sample.plain)) with hcfg
  have hlength : 5 < cfg.trace.length := by decide
  obtain ⟨d, hd, hrecords⟩ := h.recorded cfg.trace[5] (List.getElem_mem hlength) ⟨_, _, rfl⟩
    _ ⟨"111111111111111111111111", 7, "ann", "hi"⟩ ⟨_, _, rfl, rfl, _, _, _, rfl⟩
  obtain ⟨oid, hoid, hid⟩ := hrecords.id
  have hdocs : cfg.world.comments.docs.map Document.id =
      [.oid Oid.zeros] := rfl
  have hmem : d.id ∈ cfg.world.comments.docs.map Document.id := List.mem_map_of_mem hd
  rw [hdocs, hid, List.mem_singleton] at hmem
  rw [Bson.oid.inj hmem] at hoid
  exact absurd hoid (by decide)

end MyService.Storage.CommentIdentity
