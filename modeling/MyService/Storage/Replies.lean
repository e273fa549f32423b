import MyService.Storage.CommentIdentity

/-!
# The replies of a comment

`AddReply` reads a comment's task and then pushes the reply in one update, so concurrent
replies cannot overwrite each other. `replies_conserved` states it for every schedule: a
comment's array is the array it started with and the replies whose updates found the
comment, in the order of these updates, each request's once.
-/

namespace MyService.Storage.Replies

open Framework Userver Models Handlers Calls Storage MongoStorage

/-! ## What the handlers write -/

/-- The documents and the updates that a request sends, from its body and its path. -/
def Writes (u : Userver) : Request → Prog.History Call Call.Answer → Call → Prop
  | .addComment request userId, _, .insertOne doc =>
      ∃ (taskId : Int) (author text : String) (draws : ℕ → Fin 16) (now : Int),
        BodyHas u request author text ∧
        doc = commentToBson
          { id := generateCommentId draws, taskId := taskId, author := author
            authorId := userId, text := text, createdAt := now, updatedAt := none
            replies := [] }
  | .addReply request, h, .updateOne f update =>
      ∃ (oid : Oid) (author text : String) (createdAt now : Int)
        (found : Except Exn (Option Document)),
        Oid.ofString (request.getPathArg "commentId") = .ok oid ∧
        BodyHas u request author text ∧
        h = [⟨.systemNow, createdAt⟩, ⟨.findOne (idFilter oid), found⟩, ⟨.systemNow, now⟩] ∧
        f = idFilter oid ∧ update = replyUpdate ⟨author, text, createdAt⟩ now
  | _, _, .insertOne _ => False
  | _, _, .updateOne _ _ => False
  | _, _, _ => True

/-- The contract: only such writes. -/
def WritesOnly (u : Userver) (request : Request) : Service HttpResponse → Prop :=
  Prog.Obeys (Writes u request) (fun _ _ => True) (fun _ _ => True) []

theorem writesOnly_serve (u : Userver) (request : Request) :
    WritesOnly u request (serve u request) := by
  refine (conducts_serve u request).mono (fun h c hmakes => ?_) (fun _ _ _ => trivial)
    fun _ _ _ => trivial
  cases hmakes with
  | commentInsert draws now htask hbody => exact ⟨_, _, _, draws, now, hbody, rfl⟩
  | replyUpdate createdAt now found hoid hbody =>
      exact ⟨_, _, _, createdAt, now, found, hoid, hbody, rfl, rfl, rfl⟩
  | eventSend hcompletes => cases hcompletes <;> trivial
  | eventDraws | eventNow => cases request <;> trivial
  | _ => trivial

/-! ## What an event does to the collection -/

/-- The reply that an event has put on the comment with this `_id`, with its request: that
of an update whose filter found the comment. -/
def pushed? (id : Bson) (e : ServiceEvent) : Option (ℕ × Bson) :=
  match e.seen perform with
  | ⟨.updateOne f update, .ok (_ + 1)⟩ =>
      if f.field = "_id" ∧ f.value.equals id then some (e.tid, update.push.2) else none
  | _ => none

/-- The replies that a run has put on the comment, in the order of their updates. -/
def pushes (id : Bson) (tr : List ServiceEvent) : List (ℕ × Bson) := tr.filterMap (pushed? id)

/-- An event has inserted this document. -/
def Inserted (e : ServiceEvent) (d : Document) : Prop :=
  ∃ doc, e.seen perform = ⟨.insertOne doc, .ok ()⟩ ∧
    d = Collection.stored (Collection.documentId e.choice.oid doc) doc

/-- What an event of the service can do to the comments. -/
inductive Change (e : ServiceEvent) : Prop
  | same (hdocs : (e.after perform).comments = e.before.comments)
      (hquiet : ∀ id, pushed? id e = none) (hinsert : ∀ d, ¬Inserted e d)
  | insert (d : Document) (hinsert : ∀ d', Inserted e d' ↔ d' = d)
      (hnew : ∀ d' ∈ e.before.comments.docs, d'.id ≠ d.id)
      (hdocs : (e.after perform).comments.docs = e.before.comments.docs ++ [d])
      (hquiet : ∀ id, pushed? id e = none)
  | push (reply : Reply) (now : Int) (pre : List Document) (d d' : Document)
      (post : List Document)
      (hbefore : e.before.comments.docs = pre ++ d :: post)
      (hdocs : (e.after perform).comments.docs = pre ++ d' :: post)
      (hreplied : Replied reply now d d')
      (hpushed : pushed? d.id e = some (e.tid, replyToBson reply))
      (hother : ∀ id, id ≠ d.id → pushed? id e = none)
      (hinsert : ∀ d, ¬Inserted e d)

/-- **Rule.** A property of documents that new ones have and replies keep. -/
theorem Change.forall_docs {e : ServiceEvent} (hchange : Change e) {P : Document → Prop}
    (hinserted : ∀ d, Inserted e d → P d)
    (hreply : ∀ reply now d d', Replied reply now d d' →
      pushed? d.id e = some (e.tid, replyToBson reply) → P d → P d')
    (h : ∀ d ∈ e.before.comments.docs, P d) : ∀ d ∈ (e.after perform).comments.docs, P d := by
  cases hchange with
  | same hdocs _ _ =>
      rw [hdocs]
      exact h
  | insert d hinsert _ hdocs _ =>
      rw [hdocs]
      intro d' hd'
      rcases List.mem_append.mp hd' with hold | hlast
      · exact h d' hold
      · rw [List.mem_singleton.mp hlast]
        exact hinserted d ((hinsert d).mpr rfl)
  | push reply now pre d d' post hbefore hdocs hreplied hpushed _ _ =>
      rw [hbefore] at h
      rw [hdocs]
      intro d₁ hd₁
      rcases mem_replaced d hd₁ with rfl | hold
      · exact hreply reply now d d₁ hreplied hpushed (h d (by simp))
      · exact h d₁ hold

theorem equals_oid_iff {oid : Oid} {id : Bson} :
    (Bson.oid oid).equals id = true ↔ id = .oid oid := by
  cases id <;> simp [Bson.equals, Bson.number?, eq_comm]

/-- An update whose filter found nothing, or that failed, puts no reply anywhere. -/
theorem pushed?_eq_none {e : ServiceEvent}
    (h : ∀ f update n, e.seen perform ≠ ⟨.updateOne f update, .ok (n + 1)⟩) (id : Bson) :
    pushed? id e = none := by
  unfold pushed?
  split
  · rename_i f update n hseen
    exact absurd hseen (h f update n)
  · rfl

section Event

variable {tid : ℕ} {ch : Choice} {w : World}

theorem not_inserted {c : Call} (hc : ∀ doc, c ≠ .insertOne doc) (d : Document) :
    ¬Inserted ⟨tid, c, ch, w⟩ d := by
  rintro ⟨doc, hseen, _⟩
  exact hc doc (congrArg Sigma.fst hseen)

theorem change_insertOne (doc : List (String × Bson)) :
    Change ⟨tid, .insertOne doc, ch, w⟩ := by
  have hquiet : ∀ id, pushed? id ⟨tid, .insertOne doc, ch, w⟩ = none := by
    refine pushed?_eq_none ?_
    intro f update n hseen
    exact absurd (congrArg Sigma.fst hseen) (by simp [Event.seen])
  rcases insertOne_cases ch w doc with ⟨x, _, heq⟩ | ⟨comments, _, hok, heq⟩
  · refine .same (by simp [Event.after, heq]) hquiet ?_
    rintro d ⟨doc', hseen, _⟩
    obtain rfl : doc = doc' := by simpa [Event.seen] using congrArg Sigma.fst hseen
    simp [Event.seen, Event.resp, heq] at hseen
  · rcases w.comments.insertOne_cases ch.oid doc with ⟨hnew, c', hc', hdocs⟩ | ⟨_, herr⟩
    · rw [hok] at hc'
      obtain rfl := Except.ok.inj hc'
      refine .insert (Collection.stored (Collection.documentId ch.oid doc) doc)
        (fun d' => ⟨?_, ?_⟩) hnew (by simp [Event.after, heq, hdocs]) hquiet
      · rintro ⟨doc', hseen, rfl⟩
        obtain rfl : doc = doc' := by simpa [Event.seen] using congrArg Sigma.fst hseen
        rfl
      · rintro rfl
        exact ⟨doc, by simp [Event.seen, Event.resp, heq], rfl⟩
    · rw [hok] at herr
      exact absurd herr (by simp)

theorem change_updateOne (oid : Oid) (reply : Reply) (now : Int) :
    Change ⟨tid, .updateOne (idFilter oid) (replyUpdate reply now), ch, w⟩ := by
  have hinsert : ∀ d, ¬Inserted ⟨tid, .updateOne (idFilter oid) (replyUpdate reply now), ch, w⟩ d :=
    not_inserted (by simp)
  rcases updateOne_cases ch w (idFilter oid) (replyUpdate reply now) with
    ⟨x, _, heq⟩ | ⟨comments, n, _, hok, heq⟩
  · refine .same (by simp [Event.after, heq]) (pushed?_eq_none ?_) hinsert
    intro f update n hseen
    obtain ⟨hcall, hanswer⟩ := Sigma.mk.inj hseen
    cases hcall
    simp [Event.resp, heq] at hanswer
  · rcases updateReply_cases w.comments oid reply now with
      ⟨_, hsame⟩ | ⟨pre, d, post, hsplit, hid, hres⟩
    · rw [hsame] at hok
      obtain ⟨rfl, rfl⟩ := Prod.mk.inj (Except.ok.inj hok)
      refine .same (by simp [Event.after, heq]) (pushed?_eq_none ?_) hinsert
      intro f update n hseen
      obtain ⟨hcall, hanswer⟩ := Sigma.mk.inj hseen
      cases hcall
      simp [Event.resp, heq] at hanswer
    · rcases hres with ⟨d', c', hext, hdocs, hnew⟩ | ⟨_, x, herr⟩
      · rw [hnew] at hok
        obtain ⟨rfl, rfl⟩ := Prod.mk.inj (Except.ok.inj hok)
        have hseen : Event.seen perform
            ⟨tid, .updateOne (idFilter oid) (replyUpdate reply now), ch, w⟩ =
            ⟨.updateOne (idFilter oid) (replyUpdate reply now), .ok (0 + 1)⟩ := by
          simp [Event.seen, Event.resp, heq]
        refine .push reply now pre d d' post hsplit (by simp [Event.after, heq, hdocs]) hext ?_ ?_
          hinsert
        · rw [hid, pushed?, hseen]
          exact if_pos ⟨rfl, equals_oid_iff.mpr rfl⟩
        · intro id hne
          rw [pushed?, hseen]
          refine if_neg ?_
          rintro ⟨_, hequals⟩
          exact hne ((equals_oid_iff.mp hequals).trans hid.symm)
      · rw [herr] at hok
        exact absurd hok (by simp)

/-- **What one event does.** Nothing to the comments, or a new comment, or a reply at the
end of one comment. -/
theorem change_of_event {e : ServiceEvent}
    (hupdate : ∀ f update, e.call = .updateOne f update →
      ∃ oid reply now, f = idFilter oid ∧ update = replyUpdate reply now) : Change e := by
  obtain ⟨tid, c, ch, w⟩ := e
  by_cases hinsert : ∃ doc, c = .insertOne doc
  · obtain ⟨doc, rfl⟩ := hinsert
    exact change_insertOne doc
  · by_cases hpush : ∃ f update, c = .updateOne f update
    · obtain ⟨f, update, rfl⟩ := hpush
      obtain ⟨oid, reply, now, rfl, rfl⟩ := hupdate f update rfl
      exact change_updateOne oid reply now
    · refine .same ?_ (pushed?_eq_none ?_) (not_inserted fun doc hc => hinsert ⟨doc, hc⟩)
      · exact perform_comments c ch w (fun doc hc => hinsert ⟨doc, hc⟩)
          fun f update hc => hpush ⟨f, update, hc⟩
      · intro f update n hseen
        exact hpush ⟨f, update, congrArg Sigma.fst hseen⟩

end Event

/-! ## Along a run -/

/-- A document as it was before any reply of the run: stored at the start, or inserted. -/
def Origin (w : World) (tr : List ServiceEvent) (d : Document) : Prop :=
  d ∈ w.comments.docs ∨ ∃ e ∈ tr, Inserted e d

/-- The document `d`, which was `d₀`, has got these replies and no other change. -/
structure Grown (d₀ d : Document) (pushed : List Bson) : Prop where
  id : d.id = d₀.id
  replies : replies? d = (replies? d₀).map (· ++ pushed)
  other : ∀ key, key ≠ "replies" → key ≠ "updated_at" → d.get? key = d₀.get? key

/-- What a run has made of the comments. -/
structure Conserved (w : World) (tr : List ServiceEvent) (c : Collection) : Prop where
  /-- No comment is lost, and each has its replies in order. -/
  kept : ∀ d₀, Origin w tr d₀ →
    ∃ d ∈ c.docs, Grown d₀ d ((pushes d₀.id tr).map Prod.snd)
  /-- None comes from nowhere. -/
  origin : ∀ d ∈ c.docs, ∃ d₀, Origin w tr d₀ ∧ d₀.id = d.id
  /-- Replies go to comments that are there. -/
  found : ∀ id, pushes id tr ≠ [] → ∃ d ∈ c.docs, d.id = id

theorem Grown.refl (d : Document) : Grown d d [] :=
  { id := rfl
    replies := by cases replies? d <;> simp
    other := fun _ _ _ => rfl }

theorem Grown.extends {d₀ d d' : Document} {pushed : List Bson} {reply : Reply}
    (h : Grown d₀ d pushed) (hext : Extends reply d d') :
    Grown d₀ d' (pushed ++ [replyToBson reply]) := by
  obtain ⟨items, hitems, hitems'⟩ := hext.replies
  refine ⟨hext.id.trans h.id, ?_, ?_⟩
  · rw [h.replies] at hitems
    obtain ⟨items₀, hitems₀, rfl⟩ := Option.map_eq_some_iff.mp hitems
    rw [hitems', hitems₀]
    simp
  · intro key hkey hkey'
    exact (hext.other key hkey hkey').trans (h.other key hkey hkey')

theorem pushes_snoc (id : Bson) (tr : List ServiceEvent) (e : ServiceEvent) :
    pushes id (tr ++ [e]) = pushes id tr ++ (pushed? id e).toList := by
  unfold pushes
  rw [List.filterMap_append]
  cases h : pushed? id e <;> simp [h]

theorem origin_snoc {w : World} {tr : List ServiceEvent} {e : ServiceEvent} {d : Document} :
    Origin w (tr ++ [e]) d ↔ Origin w tr d ∨ Inserted e d := by
  unfold Origin
  simp only [List.mem_append, List.mem_singleton, or_assoc]
  constructor
  · rintro (h | ⟨e', h | rfl, hi⟩)
    · exact Or.inl h
    · exact Or.inr (Or.inl ⟨e', h, hi⟩)
    · exact Or.inr (Or.inr hi)
  · rintro (h | ⟨e', h, hi⟩ | hi)
    · exact Or.inl h
    · exact Or.inr ⟨e', Or.inl h, hi⟩
    · exact Or.inr ⟨e, Or.inr rfl, hi⟩

section Conserved

variable {w : World} {tr : List ServiceEvent} {e : ServiceEvent}

theorem conserved_same (h : Conserved w tr e.before.comments)
    (hdocs : (e.after perform).comments = e.before.comments)
    (hquiet : ∀ id, pushed? id e = none) (hinsert : ∀ d, ¬Inserted e d) :
    Conserved w (tr ++ [e]) (e.after perform).comments := by
  have hpushes : ∀ id, pushes id (tr ++ [e]) = pushes id tr := by
    intro id
    rw [pushes_snoc, hquiet]
    simp
  have horigin : ∀ d, Origin w (tr ++ [e]) d ↔ Origin w tr d := by
    intro d
    rw [origin_snoc]
    simp [hinsert d]
  rw [hdocs]
  refine ⟨fun d₀ hd₀ => ?_, fun d hd => ?_, fun id hid => ?_⟩
  · rw [hpushes]
    exact h.kept d₀ ((horigin d₀).mp hd₀)
  · obtain ⟨d₀, hd₀, hid⟩ := h.origin d hd
    exact ⟨d₀, (horigin d₀).mpr hd₀, hid⟩
  · rw [hpushes] at hid
    exact h.found id hid

theorem conserved_insert (h : Conserved w tr e.before.comments) {d : Document}
    (hinsert : ∀ d', Inserted e d' ↔ d' = d) (hnew : ∀ d' ∈ e.before.comments.docs, d'.id ≠ d.id)
    (hdocs : (e.after perform).comments.docs = e.before.comments.docs ++ [d])
    (hquiet : ∀ id, pushed? id e = none) :
    Conserved w (tr ++ [e]) (e.after perform).comments := by
  have hpushes : ∀ id, pushes id (tr ++ [e]) = pushes id tr := by
    intro id
    rw [pushes_snoc, hquiet]
    simp
  have horigin : ∀ d', Origin w (tr ++ [e]) d' ↔ Origin w tr d' ∨ d' = d := by
    intro d'
    rw [origin_snoc, hinsert]
  refine ⟨fun d₀ hd₀ => ?_, fun d' hd' => ?_, fun id hid => ?_⟩
  · rw [hpushes, hdocs]
    rcases (horigin d₀).mp hd₀ with hold | rfl
    · obtain ⟨d', hd', hgrown⟩ := h.kept d₀ hold
      exact ⟨d', List.mem_append_left _ hd', hgrown⟩
    · -- nothing had this id before, so no reply had found it
      have hnone : pushes d₀.id tr = [] := by
        by_contra hsome
        obtain ⟨d', hd', hid⟩ := h.found d₀.id hsome
        exact hnew d' hd' hid
      rw [hnone]
      exact ⟨d₀, by simp, Grown.refl d₀⟩
  · rw [hdocs] at hd'
    rcases List.mem_append.mp hd' with hold | hlast
    · obtain ⟨d₀, hd₀, hid⟩ := h.origin d' hold
      exact ⟨d₀, (horigin d₀).mpr (Or.inl hd₀), hid⟩
    · exact ⟨d', (horigin d').mpr (Or.inr (List.mem_singleton.mp hlast)), rfl⟩
  · rw [hpushes] at hid
    obtain ⟨d', hd', hid'⟩ := h.found id hid
    exact ⟨d', by rw [hdocs]; exact List.mem_append_left _ hd', hid'⟩

theorem conserved_push (h : Conserved w tr e.before.comments) {reply : Reply}
    {pre post : List Document} {d d' : Document}
    (hbefore : e.before.comments.docs = pre ++ d :: post)
    (hdocs : (e.after perform).comments.docs = pre ++ d' :: post) (hext : Extends reply d d')
    (hpushed : pushed? d.id e = some (e.tid, replyToBson reply))
    (hother : ∀ id, id ≠ d.id → pushed? id e = none) (hinsert : ∀ d, ¬Inserted e d) :
    Conserved w (tr ++ [e]) (e.after perform).comments := by
  have horigin : ∀ d, Origin w (tr ++ [e]) d ↔ Origin w tr d := by
    intro d
    rw [origin_snoc]
    simp [hinsert d]
  have hmem : d ∈ e.before.comments.docs := by
    rw [hbefore]
    simp
  -- the documents before and after are the same but for `d` and `d'`, of one id
  have hcases : ∀ x ∈ e.before.comments.docs, x = d ∨ x ∈ (e.after perform).comments.docs := by
    intro x hx
    rw [hbefore] at hx
    rw [hdocs]
    exact mem_replaced d' hx
  have hmem' : d' ∈ (e.after perform).comments.docs := by
    rw [hdocs]
    simp
  have hids : ∀ x ∈ e.before.comments.docs, ∃ y ∈ (e.after perform).comments.docs,
      y.id = x.id := by
    intro x hx
    rcases hcases x hx with rfl | hstays
    · exact ⟨d', hmem', hext.id⟩
    · exact ⟨x, hstays, rfl⟩
  refine ⟨fun d₀ hd₀ => ?_, fun x hx => ?_, fun id hid => ?_⟩
  · obtain ⟨x, hx, hgrown⟩ := h.kept d₀ ((horigin d₀).mp hd₀)
    by_cases hid : d₀.id = d.id
    · obtain rfl : x = d := eq_of_id hx hmem (hgrown.id.trans hid)
      refine ⟨d', hmem', ?_⟩
      rw [pushes_snoc, hid, hpushed, ← hid, List.map_append]
      exact hgrown.extends hext
    · rw [pushes_snoc, hother _ hid]
      rcases hcases x hx with rfl | hstays
      · exact absurd hgrown.id.symm hid
      · exact ⟨x, hstays, by simpa using hgrown⟩
  · have hx' : ∃ y ∈ e.before.comments.docs, y.id = x.id := by
      rw [hdocs] at hx
      rw [hbefore]
      rcases mem_replaced d hx with rfl | hold
      · exact ⟨d, by simp, hext.id.symm⟩
      · exact ⟨x, hold, rfl⟩
    obtain ⟨y, hy, hid⟩ := hx'
    obtain ⟨d₀, hd₀, hid₀⟩ := h.origin y hy
    exact ⟨d₀, (horigin d₀).mpr hd₀, hid₀.trans hid⟩
  · by_cases hd : id = d.id
    · exact ⟨d', hmem', hext.id.trans hd.symm⟩
    · rw [pushes_snoc, hother id hd] at hid
      obtain ⟨x, hx, hxid⟩ := h.found id (by simpa using hid)
      obtain ⟨y, hy, hyid⟩ := hids x hx
      exact ⟨y, hy, hyid.trans hxid⟩

/-- **Step.** -/
theorem conserved_event (hchange : Change e) (h : Conserved w tr e.before.comments) :
    Conserved w (tr ++ [e]) (e.after perform).comments := by
  cases hchange with
  | same hdocs hquiet hinsert => exact conserved_same h hdocs hquiet hinsert
  | insert d hinsert hnew hdocs hquiet => exact conserved_insert h hinsert hnew hdocs hquiet
  | push reply now pre d d' post hbefore hdocs hreplied hpushed hother hinsert =>
      exact conserved_push h hbefore hdocs hreplied.toExtends hpushed hother hinsert

/-- **Run.** Events of the service, one after another, conserve the comments and their
replies. -/
theorem conserved_trace (hchained : Config.Chained perform w tr)
    (hchange : ∀ e ∈ tr, Change e) :
    Conserved w tr (Config.worldAfter perform w tr).comments := by
  induction tr using List.reverseRecOn with
  | nil =>
      refine ⟨fun d₀ hd₀ => ?_, fun d hd => ⟨d, Or.inl hd, rfl⟩, fun id hid => absurd rfl hid⟩
      rcases hd₀ with hd₀ | ⟨e, he, _⟩
      · exact ⟨d₀, hd₀, Grown.refl d₀⟩
      · exact absurd he (by simp)
  | append_singleton tr e ih =>
      obtain ⟨hfirst, hbefore, _⟩ := (Config.chained_append perform).mp hchained
      have h := ih hfirst fun e' he' => hchange e' (List.mem_append_left _ he')
      rw [← hbefore] at h
      rw [Config.worldAfter_append]
      exact conserved_event (hchange e (by simp)) h

end Conserved

/-! ## The law -/

/-- In any run, of any requests from any collection: -/
structure RepliesConserved (u : Userver) (w : World) (requests : ℕ → Request)
    (cfg : ServiceConfig) : Prop where
  /-- each comment has the replies it started with and those pushed, and is otherwise as it
  was; -/
  conserved : Conserved w cfg.trace cfg.world.comments
  /-- a comment starts with no replies; -/
  begins : ∀ e ∈ cfg.trace, ∀ d, Inserted e d → replies? d = some []
  /-- a pushed reply is that of an `AddReply` to this comment, with its author, its text and
  a reading of its clock; -/
  byRequest : ∀ id tid r, (tid, r) ∈ pushes id cfg.trace →
    ∃ (request : HttpRequest) (oid : Oid) (author text : String) (createdAt : Int),
      requests tid = .addReply request ∧
      Oid.ofString (request.getPathArg "commentId") = .ok oid ∧ id = .oid oid ∧
      BodyHas u request author text ∧ ⟨.systemNow, createdAt⟩ ∈ own perform tid cfg.trace ∧
      r = replyToBson ⟨author, text, createdAt⟩
  /-- no request pushes twice; -/
  once : ∀ id, ((pushes id cfg.trace).map Prod.fst).Nodup
  /-- a successful update of a comment that is there does push; -/
  taken : ∀ e ∈ cfg.trace, ∀ oid update n,
    e.seen perform = ⟨.updateOne (idFilter oid) update, .ok n⟩ →
    (∃ d ∈ e.before.comments.docs, d.id = .oid oid) → (pushed? (.oid oid) e).isSome
  /-- and what pushes nothing on a comment leaves it alone. -/
  alone : ∀ e ∈ cfg.trace, ∀ d ∈ e.before.comments.docs, pushed? d.id e = none →
    d ∈ (e.after perform).comments.docs

section Law

variable {u : Userver} {w : World} {requests : ℕ → Request} {sched : List (ℕ × Choice)}

theorem run_writes :
    Config.Contracts perform (fun tid => Writes u (requests tid)) (fun _ _ _ => True)
      (fun _ _ _ => True) (runService u w requests sched) :=
  Config.run_obeys perform (fun tid => writesOnly_serve u (requests tid)) sched

/-- The request and the history behind an update. -/
theorem update_of_event {i : ℕ} {e : ServiceEvent} {f : Filter} {update : Update}
    (hi : (runService u w requests sched).trace[i]? = some e) (hc : e.call = .updateOne f update) :
    ∃ request, requests e.tid = .addReply request ∧
      Writes u (.addReply request) (own perform e.tid
        ((runService u w requests sched).trace.take i)) (.updateOne f update) := by
  have hwrites := run_writes.calls i e hi
  rw [hc] at hwrites
  cases hr : requests e.tid with
  | addReply request =>
      rw [hr] at hwrites
      exact ⟨request, rfl, hwrites⟩
  | _ =>
      rw [hr] at hwrites
      exact absurd hwrites (by simp [Writes])

/-- The request behind an insert. -/
theorem insert_of_event {e : ServiceEvent} {doc : List (String × Bson)}
    (he : e ∈ (runService u w requests sched).trace) (hc : e.call = .insertOne doc) :
    ∃ (request : HttpRequest) (userId taskId : Int) (author text : String)
      (draws : ℕ → Fin 16) (now : Int),
      requests e.tid = .addComment request userId ∧ BodyHas u request author text ∧
      doc = commentToBson
        { id := generateCommentId draws, taskId := taskId, author := author
          authorId := userId, text := text, createdAt := now, updatedAt := none
          replies := [] } := by
  obtain ⟨i, hi⟩ := List.mem_iff_getElem?.mp he
  have hwrites := run_writes.calls i e hi
  rw [hc] at hwrites
  cases hr : requests e.tid with
  | addComment request userId =>
      rw [hr] at hwrites
      obtain ⟨taskId, author, text, draws, now, hbody, rfl⟩ := hwrites
      exact ⟨request, userId, taskId, author, text, draws, now, rfl, hbody, rfl⟩
  | _ =>
      rw [hr] at hwrites
      exact absurd hwrites (by simp [Writes])

theorem run_change {e : ServiceEvent} (he : e ∈ (runService u w requests sched).trace) :
    Change e :=
  change_of_event fun _ _ hc => CommentIdentity.replyUpdate_of_event he hc

/-- A push is a successful update. -/
theorem pushed?_eq_some {id : Bson} {e : ServiceEvent} {p : ℕ × Bson} (h : pushed? id e = some p) :
    ∃ f update n, e.seen perform = ⟨.updateOne f update, .ok (n + 1)⟩ ∧
      f.value.equals id = true ∧ p = (e.tid, update.push.2) := by
  unfold pushed? at h
  split at h
  · rename_i f update n hseen
    split at h
    · rename_i hfilter
      exact ⟨f, update, n, hseen, hfilter.2, (Option.some.inj h).symm⟩
    · exact absurd h (by simp)
  · exact absurd h (by simp)

/-- An update that succeeds with the comment there has found it. -/
theorem isSome_pushed? {e : ServiceEvent} {oid : Oid} {reply : Reply} {now : Int} {n : ℕ}
    (hseen : e.seen perform = ⟨.updateOne (idFilter oid) (replyUpdate reply now), .ok n⟩)
    (hexists : ∃ d ∈ e.before.comments.docs, d.id = .oid oid) :
    (pushed? (.oid oid) e).isSome := by
  obtain ⟨d, hd, hid⟩ := hexists
  obtain ⟨m, rfl⟩ : ∃ m, n = m + 1 := by
    obtain ⟨tid, c, ch, before⟩ := e
    obtain rfl : c = _ := congrArg Sigma.fst hseen
    have hanswer : (perform (.updateOne (idFilter oid) (replyUpdate reply now)) ch before).2 =
        .ok n := by
      simpa [Event.seen, Event.resp] using hseen
    rcases updateOne_cases ch before (idFilter oid) (replyUpdate reply now) with
      ⟨x, _, heq⟩ | ⟨comments, n', _, hok, heq⟩
    · rw [heq] at hanswer
      exact absurd hanswer (by simp)
    · rw [heq] at hanswer
      obtain rfl := Except.ok.inj hanswer
      rcases updateReply_present reply now hd hid with ⟨_, _, _, _, _, _, _, hnew⟩ | ⟨_, x, herr⟩
      · rw [hnew] at hok
        exact ⟨0, (Prod.mk.inj (Except.ok.inj hok)).2.symm⟩
      · rw [herr] at hok
        exact absurd hok (by simp)
  have hpushed : pushed? (.oid oid) e = some (e.tid, replyToBson reply) := by
    rw [pushed?, hseen]
    exact if_pos ⟨rfl, equals_oid_iff.mpr rfl⟩
  rw [hpushed]
  rfl

/-- A thread updates once. -/
theorem update_unique {i j : ℕ} {e e' : ServiceEvent} {f f' : Filter} {update update' : Update}
    (hi : (runService u w requests sched).trace[i]? = some e)
    (hj : (runService u w requests sched).trace[j]? = some e') (htid : e.tid = e'.tid)
    (hc : e.call = .updateOne f update) (hc' : e'.call = .updateOne f' update') : i = j := by
  obtain ⟨_, _, _, _, _, _, _, _, _, _, hown, _⟩ := update_of_event hi hc
  obtain ⟨_, _, _, _, _, _, _, _, _, _, hown', _⟩ := update_of_event hj hc'
  refine eq_of_own_length perform hi hj htid rfl ?_
  rw [htid] at hown
  rw [hown, hown']
  rfl

/-- An inserted comment has no replies yet. -/
theorem replies?_of_inserted {e : ServiceEvent} {d : Document}
    (he : e ∈ (runService u w requests sched).trace) (h : Inserted e d) :
    replies? d = some [] := by
  obtain ⟨doc, hseen, rfl⟩ := h
  obtain ⟨_, _, _, _, _, _, _, _, _, rfl⟩ := insert_of_event he (congrArg Sigma.fst hseen)
  rfl

theorem run_conserved :
    Conserved w (runService u w requests sched).trace
      (runService u w requests sched).world.comments := by
  rw [runService_world]
  exact conserved_trace runService_chained fun e he => run_change he

/-- A pushed reply is that of an `AddReply` to the comment. -/
theorem request_of_push {id : Bson} {tid : ℕ} {r : Bson}
    (h : (tid, r) ∈ pushes id (runService u w requests sched).trace) :
    ∃ (request : HttpRequest) (oid : Oid) (author text : String) (createdAt : Int),
      requests tid = .addReply request ∧
      Oid.ofString (request.getPathArg "commentId") = .ok oid ∧ id = .oid oid ∧
      BodyHas u request author text ∧
      ⟨.systemNow, createdAt⟩ ∈ own perform tid (runService u w requests sched).trace ∧
      r = replyToBson ⟨author, text, createdAt⟩ := by
  obtain ⟨e, he, hpushed⟩ := List.mem_filterMap.mp h
  obtain ⟨f, update, n, hseen, hfilter, hpair⟩ := pushed?_eq_some hpushed
  obtain ⟨rfl, rfl⟩ := Prod.mk.inj hpair
  obtain ⟨i, hi⟩ := List.mem_iff_getElem?.mp he
  obtain ⟨request, hr, oid, author, text, createdAt, now, found, hoid, hbody, hown, rfl, rfl⟩ :=
    update_of_event hi (congrArg Sigma.fst hseen)
  -- the clock was read before the update
  have hread : ⟨.systemNow, createdAt⟩ ∈ own perform e.tid
      ((runService u w requests sched).trace.take i) := by
    rw [hown]
    simp
  obtain ⟨k, e', _, hk, htid, hseen'⟩ := (mem_own_take perform).mp hread
  exact ⟨request, oid, author, text, createdAt, hr, hoid, equals_oid_iff.mp hfilter, hbody,
    (mem_own perform).mpr ⟨k, e', hk, htid, hseen'⟩, rfl⟩

/-- No thread pushes twice. -/
theorem nodup_pushes (id : Bson) :
    ((pushes id (runService u w requests sched).trace).map Prod.fst).Nodup := by
  rw [pushes, List.map_filterMap, List.Nodup, List.pairwise_filterMap,
    List.pairwise_iff_getElem]
  intro i j hi hj hij tid htid tid' htid' heq
  obtain ⟨p, hp, rfl⟩ := Option.map_eq_some_iff.mp htid
  obtain ⟨p', hp', rfl⟩ := Option.map_eq_some_iff.mp htid'
  obtain ⟨f, update, n, hseen, _, rfl⟩ := pushed?_eq_some hp
  obtain ⟨f', update', n', hseen', _, rfl⟩ := pushed?_eq_some hp'
  have hsame := update_unique (List.getElem?_eq_getElem hi) (List.getElem?_eq_getElem hj) heq
    (congrArg Sigma.fst hseen) (congrArg Sigma.fst hseen')
  omega

/-- A call that pushes nothing on a comment leaves it alone. -/
theorem Change.leaves {e : ServiceEvent} (h : Change e) {d : Document}
    (hd : d ∈ e.before.comments.docs) (hquiet : pushed? d.id e = none) :
    d ∈ (e.after perform).comments.docs := by
  cases h with
  | same hdocs _ _ =>
      rw [hdocs]
      exact hd
  | insert d' _ _ hdocs _ =>
      rw [hdocs]
      exact List.mem_append_left _ hd
  | push reply now pre d₀ d' post hbefore hdocs hext hpushed _ _ =>
      rw [hbefore] at hd
      rw [hdocs]
      rcases mem_replaced d' hd with rfl | hstays
      · rw [hquiet] at hpushed
        exact absurd hpushed (by simp)
      · exact hstays

/-- **Replies are neither lost nor duplicated.** -/
theorem replies_conserved : RepliesConserved u w requests (runService u w requests sched) where
  conserved := run_conserved
  begins := by
    intro e he d
    exact replies?_of_inserted he
  byRequest := by
    intro id tid r
    exact request_of_push
  once := nodup_pushes
  taken := by
    intro e he oid update n hseen hexists
    obtain ⟨_, reply, now, _, rfl⟩ :=
      CommentIdentity.replyUpdate_of_event he (congrArg Sigma.fst hseen)
    exact isSome_pushed? hseen hexists
  alone := by
    intro e he d
    exact (run_change he).leaves

end Law

end MyService.Storage.Replies
