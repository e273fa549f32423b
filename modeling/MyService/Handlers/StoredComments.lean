import MyService.Handlers.Footprint
import MyService.Handlers.PathIds
import MyService.Storage.CommentStore

/-!
# The stored comments in a running service

Whatever requests run, the collection stays a store of comments: a document that the service
has written is one that it can read. No operation of `MongoStorage` then fails but by the
server, by a malformed id or by an id that is taken.
-/

namespace MyService.Handlers.StoredComments

open Framework Userver Models Storage CommentStore MongoStorage Footprint

/-- The request's user is of type `int`. -/
def TypedUser : Request → Prop
  | .addComment _ userId => IsInt userId
  | _ => True

/-- A call of a request keeps the store, and every comment in it under its id. -/
theorem refines_perform {request : Request} (htyped : TypedUser request) {c : Call}
    (hc : Reaches request c) (ch : Choice) {s : CommentStore} {w : World}
    (h : Refines s w.comments) :
    ∃ s', s.keys <+: s'.keys ∧ Refines s' (perform c ch w).1.comments := by
  by_cases hinsert : ∃ doc, c = .insertOne doc
  · obtain ⟨doc, rfl⟩ := hinsert
    cases request with
    | addComment http userId =>
        obtain ⟨comment, htask, rfl, rfl⟩ := hc
        have hstored : (Operation.insertComment comment).Typed :=
          ⟨(stoi_eq_ok.mp htask).1, htyped⟩
        have hsim := (simulates_insertComment h (fun _ => ch) hstored).2
        rw [program_insertComment, exec_query] at hsim
        refine ⟨_, ?_, hsim⟩
        simp only [step, query, environmentOf]
        cases ch.fault with
        | some e => exact List.prefix_rfl
        | none =>
            dsimp only
            split
            · rename_i s' hs'
              rw [KeyedStore.keys_insert? hs']
              exact List.prefix_append _ _
            · exact List.prefix_rfl
    | _ => exact hc.elim
  · by_cases hupdate : ∃ f update, c = .updateOne f update
    · obtain ⟨f, update, rfl⟩ := hupdate
      cases request with
      | addReply http =>
          obtain ⟨oid, reply, now, rfl, rfl⟩ := hc
          obtain ⟨comments, n, hok, hrefines⟩ := updateOne_refines h oid reply now
          rcases updateOne_cases ch w (idFilter oid) (replyUpdate reply now) with
            ⟨e, _, heq⟩ | ⟨comments', n', _, hok', heq⟩
          · rw [heq]
            exact ⟨s, List.prefix_rfl, h⟩
          · obtain ⟨rfl, rfl⟩ := Prod.mk.inj (Except.ok.inj (hok.symm.trans hok'))
            rw [heq]
            exact ⟨_, by rw [KeyedStore.keys_modify], hrefines⟩
      | _ => exact hc.elim
    · rw [perform_comments c ch w (fun doc hdoc => hinsert ⟨doc, hdoc⟩)
        fun f update heq => hupdate ⟨f, update, heq⟩]
      exact ⟨s, List.prefix_rfl, h⟩

/-- **Every reachable collection is a store of comments.** Started with one, the service only
ever leaves one; comments stay under their ids, and the operations of `MongoStorage` on it are
those of the store. -/
theorem reachable_comments_stored {u : Userver} {w : World} {requests : ℕ → Request}
    {s : CommentStore} (h : Refines s w.comments) (htyped : ∀ tid, TypedUser (requests tid))
    (sched : List (ℕ × Choice)) :
    ∃ s', s.keys <+: s'.keys ∧ Refines s' (runService u w requests sched).world.comments ∧
      ∀ op cs, op.Typed → Simulates s' (runService u w requests sched).world cs op := by
  have hstable : ∃ s', s.keys <+: s'.keys ∧
      Refines s' (runService u w requests sched).world.comments := by
    rw [runService_world]
    refine Config.stable_world perform runService_chained
      (P := fun w' => ∃ s', s.keys <+: s'.keys ∧ Refines s' w'.comments) ?_
      ⟨s, List.prefix_rfl, h⟩
    rintro e he ⟨s₁, hkeys, hrefines⟩
    obtain ⟨s₂, hkeys', hrefines'⟩ :=
      refines_perform (htyped e.tid) (reaches_of_mem he) e.choice hrefines
    exact ⟨s₂, hkeys.trans hkeys', hrefines'⟩
  obtain ⟨s', hkeys, hrefines⟩ := hstable
  exact ⟨s', hkeys, hrefines, fun op cs hop => simulates hrefines cs hop⟩

/-- Two comments and a reading request at once, started with no comments. -/
def posts (tid : ℕ) : Request :=
  if tid = 2 then .getComments (Sample.http "" "taskId" "7")
  else .addComment (Sample.http Sample.body "taskId" "7") 1

/-- They take turns; MongoDB gives each its own id. -/
def turns : List (ℕ × Choice) :=
  (List.range 30).map fun i => (i % 3, { oid := Sample.idOf (i % 3) })

def posted : ServiceConfig := runService Sample.userver Sample.empty posts turns

theorem reachable_comments_stored_posts :
    posted.world.comments.docs.map Document.id =
        [.oid (Sample.idOf 0), .oid (Sample.idOf 1)] ∧
      ∃ s', Refines s' posted.world.comments ∧
        ∀ cs, Simulates s' posted.world cs (.getCommentsByTask 7) := by
  have hempty : Refines KeyedStore.empty Sample.empty.comments := KeyedStore.represents_empty
  have htyped : ∀ tid, TypedUser (posts tid) := by
    intro tid
    unfold posts
    split
    · trivial
    · exact ⟨by decide, by decide⟩
  obtain ⟨s', _, hrefines, hsim⟩ :=
    reachable_comments_stored (u := Sample.userver) hempty htyped turns
  exact ⟨rfl, s', hrefines, fun cs => hsim _ cs trivial⟩

end MyService.Handlers.StoredComments
