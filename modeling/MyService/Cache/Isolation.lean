import MyService.Cache.FreshReads

/-!
# Isolation and staleness of the cached lists

A body that a reader returns shows the reader's own list, as the database had it at
one moment: when the reader itself read, or when another reader of the same list did,
whose set the reader's `Get` still found alive. The keys of the lists are distinct and
only readers of a list set its key, so nothing else can be found under it.
-/

namespace MyService.Cache.Isolation

open Framework Userver Handlers Handlers.Calls Storage Chrono FreshReads

/-- The list as the database has it: the comments with this `task_id`, or the newest
100 projects. -/
def current (w : World) : (r : Resource) → r.query.Answer
  | .comments taskId => .ok (w.comments.find (taskFilter taskId))
  | .projects =>
      .ok (((w.db.projects.rows.insertionSort fun a b =>
        Postgres.Database.createdAfter a b).take 100).map fun r =>
          Postgres.pick ["id", "name", "description", "key", "owner_id", "created_at"] r.columns)

/-- The event is a query of the list, and the body renders the list that the database
had then. -/
def Shows (u : Userver) (r : Resource) (e : ServiceEvent) (body : String) : Prop :=
  e.call = r.query ∧ r.render u (current e.before r) = .ok body

/-- A query fails and then renders to nothing, or answers with the list; it changes
nothing. -/
theorem query_cases (u : Userver) (r : Resource) (ch : Choice) (w : World) :
    (perform r.query ch w).1 = w ∧
      ((∃ e, ch.fault = some e ∧ r.render u (perform r.query ch w).2 = .error e) ∨
        ch.fault = none ∧ (perform r.query ch w).2 = current w r) := by
  cases r with
  | comments taskId =>
      rcases find_cases ch w (taskFilter taskId) with ⟨e, hfault, heq⟩ | ⟨hfault, heq⟩
      · rw [show perform (Resource.comments taskId).query ch w = _ from heq]
        exact ⟨rfl, Or.inl ⟨e, hfault, rfl⟩⟩
      · rw [show perform (Resource.comments taskId).query ch w = _ from heq]
        exact ⟨rfl, Or.inr ⟨hfault, rfl⟩⟩
  | projects =>
      rcases execute_cases ch w (.selectProjectsByCreation
          ["id", "name", "description", "key", "owner_id", "created_at"] 100) with
        ⟨e, he, heq⟩ | ⟨db, rows, hfault, hact, heq⟩
      · rcases he with hfault | ⟨_, hact⟩
        · rw [show perform Resource.projects.query ch w = _ from heq]
          exact ⟨rfl, Or.inl ⟨e, hfault, rfl⟩⟩
        · exact absurd hact (by simp [Postgres.Database.execute, pure, Except.pure])
      · obtain ⟨rfl, rfl⟩ := Prod.mk.inj (Except.ok.inj hact)
        rw [show perform Resource.projects.query ch w = _ from heq]
        exact ⟨rfl, Or.inr ⟨hfault, rfl⟩⟩

/-- What was rendered from the answer of a query shows the list of that moment. -/
theorem shows_of_renders {u : Userver} {r : Resource} {e : ServiceEvent} {body : String}
    (h : Renders u r e body) : Shows u r e body := by
  obtain ⟨answer, hseen, hrender⟩ := h
  obtain ⟨tid, c, ch, before⟩ := e
  obtain rfl : c = r.query := congrArg Sigma.fst hseen
  have hanswer : (perform r.query ch before).2 = answer := by
    simpa [Event.seen, Event.resp] using hseen
  rw [← hanswer] at hrender
  refine ⟨rfl, ?_⟩
  rcases (query_cases u r ch before).2 with ⟨x, _, herror⟩ | ⟨_, hok⟩
  · rw [herror] at hrender
    exact absurd hrender (by simp)
  · rwa [hok] at hrender

section Runs

variable {u : Userver} {w : World} {requests : ℕ → Request} {sched : List (ℕ × Choice)}

/-- Only a reader of a list sets its key. -/
theorem reads_of_set {s : ℕ} {e : ServiceEvent} {r : Resource} {body : String} {ttl : Int}
    (hs : (runService u w requests sched).trace[s]? = some e)
    (hset : e.call = .cacheSet r.key body ttl) : Reads (requests e.tid) r := by
  have huses := usesCache_of_getElem hs
  rw [hset] at huses
  obtain ⟨r', _, hreads, hkey, _⟩ := huses
  rw [Resource.key_injective hkey]
  exact hreads

/-- The body shows the list as another reader of it read it from the database, and that
reader's set came at most the list's lifetime before the `Get` that found it. -/
def ShowsCached (u : Userver) (requests : ℕ → Request) (tr : List ServiceEvent) (r : Resource)
    (reader : ℕ) (body : String) : Prop :=
  ∃ (i s g : ℕ) (read set get : ServiceEvent), i < s ∧ s < g ∧
    tr[i]? = some read ∧ Shows u r read body ∧ read.tid ≠ reader ∧
    tr[s]? = some set ∧ set.tid = read.tid ∧ Reads (requests set.tid) r ∧
    set.call = .cacheSet r.key body r.ttlSeconds ∧
    tr[g]? = some get ∧ get.tid = reader ∧ get.seen perform = ⟨.cacheGet r.key, some body⟩ ∧
    get.choice.steady ≤ set.choice.steady + r.ttlSeconds * ticksPerSecond

/-- **Isolation and bounded staleness.** What a reader of a list returns shows that list,
as the reader itself read it or as another of its readers did whose set was at most the
list's lifetime old. -/
theorem cached_reads_isolated {u : Userver} {db : Postgres.Database} {comments : Collection}
    {topics : List KafkaRecord} {requests : ℕ → Request} {sched : List (ℕ × Choice)}
    {reader : ℕ} {r : Resource} {response : HttpResponse} (hreads : Reads (requests reader) r)
    (hanswered : Answered
      (runService u (World.boot db comments topics) requests sched) reader response) :
    (∃ e ∈ (runService u (World.boot db comments topics) requests sched).trace,
      e.tid = reader ∧ Shows u r e response.body) ∨
    ShowsCached u requests (runService u (World.boot db comments topics) requests sched).trace
      r reader response.body := by
  obtain ⟨g, e, hg, htid, hrenders | hhit⟩ := read_or_hit hreads hanswered
  · exact Or.inl ⟨e, List.mem_of_getElem? hg, htid, shows_of_renders hrenders⟩
  · obtain ⟨i, s, read, set, his, hsg, hi, hrenders, hs, hsetTid, hset, hlive, _⟩ :=
      origin_of_hit rfl hg hhit
    have hshows := shows_of_renders hrenders
    by_cases hown : read.tid = reader
    · exact Or.inl ⟨read, List.mem_of_getElem? hi, hown, hshows⟩
    · exact Or.inr ⟨i, s, g, read, set, e, his, hsg, hi, hshows, hown, hs, hsetTid,
        reads_of_set hs hset, hset, hg, htid, hhit, hlive⟩

end Runs

/-- Request 1 misses, reads and sets, then request 2 hits. -/
theorem cached_reads_isolated_hit :
    (∃ e ∈ (runService Sample.userver Sample.empty commentAndReads
        [(1, Sample.plain), (1, Sample.plain), (1, Sample.plain), (2, Sample.plain)]).trace,
      e.tid = 2 ∧ Shows Sample.userver (.comments 7) e "null") ∨
    ShowsCached Sample.userver commentAndReads
      (runService Sample.userver Sample.empty commentAndReads
        [(1, Sample.plain), (1, Sample.plain), (1, Sample.plain), (2, Sample.plain)]).trace
      (.comments 7) 2 "null" := by
  have hreads : Reads (commentAndReads 2) (.comments 7) := ⟨7, by decide, rfl⟩
  have hanswered : Answered (runService Sample.userver Sample.empty commentAndReads
      [(1, Sample.plain), (1, Sample.plain), (1, Sample.plain), (2, Sample.plain)]) 2
      { body := "null" } := rfl
  exact cached_reads_isolated hreads hanswered

end MyService.Cache.Isolation
