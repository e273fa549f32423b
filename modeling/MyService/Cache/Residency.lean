import MyService.Cache.Isolation
import MyService.Handlers.Footprint

/-!
# What stays in memory

The service has no sweeper: an entry of the cache goes when a write drops its key or a read
finds it expired, and the window of an address never goes. After every run the keys of both
maps are a function of its calls.
-/

namespace MyService.Cache.Residency

open Framework Userver Handlers Storage Chrono RateLimit FreshReads

/-- The event puts an entry under the key. -/
def Sets (key : String) (e : ServiceEvent) : Prop :=
  ∃ value ttl, e.call = .cacheSet key value ttl

/-- The event leaves no entry under the key: it drops the key, or it misses. -/
def Forgets (key : String) (e : ServiceEvent) : Prop :=
  DropsKey key e.call ∨ e.seen perform = ⟨.cacheGet key, none⟩

/-! ## One call -/

theorem mem_cache_get (c : CacheManager) (key key' : String) (now : Int) :
    key ∈ (c.get key' now).2.cache ↔ key ∈ c.cache ∧ ¬(key' = key ∧ (c.get key' now).1 = none) := by
  unfold CacheManager.get
  cases hlookup : c.cache.lookup key' with
  | none =>
      refine ⟨fun hmem => ⟨hmem, ?_⟩, fun h => h.1⟩
      rintro ⟨rfl, _⟩
      exact AList.lookup_eq_none.mp hlookup hmem
  | some entry =>
      by_cases hexpired : now > entry.expiresAt
      · simp only [if_pos hexpired, AList.mem_erase, and_true]
        rw [and_comm, ne_comm]
      · simp [if_neg hexpired]

theorem mem_cache_invalidateByPrefix (c : CacheManager) (key pfx : String) :
    key ∈ (c.invalidateByPrefix pfx).cache ↔
      key ∈ c.cache ∧ ¬CacheManager.hasPrefix pfx key = true := by
  rw [← AList.lookup_isSome, CacheManager.invalidateByPrefix, CacheManager.lookup_eraseMatching,
    ← AList.lookup_isSome]
  by_cases hpfx : CacheManager.hasPrefix pfx key = true
  · by_cases hkey : key ∈ c.cache.keys
    · simp [hpfx, hkey]
    · have hnone : c.cache.lookup key = none := AList.lookup_eq_none.mpr hkey
      simp [hpfx, hnone]
  · simp [hpfx]

theorem mem_cache_after (key : String) (e : ServiceEvent) :
    key ∈ (e.after perform).cache.cache ↔
      Sets key e ∨ key ∈ e.before.cache.cache ∧ ¬Forgets key e := by
  obtain ⟨tid, c, ch, w⟩ := e
  rw [Event.after, perform_cache]
  cases c with
  | cacheGet key' =>
      show key ∈ (w.cache.get key' ch.steady).2.cache ↔ _
      rw [mem_cache_get]
      have hseen : (⟨tid, .cacheGet key', ch, w⟩ : ServiceEvent).seen perform =
          ⟨.cacheGet key, none⟩ ↔ key' = key ∧ (w.cache.get key' ch.steady).1 = none := by
        constructor
        · intro heq
          obtain rfl := Call.cacheGet.inj (congrArg Sigma.fst heq)
          exact ⟨rfl, eq_of_heq (Sigma.mk.inj heq).2⟩
        · rintro ⟨rfl, hnone⟩
          exact congrArg (Sigma.mk (Call.cacheGet key')) hnone
      simp [Sets, Forgets, DropsKey, hseen]
  | cacheSet key' value ttl =>
      show key ∈ (w.cache.set key' value ttl ch.steady).cache ↔ _
      simp [CacheManager.set, Sets, Forgets, DropsKey, Event.seen, eq_comm]
  | cacheInvalidate key' =>
      show key ∈ (w.cache.invalidate key').cache ↔ _
      simp [CacheManager.invalidate, Sets, Forgets, DropsKey, Event.seen, and_comm, eq_comm]
  | cacheInvalidateByPrefix pfx =>
      show key ∈ (w.cache.invalidateByPrefix pfx).cache ↔ _
      rw [mem_cache_invalidateByPrefix]
      simp [Sets, Forgets, DropsKey, Event.seen]
  | _ => simp [cacheCall, Sets, Forgets, DropsKey, Event.seen]

theorem mem_windows_after (address : String) (e : ServiceEvent) :
    address ∈ (e.after perform).limiter.windows ↔
      e.call = .tryAcquire address ∨ address ∈ e.before.limiter.windows := by
  obtain ⟨tid, c, ch, w⟩ := e
  rw [Event.after, perform_limiter]
  cases c with
  | tryAcquire key =>
      show address ∈ (w.limiter.tryAcquire key ch.steady ch.stamp).2.windows ↔ _
      rcases w.limiter.tryAcquire_cases key ch.steady ch.stamp with ⟨_, heq⟩ | ⟨_, heq⟩
      · simp [heq, SlidingWindowLimiter.withQueue, eq_comm]
      · simp [heq, SlidingWindowLimiter.withQueue, eq_comm]
  | getInfo key =>
      show address ∈ (w.limiter.getInfo key ch.steady).2.windows ↔ _
      unfold SlidingWindowLimiter.getInfo
      cases hlookup : w.limiter.windows.lookup key with
      | none => simp
      | some state =>
          have hmem : key ∈ w.limiter.windows := AList.lookup_isSome.mp (by rw [hlookup]; rfl)
          simp only [AList.mem_insert, reduceCtorEq, false_or, or_iff_right_iff_imp]
          rintro rfl
          exact hmem
  | _ => simp [limiterCall]

/-- No window holds more stamps than the limiter grants. -/
def Narrow (w : World) : Prop :=
  w.limiter.maxRequests = 5 ∧ ∀ address, (w.limiter.queue address).length ≤ 5

theorem narrow_after {e : ServiceEvent} (h : Narrow e.before) : Narrow (e.after perform) := by
  obtain ⟨tid, c, ch, w⟩ := e
  obtain ⟨hmax, hlength⟩ := h
  have hclean : ∀ key now, (w.limiter.cleaned key now).length ≤ 5 := fun key now =>
    (List.dropWhile_sublist _).length_le.trans (hlength key)
  unfold Narrow
  rw [Event.after, perform_limiter]
  cases c with
  | tryAcquire key =>
      refine ⟨(SlidingWindowLimiter.tryAcquire_maxRequests _ _ _ _).trans hmax, fun address => ?_⟩
      show ((w.limiter.tryAcquire key ch.steady ch.stamp).2.queue address).length ≤ 5
      rw [SlidingWindowLimiter.tryAcquire_queue]
      split
      · split
        · rename_i hgranted
          have hroom := (SlidingWindowLimiter.tryAcquire_fst _ _ _ _).mp hgranted
          rw [hmax, show toSizeT 5 = 5 by decide] at hroom
          rw [List.length_append, List.length_singleton]
          omega
        · exact hclean key _
      · exact hlength address
  | getInfo key =>
      refine ⟨(SlidingWindowLimiter.getInfo_maxRequests _ _ _).trans hmax, fun address => ?_⟩
      show ((w.limiter.getInfo key ch.steady).2.queue address).length ≤ 5
      rw [SlidingWindowLimiter.getInfo_queue]
      split
      · exact hclean key _
      · exact hlength address
  | _ => exact ⟨hmax, hlength⟩

/-! ## Runs -/

section Runs

variable {u : Userver} {db : Postgres.Database} {comments : Collection}
  {topics : List KafkaRecord} {requests : ℕ → Request} {sched : List (ℕ × Choice)}

/-- A window is there from the first login of its address on. -/
theorem run_windows (address : String) :
    address ∈ (runService u (World.boot db comments topics) requests sched).world.limiter.windows ↔
      ∃ e ∈ (runService u (World.boot db comments topics) requests sched).trace,
        e.call = .tryAcquire address := by
  have hstep : ∀ e ∈ (runService u (World.boot db comments topics) requests sched).trace,
      address ∈ (e.after perform).limiter.windows ↔
        e.call = .tryAcquire address ∨ address ∈ e.before.limiter.windows ∧ ¬False := by
    intro e _
    rw [mem_windows_after, not_false_iff, and_true]
  rw [runService_world, Config.latched_world perform runService_chained
    (P := fun w => address ∈ w.limiter.windows) hstep List.not_mem_nil]
  constructor
  · rintro ⟨i, e, hi, hcall, _⟩
    exact ⟨e, List.mem_of_getElem? hi, hcall⟩
  · rintro ⟨e, he, hcall⟩
    obtain ⟨i, hi⟩ := List.mem_iff_getElem?.mp he
    exact ⟨i, e, hi, hcall, fun _ _ _ _ hfalse => hfalse⟩

theorem run_narrow :
    Narrow (runService u (World.boot db comments topics) requests sched).world := by
  rw [runService_world]
  exact Config.stable_world perform runService_chained (P := Narrow) (fun _ _ => narrow_after)
    ⟨rfl, fun _ => Nat.zero_le _⟩

/-- An entry is there until it is dropped or missed. -/
theorem run_entries (key : String) :
    key ∈ (runService u (World.boot db comments topics) requests sched).world.cache.cache ↔
      ∃ (i : ℕ) (e : ServiceEvent),
        (runService u (World.boot db comments topics) requests sched).trace[i]? = some e ∧
        Sets key e ∧ ∀ (j : ℕ) (e' : ServiceEvent),
          (runService u (World.boot db comments topics) requests sched).trace[j]? = some e' →
            i < j → ¬Forgets key e' := by
  rw [runService_world]
  exact Config.latched_world perform runService_chained (P := fun w => key ∈ w.cache.cache)
    (fun e _ => mem_cache_after key e) List.not_mem_nil

end Runs

/-- What a run has left in the two maps. -/
structure Residents (requests : ℕ → Request) (cfg : ServiceConfig) : Prop where
  windows : ∀ address, address ∈ cfg.world.limiter.windows ↔
    ∃ e ∈ cfg.trace, e.call = .tryAcquire address
  narrow : ∀ address, (cfg.world.limiter.queue address).length ≤ 5
  entries : ∀ key, key ∈ cfg.world.cache.cache ↔
    ∃ (i : ℕ) (e : ServiceEvent), cfg.trace[i]? = some e ∧ Sets key e ∧
      ∀ (j : ℕ) (e' : ServiceEvent), cfg.trace[j]? = some e' → i < j → ¬Forgets key e'
  logins : ∀ address ∈ cfg.world.limiter.windows,
    ∃ tid request, requests tid = .login request ∧ request.remoteAddress = address
  readers : ∀ key ∈ cfg.world.cache.cache, ∃ tid r, Reads (requests tid) r ∧ key = Resource.key r

/-- **Residency.** After every run from boot the limiter has a window for exactly the
addresses whose logins it was asked about, of at most five stamps each, and the cache an
entry for exactly the keys that were set and since then neither dropped nor missed. -/
theorem run_residents (u : Userver) (db : Postgres.Database) (comments : Collection)
    (topics : List KafkaRecord) (requests : ℕ → Request) (sched : List (ℕ × Choice)) :
    Residents requests (runService u (World.boot db comments topics) requests sched) where
  windows := run_windows
  narrow := run_narrow.2
  entries := run_entries
  logins := by
    intro address hmem
    obtain ⟨e, he, hcall⟩ := (run_windows address).mp hmem
    have hreaches := Footprint.reaches_of_mem he
    rw [hcall] at hreaches
    cases hrequest : requests e.tid with
    | login request =>
        rw [hrequest] at hreaches
        exact ⟨e.tid, request, hrequest, hreaches.symm⟩
    | _ =>
        rw [hrequest] at hreaches
        exact hreaches.elim
  readers := by
    intro key hmem
    obtain ⟨i, e, hi, ⟨value, ttl, hcall⟩, _⟩ := (run_entries key).mp hmem
    have huses := usesCache_of_getElem hi
    rw [hcall] at huses
    obtain ⟨r, _, hreads, hkey, _⟩ := huses
    exact ⟨e.tid, r, hreads, hkey⟩

end MyService.Cache.Residency
