import MyService.Event.EventConsumer

/-!
# The processing time

`GetCurrentTimestampISO` hands its format to `Timestring` as the time zone. There is
no such zone, so the call throws, `StoreEvent` logs it, and no message of any batch
gets a document.
-/

namespace MyService.Event.EventConsumer

open Userver Chrono

/-- The `processed_at` of a document. -/
def processedAt (doc : List (String × Bson)) : Option String :=
  match doc.lookup "processed_at" with
  | some (.string text) => some text
  | _ => none

/-- The documents are those of the messages, each with the time of its processing. -/
structure Stamped (u : Userver) (batch : List (Message × StoreEnv))
    (docs : List (List (String × Bson))) : Prop where
  each : List.Forall₂ (fun d doc => ∃ e, readEvent u d.1 = .ok e ∧ Records u e doc ∧
    processedAt doc = some (isoSeconds d.2.now)) batch docs
  ordered : (batch.map fun d => d.2.now).Pairwise (· ≤ ·) →
    (docs.filterMap processedAt).Pairwise (· ≤ ·)
  distinct : ∀ (i j : ℕ) d d' doc doc', batch[i]? = some d → batch[j]? = some d' →
    docs[i]? = some doc → docs[j]? = some doc' → d.2.now + ticksPerSecond < d'.2.now →
      processedAt doc ≠ processedAt doc'

/-- Every message of the batch has its document in `raw_events`, and nothing else is
new. -/
def RecordsProcessing (u : Userver) (batch : List (Message × StoreEnv)) : Prop :=
  ∀ db stored, (processBatch u batch).run db = (.ok (), stored) →
    ∃ docs, stored = db.appended "raw_events" docs ∧ Stamped u batch docs

/-- The delivery of an accepted message with an object payload, whose BSON conversion
and insert succeed. -/
structure Recordable (u : Userver) where
  delivery : Message × StoreEnv
  accepted : ∃ e members bson, readEvent u delivery.1 = .ok e ∧
    e.payload = some (.object members) ∧
    u.fromJsonString (u.toString (.object members)) = .ok bson
  conversion : delivery.2.conversionFault = none
  insert : delivery.2.insertFault = none

/-- `Timestring` throws for every zone but the installed ones. -/
def ThrowsUnknown (zones : Set String) (timestring : Int → String → Except Exn String) : Prop :=
  ∀ tp zone, zone ∉ zones → ∃ e, timestring tp zone = .error e

section Zones

variable {u : Userver} {zones : Set String}

theorem stores_unknownZone {delivery : Message × StoreEnv}
    (htimestring : ThrowsUnknown zones delivery.2.timestring) (hzone : "Y-m-dTH:M:SZ" ∉ zones) :
    stores u delivery = none := by
  obtain ⟨x, herror⟩ := htimestring delivery.2.now _ hzone
  have hnone : reachesInsert u delivery = none := by
    rw [Option.eq_none_iff_forall_not_mem]
    intro doc hdoc
    obtain ⟨e, _, hbuilt⟩ := reachesInsert_some.mp hdoc
    obtain ⟨_, _, text, _, _, hformat, _⟩ := builtDoc_ok.mp hbuilt
    rw [getCurrentTimestampISO, herror] at hformat
    exact absurd hformat (by simp)
  rw [stores, hnone, ite_self]

/-- A batch stores nothing, whatever its messages. -/
theorem run_processBatch_unknownZone {batch : List (Message × StoreEnv)}
    (htimestring : ∀ d ∈ batch, ThrowsUnknown zones d.2.timestring)
    (hzone : "Y-m-dTH:M:SZ" ∉ zones) (db : Collections) :
    (processBatch u batch).run db = (.ok (), db) := by
  have hnone : batch.filterMap (stores u) = [] := by
    rw [List.filterMap_eq_nil_iff]
    intro d hd
    exact stores_unknownZone (htimestring d hd) hzone
  rw [run_processBatch, hnone, Collections.appended_nil]

theorem eq_nil_of_recordsProcessing {batch : List (Message × StoreEnv)}
    (htimestring : ∀ d ∈ batch, ThrowsUnknown zones d.2.timestring)
    (hzone : "Y-m-dTH:M:SZ" ∉ zones) (h : RecordsProcessing u batch) : batch = [] := by
  obtain ⟨docs, hstored, hstamped⟩ :=
    h _ _ (run_processBatch_unknownZone htimestring hzone fun _ => [])
  have hempty : docs = [] := by
    have hraw := congrFun hstored "raw_events"
    rw [Collections.appended_self, List.nil_append] at hraw
    exact hraw.symm
  have heach := hstamped.each
  rw [hempty] at heach
  exact List.forall₂_nil_right_iff.mp heach

/-- **No message is recorded.** Accepted messages all get their documents only where
there are none. -/
theorem recordsProcessing_iff {batch : List (Recordable u)}
    (htimestring : ∀ r ∈ batch, ThrowsUnknown zones r.delivery.2.timestring)
    (hzone : "Y-m-dTH:M:SZ" ∉ zones) :
    RecordsProcessing u (batch.map Recordable.delivery) ↔ batch = [] := by
  constructor
  · intro h
    refine List.map_eq_nil_iff.mp (eq_nil_of_recordsProcessing ?_ hzone h)
    intro d hd
    obtain ⟨r, hr, rfl⟩ := List.mem_map.mp hd
    exact htimestring r hr
  · rintro rfl db stored hrun
    refine ⟨[], ?_, .nil, fun _ => .nil, ?_⟩
    · rw [run_processBatch] at hrun
      exact (Prod.mk.inj hrun).2.symm
    · intro i j d d' doc doc' hi
      exact absurd hi (by simp)

end Zones

/-! The sample message, with one time zone installed. -/

namespace Sample

def utc : Set String := {"UTC"}

def utcEnv : StoreEnv := { env with timestring := timestringIn "UTC" }

theorem utcEnv_throws : ThrowsUnknown utc utcEnv.timestring := by
  intro tp zone hzone
  have hne : zone ≠ "UTC" := fun heq => hzone (Set.mem_singleton_iff.mpr heq)
  exact ⟨.invalidArgument, if_neg hne⟩

theorem format_notMem : "Y-m-dTH:M:SZ" ∉ utc := by
  rw [utc, Set.mem_singleton_iff]
  decide

def recordable : Recordable userver :=
  { delivery := (message, utcEnv)
    accepted := ⟨event, _, bson, readEvent_message, rfl, by simp [userver]⟩
    conversion := rfl
    insert := rfl }

end Sample

theorem recordsProcessing_iff_sample :
    RecordsProcessing Sample.userver ([Sample.recordable].map Recordable.delivery) ↔
      [Sample.recordable] = [] := by
  refine recordsProcessing_iff (fun r hr => ?_) Sample.format_notMem
  rw [List.mem_singleton.mp hr]
  exact Sample.utcEnv_throws

/-- The batch of one accepted message. -/
theorem recordsProcessing_fails :
    ¬RecordsProcessing Sample.userver [(Sample.message, Sample.utcEnv)] := by
  intro h
  have hnil := eq_nil_of_recordsProcessing (fun d hd => ?_) Sample.format_notMem h
  · exact absurd hnil (by simp)
  · rw [List.mem_singleton.mp hd]
    exact Sample.utcEnv_throws

end MyService.Event.EventConsumer
