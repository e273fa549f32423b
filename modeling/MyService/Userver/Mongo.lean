import MyService.Userver.Bson
import Mathlib.Data.List.Nodup

/-!
# userver::storages::mongo

A collection is its documents in natural order, no two with the same `_id`. The
operations are the ones the service uses; each applies fully or throws and
leaves the collection as it was.
-/

namespace MyService.Userver

/-- A stored document: its `_id`, which MongoDB does not allow to be an array, and
its other fields. -/
structure Document where
  id : Bson
  fields : List (String × Bson)
  id_scalar : id.isArray = false := by rfl

namespace Document

/-- `operator[]`: `none` is a missing field. -/
def get? (d : Document) (key : String) : Option Bson :=
  if key = "_id" then some d.id else d.fields.lookup key

def hasId (o : Oid) (d : Document) : Bool :=
  match d.id with
  | .oid o' => o' = o
  | _ => false

@[simp] theorem hasId_iff {o : Oid} {d : Document} : d.hasId o = true ↔ d.id = .oid o := by
  cases h : d.id <;> simp [hasId, h]

end Document

/-- `MakeDoc(field, value)` as a query. -/
structure Filter where
  field : String
  value : Bson

def Filter.matches (f : Filter) (d : Document) : Bool :=
  f.value.matchedBy (d.get? f.field)

@[simp] theorem Filter.matches_oid (o : Oid) (d : Document) :
    Filter.matches ⟨"_id", .oid o⟩ d = d.hasId o := by
  unfold Filter.matches Document.hasId
  cases hd : d.id with
  | oid o' => simp [Document.get?, hd, Bson.matchedBy, Bson.equals, eq_comm]
  | array items =>
      have harr := d.id_scalar
      rw [hd] at harr
      exact absurd harr (by simp [Bson.isArray])
  | _ => simp [Document.get?, hd, Bson.matchedBy, Bson.equals, Bson.number?]

/-- The two operators the service sends in one update. -/
structure Update where
  push : String × Bson
  set : String × Bson

/-- `$set` of one field: a new field goes to the end. -/
def setField (key : String) (v : Bson) : List (String × Bson) → List (String × Bson)
  | [] => [(key, v)]
  | (k, old) :: rest => if k = key then (k, v) :: rest else (k, old) :: setField key v rest

/-- `$push` onto one field, which creates the array or throws on another type. -/
def pushField (key : String) (v : Bson) (fields : List (String × Bson)) :
    Except Exn (List (String × Bson)) :=
  match fields.lookup key with
  | none => .ok (setField key (.array [v]) fields)
  | some (.array items) => .ok (setField key (.array (items ++ [v])) fields)
  | some _ => .error .writeError

def Update.apply (u : Update) (d : Document) : Except Exn Document := do
  let fields ← pushField u.push.1 u.push.2 d.fields
  pure { d with fields := setField u.set.1 u.set.2 fields }

theorem lookup_setField (key : String) (v : Bson) (fields : List (String × Bson))
    (k : String) :
    (setField key v fields).lookup k = if k = key then some v else fields.lookup k := by
  induction fields with
  | nil =>
      by_cases h : k = key
      · simp [setField, h]
      · simp [setField, h, List.lookup_cons, beq_eq_false_iff_ne.mpr h]
  | cons field rest ih =>
      obtain ⟨k', old⟩ := field
      unfold setField
      by_cases hk' : k' = key
      · subst hk'
        by_cases h : k = k'
        · simp [h]
        · simp [h, List.lookup_cons, beq_eq_false_iff_ne.mpr h]
      · rw [if_neg hk']
        by_cases h : k = k'
        · subst h
          simp [hk']
        · simp [List.lookup_cons, beq_eq_false_iff_ne.mpr h, ih]

/-- What a `$push` can do. -/
theorem pushField_cases (key : String) (v : Bson) (fields : List (String × Bson)) :
    (∃ items, (fields.lookup key = some (.array items) ∨
        fields.lookup key = none ∧ items = []) ∧
      pushField key v fields = .ok (setField key (.array (items ++ [v])) fields)) ∨
    (∃ v', fields.lookup key = some v' ∧ ∀ items, v' ≠ .array items) ∧
      pushField key v fields = .error .writeError := by
  unfold pushField
  split
  · rename_i h
    exact Or.inl ⟨[], Or.inr ⟨h, rfl⟩, rfl⟩
  · rename_i items h
    exact Or.inl ⟨items, Or.inl h, rfl⟩
  · rename_i v' harray h
    exact Or.inr ⟨⟨v', h, fun items heq => harray items heq⟩, rfl⟩

theorem Update.apply_id {u : Update} {d d' : Document} (h : u.apply d = .ok d') :
    d'.id = d.id := by
  unfold Update.apply at h
  cases hp : pushField u.push.1 u.push.2 d.fields with
  | error e =>
      rw [hp] at h
      exact absurd h (by simp [bind, Except.bind])
  | ok fields =>
      rw [hp] at h
      obtain rfl := Except.ok.inj h
      rfl

/-- Replacing one element leaves the others. -/
theorem mem_replaced {α : Type} {pre post : List α} {a x : α} (a' : α)
    (h : x ∈ pre ++ a :: post) : x = a ∨ x ∈ pre ++ a' :: post := by
  rcases List.mem_append.mp h with hpre | hrest
  · exact Or.inr (List.mem_append_left _ hpre)
  · rcases List.mem_cons.mp hrest with rfl | hpost
    · exact Or.inl rfl
    · exact Or.inr (List.mem_append_right _ (List.mem_cons_of_mem _ hpost))

/-- Update the first document that satisfies `p`; the count is the matched count. -/
def updateFirst (p : Document → Bool) (u : Update) :
    List Document → Except Exn (List Document × ℕ)
  | [] => .ok ([], 0)
  | d :: rest =>
      if p d then do
        let d' ← u.apply d
        pure (d' :: rest, 1)
      else do
        let (rest', n) ← updateFirst p u rest
        pure (d :: rest', n)

theorem updateFirst_skip {p : Document → Bool} {u : Update} {d : Document}
    {rest : List Document} (h : p d = false) :
    updateFirst p u (d :: rest) =
      (updateFirst p u rest).map fun r => (d :: r.1, r.2) := by
  rw [updateFirst, h]
  cases updateFirst p u rest <;> rfl

/-- What an update can do: nothing, one document, or throw on that document. -/
theorem updateFirst_cases (p : Document → Bool) (u : Update) (docs : List Document) :
    ((∀ d ∈ docs, p d = false) ∧ updateFirst p u docs = .ok (docs, 0)) ∨
    ∃ pre d post, docs = pre ++ d :: post ∧ (∀ d' ∈ pre, p d' = false) ∧ p d = true ∧
      ((∃ d', u.apply d = .ok d' ∧ updateFirst p u docs = .ok (pre ++ d' :: post, 1)) ∨
        ∃ e, u.apply d = .error e ∧ updateFirst p u docs = .error e) := by
  induction docs with
  | nil => exact Or.inl ⟨by simp, rfl⟩
  | cons d rest ih =>
      by_cases hp : p d = true
      · right
        refine ⟨[], d, rest, rfl, by simp, hp, ?_⟩
        cases ha : u.apply d with
        | error e => exact Or.inr ⟨e, rfl, by rw [updateFirst, if_pos hp, ha]; rfl⟩
        | ok d' => exact Or.inl ⟨d', rfl, by rw [updateFirst, if_pos hp, ha]; rfl⟩
      · have hpf : p d = false := by simpa using hp
        have hstep : updateFirst p u (d :: rest) = _ := updateFirst_skip hpf
        rcases ih with ⟨hnone, heq⟩ | ⟨pre, d₀, post, rfl, hpre, hd₀, hres⟩
        · left
          refine ⟨?_, by rw [hstep, heq]; rfl⟩
          intro d' hd'
          rcases List.mem_cons.mp hd' with rfl | hm
          · exact hpf
          · exact hnone d' hm
        · right
          refine ⟨d :: pre, d₀, post, rfl, ?_, hd₀, ?_⟩
          · intro d' hd'
            rcases List.mem_cons.mp hd' with rfl | hm
            · exact hpf
            · exact hpre d' hm
          · rcases hres with ⟨d', ha, heq⟩ | ⟨e, ha, heq⟩
            · exact Or.inl ⟨d', ha, by rw [hstep, heq]; rfl⟩
            · exact Or.inr ⟨e, ha, by rw [hstep, heq]; rfl⟩

theorem updateFirst_ids {p : Document → Bool} {u : Update} {docs docs' : List Document}
    {n : ℕ} (h : updateFirst p u docs = .ok (docs', n)) :
    docs'.map Document.id = docs.map Document.id := by
  rcases updateFirst_cases p u docs with ⟨_, heq⟩ | ⟨pre, d, post, rfl, _, _, hres⟩
  · rw [heq] at h
    rw [(Prod.mk.inj (Except.ok.inj h)).1]
  · rcases hres with ⟨d', ha, heq⟩ | ⟨e, _, heq⟩
    · rw [heq] at h
      rw [← (Prod.mk.inj (Except.ok.inj h)).1]
      simp [Update.apply_id ha]
    · rw [heq] at h
      exact absurd h (by simp)

structure Collection where
  docs : List Document
  ids_nodup : (docs.map Document.id).Nodup

namespace Collection

def empty : Collection := ⟨[], List.nodup_nil⟩

/-- The `_id` a document is stored under: its own, or else the one assigned. -/
def documentId (assigned : Oid) (doc : List (String × Bson)) : Oid :=
  match doc.lookup "_id" with
  | some (.oid o) => o
  | _ => assigned

/-- A document as it is stored under `_id` `o`. -/
def stored (o : Oid) (doc : List (String × Bson)) : Document :=
  { id := .oid o, fields := doc.filter fun f => f.1 ≠ "_id" }

/-- Every field but `_id` is stored as it was given. -/
theorem get?_stored (o : Oid) (doc : List (String × Bson)) {key : String} (h : key ≠ "_id") :
    (stored o doc).get? key = doc.lookup key := by
  rw [Document.get?, if_neg h]
  show (doc.filter fun f => f.1 ≠ "_id").lookup key = doc.lookup key
  induction doc with
  | nil => rfl
  | cons f rest ih =>
      by_cases hid : f.1 = "_id"
      · rw [List.filter_cons_of_neg (by simp [hid]), ih, List.lookup_cons, hid,
          beq_false_of_ne h]
      · rw [List.filter_cons_of_pos (by simp [hid]), List.lookup_cons, List.lookup_cons, ih]

theorem nodup_insert {docs : List Document} {o : Oid} (h : (docs.map Document.id).Nodup)
    (hnew : ¬docs.any (Document.hasId o) = true) (doc : List (String × Bson)) :
    ((docs ++ [stored o doc]).map Document.id).Nodup := by
  rw [List.map_append, List.nodup_append]
  refine ⟨h, by simp, ?_⟩
  intro a ha b hb
  obtain ⟨d, hd, rfl⟩ := List.mem_map.mp ha
  simp only [List.map_cons, List.map_nil, List.mem_singleton] at hb
  subst hb
  intro heq
  exact hnew (List.any_eq_true.mpr ⟨d, hd, Document.hasId_iff.mpr heq⟩)

/-- `InsertOne`: the driver or the server assigns an `_id` to a document that
carries none. -/
def insertOne (c : Collection) (assigned : Oid) (doc : List (String × Bson)) :
    Except Exn Collection :=
  let o := documentId assigned doc
  if h : c.docs.any (Document.hasId o) then
    .error .duplicateKey
  else
    .ok { docs := c.docs ++ [stored o doc], ids_nodup := nodup_insert c.ids_nodup h doc }

def find (c : Collection) (f : Filter) : List Document := c.docs.filter f.matches

def findOne (c : Collection) (f : Filter) : Option Document := c.docs.find? f.matches

/-- `UpdateOne`, with the matched count. -/
def updateOne (c : Collection) (f : Filter) (u : Update) : Except Exn (Collection × ℕ) :=
  match h : updateFirst f.matches u c.docs with
  | .ok (docs, n) => .ok (⟨docs, by rw [updateFirst_ids h]; exact c.ids_nodup⟩, n)
  | .error e => .error e

/-- `DeleteOne`, with the deleted count. -/
def deleteOne (c : Collection) (f : Filter) : Collection × ℕ :=
  (⟨c.docs.eraseP f.matches, c.ids_nodup.sublist (List.eraseP_sublist.map _)⟩,
    if c.docs.any f.matches then 1 else 0)

theorem updateOne_ids {c c' : Collection} {f : Filter} {u : Update} {n : ℕ}
    (h : c.updateOne f u = .ok (c', n)) : c'.docs.map Document.id = c.docs.map Document.id := by
  unfold updateOne at h
  split at h
  · rename_i hdocs
    rw [← (Prod.mk.inj (Except.ok.inj h)).1]
    exact updateFirst_ids hdocs
  · exact absurd h (by simp)

@[ext] theorem ext {c c' : Collection} (h : c.docs = c'.docs) : c = c' := by
  cases c
  cases c'
  simpa using h

/-- What an insert can do. -/
theorem insertOne_cases (c : Collection) (assigned : Oid) (doc : List (String × Bson)) :
    ((∀ d ∈ c.docs, d.id ≠ .oid (documentId assigned doc)) ∧
      ∃ c', c.insertOne assigned doc = .ok c' ∧
        c'.docs = c.docs ++ [stored (documentId assigned doc) doc]) ∨
    ((∃ d ∈ c.docs, d.id = .oid (documentId assigned doc)) ∧
      c.insertOne assigned doc = .error .duplicateKey) := by
  by_cases h : c.docs.any (Document.hasId (documentId assigned doc)) = true
  · right
    obtain ⟨d, hd, hid⟩ := List.any_eq_true.mp h
    exact ⟨⟨d, hd, Document.hasId_iff.mp hid⟩, dif_pos h⟩
  · left
    refine ⟨?_, _, dif_neg h, rfl⟩
    intro d hd hid
    exact h (List.any_eq_true.mpr ⟨d, hd, Document.hasId_iff.mpr hid⟩)

/-- What an update can do to the documents. -/
theorem updateOne_cases (c : Collection) (f : Filter) (u : Update) :
    ((∀ d ∈ c.docs, f.matches d = false) ∧ c.updateOne f u = .ok (c, 0)) ∨
    ∃ pre d post, c.docs = pre ++ d :: post ∧ (∀ d' ∈ pre, f.matches d' = false) ∧
      f.matches d = true ∧
      ((∃ d' c', u.apply d = .ok d' ∧ c'.docs = pre ++ d' :: post ∧
          c.updateOne f u = .ok (c', 1)) ∨
        ∃ e, u.apply d = .error e ∧ c.updateOne f u = .error e) := by
  have hok : ∀ docs n, updateFirst f.matches u c.docs = .ok (docs, n) →
      ∃ c', c'.docs = docs ∧ c.updateOne f u = .ok (c', n) := by
    intro docs n h
    refine ⟨⟨docs, by rw [updateFirst_ids h]; exact c.ids_nodup⟩, rfl, ?_⟩
    unfold updateOne
    split <;> rename_i heq
    · rw [h] at heq
      obtain ⟨rfl, rfl⟩ := Prod.mk.inj (Except.ok.inj heq)
      rfl
    · rw [h] at heq
      exact absurd heq (by simp)
  have herr : ∀ e, updateFirst f.matches u c.docs = .error e →
      c.updateOne f u = .error e := by
    intro e h
    unfold updateOne
    split <;> rename_i heq
    · rw [h] at heq
      exact absurd heq (by simp)
    · rw [h] at heq
      rw [Except.error.inj heq]
  rcases updateFirst_cases f.matches u c.docs with
    ⟨hnone, heq⟩ | ⟨pre, d, post, hsplit, hpre, hd, hres⟩
  · left
    obtain ⟨c', hdocs, hres⟩ := hok _ _ heq
    exact ⟨hnone, by rw [hres, Collection.ext hdocs]⟩
  · right
    refine ⟨pre, d, post, hsplit, hpre, hd, ?_⟩
    rcases hres with ⟨d', ha, heq⟩ | ⟨e, ha, heq⟩
    · obtain ⟨c', hdocs, hres⟩ := hok _ _ heq
      exact Or.inl ⟨d', c', ha, hdocs, hres⟩
    · exact Or.inr ⟨e, ha, herr e heq⟩

end Collection

end MyService.Userver
