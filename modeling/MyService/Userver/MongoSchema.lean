import MyService.Framework.Prog
import MyService.Userver.Mongo

/-!
# Collections with a validator

A `$jsonSchema` is kept as what it accepts. A collection may have one, which its writes have
to satisfy; it goes with the collection when that is dropped, and a collection that a write
creates has none.
-/

namespace MyService.Userver

/-- What a `$jsonSchema` accepts. -/
abbrev Schema : Type := Bson → Bool

namespace Schema

/-- `bsonType: 'int'` -/
def int : Schema
  | .int32 _ => true
  | _ => false

/-- `bsonType: 'date'` -/
def date : Schema
  | .dateTime _ => true
  | _ => false

/-- `bsonType: 'string'` -/
def string : Schema
  | .string _ => true
  | _ => false

/-- `bsonType: 'string'`, with bounds on the number of code points. -/
def text (minLength : ℕ) (maxLength : Option ℕ) : Schema
  | .string s => minLength ≤ s.length && maxLength.all (s.length ≤ ·)
  | _ => false

/-- `bsonType: 'array'`, with a schema for each element. -/
def array (items : Schema) : Schema
  | .array vs => vs.all items
  | _ => false

/-- `bsonType: 'object'`: the required fields are there, and a field that is there satisfies
its schema. -/
def object (required : List String) (properties : List (String × Schema)) : Schema
  | .document fields =>
      required.all (fun key => (fields.lookup key).isSome) &&
        properties.all fun p => (fields.lookup p.1).all p.2
  | _ => false

theorem int_iff {v : Bson} : int v = true ↔ ∃ n, v = .int32 n := by
  cases v <;> simp [int]

theorem date_iff {v : Bson} : date v = true ↔ ∃ millis, v = .dateTime millis := by
  cases v <;> simp [date]

theorem string_iff {v : Bson} : string v = true ↔ ∃ s, v = .string s := by
  cases v <;> simp [string]

theorem text_iff {minLength : ℕ} {maxLength : Option ℕ} {v : Bson} :
    text minLength maxLength v = true ↔
      ∃ s, v = .string s ∧ minLength ≤ s.length ∧ ∀ n ∈ maxLength, s.length ≤ n := by
  cases v <;> simp [text, Option.all_eq_true]

theorem array_iff {items : Schema} {v : Bson} :
    array items v = true ↔ ∃ vs, v = .array vs ∧ ∀ v' ∈ vs, items v' = true := by
  cases v <;> simp [array]

theorem object_iff {required : List String} {properties : List (String × Schema)}
    {fields : List (String × Bson)} :
    object required properties (.document fields) = true ↔
      (∀ key ∈ required, (fields.lookup key).isSome) ∧
        ∀ p ∈ properties, ∀ v ∈ fields.lookup p.1, p.2 v = true := by
  simp [object, Option.all_eq_true]

end Schema

/-- The document with its `_id`, as a value. -/
def Document.toBson (d : Document) : Bson := .document (("_id", d.id) :: d.fields)

theorem Document.lookup_toBson (d : Document) (key : String) :
    (("_id", d.id) :: d.fields).lookup key = d.get? key := by
  unfold Document.get?
  by_cases h : key = "_id"
  · simp [h]
  · rw [if_neg h, List.lookup_cons, beq_false_of_ne h]

/-- A validator lets the document in. -/
def admits (validator : Option Schema) (d : Document) : Bool :=
  validator.all fun schema => schema d.toBson

/-- A collection and its validator. -/
structure Validated where
  collection : Collection
  validator : Option Schema

namespace Validated

def insertOne (c : Validated) (assigned : Oid) (doc : List (String × Bson)) :
    Except Exn Validated :=
  if admits c.validator (Collection.stored (Collection.documentId assigned doc) doc) then do
    pure { c with collection := ← c.collection.insertOne assigned doc }
  else .error .writeError

end Validated

/-- A name in a database: no collection, or this one. -/
abbrev Namespace : Type := Option Validated

/-- The collection that a write meets. -/
def Namespace.forWrite (ns : Namespace) : Validated := ns.getD ⟨Collection.empty, none⟩

/-- The shell commands of an initialisation script, on one collection. -/
inductive Command where
  | createCollection (validator : Schema)
  | createIndex (field : String)
  | drop
  /-- each document with the `_id` that is assigned to it -/
  | insertMany (docs : List (Oid × List (String × Bson)))

def Command.run : Command → Namespace → Except Exn Namespace
  | .createCollection validator, none => .ok (some ⟨Collection.empty, some validator⟩)
  | .createCollection _, some _ => .error .writeError
  | .createIndex _, ns => .ok (some ns.forWrite)
  | .drop, _ => .ok none
  | .insertMany docs, ns =>
      some <$> docs.foldlM (fun c doc => c.insertOne doc.1 doc.2) ns.forWrite

/-- A collection without a validator takes any document, under a new id. -/
theorem Validated.insertOne_unvalidated {c c' : Validated} {assigned : Oid}
    {doc : List (String × Bson)} (hnone : c.validator = none)
    (h : c.insertOne assigned doc = .ok c') :
    c'.validator = none ∧ c'.collection.docs =
      c.collection.docs ++ [Collection.stored (Collection.documentId assigned doc) doc] := by
  have hadmits : admits c.validator
      (Collection.stored (Collection.documentId assigned doc) doc) = true := by
    rw [hnone]
    rfl
  rw [insertOne, if_pos hadmits] at h
  obtain ⟨collection, hinsert, hc'⟩ := Framework.except_bind_ok.mp h
  obtain rfl := Except.ok.inj hc'
  rcases c.collection.insertOne_cases assigned doc with ⟨_, c₁, hc₁, hdocs⟩ | ⟨_, herr⟩
  · rw [hinsert] at hc₁
    obtain rfl := Except.ok.inj hc₁
    exact ⟨hnone, hdocs⟩
  · rw [hinsert] at herr
    exact absurd herr (by simp)

/-- And so any number of them. -/
theorem insertMany_unvalidated {docs : List (Oid × List (String × Bson))} {c c' : Validated}
    (hnone : c.validator = none)
    (h : docs.foldlM (fun c doc => c.insertOne doc.1 doc.2) c = .ok c') :
    c'.validator = none ∧ ∀ d ∈ c'.collection.docs, d ∈ c.collection.docs ∨
      ∃ doc ∈ docs, d = Collection.stored (Collection.documentId doc.1 doc.2) doc.2 := by
  induction docs generalizing c with
  | nil =>
      obtain rfl := Except.ok.inj h
      exact ⟨hnone, fun d hd => Or.inl hd⟩
  | cons doc docs ih =>
      rw [List.foldlM_cons] at h
      obtain ⟨c₁, hc₁, hrest⟩ := Framework.except_bind_ok.mp h
      obtain ⟨hnone₁, hdocs₁⟩ := Validated.insertOne_unvalidated hnone hc₁
      obtain ⟨hnone', hdocs'⟩ := ih hnone₁ hrest
      refine ⟨hnone', fun d hd => ?_⟩
      rcases hdocs' d hd with hold | ⟨doc', hdoc', rfl⟩
      · rw [hdocs₁] at hold
        rcases List.mem_append.mp hold with hfirst | hlast
        · exact Or.inl hfirst
        · exact Or.inr ⟨doc, List.mem_cons_self, List.mem_singleton.mp hlast⟩
      · exact Or.inr ⟨doc', List.mem_cons_of_mem _ hdoc', rfl⟩

end MyService.Userver
