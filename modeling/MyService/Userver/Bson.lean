import MyService.Userver.Json
import Mathlib.Data.List.Basic
import Mathlib.Data.Fintype.Basic

/-!
# userver::formats::bson

Values, accessors and object ids. Dates hold milliseconds. `equals` is the
equality a MongoDB query filter uses: numbers compare across their types.
-/

namespace MyService.Userver

/-- An ObjectId: twelve bytes, kept as their 24 hex digits. -/
structure Oid where
  digits : List (Fin 16)
  length_eq : digits.length = 24
deriving DecidableEq

/-- `"0123456789abcdef"[d]`. -/
def hexDigit (d : Fin 16) : Char :=
  match d.val with
  | 0 => '0' | 1 => '1' | 2 => '2' | 3 => '3'
  | 4 => '4' | 5 => '5' | 6 => '6' | 7 => '7'
  | 8 => '8' | 9 => '9' | 10 => 'a' | 11 => 'b'
  | 12 => 'c' | 13 => 'd' | 14 => 'e' | _ => 'f'

/-- The digit `0`. -/
def digitZero : Fin 16 := 0

def hexVal? (c : Char) : Option (Fin 16) :=
  match c with
  | '0' => some 0 | '1' => some 1 | '2' => some 2 | '3' => some 3
  | '4' => some 4 | '5' => some 5 | '6' => some 6 | '7' => some 7
  | '8' => some 8 | '9' => some 9
  | 'a' => some 10 | 'b' => some 11 | 'c' => some 12
  | 'd' => some 13 | 'e' => some 14 | 'f' => some 15
  | 'A' => some 10 | 'B' => some 11 | 'C' => some 12
  | 'D' => some 13 | 'E' => some 14 | 'F' => some 15
  | _ => none

@[simp] theorem hexVal?_hexDigit (d : Fin 16) : hexVal? (hexDigit d) = some d := by
  revert d
  decide

namespace Oid

/-- `Oid(text)`: exactly 24 hex digits of either case. -/
def ofString (text : String) : Except Exn Oid :=
  match text.toList.mapM hexVal? with
  | some digits =>
      if h : digits.length = 24 then .ok ⟨digits, h⟩ else .error .invalidOid
  | none => .error .invalidOid

/-- The id that is all zeros. -/
def zeros : Oid := ⟨List.replicate 24 digitZero, rfl⟩

/-- `ToString()`: lower case. -/
def toString (o : Oid) : String := String.ofList (o.digits.map hexDigit)

theorem mapM_hexVal?_hexDigit (digits : List (Fin 16)) :
    (digits.map hexDigit).mapM hexVal? = some digits := by
  induction digits with
  | nil => rfl
  | cons d digits ih => rw [List.map_cons, List.mapM_cons, ih, hexVal?_hexDigit]; rfl

/-- The text of an id denotes that id. -/
@[simp] theorem ofString_toString (o : Oid) : ofString o.toString = .ok o := by
  unfold ofString toString
  rw [String.toList_ofList, mapM_hexVal?_hexDigit]
  exact dif_pos o.length_eq

end Oid

inductive Bson where
  | null
  | bool (b : Bool)
  | int32 (n : Int)
  | int64 (n : Int)
  | double (q : ℚ)
  | string (s : String)
  | dateTime (millis : Int)
  | oid (o : Oid)
  | array (items : List Bson)
  | document (fields : List (String × Bson))
  /-- a type the code never reads or writes -/
  | other (typeCode : ℕ)

namespace Bson

def isArray : Bson → Bool
  | .array _ => true
  | _ => false

/-- `operator[]`: `none` is a missing value. -/
def member : Bson → String → Except Exn (Option Bson)
  | .null, _ => .ok none
  | .document fields, key => .ok (fields.lookup key)
  | _, _ => .error .typeMismatch

def asString : Option Bson → Except Exn String
  | none => .error .memberMissing
  | some (.string s) => .ok s
  | some _ => .error .typeMismatch

def int64? : Bson → Option Int
  | .int32 n => some n
  | .int64 n => some n
  | .double q => if q.den = 1 ∧ -2 ^ 63 ≤ q.num ∧ q.num < 2 ^ 63 then some q.num else none
  | _ => none

/-- `As<int>`: an integer, or a double with an integer value, within range. -/
def asInt : Option Bson → Except Exn Int
  | none => .error .memberMissing
  | some v =>
      match v.int64? with
      | none => .error .typeMismatch
      | some n => if -2 ^ 31 ≤ n ∧ n < 2 ^ 31 then .ok n else .error .conversionError

def asDate : Option Bson → Except Exn Int
  | none => .error .memberMissing
  | some (.dateTime millis) => .ok millis
  | some _ => .error .typeMismatch

def asOid : Option Bson → Except Exn Oid
  | none => .error .memberMissing
  | some (.oid o) => .ok o
  | some _ => .error .typeMismatch

/-- The elements a range `for` visits; null has none. -/
def elements : Option Bson → Except Exn (List Bson)
  | none => .error .memberMissing
  | some .null => .ok []
  | some (.array items) => .ok items
  | some (.document fields) => .ok (fields.map Prod.snd)
  | some _ => .error .typeMismatch

def number? : Bson → Option ℚ
  | .int32 n => some n
  | .int64 n => some n
  | .double q => some q
  | _ => none

/-- Equality of a filter's value with a stored scalar. -/
def equals : Bson → Bson → Bool
  | .oid a, .oid b => a = b
  | .string a, .string b => a = b
  | a, b =>
      match a.number?, b.number? with
      | some x, some y => x = y
      | _, _ => false

/-- `{field: v}` also matches an array that holds `v`. -/
def matchedBy (v : Bson) : Option Bson → Bool
  | none => false
  | some (.array items) => items.any (equals v)
  | some stored => equals v stored

/-- A stored integer that a filter on an `int` finds is that `int`. -/
theorem asInt_of_matchedBy {n t : Int} {v : Option Bson} (h : (int32 n).matchedBy v = true)
    (ht : asInt v = .ok t) : t = n := by
  cases v with
  | none => simp [matchedBy] at h
  | some v =>
      have hint : v.int64? = some t := by
        unfold asInt at ht
        cases hv : v.int64? with
        | none => simp [hv] at ht
        | some m =>
            simp only [hv] at ht
            split at ht
            · rw [Except.ok.inj ht]
            · exact absurd ht (by simp)
      cases v with
      | int32 m => simp_all [matchedBy, equals, number?, int64?]
      | int64 m => simp_all [matchedBy, equals, number?, int64?]
      | double q =>
          simp only [int64?] at hint
          split at hint
          · rename_i hq
            obtain rfl := Option.some.inj hint
            have heq : (n : ℚ) = q := by simpa [matchedBy, equals, number?] using h
            rw [← heq]
            simp
          · exact absurd hint (by simp)
      | _ => simp [int64?] at hint

end Bson

end MyService.Userver

namespace MyService

/-- The library functions the code calls and does not define. -/
structure Userver where
  /-- `formats::json::FromString` -/
  fromString : String → Except Exn Userver.Json
  /-- `formats::json::ToString` -/
  protected toString : Userver.Json → String
  /-- `formats::bson::FromJsonString` -/
  fromJsonString : String → Except Exn Userver.Bson
  /-- `crypto::hash::Sha256` -/
  sha256 : String → String
  /-- `jwt::create()…sign(hs256{secret})`; the times are in seconds. -/
  signHs256 : (issuer userId : String) → (issuedAt expiresAt : Int) → (secret : String) →
    String

end MyService
