import Mathlib.Algebra.Order.Ring.Rat
import Mathlib.Data.Rat.Floor

/-!
# userver::formats::json

Values, their accessors and `ValueBuilder`. Text is not modelled here: parsing
and printing are the two functions of `Userver` that the rest of the model takes
as given. A number keeps whether it was written as an integer or as a double.

An accessor works on a value that may be missing: `json["key"]` of an absent key
is a missing value, and only reading it throws.
-/

namespace MyService

/-- What the code and its libraries throw; every one is a `std::exception`. -/
inductive Exn where
  | parseError
  | memberMissing
  | typeMismatch
  | outOfBounds
  | conversionError
  /-- `std::stoi` -/
  | invalidArgument
  | outOfRange
  /-- bson -/
  | invalidOid
  /-- postgres -/
  | nonSingleRow
  | invalidTupleSize
  | fieldNameDoesntExist
  | fieldValueIsNull
  | integrityViolation
  | stringDataTruncation
  /-- mongo -/
  | duplicateKey
  | writeError
  /-- jwt-cpp -/
  | tokenVerification
  | signatureVerification
  | claimNotPresent
  | badCast
  /-- access to the value of an empty `std::optional` -/
  | badOptional
  /-- a call to a server that failed -/
  | unavailable (what : String)
deriving DecidableEq

/-- The values of an `int`, and of an `int64_t`. -/
def IsInt (n : Int) : Prop := -2 ^ 31 ≤ n ∧ n < 2 ^ 31

def IsInt64 (n : Int) : Prop := -2 ^ 63 ≤ n ∧ n < 2 ^ 63

theorem isInt64_of_isInt {n : Int} (h : IsInt n) : IsInt64 n := by
  obtain ⟨hlow, hhigh⟩ := h
  constructor <;> omega

namespace Userver

inductive Json where
  | null
  | bool (b : Bool)
  | int (n : Int)
  | double (q : ℚ)
  | string (s : String)
  | array (items : List Json)
  | object (members : List (String × Json))

namespace Json

/-! ## Reading -/

/-- `operator[]`: `none` is a missing value. -/
def member : Json → String → Except Exn (Option Json)
  | .null, _ => .ok none
  | .object members, key => .ok (members.lookup key)
  | _, _ => .error .typeMismatch

/-- `operator[]` on a value that may itself be missing. -/
def field : Option Json → String → Except Exn (Option Json)
  | none, _ => .ok none
  | some j, key => j.member key

def hasMember (j : Json) (key : String) : Except Exn Bool :=
  Option.isSome <$> j.member key

/-- `As<std::string>`. -/
def asString : Option Json → Except Exn String
  | none => .error .memberMissing
  | some (.string s) => .ok s
  | some _ => .error .typeMismatch

theorem hasMember_of_asString {json : Json} {key s : String} {v : Option Json}
    (hv : json.member key = .ok v) (hs : asString v = .ok s) : json.hasMember key = .ok true := by
  cases v with
  | none => exact absurd hs (by simp [asString])
  | some v => simp [hasMember, hv]

/-- A 64-bit integer, and a double with such a value. -/
def int64? : Json → Option Int
  | .int n => if -2 ^ 63 ≤ n ∧ n < 2 ^ 63 then some n else none
  | .double q => if q.den = 1 ∧ -2 ^ 63 ≤ q.num ∧ q.num < 2 ^ 63 then some q.num else none
  | _ => none

/-- `As<int64_t>`. -/
def asInt64 : Option Json → Except Exn Int
  | none => .error .memberMissing
  | some j =>
      match j.int64? with
      | some n => .ok n
      | none => .error .typeMismatch

/-- `As<int>` narrows the 64-bit value. -/
def asInt (j : Option Json) : Except Exn Int := do
  let n ← asInt64 j
  if -2 ^ 31 ≤ n ∧ n < 2 ^ 31 then pure n else throw .conversionError

/-- `As<T>(default)` takes the default for a missing or null value. -/
def asOr {α : Type} (as : Option Json → Except Exn α) (default : α) :
    Option Json → Except Exn α
  | none => .ok default
  | some .null => .ok default
  | some j => as (some j)

/-! ## Building

A builder is the value built so far. One that was never written to is null. -/

/-- `builder[key] = v`: a new key goes to the end. -/
def setKey (key : String) (v : Json) : List (String × Json) → List (String × Json)
  | [] => [(key, v)]
  | (k, old) :: rest => if k = key then (k, v) :: rest else (k, old) :: setKey key v rest

/-- Write through `builder[key]`, which creates the member. -/
def atMember (key : String) (write : Json → Except Exn Json) : Json → Except Exn Json
  | .null => do pure (.object [(key, ← write .null)])
  | .object members => do
      pure (.object (setKey key (← write ((members.lookup key).getD .null)) members))
  | _ => throw .typeMismatch

/-- Write through `builder[i]`, which throws unless `i` is below the current size;
a null builder has size zero. -/
def atIndex (i : ℕ) (write : Json → Except Exn Json) : Json → Except Exn Json
  | .null => throw .outOfBounds
  | .array items =>
      match items[i]? with
      | none => throw .outOfBounds
      | some item => do pure (.array (items.set i (← write item)))
  | _ => throw .typeMismatch

/-- `= v` at the end of a path of the two above. -/
def assign (v : Json) : Json → Except Exn Json := fun _ => .ok v

def pushBack (v : Json) : Json → Except Exn Json
  | .null => .ok (.array [v])
  | .array items => .ok (.array (items ++ [v]))
  | _ => throw .typeMismatch

/-- A loop that pushes one item for each element. -/
theorem foldlM_pushBack {α : Type} (item : α → Json) (xs : List α) (items : List Json) :
    xs.foldlM (fun result x => pushBack (item x) result) (.array items) =
      .ok (.array (items ++ xs.map item)) := by
  induction xs generalizing items with
  | nil =>
      rw [List.map_nil, List.append_nil]
      rfl
  | cons x xs ih =>
      rw [List.foldlM_cons]
      show xs.foldlM _ (Json.array (items ++ [item x])) = _
      rw [ih, List.append_assoc]
      rfl

end Json

end Userver

end MyService
