import MyService.World
import Mathlib.Data.List.TakeWhile

/-!
# Requests and responses

What a handler reads of a request and sets on a response, and `std::stoi`, which
the handlers parse path arguments with.
-/

namespace MyService.Handlers

structure HttpRequest where
  body : String
  pathArgs : List (String × String)
  headers : List (String × String)
  remoteAddress : String
  /-- the query string -/
  args : List (String × String) := []

/-- An absent argument reads as the empty string. -/
def HttpRequest.getPathArg (r : HttpRequest) (name : String) : String :=
  (r.pathArgs.lookup name).getD ""

def HttpRequest.getArg (r : HttpRequest) (name : String) : String :=
  (r.args.lookup name).getD ""

def HttpRequest.getHeader (r : HttpRequest) (name : String) : String :=
  (r.headers.lookup name).getD ""

structure HttpResponse where
  status : ℕ := 200
  headers : List (String × String) := []
  body : String
deriving DecidableEq

/-- `std::isspace` in the C locale. -/
def isSpace (c : Char) : Bool :=
  c = ' ' || c = '\t' || c = '\n' || c = '\x0b' || c = '\x0c' || c = '\r'

/-- The number a digit string denotes. -/
def digitsValue (digits : List Char) : ℕ :=
  digits.foldl (fun n c => 10 * n + (c.toNat - '0'.toNat)) 0

/-- `std::stoi`: white space, a sign, digits; what follows is ignored. -/
def stoi (text : String) : Except Exn Int :=
  let chars := text.toList.dropWhile isSpace
  let (negative, chars) :=
    match chars with
    | '-' :: rest => (true, rest)
    | '+' :: rest => (false, rest)
    | _ => (false, chars)
  let digits := chars.takeWhile Char.isDigit
  if digits.isEmpty then .error .invalidArgument
  else
    let n : Int := if negative then -(digitsValue digits) else digitsValue digits
    if -2 ^ 31 ≤ n ∧ n < 2 ^ 31 then .ok n else .error .outOfRange

/-! ## Decimal text -/

theorem isSpace_of_isDigit {c : Char} (h : c.isDigit) : isSpace c = false := by
  simp only [isSpace, Bool.or_eq_false_iff, decide_eq_false_iff_not]
  refine ⟨⟨⟨⟨⟨?_, ?_⟩, ?_⟩, ?_⟩, ?_⟩, ?_⟩ <;> rintro rfl <;> exact absurd h (by decide)

theorem takeWhile_digits {digits : List Char} (h : ∀ c ∈ digits, c.isDigit = true) :
    digits.takeWhile Char.isDigit = digits :=
  List.takeWhile_eq_self_iff.mpr h

/-- What is left after white space and a sign: the digits there are read, or there are none. -/
theorem stoi_split {text : String} {spaces sign body : List Char}
    (htext : text.toList = spaces ++ (sign ++ body)) (hspaces : ∀ c ∈ spaces, isSpace c = true)
    (hsign : sign = ['-'] ∨ sign = ['+'] ∨
      sign = [] ∧ ∀ c, body.head? = some c → isSpace c = false ∧ c ≠ '-' ∧ c ≠ '+') :
    stoi text =
      if body.takeWhile Char.isDigit = [] then .error .invalidArgument
      else
        let n : Int := if sign = ['-'] then -(digitsValue (body.takeWhile Char.isDigit))
          else digitsValue (body.takeWhile Char.isDigit)
        if -2 ^ 31 ≤ n ∧ n < 2 ^ 31 then .ok n else .error .outOfRange := by
  have hdrop : text.toList.dropWhile isSpace = (sign ++ body).dropWhile isSpace := by
    rw [htext, List.dropWhile_append_of_pos hspaces]
  unfold stoi
  rcases hsign with rfl | rfl | ⟨rfl, hbody⟩
  · rw [hdrop, List.cons_append, List.dropWhile_cons_of_neg (by decide)]
    simp only [List.isEmpty_iff]
    rfl
  · rw [hdrop, List.cons_append, List.dropWhile_cons_of_neg (by decide)]
    simp only [List.isEmpty_iff]
    rfl
  · rw [hdrop, List.nil_append]
    cases body with
    | nil => rfl
    | cons c body =>
        obtain ⟨hspace, hminus, hplus⟩ := hbody c rfl
        rw [List.dropWhile_cons_of_neg (by simp [hspace])]
        -- neither sign is read
        have hsign : (match c :: body with
            | '-' :: rest => (true, rest)
            | '+' :: rest => (false, rest)
            | _ => (false, c :: body)) = (false, c :: body) := by
          split
          · rename_i hhead
            exact absurd (List.cons.inj hhead).1 hminus
          · rename_i hhead
            exact absurd (List.cons.inj hhead).1 hplus
          · rfl
        simp only [hsign, List.isEmpty_iff, List.nil_eq, List.cons_ne_nil, Bool.false_eq_true,
          if_false]

/-- A digit is neither white space nor a sign. -/
theorem not_sign_of_isDigit {c : Char} (h : c.isDigit) :
    isSpace c = false ∧ c ≠ '-' ∧ c ≠ '+' := by
  refine ⟨isSpace_of_isDigit h, ?_, ?_⟩ <;> rintro rfl <;> exact absurd h (by decide)

/-- A digit string is read as it is. -/
theorem stoi_digits {digits : List Char} (hne : digits ≠ [])
    (h : ∀ c ∈ digits, c.isDigit = true) :
    stoi (String.ofList digits) =
      if -2 ^ 31 ≤ (digitsValue digits : Int) ∧ (digitsValue digits : Int) < 2 ^ 31 then
        .ok (digitsValue digits : Int)
      else .error .outOfRange := by
  have hsplit := @stoi_split (String.ofList digits) [] [] digits (by simp) (by simp)
    (Or.inr (Or.inr ⟨rfl, fun c hc => not_sign_of_isDigit (h c (List.mem_of_head? hc))⟩))
  rw [hsplit, takeWhile_digits h, if_neg hne]
  rfl

/-- The same after a minus sign. -/
theorem stoi_minus_digits {digits : List Char} (hne : digits ≠ [])
    (h : ∀ c ∈ digits, c.isDigit = true) :
    stoi (String.ofList ('-' :: digits)) =
      if -2 ^ 31 ≤ -(digitsValue digits : Int) ∧ -(digitsValue digits : Int) < 2 ^ 31 then
        .ok (-(digitsValue digits : Int))
      else .error .outOfRange := by
  have hsplit := @stoi_split (String.ofList ('-' :: digits)) [] ['-'] digits (by simp) (by simp)
    (Or.inl rfl)
  rw [hsplit, takeWhile_digits h, if_neg hne]
  rfl

theorem digitsValue_toDigits (n : ℕ) : digitsValue (Nat.toDigits 10 n) = n :=
  Nat.ofDigitChars_ten_toDigits

/-- A number is determined by its decimal text. -/
theorem toString_injective {m n : Int} (h : toString m = toString n) : m = n := by
  have hvalue : ∀ k : ℕ, digitsValue k.repr.toList = k := fun k => by
    rw [Nat.repr_eq_ofList_toDigits, String.toList_ofList, digitsValue_toDigits]
  have hsign : ∀ k : ℕ, ∀ text : String, k.repr ≠ "-" ++ text := fun k text h => by
    have hmem : '-' ∈ Nat.toDigits 10 k := by
      rw [← String.toList_ofList (l := Nat.toDigits 10 k), ← Nat.repr_eq_ofList_toDigits, h]
      simp
    exact absurd (Nat.isDigit_of_mem_toDigits (by decide) (by decide) hmem) (by decide)
  rw [Int.toString_eq_repr, Int.toString_eq_repr, Int.repr_eq_if, Int.repr_eq_if] at h
  split at h <;> split at h
  · have hsame := congrArg (fun text => digitsValue text.toList) h
    simp only [hvalue] at hsame
    omega
  · exact absurd h (hsign _ _)
  · exact absurd h.symm (hsign _ _)
  · have hsame := congrArg (fun text => digitsValue text.toList) ((String.append_right_inj _).mp h)
    simp only [hvalue] at hsame
    omega

/-- `std::stoi` reads back what `std::to_string` wrote. -/
theorem stoi_toString (n : Int) :
    stoi (toString n) = if -2 ^ 31 ≤ n ∧ n < 2 ^ 31 then .ok n else .error .outOfRange := by
  have hdigits : ∀ k : ℕ, ∀ c ∈ Nat.toDigits 10 k, c.isDigit = true := fun k c hc =>
    Nat.isDigit_of_mem_toDigits (by decide) (by decide) hc
  rw [Int.toString_eq_repr, Int.repr_eq_if]
  split
  · rename_i hn
    rw [Nat.repr_eq_ofList_toDigits, stoi_digits Nat.toDigits_ne_nil (hdigits _),
      digitsValue_toDigits, Int.toNat_of_nonneg hn]
  · rename_i hn
    have htext : "-" ++ (-n).toNat.repr = String.ofList ('-' :: Nat.toDigits 10 (-n).toNat) := by
      rw [← String.toList_inj]
      simp
    rw [htext, stoi_minus_digits Nat.toDigits_ne_nil (hdigits _), digitsValue_toDigits,
      Int.toNat_of_nonneg (by omega), neg_neg]

end MyService.Handlers
