import MyService.System

/-!
# Ids in the path

`std::stoi` reads a number at the beginning of a text: it skips white space, takes either
sign, and stops at the first character that is no digit (`stoi_eq_ok`). Three handlers
parse an id of their path with it and look at nothing else of the text, so `7abc` is
task 7 to them.
-/

namespace MyService.Handlers

open Framework Userver Models Chrono Storage Event

/-! ## The language of stoi -/

/-- The number that a sign and a digit string denote. -/
def signedValue (sign digits : List Char) : Int :=
  if sign = ['-'] then -(digitsValue digits : Int) else digitsValue digits

/-- A text as `std::stoi` divides it: white space, a sign, digits and the rest. -/
structure Reading (text : String) (spaces sign digits rest : List Char) : Prop where
  text_eq : text.toList = spaces ++ (sign ++ (digits ++ rest))
  spaces : ∀ c ∈ spaces, isSpace c = true
  sign : sign = ['-'] ∨ sign = ['+'] ∨ sign = []
  nonempty : digits ≠ []
  digits : ∀ c ∈ digits, c.isDigit = true
  rest : ∀ c, rest.head? = some c → c.isDigit = false

/-- What satisfies `p` is taken up to where something does not. -/
theorem takeWhile_append_eq {p : Char → Bool} {chars rest : List Char}
    (hchars : ∀ c ∈ chars, p c = true) (hrest : ∀ c, rest.head? = some c → p c = false) :
    (chars ++ rest).takeWhile p = chars := by
  rw [List.takeWhile_append_of_pos hchars]
  cases rest with
  | nil => rw [List.takeWhile_nil, List.append_nil]
  | cons c rest =>
      rw [List.takeWhile_cons_of_neg (by simp [hrest c rfl]), List.append_nil]

theorem Reading.stoi_eq {text : String} {spaces sign digits rest : List Char}
    (h : Reading text spaces sign digits rest) :
    stoi text = if -2 ^ 31 ≤ signedValue sign digits ∧ signedValue sign digits < 2 ^ 31 then
      .ok (signedValue sign digits) else .error .outOfRange := by
  have htake : (digits ++ rest).takeWhile Char.isDigit = digits :=
    takeWhile_append_eq h.digits h.rest
  have hsign : sign = ['-'] ∨ sign = ['+'] ∨
      sign = [] ∧ ∀ c, (digits ++ rest).head? = some c → isSpace c = false ∧ c ≠ '-' ∧ c ≠ '+' := by
    rcases h.sign with hminus | hplus | hnone
    · exact Or.inl hminus
    · exact Or.inr (Or.inl hplus)
    · refine Or.inr (Or.inr ⟨hnone, fun c hc => not_sign_of_isDigit (h.digits c ?_)⟩)
      rw [List.head?_append_of_ne_nil _ h.nonempty] at hc
      exact List.mem_of_head? hc
  rw [stoi_split h.text_eq h.spaces hsign, htake, if_neg h.nonempty]
  rfl

/-- The digits start with a digit. -/
theorem Reading.exists_digit {text : String} {spaces sign digits rest : List Char}
    (h : Reading text spaces sign digits rest) :
    ∃ d tail, digits ++ rest = d :: tail ∧ isSpace d = false ∧ d ≠ '-' ∧ d ≠ '+' := by
  obtain ⟨d, digits', hcons⟩ := List.exists_cons_of_ne_nil h.nonempty
  exact ⟨d, digits' ++ rest, by rw [hcons]; rfl,
    not_sign_of_isDigit (h.digits d (by rw [hcons]; exact List.mem_cons_self))⟩

/-- There is one way to divide a text. -/
theorem Reading.unique {text : String} {spaces sign digits rest : List Char}
    {spaces' sign' digits' rest' : List Char} (h : Reading text spaces sign digits rest)
    (h' : Reading text spaces' sign' digits' rest') :
    spaces = spaces' ∧ sign = sign' ∧ digits = digits' ∧ rest = rest' := by
  have hhead : ∀ {spaces sign digits rest : List Char}, Reading text spaces sign digits rest →
      ∀ c, (sign ++ (digits ++ rest)).head? = some c → isSpace c = false := by
    intro spaces sign digits rest h c hc
    obtain ⟨d, tail, hd, hspace, -, -⟩ := h.exists_digit
    rw [hd] at hc
    rcases h.sign with hs | hs | hs <;> rw [hs] at hc <;> obtain rfl := Option.some.inj hc
    · rfl
    · rfl
    · exact hspace
  have hspaces : spaces = spaces' := by
    rw [← takeWhile_append_eq h.spaces (hhead h), ← takeWhile_append_eq h'.spaces (hhead h'),
      ← h.text_eq, ← h'.text_eq]
  subst hspaces
  have hafter : sign ++ (digits ++ rest) = sign' ++ (digits' ++ rest') :=
    List.append_cancel_left (h.text_eq.symm.trans h'.text_eq)
  have hsign : sign = sign' := by
    obtain ⟨d, tail, hd, -, hminus, hplus⟩ := h.exists_digit
    obtain ⟨d', tail', hd', -, hminus', hplus'⟩ := h'.exists_digit
    rw [hd, hd'] at hafter
    rcases h.sign with hs | hs | hs <;> rcases h'.sign with hs' | hs' | hs' <;>
      rw [hs, hs'] at hafter ⊢ <;> have hfirst := (List.cons.inj hafter).1
    · exact absurd hfirst (by decide)
    · exact absurd hfirst.symm hminus'
    · exact absurd hfirst (by decide)
    · exact absurd hfirst.symm hplus'
    · exact absurd hfirst hminus
    · exact absurd hfirst hplus
  subst hsign
  have hdigits : digits ++ rest = digits' ++ rest' := List.append_cancel_left hafter
  have hsame : digits = digits' := by
    rw [← takeWhile_append_eq h.digits h.rest, hdigits, takeWhile_append_eq h'.digits h'.rest]
  subst hsame
  exact ⟨rfl, rfl, rfl, List.append_cancel_left hdigits⟩

/-- Every text on which `std::stoi` finds digits can be so divided. -/
theorem exists_reading {text : String} {n : Int} (h : stoi text = .ok n) :
    ∃ spaces sign digits rest, Reading text spaces sign digits rest := by
  have hspaces : ∀ c ∈ text.toList.takeWhile isSpace, isSpace c = true :=
    fun c hc => List.mem_takeWhile_imp hc
  have hstop : ∀ (p : Char → Bool) (chars : List Char) (c : Char),
      (chars.dropWhile p).head? = some c → p c = false := by
    intro p chars c hc
    have hnot := List.head?_dropWhile_not p chars
    rwa [hc] at hnot
  -- whatever the sign, the digits are found right after it
  have hfound : ∀ sign body, text.toList.dropWhile isSpace = sign ++ body →
      (sign = ['-'] ∨ sign = ['+'] ∨
        sign = [] ∧ ∀ c, body.head? = some c → isSpace c = false ∧ c ≠ '-' ∧ c ≠ '+') →
      ∃ spaces sign digits rest, Reading text spaces sign digits rest := by
    intro sign body hbody hsign
    have htext : text.toList = text.toList.takeWhile isSpace ++ (sign ++ body) := by
      rw [← hbody, List.takeWhile_append_dropWhile]
    have hsplit := stoi_split htext hspaces hsign
    refine ⟨_, sign, body.takeWhile Char.isDigit, body.dropWhile Char.isDigit, ?_, hspaces, ?_,
      ?_, fun c hc => List.mem_takeWhile_imp hc, hstop _ _⟩
    · rw [List.takeWhile_append_dropWhile]
      exact htext
    · exact hsign.imp_right fun hrest => hrest.imp_right And.left
    · intro hnone
      rw [h, if_pos hnone] at hsplit
      exact absurd hsplit (by simp)
  cases hbody : text.toList.dropWhile isSpace with
  | nil => exact hfound [] [] hbody (Or.inr (Or.inr ⟨rfl, by simp⟩))
  | cons c body =>
      by_cases hminus : c = '-'
      · exact hfound ['-'] body (by rw [hbody, hminus]; rfl) (Or.inl rfl)
      · by_cases hplus : c = '+'
        · exact hfound ['+'] body (by rw [hbody, hplus]; rfl) (Or.inr (Or.inl rfl))
        · refine hfound [] (c :: body) hbody (Or.inr (Or.inr ⟨rfl, ?_⟩))
          rintro _ ⟨⟩
          exact ⟨hstop isSpace text.toList c (by rw [hbody]; rfl), hminus, hplus⟩

/-- **What `std::stoi` accepts.** -/
theorem stoi_eq_ok {text : String} {n : Int} :
    stoi text = .ok n ↔ IsInt n ∧ ∃ spaces sign digits rest,
      Reading text spaces sign digits rest ∧ n = signedValue sign digits := by
  constructor
  · intro h
    obtain ⟨spaces, sign, digits, rest, hreading⟩ := exists_reading h
    rw [hreading.stoi_eq] at h
    split at h
    · rename_i hrange
      obtain rfl := Except.ok.inj h
      exact ⟨hrange, spaces, sign, digits, rest, hreading, rfl⟩
    · exact absurd h (by simp)
  · rintro ⟨hrange, spaces, sign, digits, rest, hreading, rfl⟩
    rw [hreading.stoi_eq]
    exact if_pos hrange

/-! ## Strict numerals -/

/-- The whole text is a numeral of an `int`: digits after an optional minus sign. -/
def Denotes (text : String) (n : Int) : Prop :=
  IsInt n ∧ ∃ sign digits, (sign = ['-'] ∨ sign = []) ∧ digits ≠ [] ∧
    (∀ c ∈ digits, c.isDigit = true) ∧ text.toList = sign ++ digits ∧ n = signedValue sign digits

/-- Where a number of an `int` can be read off the text's beginning, no white space and no
plus sign stand before its digits and nothing stands after them. -/
def Unadorned (text : String) : Prop :=
  ∀ spaces sign digits rest, Reading text spaces sign digits rest →
    IsInt (signedValue sign digits) → spaces = [] ∧ sign ≠ ['+'] ∧ rest = []

section Numerals

variable {text : String} {n : Int}

/-- A numeral is read as a whole. -/
theorem Denotes.reading (h : Denotes text n) :
    IsInt n ∧ ∃ sign digits, (sign = ['-'] ∨ sign = []) ∧ Reading text [] sign digits [] ∧
      n = signedValue sign digits := by
  obtain ⟨hint, sign, digits, hsign, hne, hdigits, htext, hvalue⟩ := h
  refine ⟨hint, sign, digits, hsign, ⟨?_, by simp, ?_, hne, hdigits, by simp⟩, hvalue⟩
  · rw [htext, List.append_nil, List.nil_append]
  · exact hsign.imp_right Or.inr

theorem Denotes.stoi_eq (h : Denotes text n) : stoi text = .ok n := by
  obtain ⟨hint, sign, digits, _, hreading, hvalue⟩ := h.reading
  exact stoi_eq_ok.mpr ⟨hint, [], sign, digits, [], hreading, hvalue⟩

/-- The texts that `std::stoi` takes for a number only if they are one. -/
theorem unadorned_iff : Unadorned text ↔ ∀ n, stoi text = .ok n → Denotes text n := by
  constructor
  · intro h n hn
    obtain ⟨hint, spaces, sign, digits, rest, hreading, rfl⟩ := stoi_eq_ok.mp hn
    obtain ⟨rfl, hplus, rfl⟩ := h spaces sign digits rest hreading hint
    refine ⟨hint, sign, digits, ?_, hreading.nonempty, hreading.digits, ?_, rfl⟩
    · exact hreading.sign.imp_right fun hrest => hrest.resolve_left hplus
    · rw [hreading.text_eq, List.nil_append, List.append_nil]
  · intro h spaces sign digits rest hreading hint
    obtain ⟨-, sign', digits', hsign', hreading', -⟩ :=
      (h _ (stoi_eq_ok.mpr ⟨hint, _, _, _, _, hreading, rfl⟩)).reading
    obtain ⟨rfl, rfl, rfl, rfl⟩ := hreading.unique hreading'
    refine ⟨rfl, ?_, rfl⟩
    rcases hsign' with rfl | rfl <;> decide

end Numerals

/-! ## The three handlers -/

/-- The requests with a number in the path. -/
inductive Endpoint where
  | addComment
  | getComments
  | createTask

namespace Endpoint

/-- The path argument. -/
def param : Endpoint → String
  | addComment | getComments => "taskId"
  | createTask => "projectId"

def request (e : Endpoint) (request : HttpRequest) (userId : Int) : Request :=
  match e with
  | addComment => .addComment request userId
  | getComments => .getComments request
  | createTask => .createTask request userId

/-- What the handler does once it has the id. -/
def proceed (e : Endpoint) (u : Userver) (request : HttpRequest) (userId id : Int) :
    Service HttpResponse :=
  match e with
  | addComment => addCommentTo u request userId id
  | getComments => getCommentsOf u id
  | createTask => createTaskIn u request userId id

theorem serve_eq (e : Endpoint) (u : Userver) (request : HttpRequest) (userId : Int) :
    serve u (e.request request userId) =
      Prog.ofExcept (stoi (request.getPathArg e.param)) >>= e.proceed u request userId := by
  cases e <;> rfl

/-- Every request with this text in its path is served with this id. -/
def Proceeds (e : Endpoint) (text : String) (id : Int) : Prop :=
  ∀ (u : Userver) (request : HttpRequest) (userId : Int), request.getPathArg e.param = text →
    serve u (e.request request userId) = e.proceed u request userId id

/-- Every request with this text in its path throws and touches nothing. -/
def Rejects (e : Endpoint) (text : String) : Prop :=
  ∀ (u : Userver) (request : HttpRequest) (userId : Int) (cs : ℕ → Choice) (w : World),
    request.getPathArg e.param = text →
      ∃ ex, (serve u (e.request request userId)).exec perform cs w = (.error ex, w)

/-- The text is taken for an id if it is one, and rejected otherwise. -/
structure Strict (e : Endpoint) (text : String) : Prop where
  proceeds : ∀ id, e.Proceeds text id ↔ Denotes text id
  rejects : (∀ id, ¬Denotes text id) → e.Rejects text

/-- A request with this text in its path, and the body of a comment. -/
def posted (e : Endpoint) (text : String) : HttpRequest := Sample.http Sample.body e.param text

theorem getPathArg_posted (e : Endpoint) (text : String) :
    (e.posted text).getPathArg e.param = text := by
  simp [posted, Sample.http, HttpRequest.getPathArg]

/-- The request is served past its path, with an id that shows. -/
theorem proceed_injective (e : Endpoint) (text : String) {id id' : Int}
    (h : e.proceed Sample.userver (e.posted text) 0 id =
      e.proceed Sample.userver (e.posted text) 0 id') : id = id' := by
  cases e with
  | addComment =>
      -- the id is in the document
      have hdocs := congrArg (fun p : Service HttpResponse =>
        (p.exec perform (fun _ => Sample.plain) Sample.empty).2.comments.docs.map
          (Document.get? · "task_id")) h
      have hids : [some (Bson.int32 id)] = [some (Bson.int32 id')] := hdocs
      exact Bson.int32.inj (Option.some.inj (List.cons.inj hids).1)
  | getComments =>
      have hcall : Call.cacheGet (commentsKey id) = Call.cacheGet (commentsKey id') :=
        (Prog.call.inj h).1
      exact toString_injective ((String.append_right_inj _).mp (Call.cacheGet.inj hcall))
  | createTask =>
      have hcall := (Prog.call.inj h).1
      simpa using hcall

theorem proceed_ne_throw (e : Endpoint) (text : String) (id : Int) (ex : Exn) :
    e.proceed Sample.userver (e.posted text) 0 id ≠ .throw ex := by
  cases e <;> exact nofun

/-- What `std::stoi` gives is what the handler goes on with. -/
theorem proceeds_iff (e : Endpoint) (text : String) (id : Int) :
    e.Proceeds text id ↔ stoi text = .ok id := by
  constructor
  · intro h
    have hserve := h Sample.userver (e.posted text) 0 (e.getPathArg_posted text)
    rw [serve_eq, getPathArg_posted] at hserve
    cases hstoi : stoi text with
    | error ex =>
        rw [hstoi] at hserve
        exact absurd hserve.symm (e.proceed_ne_throw text id ex)
    | ok id' =>
        rw [hstoi] at hserve
        rw [e.proceed_injective text hserve]
  · rintro h u request userId rfl
    rw [serve_eq, h]
    rfl

/-- **When path ids are strict.** On the texts with nothing around their number. -/
theorem path_ids_strict_iff (e : Endpoint) (text : String) :
    e.Strict text ↔ Unadorned text := by
  rw [unadorned_iff]
  constructor
  · intro h id hid
    exact (h.proceeds id).mp ((e.proceeds_iff text id).mpr hid)
  · intro h
    refine ⟨fun id => ?_, fun hnone => ?_⟩
    · rw [proceeds_iff]
      exact ⟨h id, Denotes.stoi_eq⟩
    · rintro u request userId cs w rfl
      cases hstoi : stoi (request.getPathArg e.param) with
      | error ex => exact ⟨ex, by rw [serve_eq, hstoi]; rfl⟩
      | ok id => exact absurd (h id hstoi) (hnone id)

/-- `7abc` is no number, and its comment is stored for task 7. -/
theorem path_ids_fail :
    ((serve Sample.userver (.addComment (Sample.http Sample.body "taskId" "7abc") 3)).exec perform
        (fun _ => Sample.plain) Sample.empty).2.comments.docs.map (Document.get? · "task_id") =
          [some (.int32 7)] ∧
      ¬addComment.Strict "7abc" := by
  refine ⟨rfl, fun h => ?_⟩
  have hseven : addComment.Proceeds "7abc" 7 := (addComment.proceeds_iff "7abc" 7).mpr (by decide)
  obtain ⟨-, sign, digits, hsign, -, hdigits, htext, -⟩ := (h.proceeds 7).mp hseven
  have hmem : 'a' ∈ sign ++ digits := by
    rw [← htext]
    decide
  rcases List.mem_append.mp hmem with hm | hm
  · rcases hsign with rfl | rfl
    · exact absurd hm (by decide)
    · exact absurd hm List.not_mem_nil
  · exact absurd (hdigits 'a' hm) (by decide)

end Endpoint

end MyService.Handlers
