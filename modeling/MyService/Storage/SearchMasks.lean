import MyService.Storage.Nullability
import MyService.Userver.Like

/-!
# Search masks

`MakeLikePattern` puts a mask between two `%` as it is, so a `%`, a `_` or a backslash in it
keeps its meaning for ILIKE: the search finds values that do not contain the mask
(`pattern_literal_iff`). `masks_literal_iff` adds what else a search needs to select the
users it should: no NUL in a mask and at most 100 of them.
-/

namespace MyService.Storage.SearchMasks

open Framework Userver Userver.Postgres Models PostgresStorage Nullability

/-! ## One pattern -/

/-- The value contains the mask, letter case aside. -/
def Contains (db : Database) (mask value : String) : Prop :=
  mask.toList.map db.lower <:+: value.toList.map db.lower

instance (db : Database) (mask value : String) : Decidable (Contains db mask value) :=
  inferInstanceAs (Decidable (_ <:+: _))

/-- A mask of ordinary characters. -/
def Plain (mask : String) : Prop := ∀ c ∈ mask.toList, c ∉ Like.specials

instance (mask : String) : Decidable (Plain mask) :=
  List.decidableBAll (fun c => c ∉ Like.specials) mask.toList

/-- The locale folds letters to letters: the special characters stay as they are, and no
other character becomes one. -/
def FoldsLetters (lower : Char → Char) : Prop := ∀ c, ∀ s ∈ Like.specials, lower c = s ↔ c = s

section Pattern

variable {db : Database} {mask : String}

theorem FoldsLetters.mem_iff (h : FoldsLetters db.lower) (c : Char) :
    db.lower c ∈ Like.specials ↔ c ∈ Like.specials := by
  constructor
  · intro hc
    rw [(h c _ hc).mp rfl]
    exact hc
  · intro hc
    rw [(h c c hc).mpr rfl]
    exact hc

/-- The folded pattern is the folded mask between two `%`. -/
theorem lower_makeLikePattern (h : FoldsLetters db.lower) (hmask : mask ≠ "") :
    (makeLikePattern mask).toList.map db.lower =
      '%' :: (mask.toList.map db.lower ++ ['%']) := by
  have hpercent : db.lower '%' = '%' := (h '%' '%' (by decide)).mpr rfl
  have hempty : mask.isEmpty = false := by simpa using hmask
  rw [makeLikePattern, hempty]
  simp [hpercent]

theorem plain_lower_iff (h : FoldsLetters db.lower) :
    (∀ c ∈ mask.toList.map db.lower, c ∉ Like.specials) ↔ Plain mask := by
  rw [List.forall_mem_map]
  simp only [h.mem_iff]
  rfl

/-- A plain mask is looked for as it is. -/
theorem ilike_of_plain (h : FoldsLetters db.lower) (hplain : Plain mask) (value : String) :
    db.ilike value (makeLikePattern mask) = true ↔ Contains db mask value := by
  unfold Database.ilike Contains
  by_cases hmask : mask = ""
  · have hpercent : db.lower '%' = '%' := (h '%' '%' (by decide)).mpr rfl
    subst hmask
    refine iff_of_true ?_ List.nil_infix
    rw [show (makeLikePattern "").toList = ['%'] from rfl, List.map_singleton, hpercent,
      Like.like_percent]
    exact ⟨[], List.nil_suffix, rfl⟩
  · rw [lower_makeLikePattern h hmask]
    exact Like.like_infix ((plain_lower_iff h).mpr hplain)

/-- Another mask finds a value that does not contain it. -/
theorem exists_ilike_of_not_plain (h : FoldsLetters db.lower) (hplain : ¬Plain mask) :
    ∃ value, db.ilike value (makeLikePattern mask) = true ∧ ¬Contains db mask value := by
  have hmask : mask ≠ "" := by
    rintro rfl
    exact hplain (by decide)
  have hletter : db.lower 'x' ≠ '_' := by
    intro hfold
    exact absurd ((h 'x' '_' (by decide)).mp hfold) (by decide)
  -- the shortest match is a folded text
  obtain ⟨chars, hchars⟩ : ∃ chars : List Char,
      chars.map db.lower = Like.shortest (db.lower 'x') (mask.toList.map db.lower) := by
    have hrange : Like.shortest (db.lower 'x') (mask.toList.map db.lower) ∈
        Set.range (List.map db.lower) := by
      rw [Set.range_list_map]
      intro c hc
      rcases Like.mem_shortest hc with hmem | rfl | rfl
      · obtain ⟨c', _, hc'⟩ := List.mem_map.mp hmem
        exact ⟨c', hc'⟩
      · exact ⟨'x', rfl⟩
      · exact ⟨'%', (h '%' '%' (by decide)).mpr rfl⟩
    exact hrange
  refine ⟨String.ofList chars, ?_, ?_⟩
  · rw [Database.ilike, String.toList_ofList, hchars, lower_makeLikePattern h hmask,
      Like.like_percent]
    exact ⟨_, List.suffix_rfl, Like.like_shortest _ _⟩
  · rw [Contains, String.toList_ofList, hchars]
    refine Like.not_infix_shortest hletter ?_
    rw [plain_lower_iff h]
    exact hplain

/-- **Which masks are literal.** -/
theorem pattern_literal_iff (h : FoldsLetters db.lower) :
    (∀ value, db.ilike value (makeLikePattern mask) = true ↔ Contains db mask value) ↔
      Plain mask := by
  constructor
  · intro hliteral
    by_contra hplain
    obtain ⟨value, hmatch, hno⟩ := exists_ilike_of_not_plain h hplain
    exact hno ((hliteral value).mp hmatch)
  · exact fun hplain => ilike_of_plain h hplain

end Pattern

/-! ## The searches -/

/-- The users that a search by login should find. -/
def withLogin (db : Database) (mask : String) : List UserRow :=
  db.users.rows.filter fun r => Contains db mask r.login ∧ r.isDeleted = some false

/-- The users that a search by name should find. -/
def withName (db : Database) (first last : String) : List UserRow :=
  db.users.rows.filter fun r =>
    Contains db first r.firstName ∧ Contains db last r.lastName ∧ r.isDeleted = some false

/-- A search returned exactly the users of these rows. -/
def Selects (result : Except Exn (List User)) (rows : List UserRow) : Prop :=
  ∃ users selected, result = .ok users ∧ selected.Perm rows ∧
    List.Forall₂ UserHolds users selected

/-- The rows fit into one answer, and each decodes. -/
def Fits (rows : List UserRow) : Prop := rows.length ≤ 100 ∧ ∀ r ∈ rows, UserFilled r

/-- Masks match what contains them, and so the searches select the users that they should. -/
structure MasksLiteral (login first last : String) (cs : ℕ → Choice) (w : World) : Prop where
  patterns : ∀ mask ∈ [login, first, last], ∀ value,
    w.db.ilike value (makeLikePattern mask) = true ↔ Contains w.db mask value
  byLogin : Selects ((searchUsersByLogin login).exec perform cs w).1 (withLogin w.db login)
  byName : Selects ((searchUsersByFirstNameLastName first last).exec perform cs w).1
    (withName w.db first last)

/-- What a read returns, when the server does not fail it. -/
theorem exec_selected {q : Query} {cs : ℕ → Choice} {w : World} {accepted : Prop}
    {rows : List Row} (hfault : (cs 0).fault = none)
    (hselect : ∀ serial db' answer, w.db.execute serial q.statement = .ok (db', answer) ↔
      accepted ∧ w.db = db' ∧ rows = answer) (answer : q.Answer) :
    (q.run.exec perform cs w).1 = .ok answer ↔ accepted ∧ q.decode rows = .ok answer := by
  rcases execute_cases (cs 0) w q.statement with ⟨e, he, heq⟩ | ⟨db', rows', _, hact, heq⟩
  · have hrefused : ¬accepted := by
      intro haccepted
      rcases he with h | ⟨_, h⟩
      · rw [hfault] at h
        exact absurd h (by simp)
      · rw [(hselect _ _ _).mpr ⟨haccepted, rfl, rfl⟩] at h
        exact absurd h (by simp)
    refine iff_of_false ?_ fun h => hrefused h.1
    rw [Query.run_eq, exec_execute_bind, heq]
    simp
  · obtain ⟨haccepted, _, rfl⟩ := (hselect _ _ _).mp hact
    have hanswer : (perform (.execute q.statement) (cs 0) w).2 = .ok rows := by rw [heq]
    rw [run_exec hanswer]
    simp [haccepted]

theorem asContainer_users {rows : List UserRow} {users : List User} :
    asContainer decodeUser (rows.map fun r => pick Query.userColumns r.columns) = .ok users ↔
      List.Forall₂ UserHolds users rows := by
  unfold asContainer
  induction rows generalizing users with
  | nil => cases users <;> simp [pure, Except.pure]
  | cons r rows ih =>
      rw [List.map_cons, List.mapM_cons]
      simp only [except_bind_ok, decodeUser_row, ih, pure, Except.pure, Except.ok.injEq]
      constructor
      · rintro ⟨user, hr, users', hrows, rfl⟩
        exact .cons hr hrows
      · rintro (_ | ⟨hr, hrows⟩)
        exact ⟨_, hr, _, hrows, rfl⟩

/-- What the first 100 of some rows decode to is all of them exactly if they fit. -/
theorem selects_iff {rows : List UserRow} (hactive : ∀ r ∈ rows, r.isDeleted = some false)
    {result : Except Exn (List User)} {accepted : Prop}
    (hresult : ∀ users, result = .ok users ↔ accepted ∧
      asContainer decodeUser ((rows.take 100).map fun r => pick Query.userColumns r.columns) =
        .ok users) :
    Selects result rows ↔ accepted ∧ Fits rows := by
  constructor
  · rintro ⟨users, selected, hok, hperm, hholds⟩
    obtain ⟨haccepted, hdecode⟩ := (hresult users).mp hok
    have hlength := (asContainer_users.mp hdecode).length_eq.symm.trans
      (hholds.length_eq.trans hperm.length_eq)
    rw [List.length_take] at hlength
    have hle : rows.length ≤ 100 := by omega
    rw [List.take_of_length_le hle] at hdecode
    exact ⟨haccepted, hle, (users_decode hactive).mp
      ((container_decodes decodeUser_row rows).mp ⟨users, hdecode⟩)⟩
  · rintro ⟨haccepted, hle, hfilled⟩
    obtain ⟨users, hdecode⟩ := (container_decodes decodeUser_row rows).mpr
      ((users_decode hactive).mpr hfilled)
    refine ⟨users, rows, (hresult users).mpr ⟨haccepted, ?_⟩, List.Perm.refl _,
      asContainer_users.mp hdecode⟩
    rw [List.take_of_length_le hle]
    exact hdecode

section Search

variable {login first last : String} {cs : ℕ → Choice} {w : World}

/-- A literal mask selects by containment. -/
theorem byLogin_iff (hfault : (cs 0).fault = none)
    (hliteral : ∀ value, w.db.ilike value (makeLikePattern login) = true ↔
      Contains w.db login value) :
    Selects ((searchUsersByLogin login).exec perform cs w).1 (withLogin w.db login) ↔
      NulFree login ∧ Fits (withLogin w.db login) := by
  have hactive : ∀ r ∈ withLogin w.db login, r.isDeleted = some false := by
    intro r hr
    exact (of_decide_eq_true (List.mem_filter.mp hr).2).2
  have hrows : withLogin w.db login = w.db.users.rows.filter fun r =>
      w.db.ilike r.login (makeLikePattern login) ∧ r.isDeleted = some false := by
    unfold withLogin
    simp only [hliteral]
  refine selects_iff hactive ?_
  rw [hrows]
  refine exec_selected (q := .searchUsersByLogin login) hfault ?_
  intro serial db' answer
  simp [Query.statement, Database.execute, except_bind_ok, text_ok, pure, Except.pure,
    nulFree_makeLikePattern, and_assoc]

theorem byName_iff (hfault : (cs 0).fault = none)
    (hfirst : ∀ value, w.db.ilike value (makeLikePattern first) = true ↔
      Contains w.db first value)
    (hlast : ∀ value, w.db.ilike value (makeLikePattern last) = true ↔
      Contains w.db last value) :
    Selects ((searchUsersByFirstNameLastName first last).exec perform cs w).1
        (withName w.db first last) ↔
      (NulFree first ∧ NulFree last) ∧ Fits (withName w.db first last) := by
  have hactive : ∀ r ∈ withName w.db first last, r.isDeleted = some false := by
    intro r hr
    exact (of_decide_eq_true (List.mem_filter.mp hr).2).2.2
  have hrows : withName w.db first last = w.db.users.rows.filter fun r =>
      w.db.ilike r.firstName (makeLikePattern first) ∧
        w.db.ilike r.lastName (makeLikePattern last) ∧ r.isDeleted = some false := by
    unfold withName
    simp only [hfirst, hlast]
  refine selects_iff hactive ?_
  rw [hrows]
  refine exec_selected (q := .searchUsersByFirstNameLastName first last) hfault ?_
  intro serial db' answer
  simp [Query.statement, Database.execute, except_bind_ok, text_ok, pure, Except.pure,
    nulFree_makeLikePattern, and_assoc]

/-- **When masks are literal.** They have no special character and no NUL, and the users
that a search should find fit into its answer. -/
theorem masks_literal_iff (hlower : FoldsLetters w.db.lower) (hfault : (cs 0).fault = none) :
    MasksLiteral login first last cs w ↔
      (∀ mask ∈ [login, first, last], Plain mask ∧ NulFree mask) ∧
        Fits (withLogin w.db login) ∧ Fits (withName w.db first last) := by
  simp only [List.forall_mem_cons, List.not_mem_nil, false_imp_iff, implies_true, and_true]
  constructor
  · rintro ⟨hpatterns, hlogin, hname⟩
    simp only [List.forall_mem_cons, List.not_mem_nil, false_imp_iff, implies_true,
      and_true] at hpatterns
    obtain ⟨hl, hf, ht⟩ := hpatterns
    rw [byLogin_iff hfault hl] at hlogin
    rw [byName_iff hfault hf ht] at hname
    exact ⟨⟨⟨(pattern_literal_iff hlower).mp hl, hlogin.1⟩,
      ⟨(pattern_literal_iff hlower).mp hf, hname.1.1⟩,
      (pattern_literal_iff hlower).mp ht, hname.1.2⟩, hlogin.2, hname.2⟩
  · rintro ⟨⟨⟨hl, hlnul⟩, ⟨hf, hfnul⟩, ht, htnul⟩, hlogin, hname⟩
    have hl' := (pattern_literal_iff hlower).mpr hl
    have hf' := (pattern_literal_iff hlower).mpr hf
    have ht' := (pattern_literal_iff hlower).mpr ht
    refine ⟨?_, (byLogin_iff hfault hl').mpr ⟨hlnul, hlogin⟩,
      (byName_iff hfault hf' ht').mpr ⟨⟨hfnul, htnul⟩, hname⟩⟩
    simp only [List.forall_mem_cons, List.not_mem_nil, false_imp_iff, implies_true, and_true]
    exact ⟨hl', hf', ht'⟩

end Search

/-! ## One user -/

/-- Lower case without the letters of other alphabets. -/
theorem foldsLetters_toLower : FoldsLetters Char.toLower := by
  intro c s hs
  unfold Char.toLower
  split
  · rename_i hupper
    have hspecial : s.val.toNat = 37 ∨ s.val.toNat = 95 ∨ s.val.toNat = 92 := by
      simp only [Like.specials, List.mem_cons, List.not_mem_nil, or_false] at hs
      rcases hs with rfl | rfl | rfl
      · exact Or.inl rfl
      · exact Or.inr (Or.inl rfl)
      · exact Or.inr (Or.inr rfl)
    obtain ⟨hmin, hmax⟩ := hupper
    have hmin' : 65 ≤ c.val.toNat := hmin
    have hmax' : c.val.toNat ≤ 90 := hmax
    refine iff_of_false ?_ ?_
    · rintro rfl
      have hsum : (c.val + ('a'.val - 'A'.val)).toNat = c.val.toNat + 32 := by
        rw [UInt32.toNat_add]
        exact Nat.mod_eq_of_lt (Nat.lt_of_le_of_lt (Nat.add_le_add_right hmax' 32) (by decide))
      rw [show (Char.mk _ _).val = c.val + ('a'.val - 'A'.val) from rfl, hsum] at hspecial
      omega
    · rintro rfl
      omega
  · rfl

/-- The only user, her login in both cases. -/
def annWorld : World := Sample.oneUser { Sample.ann with login := "Ann" }

theorem annWorld_filled : ∀ r ∈ annWorld.db.users.rows, UserFilled r := by
  intro r hr
  rw [List.mem_singleton.mp hr]
  rfl

theorem masks_literal_iff_ann : MasksLiteral "an" "a" "" (fun _ => {}) annWorld := by
  refine (masks_literal_iff foldsLetters_toLower rfl).mpr
    ⟨by decide, ⟨by decide, ?_⟩, ⟨by decide, ?_⟩⟩
  · exact fun r hr => annWorld_filled r (List.mem_filter.mp hr).1
  · exact fun r hr => annWorld_filled r (List.mem_filter.mp hr).1

/-- A search for an underscore finds her. -/
theorem masks_fail :
    ((searchUsersByLogin "_").exec perform (fun _ => {}) annWorld).1 =
        .ok [⟨1, "Ann", "x", "Ann", "Lee", "ann@example.com", toTimePointTz 0, false⟩] ∧
      ¬MasksLiteral "_" "" "" (fun _ => {}) annWorld := by
  refine ⟨by decide, ?_⟩
  intro h
  have hann := (h.patterns "_" (by simp) "Ann").mp (by decide)
  exact absurd hann (by decide)

end MyService.Storage.SearchMasks
