import MyService.Userver.Postgres
import Mathlib.Data.List.Infix
import Mathlib.Data.Set.List

/-!
# What a LIKE pattern matches

Between two `%`, a pattern without special characters is looked for as it is. One with a
special character also matches a text that is too short, or too different, to contain it
(`shortest`).
-/

namespace MyService.Userver.Postgres.Like

open Database (like)

-- the equations of `like`, derived once here and not in each proof below
attribute [local grind =] like

/-- The characters that LIKE does not take as they are. -/
def specials : List Char := ['%', '_', '\\']

/-- `%` -/
theorem like_percent {pattern text : List Char} :
    like ('%' :: pattern) text = true ↔ ∃ rest, rest <:+ text ∧ like pattern rest = true := by
  rw [like, List.any_eq_true]
  simp only [List.mem_tails]

theorem like_backslash {pattern rest : List Char} {c : Char} :
    like ('\\' :: c :: pattern) (c :: rest) = like pattern rest := by
  rw [like]
  simp

/-- Any other character. -/
theorem like_plain {pattern text : List Char} {c : Char} (h : c ∉ specials) :
    like (c :: pattern) text = true ↔ ∃ rest, text = c :: rest ∧ like pattern rest = true := by
  simp only [specials, List.mem_cons, List.not_mem_nil, or_false, not_or] at h
  obtain ⟨hpercent, hunderscore, hbackslash⟩ := h
  have hescape : ∀ c' pattern', c = '\\' → pattern = c' :: pattern' → False :=
    fun _ _ heq _ => hbackslash heq
  cases text with
  | nil =>
      rw [like]
      · simp
      · exact hpercent
      · exact hunderscore
      · exact hescape
  | cons c' rest =>
      rw [like]
      · simp only [Bool.and_eq_true, decide_eq_true_eq, List.cons.injEq]
        constructor
        · rintro ⟨rfl, hrest⟩
          exact ⟨rest, ⟨rfl, rfl⟩, hrest⟩
        · rintro ⟨_, ⟨rfl, rfl⟩, hrest⟩
          exact ⟨rfl, hrest⟩
      · exact hpercent
      · exact hunderscore
      · exact hescape

theorem like_nil {text : List Char} : like [] text = true ↔ text = [] := by
  rw [like, List.isEmpty_iff]

/-- Before a last `%`, a pattern without specials is a prefix. -/
theorem like_literal_prefixed {pattern text : List Char} (h : ∀ c ∈ pattern, c ∉ specials) :
    like (pattern ++ ['%']) text = true ↔ pattern <+: text := by
  induction pattern generalizing text with
  | nil =>
      rw [List.nil_append, like_percent]
      exact iff_of_true ⟨[], List.nil_suffix, like_nil.mpr rfl⟩ List.nil_prefix
  | cons c pattern ih =>
      rw [List.cons_append, like_plain (h c List.mem_cons_self)]
      constructor
      · rintro ⟨rest, rfl, hrest⟩
        rw [List.cons_prefix_cons]
        exact ⟨rfl, (ih fun c' hc' => h c' (List.mem_cons_of_mem _ hc')).mp hrest⟩
      · rintro ⟨post, rfl⟩
        refine ⟨pattern ++ post, rfl, ?_⟩
        exact (ih fun c' hc' => h c' (List.mem_cons_of_mem _ hc')).mpr
          (List.prefix_append _ _)

/-- **Between two `%`** it is a substring. -/
theorem like_infix {pattern text : List Char} (h : ∀ c ∈ pattern, c ∉ specials) :
    like ('%' :: (pattern ++ ['%'])) text = true ↔ pattern <:+: text := by
  rw [like_percent, List.infix_iff_prefix_suffix]
  constructor
  · rintro ⟨rest, hsuffix, hrest⟩
    exact ⟨rest, (like_literal_prefixed h).mp hrest, hsuffix⟩
  · rintro ⟨rest, hprefix, hsuffix⟩
    exact ⟨rest, hsuffix, (like_literal_prefixed h).mpr hprefix⟩

/-! ## A text that matches without containing the pattern -/

/-- The shortest text that a pattern and a `%` after it match, with `c` for each `_`. -/
def shortest (c : Char) : List Char → List Char
  | [] => []
  | '%' :: pattern => shortest c pattern
  | '_' :: pattern => c :: shortest c pattern
  | '\\' :: c' :: pattern => c' :: shortest c pattern
  | ['\\'] => ['%']
  | c' :: pattern => c' :: shortest c pattern

theorem shortest_plain {c c' : Char} (h : c' ∉ specials) (pattern : List Char) :
    shortest c (c' :: pattern) = c' :: shortest c pattern := by
  simp only [specials, List.mem_cons, List.not_mem_nil, or_false, not_or] at h
  obtain ⟨hpercent, hunderscore, hbackslash⟩ := h
  rw [shortest]
  · exact hpercent
  · exact hunderscore
  · exact fun _ _ heq _ => hbackslash heq
  · exact fun heq _ => hbackslash heq

/-- The fourth case of `shortest`. -/
theorem not_mem_specials {c : Char} {pattern : List Char} (hpercent : c = '%' → False)
    (hunderscore : c = '_' → False)
    (hescape : ∀ c' pattern', c = '\\' → pattern = c' :: pattern' → False)
    (hbackslash : c = '\\' → pattern = [] → False) : c ∉ specials := by
  simp only [specials, List.mem_cons, List.not_mem_nil, or_false, not_or]
  refine ⟨hpercent, hunderscore, fun heq => ?_⟩
  cases pattern with
  | nil => exact hbackslash heq rfl
  | cons c' pattern' => exact hescape c' pattern' heq rfl

theorem like_shortest (c : Char) (pattern : List Char) :
    like (pattern ++ ['%']) (shortest c pattern) = true := by
  induction pattern using shortest.induct with
  | case1 => exact like_percent.mpr ⟨[], List.nil_suffix, rfl⟩
  | case2 pattern ih =>
      rw [List.cons_append, like_percent]
      exact ⟨_, List.suffix_rfl, ih⟩
  | case3 pattern ih => exact ih
  | case4 c' pattern ih => exact like_backslash.trans ih
  | case5 => rfl
  | case6 c' pattern hpercent hunderscore hescape hbackslash ih =>
      have hplain := not_mem_specials hpercent hunderscore hescape hbackslash
      rw [shortest_plain hplain, List.cons_append, like_plain hplain]
      exact ⟨_, rfl, ih⟩

theorem length_shortest_le (c : Char) (pattern : List Char) :
    (shortest c pattern).length ≤ pattern.length := by
  induction pattern using shortest.induct with
  | case1 => exact Nat.le_refl _
  | case2 pattern ih => exact Nat.le_succ_of_le ih
  | case3 pattern ih => exact Nat.succ_le_succ ih
  | case4 c' pattern ih => exact Nat.le_succ_of_le (Nat.succ_le_succ ih)
  | case5 => exact Nat.le_refl _
  | case6 c' pattern hpercent hunderscore hescape hbackslash ih =>
      rw [shortest_plain (not_mem_specials hpercent hunderscore hescape hbackslash)]
      exact Nat.succ_le_succ ih

/-- Only a pattern without specials is its own shortest match. -/
theorem plain_of_shortest_eq {c : Char} (hc : c ≠ '_') {pattern : List Char}
    (h : shortest c pattern = pattern) : ∀ c' ∈ pattern, c' ∉ specials := by
  induction pattern using shortest.induct with
  | case1 => simp
  | case2 pattern ih =>
      have hlength := length_shortest_le c pattern
      have hsame := congrArg List.length (show shortest c pattern = '%' :: pattern from h)
      rw [List.length_cons] at hsame
      omega
  | case3 pattern ih =>
      exact absurd (List.cons.inj (show c :: shortest c pattern = '_' :: pattern from h)).1 hc
  | case4 c' pattern ih =>
      have hlength := length_shortest_le c pattern
      have hsame := congrArg List.length
        (show c' :: shortest c pattern = '\\' :: c' :: pattern from h)
      rw [List.length_cons, List.length_cons, List.length_cons] at hsame
      omega
  | case5 => exact absurd (show ['%'] = ['\\'] from h) (by decide)
  | case6 c' pattern hpercent hunderscore hescape hbackslash ih =>
      have hplain := not_mem_specials hpercent hunderscore hescape hbackslash
      rw [shortest_plain hplain] at h
      rw [List.forall_mem_cons]
      exact ⟨hplain, ih (List.cons.inj h).2⟩

/-- Its characters are those of the pattern, `c` and `%`. -/
theorem mem_shortest {c : Char} {pattern : List Char} {c' : Char} (h : c' ∈ shortest c pattern) :
    c' ∈ pattern ∨ c' = c ∨ c' = '%' := by
  induction pattern using shortest.induct with
  | case1 => exact absurd h (by simp [shortest])
  | case2 pattern ih =>
      rcases ih h with hmem | hrest
      · exact Or.inl (List.mem_cons_of_mem _ hmem)
      · exact Or.inr hrest
  | case3 pattern ih =>
      rcases List.mem_cons.mp h with rfl | htail
      · exact Or.inr (Or.inl rfl)
      · rcases ih htail with hmem | hrest
        · exact Or.inl (List.mem_cons_of_mem _ hmem)
        · exact Or.inr hrest
  | case4 c'' pattern ih =>
      rcases List.mem_cons.mp h with rfl | htail
      · exact Or.inl (by simp)
      · rcases ih htail with hmem | hrest
        · exact Or.inl (by simp [hmem])
        · exact Or.inr hrest
  | case5 => exact Or.inr (Or.inr (List.mem_singleton.mp h))
  | case6 c'' pattern hpercent hunderscore hescape hbackslash ih =>
      rw [shortest_plain (not_mem_specials hpercent hunderscore hescape hbackslash)] at h
      rcases List.mem_cons.mp h with rfl | htail
      · exact Or.inl List.mem_cons_self
      · rcases ih htail with hmem | hrest
        · exact Or.inl (List.mem_cons_of_mem _ hmem)
        · exact Or.inr hrest

/-- **A pattern with a special** does not occur in its shortest match. -/
theorem not_infix_shortest {c : Char} (hc : c ≠ '_') {pattern : List Char}
    (h : ¬∀ c' ∈ pattern, c' ∉ specials) : ¬pattern <:+: shortest c pattern := by
  intro hinfix
  have heq := hinfix.eq_of_length_le (length_shortest_le c pattern)
  exact h (plain_of_shortest_eq hc heq.symm)

end MyService.Userver.Postgres.Like
