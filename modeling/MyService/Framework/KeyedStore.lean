import Mathlib.Data.List.Basic
import Mathlib.Data.List.Forall2
import Mathlib.Data.List.Nodup

/-!
# Keyed stores

Values under distinct keys, in the order they were inserted. `Represents` relates a store
to a list of elements of another kind, entry by entry and in the same order: `rep k v d`
says that the element `d` stands for the value `v` under `k`. Looking a key up, inserting,
changing and erasing on either side then go together, given that an element tells its key.
-/

namespace Framework

structure KeyedStore (K V : Type) where
  entries : List (K × V)
  keys_nodup : (entries.map Prod.fst).Nodup

namespace KeyedStore

variable {K V D : Type} [DecidableEq K]

def empty : KeyedStore K V := ⟨[], List.nodup_nil⟩

/-- Whether an entry is under the key. -/
def under (k : K) (e : K × V) : Bool := e.1 = k

omit [DecidableEq K] in
theorem nodup_snoc {entries : List (K × V)} (h : (entries.map Prod.fst).Nodup) {k : K}
    (hk : k ∉ entries.map Prod.fst) (v : V) : ((entries ++ [(k, v)]).map Prod.fst).Nodup := by
  rw [List.map_append]
  exact List.Nodup.append h (List.nodup_singleton k) (by simpa using hk)

/-- A new entry goes to the end; a key that is taken is refused. -/
def insert? (s : KeyedStore K V) (k : K) (v : V) : Option (KeyedStore K V) :=
  if h : k ∈ s.entries.map Prod.fst then none
  else some ⟨s.entries ++ [(k, v)], nodup_snoc s.keys_nodup h v⟩

def get? (s : KeyedStore K V) (k : K) : Option V := (s.entries.find? (under k)).map Prod.snd

theorem keys_map_modify (entries : List (K × V)) (k : K) (f : V → V) :
    (entries.map fun e => if under k e then (e.1, f e.2) else e).map Prod.fst =
      entries.map Prod.fst := by
  rw [List.map_map]
  refine List.map_congr_left fun e _ => ?_
  by_cases he : under k e <;> simp [he]

/-- Replace the value under the key, in its place. -/
def modify (s : KeyedStore K V) (k : K) (f : V → V) : KeyedStore K V where
  entries := s.entries.map fun e => if under k e then (e.1, f e.2) else e
  keys_nodup := by
    rw [keys_map_modify]
    exact s.keys_nodup

/-- Replace the value under the key, or insert it. -/
def assign (s : KeyedStore K V) (k : K) (v : V) : KeyedStore K V :=
  (s.insert? k v).getD (s.modify k fun _ => v)

theorem assign_of_not_mem (s : KeyedStore K V) {k : K} (hk : k ∉ s.entries.map Prod.fst) (v : V) :
    (s.assign k v).entries = s.entries ++ [(k, v)] := by
  rw [assign, insert?, dif_neg hk]
  rfl

theorem modify_entries_of_not_mem {entries : List (K × V)} {k : K}
    (hk : k ∉ entries.map Prod.fst) (f : V → V) :
    (entries.map fun e => if under k e then (e.1, f e.2) else e) = entries := by
  refine (List.map_congr_left fun e he => ?_).trans (List.map_id _)
  have hne : e.1 ≠ k := fun heq => hk (List.mem_map.mpr ⟨e, he, heq⟩)
  simp [under, hne]

theorem modify_of_not_mem (s : KeyedStore K V) {k : K} (hk : k ∉ s.entries.map Prod.fst)
    (f : V → V) : s.modify k f = s := by
  cases s
  simp only [modify, KeyedStore.mk.injEq]
  exact modify_entries_of_not_mem hk f

def keys (s : KeyedStore K V) : List K := s.entries.map Prod.fst

theorem keys_modify (s : KeyedStore K V) (k : K) (f : V → V) : (s.modify k f).keys = s.keys :=
  keys_map_modify s.entries k f

theorem keys_insert? {s s' : KeyedStore K V} {k : K} {v : V} (h : s.insert? k v = some s') :
    s'.keys = s.keys ++ [k] := by
  unfold insert? at h
  split at h
  · exact absurd h (by simp)
  · obtain rfl := Option.some.inj h
    simp [keys]

def erase (s : KeyedStore K V) (k : K) : KeyedStore K V where
  entries := s.entries.eraseP (under k)
  keys_nodup := s.keys_nodup.sublist (List.eraseP_sublist.map _)

/-- The values that satisfy `p`, oldest first. -/
def valuesWhere (s : KeyedStore K V) (p : V → Bool) : List V :=
  (s.entries.map Prod.snd).filter p

/-! ## Representation -/

/-- The elements stand for the entries, one by one. -/
def Represents (rep : K → V → D → Prop) (s : KeyedStore K V) (elems : List D) : Prop :=
  List.Forall₂ (fun e d => rep e.1 e.2 d) s.entries elems

/-- An element tells the key it is under. -/
def TellsKey (rep : K → V → D → Prop) (hasKey : K → D → Bool) : Prop :=
  ∀ e d k, rep e.1 e.2 d → hasKey k d = under k e

section Represents

variable {rep : K → V → D → Prop} {hasKey : K → D → Bool} {s : KeyedStore K V} {elems : List D}

omit [DecidableEq K] in
theorem represents_empty : Represents rep (empty : KeyedStore K V) [] := List.Forall₂.nil

omit [DecidableEq K] in
theorem Represents.rep_of_mem (h : Represents rep s elems) {d : D} (hd : d ∈ elems) :
    ∃ k v, rep k v d := by
  unfold Represents at h
  revert h
  generalize s.entries = entries
  intro h
  induction h with
  | nil => exact absurd hd List.not_mem_nil
  | @cons e _ _ _ hrep _ ih =>
      rcases List.mem_cons.mp hd with rfl | htail
      · exact ⟨e.1, e.2, hrep⟩
      · exact ih htail

/-- Two lists that correspond find corresponding elements. -/
theorem find?_forall₂ (htells : TellsKey rep hasKey) {entries : List (K × V)} (k : K)
    (h : List.Forall₂ (fun e d => rep e.1 e.2 d) entries elems) :
    Option.Rel (fun e d => e.1 = k ∧ rep k e.2 d) (entries.find? (under k))
      (elems.find? (hasKey k)) := by
  induction h with
  | nil => exact .none
  | @cons e d entries elems hrep _ ih =>
      rw [List.find?_cons, List.find?_cons, htells e d k hrep]
      cases hk : under k e with
      | true =>
          obtain rfl : e.1 = k := by simpa [under] using hk
          exact .some ⟨rfl, hrep⟩
      | false => exact ih

theorem Represents.get? (h : Represents rep s elems) (htells : TellsKey rep hasKey) (k : K) :
    Option.Rel (rep k) (s.get? k) (elems.find? (hasKey k)) := by
  have hfind := find?_forall₂ htells k h
  unfold KeyedStore.get?
  revert hfind
  generalize s.entries.find? (under k) = x
  generalize elems.find? (hasKey k) = y
  rintro (⟨_, hrep⟩ | _)
  · exact .some hrep
  · exact .none

theorem mem_keys_forall₂ (htells : TellsKey rep hasKey) {entries : List (K × V)} (k : K)
    (h : List.Forall₂ (fun e d => rep e.1 e.2 d) entries elems) :
    k ∈ entries.map Prod.fst ↔ ∃ d ∈ elems, hasKey k d = true := by
  induction h with
  | nil => simp
  | @cons e d entries elems hrep _ ih =>
      rw [List.map_cons, List.mem_cons, ih, List.exists_mem_cons_iff, htells e d k hrep]
      refine or_congr_left ?_
      simp only [under, decide_eq_true_eq]
      exact eq_comm

theorem Represents.insert?_eq_none (h : Represents rep s elems) (htells : TellsKey rep hasKey)
    {k : K} (v : V) : s.insert? k v = none ↔ ∃ d ∈ elems, hasKey k d = true := by
  rw [← mem_keys_forall₂ htells k h]
  unfold KeyedStore.insert?
  split <;> simp_all

theorem Represents.insert? (h : Represents rep s elems) {k : K} {v : V} {d : D}
    (hrep : rep k v d) {s' : KeyedStore K V} (hinsert : s.insert? k v = some s') :
    Represents rep s' (elems ++ [d]) := by
  unfold KeyedStore.insert? at hinsert
  split at hinsert
  · exact absurd hinsert (by simp)
  · obtain rfl := Option.some.inj hinsert
    exact List.rel_append h (.cons hrep .nil)

omit [DecidableEq K] in
theorem Represents.valuesWhere (h : Represents rep s elems) {p : V → Bool} {q : D → Bool}
    (hpq : ∀ k v d, rep k v d → p v = q d) :
    List.Forall₂ (fun v d => ∃ k, rep k v d) (s.valuesWhere p) (elems.filter q) := by
  refine List.rel_filter (R := fun v d => ∃ k, rep k v d) ?_ ?_
  · rintro v d ⟨k, hrep⟩
    simp only [hpq k v d hrep]
  · rw [List.forall₂_map_left_iff]
    exact h.imp fun e d hrep => ⟨e.1, hrep⟩

theorem eraseP_forall₂ (htells : TellsKey rep hasKey) {entries : List (K × V)} (k : K)
    (h : List.Forall₂ (fun e d => rep e.1 e.2 d) entries elems) :
    List.Forall₂ (fun e d => rep e.1 e.2 d) (entries.eraseP (under k))
      (elems.eraseP (hasKey k)) := by
  induction h with
  | nil => exact .nil
  | @cons e d entries elems hrep hrest ih =>
      rw [List.eraseP_cons, List.eraseP_cons, htells e d k hrep]
      cases under k e with
      | true => exact hrest
      | false => exact .cons hrep ih

theorem Represents.erase (h : Represents rep s elems) (htells : TellsKey rep hasKey) (k : K) :
    Represents rep (s.erase k) (elems.eraseP (hasKey k)) :=
  eraseP_forall₂ htells k h

theorem modify_forall₂ (htells : TellsKey rep hasKey) {pre post : List D} {d d' : D} {k : K}
    {f : V → V} (hd : hasKey k d = true) (hrep : ∀ v, rep k v d → rep k (f v) d') :
    ∀ {entries : List (K × V)}, (entries.map Prod.fst).Nodup →
      List.Forall₂ (fun e d => rep e.1 e.2 d) entries (pre ++ d :: post) →
      List.Forall₂ (fun e d => rep e.1 e.2 d)
        (entries.map fun e => if under k e then (e.1, f e.2) else e) (pre ++ d' :: post) := by
  induction pre with
  | nil =>
      rintro _ hnodup (_ | ⟨hhead, htail⟩)
      rename_i e entries
      have hk : e.1 = k := by simpa [under, htells e d k hhead] using hd
      -- the keys are distinct, so the rest stays
      subst hk
      rw [List.map_cons, modify_entries_of_not_mem (List.nodup_cons.mp hnodup).1]
      exact .cons (by simpa [under] using hrep _ hhead) htail
  | cons d₀ pre ih =>
      rintro _ hnodup (_ | ⟨hhead, htail⟩)
      rename_i e entries
      have hk : k ∈ entries.map Prod.fst :=
        (mem_keys_forall₂ htells k htail).mpr ⟨d, by simp, hd⟩
      have hne : e.1 ≠ k := fun heq => (List.nodup_cons.mp hnodup).1 (heq ▸ hk)
      rw [List.map_cons]
      exact .cons (by simpa [under, hne] using hhead) (ih (List.nodup_cons.mp hnodup).2 htail)

/-- A key that no element is under. -/
theorem Represents.modify_absent (h : Represents rep s elems) (htells : TellsKey rep hasKey)
    {k : K} (hk : ∀ d ∈ elems, ¬hasKey k d = true) (f : V → V) :
    Represents rep (s.modify k f) elems := by
  have hmem : k ∉ s.entries.map Prod.fst := by
    rw [mem_keys_forall₂ htells k h]
    rintro ⟨d, hd, hkey⟩
    exact hk d hd hkey
  rwa [modify_of_not_mem s hmem]

/-- Changing one element changes one entry. -/
theorem Represents.modify {pre post : List D} {d d' : D} {k : K} {f : V → V}
    (h : Represents rep s (pre ++ d :: post)) (htells : TellsKey rep hasKey)
    (hd : hasKey k d = true) (hrep : ∀ v, rep k v d → rep k (f v) d') :
    Represents rep (s.modify k f) (pre ++ d' :: post) :=
  modify_forall₂ htells hd hrep s.keys_nodup h

end Represents

end KeyedStore

end Framework
