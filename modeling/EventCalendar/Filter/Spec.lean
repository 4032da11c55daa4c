/-!
# Filters of one dimension

A filter selects no entity of its dimension, all of them, or those with given ids. The ids form a
set, kept as a strictly ascending list, so filters with the same ids are equal.
-/

set_option autoImplicit false

namespace EventCalendar

/-- A finite set of ids: a strictly ascending list. -/
structure IdSet where
  toList : List Int
  ascending : toList.Pairwise (· < ·)
  deriving DecidableEq, Repr

namespace IdSet

/-- Puts an id into an ascending list, unless it is there. -/
def insertAscending (i : Int) : List Int → List Int
  | [] => [i]
  | j :: rest =>
    if i < j then i :: j :: rest
    else if i = j then j :: rest
    else j :: insertAscending i rest

theorem mem_insertAscending {i k : Int} {ids : List Int} :
    k ∈ insertAscending i ids ↔ k = i ∨ k ∈ ids := by
  induction ids with
  | nil => simp [insertAscending]
  | cons j rest ih =>
    simp only [insertAscending]
    split
    · simp
    · split
      · rename_i h
        subst h
        simp
      · simp only [List.mem_cons, ih]
        constructor
        · rintro (h | h | h)
          · exact .inr (.inl h)
          · exact .inl h
          · exact .inr (.inr h)
        · rintro (h | h | h)
          · exact .inr (.inl h)
          · exact .inl h
          · exact .inr (.inr h)

theorem pairwise_insertAscending {i : Int} {ids : List Int} (h : ids.Pairwise (· < ·)) :
    (insertAscending i ids).Pairwise (· < ·) := by
  induction ids with
  | nil => simp [insertAscending]
  | cons j rest ih =>
    obtain ⟨hj, hrest⟩ := List.pairwise_cons.1 h
    simp only [insertAscending]
    split
    · rename_i hij
      refine List.pairwise_cons.2 ⟨fun k hk => ?_, h⟩
      rcases List.mem_cons.1 hk with rfl | hk
      · exact hij
      · exact Int.lt_trans hij (hj k hk)
    · split
      · exact h
      · refine List.pairwise_cons.2 ⟨fun k hk => ?_, ih hrest⟩
        rcases mem_insertAscending.1 hk with rfl | hk
        · omega
        · exact hj k hk

def empty : IdSet := ⟨[], .nil⟩

def insert (i : Int) (s : IdSet) : IdSet :=
  ⟨insertAscending i s.toList, pairwise_insertAscending s.ascending⟩

def ofList (ids : List Int) : IdSet := ids.foldr insert empty

@[simp] theorem toList_empty : empty.toList = [] := rfl

theorem mem_toList_insert {i k : Int} {s : IdSet} :
    k ∈ (s.insert i).toList ↔ k = i ∨ k ∈ s.toList := mem_insertAscending

theorem mem_toList_ofList {k : Int} {ids : List Int} : k ∈ (ofList ids).toList ↔ k ∈ ids := by
  induction ids with
  | nil => simp [ofList]
  | cons i rest ih =>
    simp only [ofList, List.foldr_cons, mem_toList_insert, List.mem_cons] at ih ⊢
    exact or_congr_right ih

theorem ext_mem {s t : IdSet} (h : ∀ i, i ∈ s.toList ↔ i ∈ t.toList) : s = t := by
  obtain ⟨s, hs⟩ := s
  obtain ⟨t, ht⟩ := t
  congr 1
  simp only at h
  induction s generalizing t with
  | nil =>
    cases t with
    | nil => rfl
    | cons j t => exact absurd ((h j).2 (List.mem_cons_self ..)) (by simp)
  | cons i s ih =>
    cases t with
    | nil => exact absurd ((h i).1 (List.mem_cons_self ..)) (by simp)
    | cons j t =>
      obtain ⟨his, hs'⟩ := List.pairwise_cons.1 hs
      obtain ⟨hjt, ht'⟩ := List.pairwise_cons.1 ht
      have hij : i = j := by
        rcases List.mem_cons.1 ((h i).1 (List.mem_cons_self ..)) with h1 | h1
        · exact h1
        · rcases List.mem_cons.1 ((h j).2 (List.mem_cons_self ..)) with h2 | h2
          · exact h2.symm
          · have := hjt i h1
            have := his j h2
            omega
      subst hij
      have : s = t := ih hs' t ht' fun k => by
        constructor
        · intro hk
          rcases List.mem_cons.1 ((h k).1 (List.mem_cons_of_mem _ hk)) with h1 | h1
          · have := his k hk; omega
          · exact h1
        · intro hk
          rcases List.mem_cons.1 ((h k).2 (List.mem_cons_of_mem _ hk)) with h1 | h1
          · have := hjt k hk; omega
          · exact h1
      rw [this]

end IdSet

inductive FilterMode
  | none
  | all
  | specific
  deriving DecidableEq, Repr

def FilterMode.name : FilterMode → String
  | .none => "none"
  | .all => "all"
  | .specific => "specific"

/-- The filter of one dimension. The ids count only in the mode `specific`; filters built by hand
may carry ids in any mode, or none in that one. -/
structure FilterSpec where
  mode : FilterMode
  ids : IdSet
  deriving DecidableEq, Repr

namespace FilterSpec

def nobody : FilterSpec := ⟨.none, .empty⟩

def everyone : FilterSpec := ⟨.all, .empty⟩

def ofIds (ids : List Int) : FilterSpec := ⟨.specific, .ofList ids⟩

/-- The filter selects nothing, whatever its ids. -/
def isNone (f : FilterSpec) : Bool := f.mode == .none

end FilterSpec

end EventCalendar
