/-!
# Dimensions

The four dimensions of the calendar, in the order in which they are looked at: users, groups,
courses and categories. `ByDimension α` holds one thing of type `α` for each.
-/

set_option autoImplicit false

namespace EventCalendar

/-- What an event can belong to. -/
inductive Dimension
  | users
  | groups
  | courses
  | categories
  deriving DecidableEq, Repr

/-- The name of a dimension, as callers and messages give it. -/
def Dimension.name : Dimension → String
  | .users => "users"
  | .groups => "groups"
  | .courses => "courses"
  | .categories => "categories"

def Dimension.all : List Dimension := [.users, .groups, .courses, .categories]

theorem Dimension.mem_all (d : Dimension) : d ∈ all := by cases d <;> decide

/-- One thing for each dimension. -/
structure ByDimension (α : Type) where
  users : α
  groups : α
  courses : α
  categories : α
  deriving DecidableEq, Repr

namespace ByDimension

variable {α β ε : Type}

def get (x : ByDimension α) : Dimension → α
  | .users => x.users
  | .groups => x.groups
  | .courses => x.courses
  | .categories => x.categories

def replicate (a : α) : ByDimension α := ⟨a, a, a, a⟩

def toList (x : ByDimension α) : List α := [x.users, x.groups, x.courses, x.categories]

/-- Applies a fallible function in the order of the dimensions; the first error is the result. -/
def traverse (f : Dimension → α → Except ε β) (x : ByDimension α) : Except ε (ByDimension β) := do
  let users ← f .users x.users
  let groups ← f .groups x.groups
  let courses ← f .courses x.courses
  let categories ← f .categories x.categories
  pure ⟨users, groups, courses, categories⟩

@[simp] theorem get_replicate (a : α) (d : Dimension) : (replicate a).get d = a := by
  cases d <;> rfl

theorem traverse_eq_ok_iff {f : Dimension → α → Except ε β} {x : ByDimension α}
    {y : ByDimension β} :
    x.traverse f = .ok y ↔ ∀ d, f d (x.get d) = .ok (y.get d) := by
  obtain ⟨u, g, c, k⟩ := x
  obtain ⟨u', g', c', k'⟩ := y
  constructor
  · intro h d
    simp only [traverse, bind, Except.bind, pure, Except.pure] at h
    split at h <;> try contradiction
    split at h <;> try contradiction
    split at h <;> try contradiction
    split at h <;> try contradiction
    injection h with h
    injection h with h1 h2 h3 h4
    subst h1 h2 h3 h4
    cases d <;> assumption
  · intro h
    have hu := h .users
    have hg := h .groups
    have hc := h .courses
    have hk := h .categories
    simp only [get] at hu hg hc hk
    simp [traverse, hu, hg, hc, hk, bind, Except.bind, pure, Except.pure]

end ByDimension

end EventCalendar
