import EventCalendar.Proofs.SortedRows
import Mathlib.Algebra.Order.Field.Rat
import Mathlib.Tactic.FieldSimp

/-!
# Sorting by any keys

An order may ask for any expressions as its keys, so its keys are cells of any kind:

* `Cell.compare_eq`: cells are ordered by kind, then by value, where a number is placed by its side
  among the infinite ones and then by magnitude. So this order is total and transitive.
* `compareRows` inherits that, whatever the keys are.
* `sortRows_filter`: **rows may be dropped before or after sorting**, as the ones of equal rank keep
  their order.
-/

set_option autoImplicit false

namespace EventCalendar

open Std (TransCmp OrientedCmp)

/-! ## Cells -/

namespace Cell

/-- The place of a number outside the finite ones. -/
def side : Cell → Int
  | .real .nan => -2
  | .real (.infinite true) => -1
  | .real (.infinite false) => 1
  | _ => 0

def magnitude : Cell → ℚ
  | .int i => i
  | .real x => x.numerator / x.denominator
  | _ => 0

def units : Cell → List Nat
  | .blob bytes => bytes.map UInt8.toNat
  | c => c.codes

theorem compareBytes_eq (a b : List UInt8) :
    compareBytes a b = Ord.compare (a.map UInt8.toNat) (b.map UInt8.toNat) := by
  induction a generalizing b with
  | nil => cases b <;> rfl
  | cons x a ih =>
    cases b with
    | nil => rfl
    | cons y b => rw [compareBytes, ih, List.map_cons, List.map_cons, List.compare_cons_cons]

theorem compare_div (i j : Int) {m n : Nat} (hm : 0 < m) (hn : 0 < n) :
    Ord.compare (i * n) (j * m) = Ord.compare (i / m : ℚ) (j / n : ℚ) := by
  have hm' : (0 : ℚ) < m := Nat.cast_pos.2 hm
  have hn' : (0 : ℚ) < n := Nat.cast_pos.2 hn
  have hi : ((i * n : Int) : ℚ) = i / m * (m * n) := by
    push_cast
    field_simp
  have hj : ((j * m : Int) : ℚ) = j / n * (m * n) := by
    push_cast
    field_simp
  rw [← cmp_eq_compare, ← cmp_eq_compare, ← Int.cast_strictMono.cmp_map_eq (β := ℚ), hi, hj,
    cmp_mul_pos_right (mul_pos hm' hn')]

/-- Numbers are ordered by side, then by magnitude. -/
def compareNumbers (x y : Cell) : Ordering :=
  (Ord.compare x.side y.side).then (Ord.compare x.magnitude y.magnitude)

instance : OrientedCmp compareNumbers :=
  inferInstanceAs (OrientedCmp (compareLex (compareOn side) (compareOn magnitude)))

theorem compareNumbers_of_magnitude (x y : Cell) (h : x.magnitude = y.magnitude) :
    compareNumbers x y = Ord.compare x.side y.side := by
  rw [compareNumbers, h, compare_eq_iff_eq.2 rfl, Ordering.then_eq]

theorem compareInt_eq_numbers (i j : Int) :
    Ord.compare i j = compareNumbers (.int i) (.int j) := by
  show _ = Ord.compare (i : ℚ) j
  rw [← cmp_eq_compare, ← cmp_eq_compare, Int.cast_strictMono.cmp_map_eq]

theorem compareIntReal_eq_numbers (i : Int) (x : Binary64) :
    compareIntReal i x = compareNumbers (.int i) (.real x) := by
  cases x with
  | finite negative m e =>
    have h := compare_div i (Binary64.finite negative m e).numerator Nat.one_pos
      (Binary64.denominator_pos (.finite negative m e))
    rw [Nat.cast_one, Nat.cast_one, mul_one, div_one] at h
    exact h
  | infinite negative => cases negative <;> rfl
  | nan => rfl

theorem compare_real_eq_numbers (x y : Binary64) :
    compare (.real x) (.real y) = compareNumbers (.real x) (.real y) := by
  cases x with
  | finite negative m e =>
    cases y with
    | finite negative' m' e' =>
      exact compare_div _ _ (Binary64.denominator_pos _) (Binary64.denominator_pos _)
    | infinite negative' => cases negative' <;> rfl
    | nan => rfl
  | infinite negative =>
    cases y with
    | finite => cases negative <;> rfl
    | infinite negative' =>
      rw [compareNumbers_of_magnitude (.real (.infinite negative)) (.real (.infinite negative')) rfl]
      cases negative <;> cases negative' <;> rfl
    | nan => cases negative <;> rfl
  | nan =>
    cases y with
    | finite => rfl
    | infinite negative => cases negative <;> rfl
    | nan => exact (compareNumbers_of_magnitude (.real .nan) (.real .nan) rfl).symm

theorem compare_of_rank_ne {x y : Cell} (h : x.rank ≠ y.rank) :
    x.compare y = Ord.compare x.rank y.rank := by
  cases x <;> cases y <;> first | rfl | exact absurd rfl h

theorem compare_of_rank_eq {x y : Cell} (h : x.rank = y.rank) :
    x.compare y = (compareNumbers x y).then (Ord.compare x.units y.units) := by
  have hnumbers : ∀ o : Ordering, o.then (Ord.compare ([] : List Nat) []) = o := fun _ =>
    Ordering.then_eq
  cases x with
  | null =>
    cases y with
    | null => rfl
    | _ => cases h
  | int i =>
    cases y with
    | int j => exact (compareInt_eq_numbers i j).trans (hnumbers _).symm
    | real y => exact (compareIntReal_eq_numbers i y).trans (hnumbers _).symm
    | _ => cases h
  | real x =>
    cases y with
    | int j =>
      have hswap : compareNumbers (.real x) (.int j) = (compareIntReal j x).swap := by
        rw [compareIntReal_eq_numbers]
        exact OrientedCmp.eq_swap
      exact hswap.symm.trans (hnumbers _).symm
    | real y => exact (compare_real_eq_numbers x y).trans (hnumbers _).symm
    | _ => cases h
  | text s =>
    cases y with
    | text u =>
      rw [compareNumbers_of_magnitude (.text s) (.text u) rfl]
      exact compareChars_eq _ _
    | _ => cases h
  | blob a =>
    cases y with
    | blob b =>
      rw [compareNumbers_of_magnitude (.blob a) (.blob b) rfl]
      exact compareBytes_eq _ _
    | _ => cases h

/-- **Cells are ordered** by kind, side, magnitude and units. -/
theorem compare_eq :
    compare = compareLex (compareOn rank) (compareLex (compareOn side)
      (compareLex (compareOn magnitude) (compareOn units))) := by
  funext x y
  show _ = (Ord.compare x.rank y.rank).then ((Ord.compare x.side y.side).then
    ((Ord.compare x.magnitude y.magnitude).then (Ord.compare x.units y.units)))
  by_cases h : x.rank = y.rank
  · rw [h, Nat.compare_eq_eq.2 rfl, Ordering.eq_then, ← Ordering.then_assoc]
    exact compare_of_rank_eq h
  · rw [compare_of_rank_ne h]
    rcases Nat.lt_or_gt_of_ne h with h | h
    · rw [Nat.compare_eq_lt.2 h]
      rfl
    · rw [Nat.compare_eq_gt.2 h]
      rfl

instance : TransCmp compare := by
  rw [compare_eq]
  infer_instance

end Cell

namespace Listing

open Sql (OrderTerm)

/-! ## Rows -/

section
variable {α β : Type}

theorem transCmp_comap (f : α → β) (cmp : β → β → Ordering) [h : TransCmp cmp] :
    TransCmp fun a b => cmp (f a) (f b) where
  eq_swap := h.eq_swap
  isLE_trans := h.isLE_trans

end

/-- The place of a null before or behind the other values, if a key has one. -/
def nullPlace : Option Bool → Cell → Nat
  | some true, .null => 0
  | some false, .null => 2
  | _, _ => 1

def compareDirected (term : OrderTerm) (a b : Cell) : Ordering :=
  if term.descending then b.compare a else a.compare b

theorem compareKeys_eq (term : OrderTerm) :
    compareKeys term = compareLex (compareOn (nullPlace term.nullsFirst)) (compareDirected term) := by
  funext a b
  obtain ⟨key, descending, nullsFirst⟩ := term
  rcases nullsFirst with _ | _ | _ <;> cases a <;> cases b <;> try rfl
  all_goals cases descending <;> rfl

instance (term : OrderTerm) : TransCmp (compareDirected term) := by
  unfold compareDirected
  cases term.descending with
  | true => exact inferInstanceAs (TransCmp fun a b => Cell.compare b a)
  | false => exact inferInstanceAs (TransCmp Cell.compare)

instance (term : OrderTerm) : TransCmp (compareKeys term) := by
  rw [compareKeys_eq]
  infer_instance

instance (order : List OrderTerm) : TransCmp (compareRows order) := by
  induction order with
  | nil => exact { eq_swap := rfl, isLE_trans := fun _ _ => rfl }
  | cons term order ih =>
    -- The first key decides, the others where it leaves two rows equal.
    have := transCmp_comap term.key.eval (compareKeys term)
    exact inferInstanceAs (TransCmp (compareLex
      (fun a b => compareKeys term (term.key.eval a) (term.key.eval b)) (compareRows order)))

/-! ## Sorting -/

/-- A list splits in one way at most into elements that fail a test and ones that pass it. -/
theorem filter_append_of_split {α : Type} {q : α → Bool} {front back : List α}
    (hfront : ∀ b ∈ front, q b = false) (hback : ∀ b ∈ back, q b = true) :
    (front ++ back).filter (fun b => !q b) = front ∧ (front ++ back).filter q = back := by
  constructor
  · rw [List.filter_append, List.filter_eq_self.2 (by simpa using hfront),
      List.filter_eq_nil_iff.2 (by simpa using hback), List.append_nil]
  · rw [List.filter_append, List.filter_eq_self.2 hback,
      List.filter_eq_nil_iff.2 (by simpa using hfront), List.nil_append]

section
variable {α : Type} {le : α → α → Bool}
  (htrans : ∀ a b c, le a b = true → le b c = true → le a c = true)
  (htotal : ∀ a b, (le a b || le b a) = true)
include htrans htotal

theorem exists_split (a : α) (xs : List α) :
    ∃ front back, xs.mergeSort le = front ++ back ∧ (a :: xs).mergeSort le = front ++ a :: back ∧
      (∀ b ∈ front, le a b = false) ∧ ∀ b ∈ back, le a b = true := by
  obtain ⟨front, back, hcons, hxs, hfront⟩ := List.mergeSort_cons htrans htotal a xs
  have hsorted := List.pairwise_mergeSort htrans htotal (a :: xs)
  rw [hcons] at hsorted
  refine ⟨front, back, hxs, hcons, fun b hb => by simpa using hfront b hb, ?_⟩
  exact (List.pairwise_cons.1 (List.pairwise_append.1 hsorted).2.1).1

/-- A sorted list splits in one place only where a further element goes. -/
theorem mergeSort_cons_eq {a : α} {xs front back : List α} (hxs : xs.mergeSort le = front ++ back)
    (hfront : ∀ b ∈ front, le a b = false) (hback : ∀ b ∈ back, le a b = true) :
    (a :: xs).mergeSort le = front ++ a :: back := by
  obtain ⟨front', back', hxs', hcons, hfront', hback'⟩ := exists_split htrans htotal a xs
  obtain ⟨hf, hb⟩ := filter_append_of_split hfront hback
  obtain ⟨hf', hb'⟩ := filter_append_of_split hfront' hback'
  rw [← hxs, hxs'] at hf hb
  rw [hcons, ← hf, ← hb, hf', hb']

/-- **Sorting and dropping elements commute.** -/
theorem mergeSort_filter (p : α → Bool) (xs : List α) :
    (xs.filter p).mergeSort le = (xs.mergeSort le).filter p := by
  induction xs with
  | nil => simp
  | cons a xs ih =>
    -- Dropping elements leaves the place where the head goes.
    obtain ⟨front, back, hxs, hcons, hfront, hback⟩ := exists_split htrans htotal a xs
    rw [hxs, List.filter_append] at ih
    rw [hcons, List.filter_append]
    cases hp : p a with
    | true =>
      rw [List.filter_cons_of_pos hp, List.filter_cons_of_pos hp]
      exact mergeSort_cons_eq htrans htotal ih (fun b hb => hfront b (List.mem_of_mem_filter hb))
        fun b hb => hback b (List.mem_of_mem_filter hb)
    | false =>
      rw [List.filter_cons_of_neg (by simp [hp]), List.filter_cons_of_neg (by simp [hp]), ih]

end

theorem sortRows_filter (order : List OrderTerm) (p : Row → Bool) (rows : List Row) :
    sortRows order (rows.filter p) = (sortRows order rows).filter p := by
  have hle : (fun a b => compareRows order a b != .gt) = fun a b => (compareRows order a b).isLE := by
    funext a b
    cases compareRows order a b <;> rfl
  unfold sortRows
  rw [hle]
  refine mergeSort_filter (fun a b c => TransCmp.isLE_trans) (fun a b => ?_) p rows
  have hswap : compareRows order b a = (compareRows order a b).swap := OrientedCmp.eq_swap
  rw [hswap]
  cases compareRows order a b <;> rfl

end Listing

end EventCalendar
