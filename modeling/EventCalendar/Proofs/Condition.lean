import EventCalendar.Listing.Predicate

/-!
# Conditions on typed columns

What the comparisons of a listing say where the compared cells are of their declared types:

* `compareChars_eq_iff`: two texts compare as equal exactly if they are the same text.
* `holds_conjunction`, `holds_disjunction`: a list of conditions as one.
* `holds_eq_int`, `holds_ne_int`, `holds_among_ints`: a number column against integers.
* `compareCells_eq_int`, `compareCells_eq_text`: equality with an integer and with a text.
-/

set_option autoImplicit false

namespace EventCalendar

/-! ## Cells of one kind -/

namespace Cell

theorem compareChars_eq_iff {a b : List Char} : compareChars a b = .eq ↔ a = b := by
  induction a generalizing b with
  | nil => cases b <;> simp [compareChars]
  | cons x a ih =>
    cases b with
    | nil => simp [compareChars]
    | cons y b =>
      simp only [compareChars, Ordering.then_eq_eq, ih, List.cons.injEq, Nat.compare_eq_eq]
      exact and_congr_left fun _ => Char.toNat_inj

theorem compare_text_eq_iff {a b : String} :
    (Cell.text a).compare (.text b) = .eq ↔ a = b := by
  simp only [compare, compareChars_eq_iff]
  exact String.toList_inj

theorem compare_int_eq_iff {a b : Int} : (Cell.int a).compare (.int b) = .eq ↔ a = b := by
  simp [compare]

end Cell

namespace Expr

/-! ## Several conditions as one -/

theorem holds_and (row : Row) (a b : Expr) :
    (Expr.and a b).holds row = (a.holds row && b.holds row) := by
  simp [holds]

theorem holds_or (row : Row) (a b : Expr) :
    (Expr.or a b).holds row = (a.holds row || b.holds row) := by
  simp [holds]

theorem holds_conjunction (row : Row) (es : List Expr) :
    (conjunction es).holds row = es.all (·.holds row) := by
  induction es with
  | nil => rfl
  | cons e es ih =>
    cases es with
    | nil => simp [conjunction]
    | cons d es =>
      rw [show conjunction (e :: d :: es) = .and e (conjunction (d :: es)) from rfl, holds_and, ih]
      rfl

theorem holds_disjunction (row : Row) (es : List Expr) :
    (disjunction es).holds row = es.any (·.holds row) := by
  induction es with
  | nil => rfl
  | cons e es ih =>
    cases es with
    | nil => simp [disjunction]
    | cons d es =>
      rw [show disjunction (e :: d :: es) = .or e (disjunction (d :: es)) from rfl, holds_or, ih]
      rfl

/-! ## A number column against integers -/

section
variable {row : Row} {c : Column} {i : Int}

theorem compareCells_eq_int (n : Int) (fy : Cell.Affinity) :
    (compareCells .eq .numeric fy (.int i) (.int n)).holds = decide (i = n) := by
  have h : align .numeric fy (.int i) (.int n) = (.int i, .int n) := by cases fy <;> rfl
  simp only [compareCells, h, Comparison.accepts, Truth.holds]
  by_cases hin : i = n
  · subst hin
    simp [Cell.compare_int_eq_iff.2 rfl]
  · have : (Cell.int i).compare (.int n) ≠ .eq := fun he => hin (Cell.compare_int_eq_iff.1 he)
    simp [hin, this]

theorem holds_eq_int (hc : c.isText = false) (hi : row.event.get c = .int i) (n : Int) :
    (Expr.compare .eq (.column (.event c)) (.constant (.int n))).holds row = decide (i = n) := by
  rw [holds, truth_compare, ← compareCells_eq_int (i := i) n .none]
  simp [affinity, Ref.affinity, hc, eval, Ref.get, hi]

theorem holds_ne_int (hc : c.isText = false) (hi : row.event.get c = .int i) (n : Int) :
    (Expr.compare .ne (.column (.event c)) (.constant (.int n))).holds row = decide (i ≠ n) := by
  rw [holds, truth_compare]
  simp only [affinity, Ref.affinity, hc, eval, Ref.get, hi]
  by_cases hin : i = n
  · subst hin
    simp [compareCells, align, Cell.convert, Comparison.accepts, Cell.compare, Truth.holds]
  · have : Ord.compare i n ≠ .eq := by simpa using hin
    simp [compareCells, align, Cell.convert, Comparison.accepts, Cell.compare, Truth.holds, hin, this]

theorem holds_among_ints (hc : c.isText = false) (hi : row.event.get c = .int i)
    (ids : List Int) :
    (Expr.among (.column (.event c)) (ids.map fun n => .constant (.int n))).holds row
      = decide (i ∈ ids) := by
  have key : (isAmong row .numeric (.int i) (ids.map fun n => .constant (.int n))).holds
      = decide (i ∈ ids) := by
    induction ids with
    | nil => simp [isAmong, Truth.holds]
    | cons n ids ih =>
      rw [List.map_cons, isAmong, Truth.holds_or, ih, eval, compareCells_eq_int]
      simp
  rw [← key, holds, truth, eval, Cell.truth_ofTruth]
  simp [affinity, Ref.affinity, hc, eval, Ref.get, hi]

end

/-! ## Texts and nulls -/

theorem compareCells_eq_text (x : Cell) (s : String) {fy : Cell.Affinity} (hfy : fy ≠ .numeric) :
    (compareCells .eq .text fy x (.text s)).holds = decide (x = .text s) := by
  have halign : align .text fy x (.text s) = (x, .text s) := by
    cases fy with
    | numeric => exact absurd rfl hfy
    | text => rfl
    | none => rfl
  cases x with
  | null => rfl
  | text a =>
    have hcompare : (compareCells .eq .text fy (.text a) (.text s)).holds
        = ((Cell.text a).compare (.text s) == .eq) := by
      simp only [compareCells, halign, Comparison.accepts, Truth.holds]
      cases (Cell.text a).compare (.text s) <;> rfl
    rw [hcompare, Bool.eq_iff_iff, beq_iff_eq, Cell.compare_text_eq_iff, decide_eq_true_eq,
      Cell.text.injEq]
  | int i => simp [compareCells, halign, Comparison.accepts, Truth.holds, Cell.compare, Cell.rank]
  | real y => simp [compareCells, halign, Comparison.accepts, Truth.holds, Cell.compare, Cell.rank]
  | blob bs => simp [compareCells, halign, Comparison.accepts, Truth.holds, Cell.compare, Cell.rank]

theorem compareCells_text (a b : String) :
    (compareCells .eq .text .text (.text a) (.text b)).holds = decide (a = b) := by
  simp [compareCells_eq_text (.text a) b (show Cell.Affinity.text ≠ .numeric by decide)]

theorem holds_isNull (row : Row) (e : Expr) : e.isNull.holds row = decide (e.eval row = .null) := by
  rw [isNull, holds, truth, eval, Cell.truth_ofTruth]
  simp only [eval]
  cases e.eval row <;> rfl

end Expr

end EventCalendar
