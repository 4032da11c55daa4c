import EventCalendar.Http.Events
import EventCalendar.Proofs.Execution

/-!
# The conditions of a window

The texts that a window with integers as its bounds adds to a listing:

* `conditionTokens?_congr`: a condition depends on the values of its own names only.
* `exists_isTest`: each text is one test of the event, without an `OR` outside parentheses; which
  one, `Window.test` says.
* `lookup_params`: the values of its names are the bounds.
-/

set_option autoImplicit false

namespace EventCalendar.Listing

open Sql (Alternatives Parses Token)

/-! ## Tests -/

theorem conditionTokens?_congr {params params' : NamedValues} {c : String}
    (h : ∀ name ∈ Placeholder.names c, Binding.ofName params name = Binding.ofName params' name) :
    conditionTokens? params c = conditionTokens? params' c := by
  have hitems : Item.ofText params c = Item.ofText params' c := by
    refine List.map_congr_left fun x hx => ?_
    cases x with
    | char c => rfl
    | slot name =>
      have hname : name ∈ Placeholder.names c := List.mem_filterMap.2 ⟨.slot name, hx, rfl⟩
      simp only [h name hname]
  rw [conditionTokens?, hitems, conditionTokens?]

/-- The text is one test of the event, on the integer of a name. -/
structure IsTest (name : String) (n : Int) (c : String) (test : Expr) : Prop where
  names : ∀ x ∈ Placeholder.names c, x = name
  lookedUp : Placeholder.lookedUp c = Placeholder.names c
  tokens : ∃ tokens, conditionTokens? [(name, .int n)] c = some tokens ∧
    Parses (Sql.andLevel + 1) tokens test ∧ tokens.any Token.isUnmatched = false
  onEvents : ∀ row, test.holds row = test.holds (.ofEvent row.event)

section
variable {name : String} {n : Int} {c : String} {test : Expr} (h : IsTest name n c test)
  {params : NamedValues}
include h

theorem IsTest.text (hparams : params.lookup name = some (.int n)) :
    ∃ tokens, conditionTokens? params c = some tokens ∧ Alternatives tokens [[test]] ∧
      tokens.any Token.isUnmatched = false := by
  obtain ⟨tokens, htokens, hparses, hmatched⟩ := h.tokens
  refine ⟨tokens, ?_, .factor hparses, hmatched⟩
  rw [← htokens]
  refine conditionTokens?_congr fun x hx => ?_
  rw [h.names x hx, Binding.ofName, Binding.ofName, hparams]
  simp

theorem IsTest.orphanName?_eq_none : Placeholder.orphanName? params c = none := by
  rw [Placeholder.orphanName?, List.find?_eq_none, h.lookedUp]
  intro x hx
  rw [List.contains_iff_mem.2 hx]
  simp

end

/-! ## Windows -/

namespace Window

open Http.EventsRequest (boundValue)

def between (start stop : Option Int) (withDuration : Bool) : Window :=
  ⟨boundValue start, boundValue stop, withDuration⟩

def boundCell (n : Int) : Cell := ((Cell.ofValue (.int n)).toOption).getD .null

/-- The event begins at the start of the window or later, or, where durations count, is still
running there. -/
def startTest (withDuration : Bool) (n : Int) : Expr :=
  if withDuration then
    .or (.compare .ge (.column (.event .timestart)) (.constant (boundCell n)))
      (.compare .gt (.add (.column (.event .timestart)) (.column (.event .timeduration)))
        (.constant (boundCell n)))
  else .compare .ge (.column (.event .timestart)) (.constant (boundCell n))

def stopTest (n : Int) : Expr :=
  .compare .le (.column (.event .timestart)) (.constant (boundCell n))

/-- The test that a text of a window is. -/
def test (start stop : Option Int) (withDuration : Bool) (text : String) : Expr :=
  if text = "e.timestart <= :window_end" then stopTest (stop.getD 0)
  else startTest withDuration (start.getD 0)

theorem isTest_start (n : Int) :
    IsTest "window_start" n "e.timestart >= :window_start" (startTest false n) where
  names := by decide
  lookedUp := by decide
  tokens := ⟨[.word "e", .symbol .dot, .word "timestart", .symbol (.comparison .ge),
    .value (boundCell n)], rfl, ⟨12, rfl⟩, rfl⟩
  onEvents := fun _ => rfl

theorem isTest_running (n : Int) :
    IsTest "window_start" n
      "(e.timestart >= :window_start OR e.timestart + e.timeduration > :window_start)"
      (startTest true n) where
  names := by decide
  lookedUp := by decide
  tokens := ⟨[.symbol .leftParen, .word "e", .symbol .dot, .word "timestart",
    .symbol (.comparison .ge), .value (boundCell n), .word "or", .word "e", .symbol .dot,
    .word "timestart", .symbol .plus, .word "e", .symbol .dot, .word "timeduration",
    .symbol (.comparison .gt), .value (boundCell n), .symbol .rightParen], rfl, ⟨36, rfl⟩, rfl⟩
  onEvents := fun _ => rfl

theorem isTest_stop (n : Int) :
    IsTest "window_end" n "e.timestart <= :window_end" (stopTest n) where
  names := by decide
  lookedUp := by decide
  tokens := ⟨[.word "e", .symbol .dot, .word "timestart", .symbol (.comparison .le),
    .value (boundCell n)], rfl, ⟨12, rfl⟩, rfl⟩
  onEvents := fun _ => rfl

variable {start stop : Option Int} {withDuration : Bool} {o : Options}

/-- The name stands for a bound. -/
def Binds (start stop : Option Int) (name : String) (n : Int) : Prop :=
  name = "window_start" ∧ start = some n ∨ name = "window_end" ∧ stop = some n

/-- The caller gives no values for the names of a window. -/
def Unnamed (params : NamedValues) : Prop :=
  params.lookup "window_start" = none ∧ params.lookup "window_end" = none

theorem Unnamed.of_binds {params : NamedValues} (h : Unnamed params) {name : String} {n : Int}
    (hn : Binds start stop name n) : params.lookup name = none := by
  rcases hn with ⟨rfl, -⟩ | ⟨rfl, -⟩
  · exact h.1
  · exact h.2

/-- **Each text of a window** is a test on a bound. -/
theorem exists_isTest {c : String} (h : c ∈ (between start stop withDuration).conditions) :
    ∃ name n, IsTest name n c (test start stop withDuration c) ∧ Binds start stop name n := by
  rcases List.mem_append.1 h with h | h
  · cases start with
    | none => cases h
    | some n =>
      refine ⟨"window_start", n, ?_, .inl ⟨rfl, rfl⟩⟩
      cases withDuration with
      | true =>
        rw [List.mem_singleton.1 h]
        exact isTest_running n
      | false =>
        rw [List.mem_singleton.1 h]
        exact isTest_start n
  · cases stop with
    | none => cases h
    | some n =>
      refine ⟨"window_end", n, ?_, .inr ⟨rfl, rfl⟩⟩
      rw [List.mem_singleton.1 h]
      exact isTest_stop n

theorem lookup_params {name : String} {n : Int} (hn : Binds start stop name n)
    (h : o.params.lookup name = none) :
    ((between start stop withDuration).restrict o).params.lookup name = some (.int n) := by
  rw [restrict, List.lookup_append, h]
  rcases hn with ⟨rfl, rfl⟩ | ⟨rfl, rfl⟩
  · rfl
  · cases start <;> rfl

theorem Binds.notMem_generatedNames {name : String} {n : Int} (hn : Binds start stop name n)
    (items : List Item) : name ∉ generatedNames items := by
  intro h
  rcases hn with ⟨rfl, -⟩ | ⟨rfl, -⟩
  · exact absurd (isDigit_of_mem_generatedNames h (c := 't') rfl) (by decide)
  · exact absurd (isDigit_of_mem_generatedNames h (c := 'd') rfl) (by decide)

end Window

end EventCalendar.Listing
