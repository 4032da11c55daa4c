import EventCalendar.Listing.Placeholder
import Mathlib.Data.List.TakeWhile

/-!
# Placeholders of a text

The two scanners of a text said without a scan, by what stands before and after a name:

* `mem_names_iff`: **a placeholder** is a colon that nothing blocks and the whole run of word
  characters after it, unless one more colon ends the run.
* `mem_lookedUp_iff`: **the look-up** finds the placeholders, and names that are cut short: those
  that one more word character and a colon follow.
-/

set_option autoImplicit false

namespace EventCalendar.Listing.Placeholder

/-- A name that a placeholder may have: word characters, at least one. -/
def IsIdentifier (name : List Char) : Prop := name ≠ [] ∧ ∀ c ∈ name, Text.isWord c = true

/-- A colon after `before` may begin a placeholder; `blocked` tells it for a text that begins with
the colon. -/
def Opens (blocked : Bool) (before : List Char) : Prop :=
  (before.getLast?.map blocks).getD blocked = false

/-- The name of a placeholder ends where `after` begins. -/
def Ends (after : List Char) : Prop := ∀ c, after.head? = some c → c ≠ ':' ∧ Text.isWord c = false

/-- One more word character and a colon stand at the beginning of `after`. -/
def CutsShort (after : List Char) : Prop :=
  ∃ c rest, after = c :: ':' :: rest ∧ Text.isWord c = true

/-- After a colon that may begin a placeholder, the text has the name, and then what `follows`. -/
def Stands (follows : List Char → Prop) (blocked : Bool) (s name : List Char) : Prop :=
  ∃ before after, s = before ++ ':' :: (name ++ after) ∧ Opens blocked before ∧ IsIdentifier name ∧
    follows after

/-- The text has a placeholder of the name. -/
def Occurs (name s : String) : Prop := Stands Ends false s.toList name.toList

/-- The text has a colon and a run of word characters that one more colon ends; the name is the run
but for its last character. -/
def IsCutShort (name s : String) : Prop := Stands CutsShort false s.toList name.toList

theorem Occurs.ne_empty {name s : String} (h : Occurs name s) : s ≠ "" := by
  rintro rfl
  obtain ⟨before, after, hs, -⟩ := h
  simp at hs

theorem Occurs.name_ne_nil {name s : String} (h : Occurs name s) : name.toList ≠ [] := by
  obtain ⟨before, after, -, -, hname, -⟩ := h
  exact hname.1

theorem isWord_colon : Text.isWord ':' = false := by decide

theorem isIdentifier_of_ascii {name : List Char} (hname : name ≠ [])
    (h : ∀ c ∈ name, c.toNat < 128 ∧ (c.isAlphanum || c == '_') = true) : IsIdentifier name := by
  refine ⟨hname, fun c hc => ?_⟩
  obtain ⟨hascii, hword⟩ := h c hc
  rw [Text.isWord, if_pos hascii, hword]

theorem blocks_of_isWord {c : Char} (h : Text.isWord c = true) : blocks c = true := by
  rw [blocks, h, Bool.or_true]

theorem ne_colon_of_isWord {c : Char} (h : Text.isWord c = true) : c ≠ ':' := by
  rintro rfl
  rw [isWord_colon] at h
  cases h

theorem opens_cons {blocked : Bool} {c : Char} {before : List Char} :
    Opens blocked (c :: before) ↔ Opens (blocks c) before := by
  rw [Opens, Opens, List.getLast?_cons]
  cases before.getLast? <;> rfl

theorem stands_cons {follows : List Char → Prop} {blocked : Bool} {c : Char} {rest name : List Char} :
    Stands follows blocked (c :: rest) name ↔
      (c = ':' ∧ blocked = false ∧ IsIdentifier name ∧ ∃ after, rest = name ++ after ∧ follows after)
        ∨ Stands follows (blocks c) rest name := by
  constructor
  · rintro ⟨before, after, h, hopens, hname, hfollows⟩
    cases before with
    | nil =>
      obtain ⟨rfl, rfl⟩ := List.cons.inj h
      exact .inl ⟨rfl, hopens, hname, after, rfl, hfollows⟩
    | cons d before =>
      obtain ⟨rfl, rfl⟩ := List.cons.inj h
      exact .inr ⟨before, after, rfl, opens_cons.1 hopens, hname, hfollows⟩
  · rintro (⟨rfl, rfl, hname, after, rfl, hfollows⟩ | ⟨before, after, rfl, hopens, hname, hfollows⟩)
    · exact ⟨[], after, rfl, rfl, hname, hfollows⟩
    · exact ⟨c :: before, after, rfl, opens_cons.2 hopens, hname, hfollows⟩

/-! ## Names after a colon -/

def NoWord (after : List Char) : Prop := ∀ c, after.head? = some c → Text.isWord c = false

theorem takeWhile_run {run after : List Char} (hrun : ∀ c ∈ run, Text.isWord c = true)
    (hafter : NoWord after) : (run ++ after).takeWhile Text.isWord = run := by
  rw [List.takeWhile_append_of_pos hrun]
  cases after with
  | nil => simp
  | cons c after => simp [hafter c rfl]

theorem dropWhile_run {run after : List Char} (hrun : ∀ c ∈ run, Text.isWord c = true)
    (hafter : NoWord after) : (run ++ after).dropWhile Text.isWord = after := by
  rw [List.dropWhile_append_of_pos hrun]
  cases after with
  | nil => rfl
  | cons c after => simp [hafter c rfl]

theorem exists_run (s : List Char) : ∃ run after,
    s = run ++ after ∧ (∀ c ∈ run, Text.isWord c = true) ∧ NoWord after := by
  refine ⟨s.takeWhile Text.isWord, s.dropWhile Text.isWord, List.takeWhile_append_dropWhile.symm,
    fun c hc => List.mem_takeWhile_imp hc, fun c hc => ?_⟩
  have hhead := List.head?_dropWhile_not Text.isWord s
  rw [hc] at hhead
  simpa using hhead

section
variable {run after name : List Char} (hrun : ∀ c ∈ run, Text.isWord c = true)
  (hafter : NoWord after)
include hrun hafter

theorem run_unique {run' after' : List Char} (h : run ++ after = run' ++ after')
    (hrun' : ∀ c ∈ run', Text.isWord c = true) (hafter' : NoWord after') :
    run = run' ∧ after = after' := by
  have heq : run = run' := by rw [← takeWhile_run hrun hafter, h, takeWhile_run hrun' hafter']
  subst heq
  exact ⟨rfl, List.append_cancel_left h⟩

theorem exists_ends_iff (hname : ∀ c ∈ name, Text.isWord c = true) :
    (∃ rest, run ++ after = name ++ rest ∧ Ends rest) ↔ run = name ∧ atColon after = false := by
  constructor
  · rintro ⟨rest, h, hends⟩
    obtain ⟨rfl, rfl⟩ := run_unique hrun hafter h hname fun c hc => (hends c hc).2
    refine ⟨rfl, ?_⟩
    cases after with
    | nil => rfl
    | cons c after => simp [atColon, (hends c rfl).1]
  · rintro ⟨rfl, hcolon⟩
    refine ⟨after, rfl, fun c hc => ⟨?_, hafter c hc⟩⟩
    rintro rfl
    rw [atColon, hc] at hcolon
    cases hcolon

theorem exists_cutsShort_iff (hname : ∀ c ∈ name, Text.isWord c = true) :
    (∃ rest, run ++ after = name ++ rest ∧ CutsShort rest) ↔
      (∃ c, run = name ++ [c]) ∧ atColon after = true := by
  constructor
  · rintro ⟨_, h, c, rest, rfl, hc⟩
    rw [List.append_cons] at h
    obtain ⟨rfl, rfl⟩ := run_unique hrun hafter h
      (List.forall_mem_append.2 ⟨hname, List.forall_mem_singleton.2 hc⟩)
      fun d hd => by cases hd; exact isWord_colon
    exact ⟨⟨c, rfl⟩, rfl⟩
  · rintro ⟨⟨c, rfl⟩, hcolon⟩
    obtain ⟨rest, rfl⟩ : ∃ rest, after = ':' :: rest := by
      cases after with
      | nil => cases hcolon
      | cons d rest => exact ⟨rest, by rw [show d = ':' by simpa [atColon] using hcolon]⟩
    exact ⟨c :: ':' :: rest, by simp, c, rest, rfl, hrun c (by simp)⟩

end

theorem name?_run {run after : List Char} (hrun : ∀ c ∈ run, Text.isWord c = true)
    (hafter : NoWord after) :
    name? (run ++ after) = if run = [] ∨ atColon after = true then none else some run := by
  rw [name?, takeWhile_run hrun hafter, List.drop_left]
  simp

theorem name?_eq_some_iff {s name : List Char} :
    name? s = some name ↔ IsIdentifier name ∧ ∃ after, s = name ++ after ∧ Ends after := by
  obtain ⟨run, after, rfl, hrun, hafter⟩ := exists_run s
  rw [name?_run hrun hafter]
  constructor
  · intro h
    split at h
    · cases h
    · rename_i hne
      obtain ⟨hne, hcolon⟩ := not_or.1 hne
      cases h
      exact ⟨⟨hne, hrun⟩, (exists_ends_iff hrun hafter hrun).2 ⟨rfl, by simpa using hcolon⟩⟩
  · rintro ⟨⟨hne, hname⟩, hends⟩
    obtain ⟨rfl, hcolon⟩ := (exists_ends_iff hrun hafter hname).1 hends
    rw [if_neg (not_or.2 ⟨hne, by simp [hcolon]⟩)]

/-- The look-up finds the name of a placeholder, or a name that is cut short. -/
theorem lookedUp?_eq_some_iff {s name : List Char} :
    lookedUp? s = some name ↔
      IsIdentifier name ∧ ∃ after, s = name ++ after ∧ (Ends after ∨ CutsShort after) := by
  obtain ⟨run, after, rfl, hrun, hafter⟩ := exists_run s
  have hlookedUp? : lookedUp? (run ++ after) = some name ↔
      name ≠ [] ∧ (run = name ∧ atColon after = false
        ∨ (∃ c, run = name ++ [c]) ∧ atColon after = true) := by
    rw [lookedUp?, takeWhile_run hrun hafter, List.drop_left]
    cases atColon after with
    | false => cases run <;> grind
    | true => rcases List.eq_nil_or_concat run with rfl | ⟨run, c, rfl⟩ <;> grind
  rw [hlookedUp?]
  constructor
  · rintro ⟨hne, h⟩
    have hname : ∀ c ∈ name, Text.isWord c = true := by
      rcases h with ⟨rfl, -⟩ | ⟨⟨c, rfl⟩, -⟩
      · exact hrun
      · exact fun d hd => hrun d (List.mem_append_left _ hd)
    refine ⟨⟨hne, hname⟩, ?_⟩
    rcases h with h | h
    · obtain ⟨rest, hrest, hends⟩ := (exists_ends_iff hrun hafter hname).2 h
      exact ⟨rest, hrest, .inl hends⟩
    · obtain ⟨rest, hrest, hcuts⟩ := (exists_cutsShort_iff hrun hafter hname).2 h
      exact ⟨rest, hrest, .inr hcuts⟩
  · rintro ⟨⟨hne, hname⟩, rest, hrest, hends | hcuts⟩
    · exact ⟨hne, .inl ((exists_ends_iff hrun hafter hname).1 ⟨rest, hrest, hends⟩)⟩
    · exact ⟨hne, .inr ((exists_cutsShort_iff hrun hafter hname).1 ⟨rest, hrest, hcuts⟩)⟩

/-! ## Scans -/

/-- The names that `find?` finds after the colons of a text. -/
def scanFrom (find? : List Char → Option (List Char)) (blocked : Bool) (skip : Nat) :
    List Char → List String
  | [] => []
  | c :: rest =>
    match skip with
    | skip + 1 => scanFrom find? true skip rest
    | 0 =>
      match if c = ':' ∧ blocked = false then find? rest else none with
      | some name => String.ofList name :: scanFrom find? true name.length rest
      | none => scanFrom find? (blocks c) 0 rest

theorem lookedUpFrom_eq_scanFrom (blocked : Bool) (skip : Nat) (s : List Char) :
    lookedUpFrom blocked skip s = scanFrom lookedUp? blocked skip s := by
  induction s generalizing blocked skip with
  | nil => rfl
  | cons c rest ih =>
    cases skip with
    | succ skip => exact ih ..
    | zero =>
      cases hname : if c = ':' ∧ blocked = false then lookedUp? rest else none with
      | none => simp only [lookedUpFrom, scanFrom, hname, ih]
      | some name => simp only [lookedUpFrom, scanFrom, hname, ih]

theorem filterMap_slotName?_fragmentsFrom (blocked : Bool) (skip : Nat) (s : List Char) :
    (fragmentsFrom blocked skip s).filterMap slotName? = scanFrom name? blocked skip s := by
  induction s generalizing blocked skip with
  | nil => rfl
  | cons c rest ih =>
    cases skip with
    | succ skip => exact ih ..
    | zero =>
      simp only [fragmentsFrom, scanFrom]
      cases if c = ':' ∧ blocked = false then name? rest else none with
      | some name => exact congrArg (_ :: ·) (ih ..)
      | none =>
        simp only
        split
        · rename_i h
          have hblocks : blocks c = true := by rw [h.1]; decide
          rw [ih, hblocks]
        · exact ih ..

/-- A scan finds what stands in the text. The characters that are skipped are word characters, so
nothing is missed. -/
theorem mem_scanFrom_iff {find? : List Char → Option (List Char)} {follows : List Char → Prop}
    (hfind : ∀ s name, find? s = some name ↔
      IsIdentifier name ∧ ∃ after, s = name ++ after ∧ follows after)
    {blocked : Bool} {skip : Nat} {s : List Char} (hskip : ∀ c ∈ s.take skip, Text.isWord c = true)
    (hblocked : skip ≠ 0 → blocked = true) {name : String} :
    name ∈ scanFrom find? blocked skip s ↔ Stands follows blocked s name.toList := by
  induction s generalizing blocked skip with
  | nil => simp [scanFrom, Stands]
  | cons c rest ih =>
    cases skip with
    | succ skip =>
      obtain ⟨hc, hskip⟩ := List.forall_mem_cons.1 hskip
      rw [stands_cons, or_iff_right fun h => ne_colon_of_isWord hc h.1, blocks_of_isWord hc]
      exact ih hskip fun _ => rfl
    | zero =>
      rw [stands_cons, scanFrom]
      split
      · rename_i run hrun
        obtain ⟨⟨rfl, rfl⟩, hrun⟩ : (c = ':' ∧ blocked = false) ∧ find? rest = some run := by
          split at hrun
          · rename_i h
            exact ⟨h, hrun⟩
          · cases hrun
        have hskip' : ∀ c ∈ rest.take run.length, Text.isWord c = true := by
          obtain ⟨hword, after, rfl, -⟩ := (hfind _ _).1 hrun
          rw [List.take_left]
          exact hword.2
        have hrun : find? rest = some run := by simpa using hrun
        have hname : name = String.ofList run ↔ name.toList = run :=
          ⟨fun h => by rw [h, String.toList_ofList], fun h => by rw [← h, String.ofList_toList]⟩
        rw [List.mem_cons, ih hskip' fun _ => rfl, ← hfind, hrun, hname, Option.some.injEq, eq_comm]
        simp [blocks]
      · rename_i hnone
        rw [ih (by simp) (by simp), or_iff_right]
        rintro ⟨rfl, rfl, hname⟩
        rw [if_pos ⟨rfl, rfl⟩, (hfind _ _).2 hname] at hnone
        cases hnone

/-- **The placeholders of a text** are the names that occur in it. -/
theorem mem_names_iff {name s : String} : name ∈ names s ↔ Occurs name s := by
  rw [names, fragments, filterMap_slotName?_fragmentsFrom]
  exact mem_scanFrom_iff (fun _ _ => name?_eq_some_iff) (by simp) (by simp)

/-- **The look-up** finds the placeholders and the names that are cut short. -/
theorem mem_lookedUp_iff {name s : String} :
    name ∈ lookedUp s ↔ Occurs name s ∨ IsCutShort name s := by
  rw [lookedUp, lookedUpFrom_eq_scanFrom,
    mem_scanFrom_iff (fun _ _ => lookedUp?_eq_some_iff) (by simp) (by simp)]
  constructor
  · rintro ⟨before, after, hs, hopens, hname, h | h⟩
    · exact .inl ⟨before, after, hs, hopens, hname, h⟩
    · exact .inr ⟨before, after, hs, hopens, hname, h⟩
  · rintro (⟨before, after, hs, hopens, hname, h⟩ | ⟨before, after, hs, hopens, hname, h⟩)
    · exact ⟨before, after, hs, hopens, hname, .inl h⟩
    · exact ⟨before, after, hs, hopens, hname, .inr h⟩

end EventCalendar.Listing.Placeholder
