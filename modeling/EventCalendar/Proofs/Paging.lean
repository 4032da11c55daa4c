import EventCalendar.Proofs.WindowedListing

/-!
# Pages of a listing

A page is cut out of the list that there is without one, since the page is the last thing that a
statement looks at:

* `Statement.Reads.execute_paged_iff`: a statement with a page lists a cut of what it lists without.
* `run_paged_iff`: so does a listing in a window, whatever its order is.
* `flatMap_pages`: pages of one size, up to an empty one, add up to the whole list.
* `listing_pages`: **the pages of a listing**, in a window or outside one; and the list that they
  are cut out of does not depend on the order in which the rows are stored.
-/

set_option autoImplicit false

namespace EventCalendar

namespace Listing

/-! ## Pages of a list -/

section
variable {α : Type} (xs : List α)

theorem flatMap_pages_append_drop (n count : Nat) :
    (List.range count).flatMap (fun k => (xs.drop (k * n)).take n) ++ xs.drop (count * n) = xs := by
  induction count with
  | zero => simp
  | succ count ih =>
    have hleft : (xs.drop (count * n)).take n ++ xs.drop ((count + 1) * n)
        = xs.drop (count * n) := by
      rw [Nat.succ_mul, ← List.drop_drop, List.take_append_drop]
    rw [List.range_succ, List.flatMap_append, List.flatMap_singleton, List.append_assoc, hleft, ih]

variable {n : Nat} (hn : 1 ≤ n)
include hn

theorem page_eq_nil_iff (k : Nat) : (xs.drop (k * n)).take n = [] ↔ xs.length ≤ k * n := by
  rw [List.take_eq_nil_iff, List.drop_eq_nil_iff]
  omega

/-- **Pages add up** to the whole list if the next one is empty. -/
theorem flatMap_pages {count : Nat} (h : (xs.drop (count * n)).take n = []) :
    (List.range count).flatMap (fun k => (xs.drop (k * n)).take n) = xs := by
  have hall := flatMap_pages_append_drop xs n count
  rwa [List.drop_eq_nil_of_le ((page_eq_nil_iff xs hn count).1 h), List.append_nil] at hall

end

theorem cut_nat_nat {α : Type} (k n : Nat) (hn : 1 ≤ n) (xs : List α) :
    cut (k : Int) ((some (n : Int)).filter (· != 0)) xs = (xs.drop k).take n := by
  have hlimit : ((n : Int) != 0) = true := by
    rw [bne_iff_ne]
    omega
  rw [Option.filter_some, if_pos hlimit]
  rfl

theorem cut_nil {α : Type} (offset : Int) (limit? : Option Int) :
    cut offset limit? ([] : List α) = [] := by
  cases limit? <;> simp [cut]

/-! ## Pages of a statement -/

def Options.paged (o : Options) (offset limit : Option Int) : Options := { o with offset, limit }

def Statement.unpaged (s : Statement) : Statement := ⟨s.filters, s.options.paged none none⟩

/-- **A statement with a page** lists a cut of what it lists without one. -/
theorem Statement.Reads.execute_paged_iff {s : Statement} {reading : String → List (List Expr)}
    {order : List Sql.OrderTerm} (h : s.Reads reading order)
    (hnames : ∀ name ∈ s.names, ∀ items, name ∉ generatedNames items) {t : Tables}
    {events : List Event} :
    s.execute (some t) = .ok events ↔
      s.PageFits ∧ ∃ all, s.unpaged.execute (some t) = .ok all ∧
        events = cut s.offset s.limit? all := by
  have hunpaged : s.unpaged.Reads reading order := ⟨h.conditions, h.order, h.plainOrder⟩
  have hfits : s.unpaged.PageFits := fun hpaged => by cases hpaged
  have hclash : ∀ {items : List Item}, ∀ name ∈ s.names, name ∉ generatedNames items :=
    fun name hname => hnames name hname _
  simp only [hunpaged.execute_eq_ok_iff, h.execute_eq_ok_iff]
  constructor
  · intro hall
    obtain ⟨-, ⟨hids, hpage, hbindable⟩, hevents⟩ := hall
    exact ⟨hpage, _, ⟨hclash, ⟨hids, hfits, hbindable⟩, rfl⟩, hevents⟩
  · intro hall
    obtain ⟨hpage, all, ⟨-, ⟨hids, -, hbindable⟩, rfl⟩, hevents⟩ := hall
    exact ⟨hclash, ⟨hids, hpage, hbindable⟩, hevents⟩

/-- **A statement with a page that lists events** lists a cut of what it lists without one. -/
theorem Statement.Reads.exists_execute_unpaged {s : Statement}
    {reading : String → List (List Expr)} {order : List Sql.OrderTerm} (h : s.Reads reading order)
    {t : Tables} {events : List Event} (hrun : s.execute (some t) = .ok events) :
    ∃ all, s.unpaged.execute (some t) = .ok all ∧ events = cut s.offset s.limit? all := by
  have hunpaged : s.unpaged.Reads reading order := ⟨h.conditions, h.order, h.plainOrder⟩
  have hfits : s.unpaged.PageFits := fun hpaged => by cases hpaged
  have hitems : s.items = s.unpaged.items ++ s.paging := by
    have hnone : s.unpaged.paging = [] := rfl
    rw [Statement.items, Statement.items, hnone, List.append_nil]
    rfl
  obtain ⟨hclash, ⟨hids, -, hbindable⟩, rfl⟩ := h.execute_eq_ok_iff.1 hrun
  refine ⟨_, hunpaged.execute_eq_ok_iff.2 ⟨fun name hname hgenerated => ?_,
    ⟨hids, hfits, hbindable⟩, rfl⟩, rfl⟩
  -- The page adds names and changes none.
  refine hclash name hname ?_
  rw [hitems]
  exact mem_generatedNames_append hgenerated _

/-- **A page of a window** is cut out of the window, whatever the text of the order is. -/
theorem window_execute_paged_iff {f : Filters} {o : Options} (hconditions : o.conditions = [])
    {start stop : Option Int}
    (hnamed : ∀ name n, Window.Binds start stop name n → o.params.lookup name = none)
    (withDuration : Bool) {offset limit : Option Int} (hpage : (o.paged offset limit).PageOk)
    (t : Tables) (events : List Event) :
    (windowStatement f (o.paged offset limit) start stop withDuration).execute (some t)
        = .ok events ↔
      ∃ all, (windowStatement f (o.paged none none) start stop withDuration).execute (some t)
          = .ok all ∧ events = cut (offset.getD 0) (limit.filter (· != 0)) all := by
  have hread : ∀ {offset limit : Option Int},
      ∀ text ∈ (windowStatement f (o.paged offset limit) start stop withDuration).conditions,
        ∃ tokens, conditionTokens? ((Window.between start stop withDuration).restrict
            (o.paged offset limit)).params text = some tokens ∧
          Sql.Alternatives tokens [[Window.test start stop withDuration text]] ∧
          tokens.any Sql.Token.isUnmatched = false :=
    fun {offset limit} => window_conditions_read (o := o.paged offset limit) hconditions hnamed
  have hpaged : ∀ {order : List Sql.OrderTerm},
      (windowStatement f (o.paged offset limit) start stop withDuration).Reads
          (fun text => [[Window.test start stop withDuration text]]) order →
        ((windowStatement f (o.paged offset limit) start stop withDuration).execute (some t)
            = .ok events ↔
          ∃ all, (windowStatement f (o.paged none none) start stop withDuration).execute (some t)
            = .ok all ∧ events = cut (offset.getD 0) (limit.filter (· != 0)) all) := by
    intro order hreads
    have hfits : (windowStatement f (o.paged offset limit) start stop withDuration).PageFits :=
      hpage.pageFits f
    rw [hreads.execute_paged_iff fun name hname items => ?_, and_iff_right hfits]
    · rfl
    · obtain ⟨n, hn⟩ := window_names (o := o.paged offset limit) hconditions hname
      exact hn.notMem_generatedNames items
  constructor
  · intro h
    -- The text of the order can be read, since the statement runs.
    obtain ⟨order, hreads⟩ := Statement.reads_of_execute hread h
    exact (hpaged hreads).1 h
  · intro h
    obtain ⟨all, hall, hevents⟩ := h
    obtain ⟨order, hreads⟩ := Statement.reads_of_execute hread hall
    exact (hpaged ⟨hread, hreads.order, hreads.plainOrder⟩).2 ⟨all, hall, hevents⟩

end Listing

namespace Store

open Listing

/-! ## Pages of a session -/

section
variable {values : ByDimension Value} {f : Filters} (hf : Filters.coerce values = .ok f)
  {o : Options} (hconditions : o.conditions = []) {start stop : Option Int}
  (hnamed : ∀ name n, Window.Binds start stop name n → o.params.lookup name = none)
  {c : Connection} {t : Tables} (ht : c.tables = some t)
include hf hconditions hnamed ht

/-- **A page of a listing** is cut out of the list that there is without one. -/
theorem run_paged_iff (withDuration : Bool) {offset limit : Option Int}
    (hpage : (o.paged offset limit).PageOk) (events : List Event) :
    (eventsInWindow values (.between start stop withDuration) (o.paged offset limit)).run c
        = (.ok events, c) ↔
      ∃ all, (eventsInWindow values (.between start stop withDuration) (o.paged none none)).run c
          = (.ok all, c) ∧ events = cut (offset.getD 0) (limit.filter (· != 0)) all := by
  have hcheck : checkPage ((Window.between start stop withDuration).restrict (o.paged offset limit))
      = .ok () :=
    checkPage_eq_ok_iff.2 ⟨fun n h => (hpage.1 n h).1, fun n h => (hpage.2 n h).1⟩
  have hcheck' := checkPage_window (o := o.paged none none) rfl rfl
    (Window.between start stop withDuration)
  have horphan : ∀ {offset limit : Option Int}, orphan?
      ((Window.between start stop withDuration).restrict (o.paged offset limit)) = none :=
    fun {offset limit} => orphan?_window (o := o.paged offset limit) hconditions
  unfold eventsInWindow
  cases hactive : f.allNone with
  | true =>
    rw [rawEvents_of_allNone hf hactive hcheck, rawEvents_of_allNone hf hactive hcheck']
    constructor
    · intro h
      cases h
      exact ⟨[], rfl, (cut_nil _ _).symm⟩
    · intro h
      obtain ⟨all, hall, rfl⟩ := h
      cases hall
      rw [cut_nil]
      rfl
  | false =>
    have hpages := window_execute_paged_iff (f := f) hconditions hnamed withDuration hpage t events
    rw [run_rawEvents_eq_ok_iff hf hactive hcheck, ht, and_iff_right horphan, hpages]
    simp only [run_rawEvents_eq_ok_iff hf hactive hcheck', ht, horphan, true_and, and_assoc,
      exists_and_left]

end

/-! ## All pages of a listing -/

/-- The pages of a listing, which `ask` asks for, are cut out of all its events. -/
structure Pages (ask : Options → Action (List Event)) (o : Options) (c : Connection)
    (all : List Event) : Prop where
  page : ∀ k n : Nat, 1 ≤ n → Cell.fits (k * n : Nat) = true → Cell.fits n = true →
    (ask (o.paged (some (k * n : Nat)) (some n))).run c = (.ok ((all.drop (k * n)).take n), c)
  /-- The pages up to the first empty one are all events. -/
  sum : ∀ n count : Nat, 1 ≤ n → Cell.fits (count * n : Nat) = true → Cell.fits n = true →
    ∀ pages : Nat → List Event,
      (∀ k ≤ count, (ask (o.paged (some (k * n : Nat)) (some n))).run c = (.ok (pages k), c)) →
        (pages count = [] ↔ all.length ≤ count * n) ∧
          (pages count = [] → (List.range count).flatMap pages = all)
  /-- Without an offset, or with the offset zero, nothing is skipped. -/
  first : ∀ offset : Option Int, offset = none ∨ offset = some 0 → ∀ n : Nat, 1 ≤ n →
    Cell.fits n = true → (ask (o.paged offset (some n))).run c = (.ok (all.take n), c)
  /-- Without a limit, or with the limit zero, all the rest is listed. -/
  rest : ∀ limit : Option Int, limit = none ∨ limit = some 0 →
    (ask (o.paged none limit)).run c = (.ok all, c) ∧
      ∀ n : Nat, Cell.fits n = true → (ask (o.paged (some n) limit)).run c = (.ok (all.drop n), c)

theorem fits_of_le {k n : Nat} (h : k ≤ n) (hn : Cell.fits n = true) : Cell.fits k = true := by
  rw [Cell.fits_iff] at hn ⊢
  omega

theorem pageOk_paged (o : Options) {offset limit : Option Int}
    (hoffset : ∀ i, offset = some i → ∃ n : Nat, i = n ∧ Cell.fits n = true)
    (hlimit : ∀ i, limit = some i → ∃ n : Nat, i = n ∧ Cell.fits n = true) :
    (o.paged offset limit).PageOk := by
  constructor
  · intro i hi
    obtain ⟨n, rfl, hn⟩ := hoffset i hi
    exact ⟨Int.natCast_nonneg n, hn⟩
  · intro i hi
    obtain ⟨n, rfl, hn⟩ := hlimit i hi
    exact ⟨Int.natCast_nonneg n, hn⟩

section
variable {ask : Options → Action (List Event)} {o : Options} {c : Connection} {all : List Event}
  (h : ∀ offset limit, (o.paged offset limit).PageOk →
    (ask (o.paged offset limit)).run c
      = (.ok (cut (offset.getD 0) (limit.filter (· != 0)) all), c))
include h

theorem run_slice {n : Nat} (hn : 1 ≤ n) (hfits : Cell.fits n = true) {k : Nat}
    (hk : Cell.fits k = true) {offset : Option Int} (hoffset : offset.getD 0 = k) :
    (ask (o.paged offset (some n))).run c = (.ok ((all.drop k).take n), c) := by
  have hok : (o.paged offset (some n)).PageOk := by
    refine pageOk_paged o (fun i hi => ⟨k, ?_, hk⟩) fun i hi => ⟨n, ?_, hfits⟩
    · rw [← hoffset, hi, Option.getD_some]
    · rw [← Option.some.inj hi]
  rw [h offset (some n) hok, hoffset, cut_nat_nat k n hn]

theorem run_rest {k : Nat} (hk : Cell.fits k = true) {offset limit : Option Int}
    (hoffset : offset.getD 0 = k) (hlimit : limit = none ∨ limit = some 0) :
    (ask (o.paged offset limit)).run c = (.ok (all.drop k), c) := by
  have hok : (o.paged offset limit).PageOk := by
    refine pageOk_paged o (fun i hi => ⟨k, ?_, hk⟩) fun i hi => ⟨0, ?_, by decide⟩
    · rw [← hoffset, hi, Option.getD_some]
    · rcases hlimit with hlimit | hlimit
      · rw [hlimit] at hi
        cases hi
      · exact Option.some.inj (hi.symm.trans hlimit)
  have hnone : limit.filter (· != 0) = none := by
    rcases hlimit with rfl | rfl <;> rfl
  rw [h offset limit hok, hoffset, hnone]
  rfl

theorem pages_of_cut : Pages ask o c all where
  page := fun k n hn hk hfits => run_slice h hn hfits hk rfl
  sum := by
    intro n count hn hcount hfits pages hpages
    have hpages' : ∀ k ≤ count, pages k = (all.drop (k * n)).take n := by
      intro k hk
      have hk' := fits_of_le (Nat.mul_le_mul_right n hk) hcount
      have heq := (hpages k hk).symm.trans (run_slice h hn hfits hk' rfl)
      injection heq with heq
      injection heq
    rw [hpages' count (Nat.le_refl count)]
    refine ⟨page_eq_nil_iff all hn count, fun hnil => ?_⟩
    rw [← flatMap_pages all hn hnil]
    exact List.flatMap_congr fun k hk => hpages' k (List.mem_range.1 hk).le
  first := by
    intro offset hoffset n hn hfits
    have hzero : offset.getD 0 = (0 : Nat) := by
      rcases hoffset with rfl | rfl <;> rfl
    exact run_slice h hn hfits (by decide) hzero
  rest := fun limit hlimit =>
    ⟨run_rest h (k := 0) (by decide) rfl hlimit, fun n hn => run_rest h hn rfl hlimit⟩

end

end Store

namespace Listing

/-! ## Order of the stored rows -/

/-- The same rows are stored, in whatever order. -/
structure SameRows (t t' : Tables) : Prop where
  events : t.events.Perm t'.events
  modules : t.modules.Perm t'.modules

section
variable {t t' : Tables} (h : SameRows t t')
include h

theorem SameRows.sound (ht : t.Sound) : t'.Sound where
  events := fun e he => ht.events e (h.events.mem_iff.2 he)
  modules := fun m hm => ht.modules m (h.modules.mem_iff.2 hm)
  ids := (h.events.map _).nodup_iff.1 ht.ids
  names := (h.modules.map _).nodup_iff.1 ht.names

theorem SameRows.sameQualifying (f : Filters) (showHidden : Bool) :
    SameQualifying f showHidden t t' := by
  have hshown : ∀ e, ModuleShown t e ↔ ModuleShown t' e := by
    intro e
    refine forall_congr' fun m => ?_
    rw [h.modules.mem_iff]
  intro e
  constructor
  · intro he
    exact ⟨h.events.mem_iff.1 he.stored, he.competes, (hshown e).1 he.moduleShown⟩
  · intro he
    exact ⟨h.events.mem_iff.2 he.stored, he.competes, (hshown e).2 he.moduleShown⟩

end

end Listing

namespace Store

open Listing

/-- The list that there is without a page has its pages, and does not depend on the order in which
the rows are stored. -/
def Paginated (ask : Options → Action (List Event)) (o : Options) (c : Connection) (t : Tables) :
    Prop :=
  ∀ all, (ask (o.paged none none)).run c = (.ok all, c) →
    Pages ask o c all ∧
    ∀ (c' : Connection) (t' : Tables), c'.tables = some t' → c'.failed = c.failed → SameRows t t' →
      (ask (o.paged none none)).run c' = (.ok all, c')

section
variable {values : ByDimension Value} {f : Filters} (hf : Filters.coerce values = .ok f)
  {o : Options} (hconditions : o.conditions = []) (hordered : o.IsOrdered) {c : Connection}
  {t : Tables} (ht : c.tables = some t)
include hf hconditions hordered ht

theorem paginated_window (hsound : t.Sound) {start stop : Option Int}
    (hnamed : ∀ name n, Window.Binds start stop name n → o.params.lookup name = none)
    (withDuration : Bool) :
    Paginated (eventsInWindow values (.between start stop withDuration)) o c t := by
  intro all hall
  constructor
  · refine pages_of_cut fun offset limit hpage => ?_
    exact (run_paged_iff hf hconditions hnamed ht withDuration hpage _).2 ⟨all, hall, rfl⟩
  · intro c' t' ht' hfailed hsame
    obtain ⟨r, hr, hr', -⟩ := sameAnswer_window hf (o := o.paged none none) hconditions hordered
      hnamed ht ht' hfailed.symm hsound (hsame.sound hsound)
      (hsame.sameQualifying f o.showHidden) withDuration
    rw [hr] at hall
    rw [hr', (Prod.mk.inj hall).1]

/-- **Paging loses and duplicates nothing**, in the default order and in those of requests: the
pages of a listing, in a window or outside one, are cut out of the list that there is without a
page, which does not depend on the order in which the rows are stored. In a usable session there is
that list if there are cells for the ids and the bounds. -/
theorem listing_pages (hsound : t.Sound) :
    Paginated (rawEvents values) o c t ∧
    (Window.Unnamed o.params → ∀ start stop withDuration,
      Paginated (eventsInWindow values (.between start stop withDuration)) o c t) ∧
    (c.failed = false → f.Fits →
      (∃ all, (rawEvents values (o.paged none none)).run c = (.ok all, c)) ∧
      (Window.Unnamed o.params → ∀ start stop withDuration,
        (∀ name n, Window.Binds start stop name n → Cell.fits n = true) →
        ∃ all, (eventsInWindow values (.between start stop withDuration) (o.paged none none)).run c
          = (.ok all, c))) := by
  have hopen : eventsInWindow values (.between none none false) = rawEvents values :=
    funext (eventsInWindow_open values)
  have hpage : (o.paged none none).PageOk := ⟨fun _ h => (by cases h), fun _ h => (by cases h)⟩
  refine ⟨?_, fun hparams start stop withDuration => ?_, fun hc hfits =>
    ⟨?_, fun hparams start stop withDuration hbounds => ?_⟩⟩
  · rw [← hopen]
    exact paginated_window hf hconditions hordered ht hsound Window.unbound_open false
  · exact paginated_window hf hconditions hordered ht hsound (fun name n h => hparams.of_binds h)
      withDuration
  · rw [← hopen]
    exact exists_run_window hf (o := o.paged none none) hconditions hordered Window.unbound_open ht
      hc hfits hpage Window.unbound_open false
  · exact exists_run_window hf (o := o.paged none none) hconditions hordered
      (fun name n h => hparams.of_binds h) ht hc hfits hpage hbounds withDuration

end

/-- The second of the pages with one event each; the order of the rows makes no difference. -/
theorem listing_pages_of_extension :
    ∃ all, (rawEvents ⟨.int 4, .null, .int 5, .null⟩ .default).run (.opened (some timetable))
        = (.ok all, .opened (some timetable)) ∧
      everlasting ∈ all ∧ extension ∈ all ∧
      (rawEvents ⟨.int 4, .null, .int 5, .null⟩ (Options.default.paged (some 1) (some 1))).run
        (.opened (some timetable)) = (.ok ((all.drop 1).take 1), .opened (some timetable)) ∧
      (rawEvents ⟨.int 4, .null, .int 5, .null⟩ .default).run
          (.opened (some ⟨[everlasting, extension, deadline], []⟩))
        = (.ok all, .opened (some ⟨[everlasting, extension, deadline], []⟩)) := by
  have hcoerce : Filters.coerce ⟨.int 4, .null, .int 5, .null⟩
      = .ok ⟨.ofIds [4], .nobody, .ofIds [5], .nobody⟩ := rfl
  have hsound : timetable.Sound := by decide
  have hall := run_rawEvents_of_fits hcoerce (by decide) (c := .opened (some timetable)) rfl rfl
    hsound false
  have hmem := fun e => mem_sortedEvents_iff hsound ⟨.ofIds [4], .nobody, .ofIds [5], .nobody⟩ false
    false .timestart (e := e)
  have hsame : SameRows timetable ⟨[everlasting, extension, deadline], []⟩ :=
    ⟨(List.reverse_perm [deadline, extension, everlasting]).symm, .refl _⟩
  obtain ⟨hpaginated, -⟩ := listing_pages hcoerce (o := .default) rfl (.inl rfl)
    (c := .opened (some timetable)) rfl hsound
  obtain ⟨hpages, hrows⟩ := hpaginated _ hall
  refine ⟨_, hall, (hmem everlasting).2 ?_, (hmem extension).2 ?_, ?_, ?_⟩
  · exact ⟨by simp [timetable], by decide, by decide, by decide⟩
  · exact ⟨by simp [timetable], by decide, by decide, by decide⟩
  · exact hpages.page 1 1 (Nat.le_refl 1) (by decide) (by decide)
  · exact hrows (.opened (some ⟨[everlasting, extension, deadline], []⟩)) _ rfl rfl hsame

end Store

end EventCalendar
