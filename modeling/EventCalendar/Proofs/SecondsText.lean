import EventCalendar.Proofs.IntegerText
import EventCalendar.Proofs.RequestParameters

/-!
# Timestamps that look like seconds

A text of digits after minus signs is taken for epoch seconds by its characters, and then has to be
an integer:

* `looksLikeSeconds_iff`: such texts.
* `IsUnreadNumeral`: those that are no integer, for a second sign, a digit without place value, or
  more digits than are read.
* `exists_readInteger_iff`: all others are integers, so being one is decidable.
* `readTimestampText_cases`: **every text is read, or is invalid, unless it is an unread numeral**.
* `timestamp_failures`: what this means for a request.
-/

set_option autoImplicit false

namespace EventCalendar.Parameters

open Text (isDigitMark isDecimalDigit digitLimit digitValue?)

/-- A row of digits after minus signs that is no integer: there is more than one sign, a digit has
no place value, or there are more digits than are read. -/
def IsUnreadNumeral (s : List Char) : Prop :=
  ∃ k ds, s = List.replicate k '-' ++ ds ∧ ds ≠ [] ∧ (∀ c ∈ ds, isDigitMark c = true) ∧
    (2 ≤ k ∨ (∃ c ∈ ds, isDecimalDigit c = false) ∨ digitLimit < ds.length)

theorem dropWhile_minus {k : Nat} {ds : List Char} (hmarks : ∀ c ∈ ds, isDigitMark c = true) :
    (List.replicate k '-' ++ ds).dropWhile (· == '-') = ds := by
  rw [List.dropWhile_append_of_pos fun c hc => beq_iff_eq.2 (List.eq_of_mem_replicate hc)]
  cases ds with
  | nil => rfl
  | cons c ds =>
    have hc : c ≠ '-' := Text.ne_of_isDigitMark (hmarks c List.mem_cons_self) (by decide)
    exact List.dropWhile_cons_of_neg (mt beq_iff_eq.1 hc)

theorem looksLikeSeconds_iff {s : List Char} :
    looksLikeSeconds s = true ↔
      ∃ k ds, s = List.replicate k '-' ++ ds ∧ ds ≠ [] ∧ ∀ c ∈ ds, isDigitMark c = true := by
  have hsigns : ∀ s : List Char, s.takeWhile (· == '-')
      = List.replicate (s.takeWhile (· == '-')).length '-' := fun s =>
    List.eq_replicate_of_mem fun c hc => beq_iff_eq.1 (List.mem_takeWhile_imp (p := (· == '-')) hc)
  simp only [looksLikeSeconds, Bool.and_eq_true, Bool.not_eq_true', List.isEmpty_eq_false_iff,
    List.all_eq_true]
  constructor
  · intro h
    exact ⟨_, s.dropWhile (· == '-'), by rw [← hsigns, List.takeWhile_append_dropWhile], h⟩
  · intro h
    obtain ⟨k, ds, rfl, hne, hmarks⟩ := h
    rw [dropWhile_minus hmarks]
    exact ⟨hne, hmarks⟩

theorem IsUnreadNumeral.looksLikeSeconds {s : List Char} (h : IsUnreadNumeral s) :
    looksLikeSeconds s = true := by
  obtain ⟨k, ds, hs, hne, hmarks, -⟩ := h
  exact looksLikeSeconds_iff.2 ⟨k, ds, hs, hne, hmarks⟩

/-- **A text that looks like seconds** is an integer, or else an unread numeral. -/
theorem exists_readInteger_iff {s : List Char} (h : looksLikeSeconds s = true) :
    (∃ n, Text.readInteger s = .ok n) ↔ ¬ IsUnreadNumeral s := by
  obtain ⟨k, ds, rfl, hne, hmarks⟩ := looksLikeSeconds_iff.1 h
  simp only [Text.readInteger_minus_iff hne hmarks, Text.readMagnitude_eq_ok_iff hne hmarks]
  constructor
  · intro hread hunread
    obtain ⟨n, hk, m, ⟨hdigits, hlength, -⟩, -⟩ := hread
    obtain ⟨k', ds', heq, -, hmarks', hcause⟩ := hunread
    -- There is only one way to split off the signs.
    obtain rfl : ds = ds' := by rw [← dropWhile_minus hmarks, heq, dropWhile_minus hmarks']
    obtain rfl : k = k' := by simpa using congrArg List.length heq
    rcases hcause with h | ⟨c, hc, hdigit⟩ | h
    · omega
    · rw [hdigits c hc] at hdigit
      cases hdigit
    · omega
  · intro hread
    have hk : k ≤ 1 := by
      by_contra hk
      exact hread ⟨k, ds, rfl, hne, hmarks, .inl (by omega)⟩
    have hdigits : ∀ c ∈ ds, isDecimalDigit c = true := by
      intro c hc
      by_contra hdigit
      exact hread ⟨k, ds, rfl, hne, hmarks, .inr (.inl ⟨c, hc, by simpa using hdigit⟩)⟩
    have hlength : ds.length ≤ digitLimit := by
      by_contra hlength
      exact hread ⟨k, ds, rfl, hne, hmarks, .inr (.inr (by omega))⟩
    exact ⟨_, hk, _, ⟨hdigits, hlength, rfl⟩, rfl⟩

theorem isUnreadNumeral_iff {s : List Char} :
    IsUnreadNumeral s ↔ looksLikeSeconds s = true ∧ Text.integer? s = none := by
  constructor
  · intro h
    refine ⟨h.looksLikeSeconds, ?_⟩
    have hnone := mt (exists_readInteger_iff h.looksLikeSeconds).1 (not_not.2 h)
    cases hread : Text.readInteger s with
    | ok n => exact absurd ⟨n, hread⟩ hnone
    | error fault => rw [Text.integer?, hread]; rfl
  · intro h
    obtain ⟨hlooks, hnone⟩ := h
    by_contra hread
    obtain ⟨n, hn⟩ := (exists_readInteger_iff hlooks).2 hread
    rw [Text.integer?, hn] at hnone
    cases hnone

instance (s : List Char) : Decidable (IsUnreadNumeral s) :=
  decidable_of_iff _ isUnreadNumeral_iff.symm

/-- **Every text** is read, or it is invalid under the name of its parameter, unless it is an unread
numeral. -/
theorem readTimestampText_cases (s : List Char) (name : String) :
    (¬ IsUnreadNumeral (Text.trim s) → (∃ n, readTimestampText s name = .ok n) ∨
      readTimestampText s name = .error (.invalid name
        (name ++ " must be epoch seconds or an RFC3339 timestamp"))) ∧
    (IsUnreadNumeral (Text.trim s) → ∃ fault,
      readTimestampText s name = .error (.numeral fault (String.ofList (Text.trim s)))) := by
  simp only [readTimestampText]
  by_cases hlooks : looksLikeSeconds (Text.trim s) = true
  · rw [if_pos hlooks, ← exists_readInteger_iff hlooks, ← not_not (a := IsUnreadNumeral _),
      ← exists_readInteger_iff hlooks]
    cases Text.readInteger (Text.trim s) with
    | ok n => exact ⟨fun _ => .inl ⟨n, rfl⟩, fun h => absurd ⟨n, rfl⟩ h⟩
    | error fault => exact ⟨fun h => (by obtain ⟨n, hn⟩ := h; cases hn), fun _ => ⟨fault, rfl⟩⟩
  · rw [if_neg hlooks]
    refine ⟨fun _ => ?_, fun hunread => absurd hunread.looksLikeSeconds hlooks⟩
    cases Time.Iso.read? (Text.trim s) with
    | some instant => exact .inl ⟨_, rfl⟩
    | none => exact .inr rfl

theorem readTimestampText_of_optional {params : Parameters} {name text : String}
    {fault : ParameterFault} (htext : params.lookup name = some text)
    (h : readOptionalTimestamp params name = .error fault) :
    readTimestampText text.toList name = .error fault := by
  simp only [readOptionalTimestamp, htext] at h
  split at h
  · cases h
  · cases hread : readTimestampText text.toList name with
    | ok n => rw [hread] at h; cases h
    | error fault' => rw [hread] at h; cases h; rfl

end EventCalendar.Parameters

namespace EventCalendar.Http

open Parameters (IsUnreadNumeral readTimestamp readTimestampText readTimestampText_cases)

theorem RequestField.readTimestampText_of_fault? {params : Parameters} {field : RequestField}
    (hfield : field = .timeStart ∨ field = .timeEnd) {text : String}
    (htext : params.lookup field.label = some text) {fault : ParameterFault}
    (h : field.fault? params = some fault) :
    readTimestampText text.toList field.label = .error fault := by
  rcases hfield with rfl | rfl
  · exact Parameters.readTimestampText_of_optional htext (faultOf?_eq_some_iff.1 h)
  · exact Parameters.readTimestampText_of_optional htext (faultOf?_eq_some_iff.1 h)

/-- **What a timestamp that cannot be read leads to.** A text is read, or is invalid under the name
of its parameter, unless it is an unread numeral. If a time parameter is the first that cannot be
read, the request is answered with status 400 and the name of the parameter, or, if its text is an
unread numeral, as if the service had failed. -/
theorem timestamp_failures (text name : String) :
    (¬ IsUnreadNumeral (Text.trim text.toList) → (∃ n, readTimestamp (.text text) name = .ok n) ∨
      readTimestamp (.text text) name = .error (.invalid name
        (name ++ " must be epoch seconds or an RFC3339 timestamp"))) ∧
    (IsUnreadNumeral (Text.trim text.toList) → ∃ fault, readTimestamp (.text text) name
      = .error (.numeral fault (String.ofList (Text.trim text.toList)))) ∧
    ∀ params field, field = RequestField.timeStart ∨ field = RequestField.timeEnd →
      RequestField.firstFaulty? params = some field → params.lookup field.label = some text →
      ∃ response,
        (¬ IsUnreadNumeral (Text.trim text.toList) →
          response = .ofDocument 400 (errorDocument 400
            (field.label ++ " must be epoch seconds or an RFC3339 timestamp")
            [("domain", .text "calendar"), ("reason", .text "invalidParameter"),
              ("message", .text (field.label ++ " must be epoch seconds or an RFC3339 timestamp")),
              ("location", .text field.label), ("locationType", .text "parameter")])) ∧
        (IsUnreadNumeral (Text.trim text.toList) → response = .unexpected) ∧
        ∀ c, (listEvents params).run c = (.ok response, c) ∧
          ∀ now request, request.path = "/events" → request.isRead = true →
            QueryString.parameters request.query = params →
              respond (routes now) request c = (response, c) := by
  obtain ⟨hread, hunread⟩ := readTimestampText_cases text.toList name
  refine ⟨hread, hunread, fun params field hfield hfirst htext => ?_⟩
  obtain ⟨fault, hfault⟩ := Option.isSome_iff_exists.1
    (List.find?_some (p := fun field => (RequestField.fault? params field).isSome) hfirst)
  have hlist := listEvents_of_read_error (EventsRequest.read_of_firstFaulty? hfirst hfault)
  have htextFault := field.readTimestampText_of_fault? hfield htext hfault
  obtain ⟨hread, hunread⟩ := readTimestampText_cases text.toList field.label
  rw [htextFault] at hread hunread
  refine ⟨.ofParameterFault fault, fun h => ?_, fun h => ?_, fun c => ⟨hlist c,
    fun now request hpath hisRead hparams => respond_events (hlist _) now hpath hisRead hparams⟩⟩
  · obtain ⟨n, hn⟩ | hinvalid := hread h
    · cases hn
    · cases hinvalid
      exact Response.ofParameterFault_invalid field.label_ne_empty _
  · obtain ⟨cause, hnumeral⟩ := hunread h
    cases hnumeral
    rfl

/-- A word is invalid, under the name of its parameter; a superscript is an unread numeral. -/
theorem timestamp_failures_of_word :
    ¬ IsUnreadNumeral (Text.trim "yesterday".toList) ∧
      RequestField.firstFaulty? [("timeEnd", "yesterday")] = some .timeEnd ∧
      (∃ response, response = Response.ofDocument 400 (errorDocument 400
          "timeEnd must be epoch seconds or an RFC3339 timestamp"
          [("domain", .text "calendar"), ("reason", .text "invalidParameter"),
            ("message", .text "timeEnd must be epoch seconds or an RFC3339 timestamp"),
            ("location", .text "timeEnd"), ("locationType", .text "parameter")]) ∧
        ∀ c, (listEvents [("timeEnd", "yesterday")]).run c = (.ok response, c)) ∧
      IsUnreadNumeral (Text.trim "²".toList) ∧
      ∃ fault, readTimestamp (.text "²") "timeEnd" = .error (.numeral fault "²") := by
  have hword : ¬ IsUnreadNumeral (Text.trim "yesterday".toList) := by decide
  have hfirst : RequestField.firstFaulty? [("timeEnd", "yesterday")] = some .timeEnd := by decide
  have hmark : IsUnreadNumeral (Text.trim "²".toList) := by decide
  obtain ⟨response, hresponse, -, hrun⟩ := (timestamp_failures "yesterday" "timeEnd").2.2
    [("timeEnd", "yesterday")] .timeEnd (.inr rfl) hfirst rfl
  exact ⟨hword, hfirst, ⟨response, hresponse hword, fun c => (hrun c).1⟩, hmark,
    (timestamp_failures "²" "timeEnd").2.1 hmark⟩

/-- Two minus signs before a digit are no invalid parameter. -/
theorem timestamp_of_two_signs :
    readTimestamp (.text "--5") "timeStart" = .error (.numeral .malformed "--5") ∧
      (listEvents [("timeStart", "--5")]).run (.opened none)
        = (.ok .unexpected, .opened none) := by
  have hfirst : RequestField.firstFaulty? [("timeStart", "--5")] = some .timeStart := by decide
  have hfault : RequestField.timeStart.fault? [("timeStart", "--5")]
      = some (.numeral .malformed "--5") := by decide
  exact ⟨by decide, listEvents_of_read_error (EventsRequest.read_of_firstFaulty? hfirst hfault) _⟩

end EventCalendar.Http
