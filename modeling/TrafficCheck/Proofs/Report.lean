import Mathlib
import TrafficCheck.Proofs.Json
import TrafficCheck.Report.Json

/-!
# Reports read back from their JSON text

Each record of a report is written with all of its fields, each under its own name, and a reader
looks the fields up by these names.

## Main definitions

* `RunReport.Fits`: all counts of a report fit into 64 bits.

## Main statements

* `Json.record?_object`, `Json.list?_map`: fields and lists that were written are found again.
* `RunReport.ofJson?_toJson`: a report is read back from its value.
* `RunReport.json_text_round_trip`: a report is read back from its text, so that different reports
  have different texts.
-/

namespace TrafficCheck

namespace Json

/-! ## Parts of records -/

theorem proper_nat (n : Nat) : (nat n).Proper := .number (Numeral.proper_ofNat n)

theorem proper_optional (s : Option String) : (optional s).Proper := by
  cases s with
  | none => exact .null
  | some s => exact .string s

theorem proper_array_map {α : Type} {f : α → Json} {xs : List α} (h : ∀ x ∈ xs, (f x).Proper) :
    (array (xs.map f)).Proper := .array (List.forall_mem_map.2 h)

@[simp] theorem string?_string (s : String) : (string s).string? = some s := rfl

@[simp] theorem optional?_optional (s : Option String) : (optional s).optional? = some s := by
  cases s <;> rfl

theorem nat?_nat {n : Nat} (hn : n < UInt64.size) : (nat n).nat? = some n := by
  simp [nat, nat?, Numeral.ofNat, Numeral.toNat?, hn]

theorem list?_map {α : Type} {f : α → Json} {g : Json → Option α} {xs : List α}
    (h : ∀ x ∈ xs, g (f x) = some x) : list? g (array (xs.map f)) = some xs := by
  induction xs with
  | nil => rfl
  | cons x xs ih =>
    have hrest : (xs.map f).mapM g = some xs := ih fun y hy => h y (by simp [hy])
    simp [list?, List.mapM_cons, h x (by simp), hrest]

/-- The fields of an object are those of a record if they have its names in order. -/
theorem record?_object {names : List String} {fields : List (String × Json)}
    (hnames : fields.map (·.1) = names) (hnodup : names.Nodup) :
    (object fields).record? names = some fields := by
  have hfilter : (fields.filter fun field => names.contains field.1) = fields := by
    rw [List.filter_eq_self]
    intro field hfield
    simpa [← hnames] using ⟨field.2, hfield⟩
  simp only [record?, hfilter, hnames, if_pos hnodup]

end Json

/-! ## Records -/

/-- The counts of a file fit into 64 bits. -/
structure FileStatistics.Fits (s : FileStatistics) : Prop where
  passed : s.passed < UInt64.size
  failed : s.failed < UInt64.size
  ignored : s.ignored < UInt64.size

/-- The counts of a run fit into 64 bits. -/
structure RunSummary.Fits (s : RunSummary) : Prop where
  total : s.total < UInt64.size
  passed : s.passed < UInt64.size
  failed : s.failed < UInt64.size
  aborted : s.aborted < UInt64.size

/-- All counts of a report fit into 64 bits. -/
structure RunReport.Fits (r : RunReport) : Prop where
  summary : r.summary.Fits
  files : ∀ p ∈ r.projects, ∀ s ∈ p.files, s.Fits

namespace FileStatistics

theorem proper_toJson (s : FileStatistics) : s.toJson.Proper := by
  refine .object ?_
  simp [Json.proper_nat, Json.Proper.string]

theorem ofJson?_toJson {s : FileStatistics} (hs : s.Fits) : ofJson? s.toJson = some s := by
  rw [ofJson?, toJson, Json.record?_object]
  · simp [List.lookup, Json.nat?_nat hs.passed, Json.nat?_nat hs.failed, Json.nat?_nat hs.ignored]
  · rfl
  · decide

end FileStatistics

namespace RunSummary

theorem proper_toJson (s : RunSummary) : s.toJson.Proper := by
  refine .object ?_
  simp [Json.proper_nat]

theorem ofJson?_toJson {s : RunSummary} (hs : s.Fits) : ofJson? s.toJson = some s := by
  rw [ofJson?, toJson, Json.record?_object]
  · simp [List.lookup, Json.nat?_nat hs.total, Json.nat?_nat hs.passed, Json.nat?_nat hs.failed,
      Json.nat?_nat hs.aborted]
  · rfl
  · decide

end RunSummary

namespace ProjectReport

theorem proper_toJson (p : ProjectReport) : p.toJson.Proper := by
  refine .object ?_
  simp [Json.Proper.string, Json.proper_optional, Json.proper_array_map,
    FileStatistics.proper_toJson]

theorem ofJson?_toJson {p : ProjectReport} (hp : ∀ s ∈ p.files, s.Fits) :
    ofJson? p.toJson = some p := by
  have hstatus : ProjectStatus.ofJson? (.string p.status.word) = some p.status :=
    ProjectStatus.ofWord?_word p.status
  have hfiles : Json.list? FileStatistics.ofJson? (.array (p.files.map FileStatistics.toJson)) =
      some p.files := Json.list?_map fun s hs => FileStatistics.ofJson?_toJson (hp s hs)
  have hstrings : ∀ texts : List String, Json.list? Json.string? (.array (texts.map .string)) =
      some texts := fun texts => Json.list?_map fun _ _ => rfl
  rw [ofJson?, toJson, Json.record?_object]
  · simp [List.lookup, hstatus, hfiles, hstrings]
  · rfl
  · decide

end ProjectReport

namespace RunReport

theorem proper_toJson (r : RunReport) : r.toJson.Proper := by
  refine .object ?_
  simp [Json.Proper.string, Json.proper_array_map, RunSummary.proper_toJson,
    ProjectReport.proper_toJson]

theorem ofJson?_toJson {r : RunReport} (hr : r.Fits) : ofJson? r.toJson = some r := by
  have hprojects : Json.list? ProjectReport.ofJson? (.array (r.projects.map ProjectReport.toJson)) =
      some r.projects := Json.list?_map fun p hp => ProjectReport.ofJson?_toJson (hr.files p hp)
  rw [ofJson?, toJson, Json.record?_object]
  · simp [List.lookup, RunSummary.ofJson?_toJson hr.summary, hprojects]
  · rfl
  · decide

/-- A report is read back from its JSON text, which no other report has. -/
theorem json_text_round_trip {r : RunReport} (hr : r.Fits) :
    (Json.parse? (r.text .json).toList).bind ofJson? = some r ∧
      ∀ r' : RunReport, r'.Fits → r'.text .json = r.text .json → r' = r := by
  have hread : ∀ {r : RunReport}, r.Fits →
      (Json.parse? (r.text .json).toList).bind ofJson? = some r := by
    intro r hr
    rw [text, Json.parse?_text r.proper_toJson]
    exact ofJson?_toJson hr
  refine ⟨hread hr, fun r' hr' htext => ?_⟩
  have hread' := hread hr'
  rw [htext, hread hr] at hread'
  exact (Option.some.inj hread').symm

/-- A report with a project that failed, whose texts need every kind of escape, and one that was
aborted. -/
def quoting : RunReport where
  startTime := "2024-03-14T14:05:09+00:00"
  endTime := ""
  summary := ⟨2, 0, 1, 1⟩
  projects := [
    { project := "C:\\tests \"größe\"", resultsDir := some "", status := .failed,
      files := [⟨"a.assertions", 18446744073709551615, 1, 0⟩],
      failures := ["line\r\n\tnext\x01\x1f", "\x08\x0c/\x7f"], loadFailures := [], error := none },
    .aborted "π" "no results\x00"]

theorem json_text_round_trip_quoting :
    quoting.Fits ∧ (Json.parse? (quoting.text .json).toList).bind ofJson? = some quoting := by
  have hfits : quoting.Fits := by
    refine ⟨⟨by decide, by decide, by decide, by decide⟩, ?_⟩
    intro p hp s hs
    simp only [quoting, ProjectReport.aborted, List.mem_cons, List.not_mem_nil, or_false] at hp
    rcases hp with rfl | rfl
    · obtain rfl := List.mem_singleton.1 hs
      exact ⟨by decide, by decide, by decide⟩
    · exact nomatch hs
  exact ⟨hfits, (json_text_round_trip hfits).1⟩

end RunReport

end TrafficCheck
