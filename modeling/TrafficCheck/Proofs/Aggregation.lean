import Mathlib.Data.List.Forall2
import TrafficCheck.CommandLine
import TrafficCheck.Proofs.Inspection
import TrafficCheck.Proofs.Tables
import TrafficCheck.Proofs.Verdict

/-!
# Verdicts of runs

The verdict on a project is found on one way, from the set of its assertions and the logs of its
ports, and the lists in its entry on another one. The counts of a report are kept while entries are
added. Here both are shown to agree, so that a command succeeds just if every entry of its report
has passed.

## Main definitions

* `ProjectReport.Consistent`: the status of an entry agrees with its lists and its error.
* `ProjectReport.Tells`: what an entry says of a project.
* `RunReport.Aggregates`: a report has one consistent entry for each project and counts them.

## Main statements

* `Project.consistent_check`: a check gives a consistent entry, whatever comes in its way.
* `RunReport.Aggregates.add`, `Run.aggregates_foldlM`: the report of a run while its projects are
  checked.
* `Run.check_aggregates`: the report of a run, and the exit code of the command that asked for it.
-/

namespace TrafficCheck

/-! ## Entries -/

namespace ProjectReport

/-- The status of an entry agrees with its lists and its error. -/
structure Consistent (p : ProjectReport) : Prop where
  passed_iff : p.status = .passed ↔ p.failures = [] ∧ p.loadFailures = [] ∧ p.error = none
  failed_iff : p.status = .failed ↔ p.error = none ∧ (p.failures ≠ [] ∨ p.loadFailures ≠ [])
  aborted_iff : p.status = .aborted ↔ p.error ≠ none

theorem consistent_aborted (project error : String) : (aborted project error).Consistent where
  passed_iff := by simp [aborted]
  failed_iff := by simp [aborted]
  aborted_iff := by simp [aborted]

end ProjectReport

namespace AssertionSet

/-- The messages of the failed assertions are one for each of them, in order. -/
theorem forall₂_failureMessages (s : AssertionSet) :
    List.Forall₂ (fun a message => a.outcome = .failed message)
      (s.assertions.filter fun a => a.outcome matches .failed _) s.failureMessages := by
  unfold failureMessages
  induction s.assertions with
  | nil => exact .nil
  | cons a as ih =>
    cases ha : a.outcome with
    | passed => simpa [List.filterMap_cons, ha] using ih
    | failed message => simpa [List.filterMap_cons, ha] using ih
    | ignored reason => simpa [List.filterMap_cons, ha] using ih

end AssertionSet

namespace Project

variable {c : Config} {dir : Path} {d : Disk} {p : ProjectReport} {start : Scene}

theorem consistent_reportOn (q : Project) (s : AssertionSet) (cleanLogs : Bool) :
    (q.reportOn s cleanLogs).Consistent := by
  -- a file that was not loaded, a failed assertion and a log with errors each spoil the verdict
  cases hloaded : s.failures <;> cases hmessages : s.failureMessages <;> cases cleanLogs
  all_goals constructor <;> simp [reportOn, AssertionSet.passed, hloaded, hmessages]

/-- The entry of a project is the report on it, or tells the error that ended its check. -/
theorem value_check (c : Config) (dir : Path) (start : Scene) :
    (check c dir start).value =
      match ((attempt c dir).run start).value with
      | .ok report => report
      | .error e => .aborted dir.text e.message := by
  unfold check
  rw [Survey.value_bind]
  cases ((attempt c dir).run start).value <;> rfl

/-- Behind a report stands a project that was found and whose assertions were checked. -/
theorem exists_of_attempt (hp : ((attempt c dir).run start).value = .ok p) :
    ∃ q checked cleanLogs told, (locate start.disk c dir).outcome = .ok q ∧
      ((q.checkAssertions c).run (start.after told)).value = .ok (checked, cleanLogs) ∧
      p = q.reportOn checked cleanLogs := by
  simp only [attempt, Inspection.value_run_bind_eq_ok] at hp
  obtain ⟨q, hq, ⟨checked, cleanLogs⟩, hchecked, -, -, hp⟩ := hp
  exact ⟨q, checked, cleanLogs, _, Outcome.mapError_eq_ok_iff.1 hq, hchecked,
    (Except.ok.inj hp).symm⟩

/-- A check gives a consistent entry, whatever comes in its way. -/
theorem consistent_check (c : Config) (dir : Path) (start : Scene) :
    (check c dir start).value.Consistent := by
  rw [value_check]
  cases hreport : ((attempt c dir).run start).value with
  | error e => exact ProjectReport.consistent_aborted dir.text e.message
  | ok p =>
    obtain ⟨q, checked, cleanLogs, -, -, -, rfl⟩ := exists_of_attempt hreport
    exact consistent_reportOn q checked cleanLogs

/-- A project that was found is the one in the directory where it was looked for. -/
theorem dir_of_locate {q : Project} (hq : (locate d c dir).outcome = .ok q) : q.dir = dir := by
  simp only [locate, Attempt.outcome_bind, Attempt.outcome_pure, Outcome.bind_eq_ok,
    Except.ok.injEq] at hq
  obtain ⟨-, -, -, -, rfl⟩ := hq
  rfl

/-- The entry of a project bears its directory. -/
theorem project_check (c : Config) (dir : Path) (start : Scene) :
    (check c dir start).value.project = dir.text := by
  rw [value_check]
  cases hreport : ((attempt c dir).run start).value with
  | error e => rfl
  | ok p =>
    obtain ⟨q, checked, cleanLogs, -, hq, -, rfl⟩ := exists_of_attempt hreport
    exact congrArg Path.text (dir_of_locate hq)

/-! ### Logs of ports -/

/-- Some line of a port log in a directory starts with one of the priorities of errors. -/
def RecordsErrors (d : Disk) (results : Path) : Prop :=
  ∃ names, d.names results = .ok names ∧ ∃ name ∈ names,
    (results.child name).extension? = some "log" ∧ d.isFile (results.child name) = true ∧
    ∃ text, d.readText (results.child name) = .ok text ∧
      ∃ line ∈ Text.lines text.toList, "<3>".toList <+: line ∨ "<4>".toList <+: line

theorem isErrorLine_iff {line : List Char} :
    isErrorLine line = true ↔ "<3>".toList <+: line ∨ "<4>".toList <+: line := by
  rw [isErrorLine, Bool.or_eq_true, List.isPrefixOf_iff_prefix, List.isPrefixOf_iff_prefix]

/-- A log has no record of an error if none of its lines, with or without numbers, is one. -/
theorem errors_isEmpty_iff (cs : List Char) :
    ((Text.numberedLines cs).filter fun line => isErrorLine line.2).isEmpty = true ↔
      ∀ line ∈ Text.lines cs, isErrorLine line = false := by
  have hlines : (Text.numberedLines cs).map (·.2) = Text.lines cs :=
    List.ext_getElem (by simp [Text.numberedLines]) (by simp [Text.numberedLines])
  rw [← hlines, List.isEmpty_iff, List.filter_eq_nil_iff, List.forall_mem_map]
  simp

/-- Logs are clean if no line in any of them starts with one of the priorities of errors. -/
theorem readEach_eq_ok {logs : List Path} {clean : Bool}
    (hclean : ((readEach logs).run (.still d)).value = .ok clean) :
    clean = true ↔ ∀ log ∈ logs, ∀ text, d.readText log = .ok text →
      ∀ line ∈ Text.lines text.toList, isErrorLine line = false := by
  induction logs generalizing clean with
  | nil =>
    obtain rfl := Except.ok.inj hclean
    simp
  | cons log rest ih =>
    simp only [readEach, Inspection.value_run_bind_eq_ok, Scene.after_still] at hclean
    obtain ⟨text, htext, -, -, clean', hrest, hpure⟩ := hclean
    obtain rfl := Except.ok.inj hpure
    have hread : d.readText log = .ok text := Outcome.mapError_eq_ok_iff.1 htext
    rw [Bool.and_eq_true, errors_isEmpty_iff, ih hrest, List.forall_mem_cons]
    refine and_congr_left' ⟨fun h other hother => ?_, fun h => h text hread⟩
    rw [hread] at hother
    exact Except.ok.inj hother ▸ h

theorem readLogs_eq_ok {results : Path} {clean : Bool}
    (hclean : ((readLogs results).on d).outcome = .ok clean) :
    clean = true ↔ ¬RecordsErrors d results := by
  change ((readLogs results).run (.still d)).value = .ok clean at hclean
  simp only [readLogs, Inspection.value_run_bind_eq_ok, Scene.after_still] at hclean
  obtain ⟨logs, hlogs, hclean⟩ := hclean
  change portLogs d results = .ok logs at hlogs
  rw [readEach_eq_ok hclean]
  unfold portLogs at hlogs
  cases hnames : d.names results with
  | error failure => simp [hnames] at hlogs
  | ok names =>
    rw [hnames] at hlogs
    obtain rfl := Except.ok.inj hlogs
    simp only [RecordsErrors, hnames, Except.ok.injEq, exists_eq_left', ← isErrorLine_iff]
    simp [NameSet.mem_keys_ofNames]

/-- Behind the check of the assertions of a project its logs are clean if none records an error. -/
theorem clean_of_checkAssertions {q : Project} {checked : AssertionSet} {clean : Bool}
    (hchecked : ((q.checkAssertions c).on d).outcome = .ok (checked, clean)) :
    clean = true ↔ ¬RecordsErrors d q.resultsDir := by
  change ((q.checkAssertions c).run (.still d)).value = .ok (checked, clean) at hchecked
  simp only [checkAssertions, Inspection.value_run_bind_eq_ok, Scene.after_still] at hchecked
  obtain ⟨-, -, -, -, clean', hclean, -, -, -, -, -, -, -, -, -, -, ⟨s, _⟩, -, -, -, hpure⟩ :=
    hchecked
  obtain ⟨-, rfl⟩ := Prod.mk.inj (Except.ok.inj hpure)
  exact readLogs_eq_ok (Outcome.mapError_eq_ok_iff.1 hclean)

end Project

/-- What the entry of the project in a directory tells of its check on a disk. -/
structure ProjectReport.Tells (d : Disk) (c : Config) (dir : Path) (p : ProjectReport) : Prop where
  /-- One failure for each failed assertion, and one if a log of a port records an error. -/
  checked : p.error = none → ∃ (q : Project) (s : AssertionSet) (clean : Bool)
    (messages : List String), (Project.locate d c dir).outcome = .ok q ∧
      ((q.checkAssertions c).on d).outcome = .ok (s, clean) ∧
      List.Forall₂ (fun a message => a.outcome = .failed message)
        (s.assertions.filter fun a => a.outcome matches .failed _) messages ∧
      p.loadFailures = s.failures.map (fun failure => failure.error.message) ∧
      (p.failures = messages ∧ ¬Project.RecordsErrors d q.resultsDir ∨
        p.failures = messages ++ ["Port logs contain error records"] ∧
          Project.RecordsErrors d q.resultsDir)
  /-- The message of the error that ended the check, and nothing else. -/
  aborted : ∀ message, p.error = some message → p = .aborted dir.text message ∧
    ∃ e, ((Project.attempt c dir).on d).outcome = .error e ∧ message = e.message

namespace Project

variable {c : Config} {dir : Path} {d : Disk}

theorem tells_check (d : Disk) (c : Config) (dir : Path) :
    ((check c dir).on d).value.Tells d c dir := by
  have hvalue := value_check c dir (.still d)
  cases hreport : ((attempt c dir).run (.still d)).value with
  | error e =>
    rw [hreport] at hvalue
    replace hvalue : ((check c dir).on d).value = .aborted dir.text e.message := hvalue
    rw [hvalue]
    refine ⟨fun hnone => absurd hnone (by simp [ProjectReport.aborted]), fun message hmessage => ?_⟩
    obtain rfl := Option.some.inj hmessage
    exact ⟨rfl, e, hreport, rfl⟩
  | ok p =>
    rw [hreport] at hvalue
    replace hvalue : ((check c dir).on d).value = p := hvalue
    obtain ⟨q, s, clean, told, hq, hchecked, rfl⟩ := exists_of_attempt hreport
    replace hchecked : ((q.checkAssertions c).on d).outcome = .ok (s, clean) := hchecked
    rw [hvalue]
    refine
      ⟨fun _ => ⟨q, s, clean, s.failureMessages, hq, hchecked, s.forall₂_failureMessages, rfl, ?_⟩,
        fun message hmessage => absurd hmessage (by simp [reportOn])⟩
    have hlogs := clean_of_checkAssertions hchecked
    cases clean with
    | true => exact .inl ⟨List.append_nil _, hlogs.1 rfl⟩
    | false => exact .inr ⟨rfl, not_not.1 (mt hlogs.2 Bool.false_ne_true)⟩

end Project

/-! ## Reports -/

/-- A report has one consistent entry for each of some projects, in order, and counts the
entries. -/
structure RunReport.Aggregates (projects : List Path) (r : RunReport) : Prop where
  entries : List.Forall₂ (fun dir p => p.project = dir.text ∧ p.Consistent) projects r.projects
  total_eq_sum : r.summary.total = r.summary.passed + r.summary.failed + r.summary.aborted
  total_eq : r.summary.total = r.projects.length
  passed_eq : r.summary.passed = r.projects.countP fun p => p.status = .passed
  failed_eq : r.summary.failed = r.projects.countP fun p => p.status = .failed
  aborted_eq : r.summary.aborted = r.projects.countP fun p => p.status = .aborted

namespace RunReport

variable {r : RunReport} {projects : List Path}

theorem aggregates_start (time : String) : (start time).Aggregates [] :=
  ⟨.nil, rfl, rfl, rfl, rfl, rfl⟩

/-- One more entry is counted once. -/
theorem Aggregates.add (h : r.Aggregates projects) {dir : Path} {p : ProjectReport}
    (hdir : p.project = dir.text) (hp : p.Consistent) :
    (r.add p).Aggregates (projects ++ [dir]) where
  entries := List.rel_append h.entries (.cons ⟨hdir, hp⟩ .nil)
  total_eq_sum := by
    have := h.total_eq_sum
    cases hstatus : p.status <;> simp only [RunReport.add, RunSummary.add, hstatus] <;> omega
  total_eq := by
    have := h.total_eq
    cases hstatus : p.status <;> simp [RunReport.add, RunSummary.add, hstatus, this]
  passed_eq := by
    have := h.passed_eq
    cases hstatus : p.status <;> simp [RunReport.add, RunSummary.add, hstatus, this]
  failed_eq := by
    have := h.failed_eq
    cases hstatus : p.status <;> simp [RunReport.add, RunSummary.add, hstatus, this]
  aborted_eq := by
    have := h.aborted_eq
    cases hstatus : p.status <;> simp [RunReport.add, RunSummary.add, hstatus, this]

/-- A report passes if each of its entries does. -/
theorem Aggregates.passed_iff (h : r.Aggregates projects) :
    r.passed = true ↔ ∀ p ∈ r.projects, p.status = .passed := by
  rw [passed, Bool.and_eq_true, decide_eq_true_iff, decide_eq_true_iff, h.failed_eq, h.aborted_eq,
    List.countP_eq_zero, List.countP_eq_zero, ← forall₂_and]
  refine forall₂_congr fun p _ => ?_
  cases p.status <;> simp

end RunReport

end TrafficCheck

namespace TrafficCheck.Run

variable {c : Config} {d : Disk} {r : Run} {projects : List Path} {report : RunReport}
  {start : Scene}

/-- While projects are checked, the report has one consistent entry for each of them. -/
theorem aggregates_foldlM {before : List Path} (h : report.Aggregates before) (start : Scene) :
    (projects.foldlM (checkNext c) report start).value.Aggregates (before ++ projects) := by
  induction projects generalizing report before start with
  | nil => rwa [List.append_nil]
  | cons dir projects ih =>
    rw [List.foldlM_cons, Survey.value_bind, List.append_cons]
    exact ih (h.add (Project.project_check c dir _) (Project.consistent_check c dir _)) _

/-- On one disk a project gives the same entry wherever it stands in a run. -/
theorem projects_foldlM (report : RunReport) :
    ((projects.foldlM (checkNext c) report).on d).value.projects =
      report.projects ++ projects.map fun dir => ((Project.check c dir).on d).value := by
  induction projects generalizing report with
  | nil => exact (List.append_nil _).symm
  | cons dir projects ih =>
    have hnext : ((checkNext c report dir).on d).value =
        report.add ((Project.check c dir).on d).value := rfl
    rw [List.foldlM_cons, Survey.on_bind, Logged.value_bind, ih, hnext, List.map_cons,
      List.append_cons]
    rfl

theorem aggregates_checkAll (c : Config) (time : String) (projects : List Path) (start : Scene) :
    (checkAll c time projects start).value.Aggregates projects :=
  aggregates_foldlM (RunReport.aggregates_start time) _

theorem projects_checkAll (c : Config) (time : String) (projects : List Path) (d : Disk) :
    ((checkAll c time projects).on d).value.projects =
      projects.map fun dir => ((Project.check c dir).on d).value :=
  projects_foldlM (.start time)

/-- A run that finds projects gives the report on them. -/
theorem exists_value_check (hprojects : (r.projects start.disk c).outcome = .ok projects)
    (time : String) : ∃ told, ((r.check c time).run start).value =
      .ok (checkAll c time projects (start.after told)).value := by
  have hlook : ((Inspection.look fun d => (r.projects d c).mapError CheckError.project).run
      start).value = .ok projects := congrArg (Except.mapError CheckError.project) hprojects
  rw [check, Inspection.run_bind, Inspection.resume, hlook]
  exact ⟨_, rfl⟩

end TrafficCheck.Run

namespace TrafficCheck.CommandLine

variable {c : Config} {d : Disk} {o : Options} {style : LogStyle} {file : Option Path}
  {time : String} {report : RunReport} {format : OutputFormat}

/-- The scene on which a command stands whose log may go to a file. -/
def scene (d : Disk) (style : LogStyle) (file : Option Path) : Scene :=
  file.elim (.still d) fun file => style.scene file d

/-- A command writes out the report of its run in the format asked for. -/
theorem report_check (hformat : OutputFormat.read? (o.output.getD "text") = some format)
    (hreport : ((o.run.check c time).run (scene d style file)).value = .ok report) :
    (check d style file c time o).report = some (report, format) := by
  have hrun : ((CommandLine.report c time o).run (scene d style file)).value =
      .ok (report, format) := by
    have hmapped : (((o.run.check c time).mapError (·.message)).run (scene d style file)).value =
        .ok report := congrArg (Except.mapError CheckError.message) hreport
    simp only [CommandLine.report, hformat]
    rw [Inspection.value_run_bind_eq_ok]
    exact ⟨report, hmapped, rfl⟩
  change (tellingReport c time o (scene d style file)).value = _
  rw [tellingReport, Survey.value_bind, hrun]
  rfl

/-- A command succeeds if all projects in its report passed. -/
theorem exitCode_check (hreport : (check d style file c time o).report = some (report, format)) :
    (check d style file c time o).exitCode = if report.passed then 0 else failureCode := by
  change (if hasPassed (check d style file c time o).report then 0 else failureCode) = _
  rw [hreport, hasPassed]

/-- Whatever else a command does, the report that it writes out decides on its success. -/
theorem exitCode_perform {env : Environment} {times : Times} {words : List String}
    (hreport : (perform d env times words).report = some (report, format)) :
    (perform d env times words).exitCode = if report.passed then 0 else failureCode := by
  unfold perform at hreport ⊢
  match hrequest : Request.read words with
  | .error e => simp [hrequest, Outcome.refusing] at hreport
  | .ok .help => simp [hrequest, Outcome.telling] at hreport
  | .ok .version => simp [hrequest, Outcome.telling] at hreport
  | .ok (.check o) =>
    simp only [hrequest, configureAndCheck] at hreport ⊢
    split at hreport
    · simp [Outcome.refusing] at hreport
    · split at hreport
      · exact exitCode_check hreport
      · split at hreport
        · exact exitCode_check hreport
        · simp [Outcome.refusing] at hreport

end TrafficCheck.CommandLine

namespace TrafficCheck

/-- A run that finds projects reports on each of them, in order and independently of the others. The
report counts its entries, and a command on it succeeds if all of them passed, wherever its log
goes. -/
theorem Run.check_aggregates {d : Disk} {c : Config} {r : Run} {projects : List Path}
    (hprojects : (r.projects d c).outcome = .ok projects) (time : String) :
    (∃ report, ((r.check c time).on d).outcome = .ok report ∧
      report.projects = projects.map (fun dir => ((Project.check c dir).on d).value) ∧
      (∀ dir, ((Project.check c dir).on d).value.Tells d c dir) ∧
      report.Aggregates projects ∧
      (report.passed = true ↔ ∀ p ∈ report.projects, p.status = .passed)) ∧
    ∀ (o : CommandLine.Options) (style : LogStyle) (file : Option Path) (format : OutputFormat),
      o.run = r → OutputFormat.read? (o.output.getD "text") = some format →
      ∃ report, ((r.check c time).run (CommandLine.scene d style file)).value = .ok report ∧
        report.Aggregates projects ∧
        (CommandLine.check d style file c time o).report = some (report, format) ∧
        (CommandLine.check d style file c time o).exitCode =
          if ∀ p ∈ report.projects, p.status = .passed then 0 else 2 := by
  constructor
  · have hstill : (r.projects (Scene.still d).disk c).outcome = .ok projects := hprojects
    obtain ⟨told, hreport⟩ := exists_value_check hstill time
    have hall := aggregates_checkAll c time projects (.still d)
    exact ⟨_, hreport, projects_checkAll c time projects d, fun dir => Project.tells_check d c dir,
      hall, hall.passed_iff⟩
  · rintro o style file format rfl hformat
    have hscene : (o.run.projects (CommandLine.scene d style file).disk c).outcome =
        .ok projects := by
      cases file <;> exact hprojects
    obtain ⟨told, hreport⟩ := exists_value_check hscene time
    have hall := aggregates_checkAll c time projects ((CommandLine.scene d style file).after told)
    have hwritten := CommandLine.report_check hformat hreport
    refine ⟨_, hreport, hall, hwritten, ?_⟩
    rw [CommandLine.exitCode_check hwritten]
    exact if_congr hall.passed_iff rfl rfl

namespace Run

/-- A disk with two projects: the first one never ran, and the second one ran with an error in the
log of a port and has a file of assertions that cannot be read. -/
def twoProjects : Disk where
  root := .directory [("tests", .directory [
    ("b", .directory [
      ("topology", .file (.ok "ports: []")),
      ("x.assertions", .file (.ok "ALWAYS")),
      ("results", .directory [("03_14_2024 02-05-09 PM", .directory [
        ("Client Port 1 (10.0.0.1 port 3).sum", .file (.ok "")),
        ("port.log", .file (.ok "<6>started\n<3>stopped\n"))])])]),
    ("a", .directory [("topology", .file (.ok ""))])])]
  cwd := []

/-- A configuration that names a topology file and a results directory. -/
def plainConfig : Config := ⟨none, none, none, 1, "topology", "results", none⟩

/-- The run on a directory of tests. -/
def testsRun : Run := ⟨[⟨"tests"⟩], none, none⟩

theorem check_aggregates_twoProjects :
    (testsRun.projects twoProjects plainConfig).outcome = .ok [⟨"tests/a"⟩, ⟨"tests/b"⟩] ∧
      ∃ report, ((testsRun.check plainConfig "").on twoProjects).outcome = .ok report ∧
        report.Aggregates [⟨"tests/a"⟩, ⟨"tests/b"⟩] := by
  have hprojects : (testsRun.projects twoProjects plainConfig).outcome =
      .ok [⟨"tests/a"⟩, ⟨"tests/b"⟩] := rfl
  obtain ⟨⟨report, hreport, -, -, hall, -⟩, -⟩ := check_aggregates hprojects ""
  exact ⟨hprojects, report, hreport, hall⟩

example :
    (((testsRun.check plainConfig "").on twoProjects).outcome.map fun report =>
      report.projects.map fun p => (p.status, p.failures, p.loadFailures, p.error)).toOption =
    some [
      (.aborted, [], [], some "Cannot find result directory in tests/a"),
      (.failed, ["Port logs contain error records"],
        ["x.assertions:1: Bad rule prefix in expression: ALWAYS"], none)] := by
  decide +kernel

end Run

end TrafficCheck
