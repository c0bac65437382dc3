import FirmwareMatrix.Proofs.ConsoleLines
import FirmwareMatrix.Proofs.Delivery
import FirmwareMatrix.Proofs.LinewiseReading
import FirmwareMatrix.Proofs.Stages
import FirmwareMatrix.Proofs.Utf8Infix
import FirmwareMatrix.Proofs.Utf8RoundTrip

/-! # The final report

What is counted, what is printed and what the program exits with are worked out one by one from the
outcomes of a run. They agree: no board is left out, the lines that tell of failures, of success and
of an interruption appear exactly where these are, and a run exits with zero if and only if each of
its boards succeeded. Colours change nothing but the texts that they are put around. -/

namespace FirmwareMatrix

/-! ## Counts and codes -/

theorem RunStatus.exitCode_eq_zero_iff (status : RunStatus) :
    status.exitCode = 0 ↔ status = .succeeded := by
  cases status <;> simp [exitCode]

namespace Summary

variable {sum : Summary}

theorem status_eq_succeeded_iff :
    sum.status = .succeeded ↔ sum.interrupted = false ∧ ∀ o ∈ sum.outcomes, o.isSuccess = true := by
  unfold status
  cases sum.interrupted <;> simp

theorem failedNames_eq_nil_iff :
    sum.failedNames = [] ↔ ∀ o ∈ sum.outcomes, o.isSuccess = true := by
  simp [failedNames]

theorem failedNames_ne_nil_iff :
    sum.failedNames ≠ [] ↔ ∃ o ∈ sum.outcomes, o.isSuccess = false := by
  simp [failedNames_eq_nil_iff]

theorem succeeded_add_length_failedNames (sum : Summary) :
    sum.succeeded + sum.failedNames.length = sum.outcomes.length := by
  rw [succeeded, failedNames, List.length_map, ← List.countP_eq_length_filter,
    List.length_eq_countP_add_countP Outcome.isSuccess]
  simp

end Summary

/-! ## Lines that tell something -/

namespace Console

open Text

namespace Line

def Begins (head : String) (l : Line) : Prop := head.toList <+: l.text.toList

instance (head : String) (l : Line) : Decidable (l.Begins head) :=
  inferInstanceAs (Decidable (_ <+: _))

end Line

/-- Of some lines, `line` alone begins with `head` if `p` holds, and none does if not. -/
structure Announced (lines : List Line) (head : String) (line : Line) (p : Prop) : Prop where
  printed : p → lines.filter (fun l => l.Begins head) = [line]
  silent : ¬ p → lines.filter (fun l => l.Begins head) = []

namespace Message

variable (sum : Summary)

theorem interruption_announced :
    Announced (summaryLines sum) "Interrupted after" (interruptionLine sum)
      (sum.interrupted = true) := by
  by_cases hnames : sum.failedNames = []
  · constructor
    · intro h
      simp [summaryLines, verdictLines, interruptionLine, rule, Line.Begins, h, hnames]
    · intro h
      simp [summaryLines, verdictLines, rule, Line.Begins, h, hnames]
  · constructor
    · intro h
      simp [summaryLines, verdictLines, interruptionLine, rule, Line.Begins, h, hnames]
    · intro h
      simp [summaryLines, verdictLines, rule, Line.Begins, h, hnames]

theorem failure_announced :
    Announced (summaryLines sum) "Failed:"
      ⟨some .error, "Failed: " ++ String.intercalate ", " sum.failedNames⟩
      (∃ o ∈ sum.outcomes, o.isSuccess = false) := by
  rw [← Summary.failedNames_ne_nil_iff]
  constructor
  · intro h
    simp [summaryLines, verdictLines, interruptionLine, rule, Line.Begins, h]
  · intro h
    simp [summaryLines, verdictLines, interruptionLine, rule, Line.Begins, h]

theorem success_announced :
    Announced (summaryLines sum) "All builds successful!"
      ⟨some .success, "All builds successful!"⟩ (sum.status = .succeeded) := by
  rw [Summary.status_eq_succeeded_iff, ← Summary.failedNames_eq_nil_iff]
  constructor
  · rintro ⟨hgone, hnames⟩
    simp [summaryLines, verdictLines, rule, Line.Begins, hgone, hnames]
  · intro h
    by_cases hnames : sum.failedNames = []
    · have hstill : sum.interrupted = true := by simpa [hnames] using h
      simp [summaryLines, verdictLines, interruptionLine, rule, Line.Begins, hstill, hnames]
    · simp [summaryLines, verdictLines, interruptionLine, rule, Line.Begins, hnames]

end Message

/-! ## Texts, line by line -/

theorem Line.newline_notMem_shown {l : Line} (h : '\n' ∉ l.text.toList) (colored : Bool) :
    '\n' ∉ (l.shown colored).toList := by
  obtain ⟨style, text⟩ := l
  unfold shown wrapped
  cases colored with
  | false => exact h
  | true =>
    cases style with
    | none => exact h
    | some style =>
      have hopening : '\n' ∉ style.opening.toList := by cases style <;> decide +kernel
      have hreset : '\n' ∉ Escape.reset.toList := by decide +kernel
      simp [hopening, hreset, h]

/-- Where no text holds a line end, the lines can be read off the whole. -/
theorem cut_lines (colored : Bool) {ls : List Line} (h : ∀ l ∈ ls, '\n' ∉ l.text.toList) :
    Cut '\n' (ls.flatMap fun l => (l.shown colored ++ "\n").toList)
      (ls.map fun l => (l.shown colored).toList) [] := by
  induction ls with
  | nil => exact .rest List.not_mem_nil
  | cons l ls ih =>
    obtain ⟨hl, hls⟩ := List.forall_mem_cons.mp h
    rw [List.flatMap_cons, List.map_cons, String.toList_append, List.append_assoc]
    exact .piece (Line.newline_notMem_shown hl colored) (ih hls)

/-- A console in colour writes what one without writes, but for the sequences around the texts that
have a style. On either, texts without line ends come out as lines of their own. -/
theorem written_lines (ms : List Message) :
    let lines := ms.flatMap Message.lines
    let printed colored := (ms.foldl (fun s m => m.report s) (Screen.blank .open colored)).written
    printed false = Utf8.encode (lines.flatMap fun l => (l.text ++ "\n").toList) ∧
      printed true = Utf8.encode (lines.flatMap fun l => (l.wrapped ++ "\n").toList) ∧
      ((∀ l ∈ lines, '\n' ∉ l.text.toList) → ∀ colored,
        ∃ text, Utf8.decode (printed colored) = .ok text ∧
          Text.splitAt '\n' text = lines.map (fun l => (l.shown colored).toList) ++ [[]]) := by
  intro lines printed
  have hprinted (colored : Bool) :
      printed colored = Utf8.encode (lines.flatMap fun l => (l.shown colored ++ "\n").toList) :=
    (written_report ms none false colored).trans (flatMap_bytes colored lines)
  refine ⟨hprinted false, hprinted true, fun h colored => ⟨_, ?_, (cut_lines colored h).splitAt_eq⟩⟩
  rw [hprinted, Utf8.decode_encode]

end Console

/-- Counts, names and printed lines of a summary tell of the same outcomes. -/
structure Summary.Agrees (sum : Summary) : Prop where
  counted : sum.succeeded + sum.failedNames.length = sum.outcomes.length
  ordered : ∃ failed : List Outcome, failed.Sublist sum.outcomes ∧
    (∀ o ∈ failed, o.isSuccess = false) ∧ sum.failedNames = failed.map Outcome.board
  exits : sum.status.exitCode = 0 ↔ sum.status = .succeeded
  success : Console.Announced (Console.Message.summary sum).lines "All builds successful!"
    ⟨some .success, "All builds successful!"⟩ (sum.status = .succeeded)
  failure : Console.Announced (Console.Message.summary sum).lines "Failed:"
    ⟨some .error, "Failed: " ++ String.intercalate ", " sum.failedNames⟩
    (∃ o ∈ sum.outcomes, o.isSuccess = false)
  interruption : Console.Announced (Console.Message.summary sum).lines "Interrupted after"
    ⟨some .warning, "Interrupted after " ++ toString sum.outcomes.length ++ "/" ++
      toString sum.total ++ " configs"⟩ (sum.interrupted = true)

theorem Summary.agrees (sum : Summary) : sum.Agrees where
  counted := sum.succeeded_add_length_failedNames
  ordered := ⟨_, List.filter_sublist, by simp, rfl⟩
  exits := sum.status.exitCode_eq_zero_iff
  success := Console.Message.success_announced sum
  failure := Console.Message.failure_announced sum
  interruption := Console.Message.interruption_announced sum

/-! ## What a run returns -/

namespace Matrix

variable {σ : Type} {fs : FileSystem σ} {runner : Runner σ} {layout : Layout} {boards : List Board}

/-- A run that started without outcomes and finished has one for each board, in order. -/
theorem boards_of_run {s s' : Session σ} {sum : Summary} (hs : s.outcomes = [])
    (h : run fs runner layout boards s = (some sum, s')) :
    sum.interrupted = false ∧ sum.outcomes.map Outcome.board = boards.map Board.name := by
  obtain ⟨s₁, hfrom, hend⟩ := run_eq h
  obtain ⟨_, outs, hturns, houts, -⟩ := runFrom_turns hfrom
  obtain ⟨⟨dir, rfl⟩, -⟩ := summarize_eq hend
  refine ⟨rfl, ?_⟩
  show s₁.outcomes.map Outcome.board = _
  rw [houts, hs, List.nil_append]
  exact hturns.boards_eq.2 rfl

/-- Outcomes of certain boards tell of nothing but success if they are the successes of these. -/
theorem all_succeeded_iff {outs : List Outcome}
    (h : outs.map Outcome.board = boards.map Board.name) :
    (∀ o ∈ outs, o.isSuccess = true) ↔ outs = boards.map fun b => ⟨b.name, .succeeded⟩ := by
  constructor
  · intro hall
    have heq : ∀ o ∈ outs, id o = ⟨o.board, .succeeded⟩ := by
      intro o ho
      obtain ⟨board, result⟩ := o
      cases result with
      | succeeded => rfl
      | _ => cases hall _ ho
    calc outs = outs.map id := (List.map_id outs).symm
      _ = outs.map fun o => ⟨o.board, .succeeded⟩ := List.map_congr_left heq
      _ = (outs.map Outcome.board).map fun name => ⟨name, .succeeded⟩ := by simp
      _ = boards.map fun b => ⟨b.name, .succeeded⟩ := by simp [h]
  · rintro rfl o ho
    obtain ⟨b, -, rfl⟩ := List.mem_map.mp ho
    rfl

/-- Summary, report and exit code agree. A run that returns exits with zero exactly if it has built
each of its boards, and what it reports is the same in colour but for the sequences around texts. -/
theorem report_agrees (fs : FileSystem σ) (runner : Runner σ) (layout : Layout) :
    (∀ sum : Summary, sum.Agrees) ∧
    (∀ boards s sum, s.outcomes = [] → (run fs runner layout boards s).1 = some sum →
      (sum.status.exitCode = 0 ↔ sum.outcomes = boards.map fun b => ⟨b.name, .succeeded⟩)) ∧
    ∀ ms : List Console.Message,
      let lines := ms.flatMap Console.Message.lines
      let printed colored :=
        (ms.foldl (fun s m => m.report s) (Screen.blank .open colored)).written
      printed false = Text.Utf8.encode (lines.flatMap fun l => (l.text ++ "\n").toList) ∧
      printed true = Text.Utf8.encode (lines.flatMap fun l => (l.wrapped ++ "\n").toList) ∧
      ((∀ l ∈ lines, '\n' ∉ l.text.toList) → ∀ colored,
        ∃ text, Text.Utf8.decode (printed colored) = .ok text ∧
          Text.splitAt '\n' text = lines.map (fun l => (l.shown colored).toList) ++ [[]]) := by
  refine ⟨Summary.agrees, fun boards s sum hs hsum => ?_, Console.written_lines⟩
  obtain ⟨hgone, hnames⟩ := boards_of_run hs (Prod.ext hsum rfl)
  rw [RunStatus.exitCode_eq_zero_iff, Summary.status_eq_succeeded_iff, ← all_succeeded_iff hnames]
  simp [hgone]

/-- Both boards of the pair are built, and the lines of the report say so. -/
theorem pair_report_agrees :
    let layout := Launch.layoutOf .default
    let start := begin Tree.fileSystem layout (Screen.blank .open true) Tree.empty
    let runner := (ScriptedTool.willing .default).tool
    let shown := ["", Console.rule, "Build Summary: 2/2 Succeeded", "Artifacts: build_output",
      Text.Escape.csi "92m" ++ "All builds successful!" ++ Text.Escape.reset, ""]
    ∃ sum, (run Tree.fileSystem runner layout pair start).1 = some sum ∧
      sum.outcomes = [⟨"A", .succeeded⟩, ⟨"B", .succeeded⟩] ∧
      ∃ text,
        Text.Utf8.decode (Console.summary sum (Screen.blank .open true)).written = .ok text ∧
        Text.splitAt '\n' text = shown.map String.toList := by
  intro layout start runner shown
  obtain ⟨-, hrun, hprinted⟩ := report_agrees Tree.fileSystem runner layout
  have hreport : (run Tree.fileSystem runner layout pair start).1.map (fun sum =>
      (sum.status.exitCode, (Console.Message.summary sum).lines)) =
      some (0, [⟨none, ""⟩, ⟨none, Console.rule⟩, ⟨none, "Build Summary: 2/2 Succeeded"⟩,
        ⟨none, "Artifacts: build_output"⟩, ⟨some .success, "All builds successful!"⟩]) := by
    decide +kernel
  obtain ⟨sum, hsum, hboth⟩ := Option.map_eq_some_iff.mp hreport
  obtain ⟨hcode, hlines⟩ := Prod.mk.inj hboth
  obtain ⟨-, -, hread⟩ := hprinted [.summary sum]
  simp only [List.flatMap_singleton, hlines] at hread
  obtain ⟨text, htext, hsplit⟩ := hread (by decide +kernel) true
  refine ⟨sum, hsum, (hrun pair start sum rfl hsum).mp hcode, text, htext, ?_⟩
  rw [hsplit]
  decide +kernel

end Matrix

end FirmwareMatrix
