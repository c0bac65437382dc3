import FirmwareMatrix.Console
import FirmwareMatrix.Proofs.Utf8Infix

/-! # What a console prints

Everything that is reported on a console comes down to lines: a text each, in one of the four styles
or in none. Which lines these are does not depend on the screen; whether it is in colour decides only
whether the sequences of a style stand around its text. A sink that takes so many bytes and no more
has got the first of all bytes that it was handed, whatever came of the calls in between. -/

namespace FirmwareMatrix.Console

open Text

/-- A line of progress: a text, in a style if it has one. -/
structure Line where
  style : Option Style
  text : String
  deriving DecidableEq, Repr

namespace Line

/-- The text, in a style between the sequences that begin and end it. -/
def wrapped (l : Line) : String :=
  match l.style with
  | some style => style.opening ++ l.text ++ Escape.reset
  | none => l.text

/-- What is written for a line before its end. -/
def shown (colored : Bool) (l : Line) : String := if colored then l.wrapped else l.text

def bytes (colored : Bool) (l : Line) : List UInt8 :=
  Utf8.encode (l.shown colored).toList ++ [0x0a]

def print (l : Line) (s : Screen) : Screen := printLine (l.shown s.colored) s

end Line

/-- Something to report: a single line, the header of a board, or the summary of a run. -/
inductive Message where
  | info (text : String)
  | success (text : String)
  | warning (text : String)
  | error (text : String)
  | plain (text : String)
  | banner (index total : Nat) (b : Board) (buildDir : String)
  | summary (summary : Summary)

namespace Message

def report : Message → Screen → Screen
  | info text => Console.info text
  | success text => Console.success text
  | warning text => Console.warning text
  | error text => Console.error text
  | plain text => Console.plain text
  | banner index total b buildDir => Console.banner index total b buildDir
  | summary sum => Console.summary sum

/-- The boards that failed, or that none did; nothing where a run was interrupted before one did. -/
def verdictLines (sum : Summary) : List Line :=
  if sum.failedNames ≠ [] then
    [⟨some .error, "Failed: " ++ String.intercalate ", " sum.failedNames⟩]
  else if sum.interrupted then []
  else [⟨some .success, "All builds successful!"⟩]

def interruptionLine (sum : Summary) : Line :=
  ⟨some .warning, "Interrupted after " ++ toString sum.outcomes.length ++ "/" ++
    toString sum.total ++ " configs"⟩

def summaryLines (sum : Summary) : List Line :=
  [⟨none, ""⟩, ⟨none, rule⟩] ++ (if sum.interrupted then [interruptionLine sum] else []) ++
    [⟨none, "Build Summary: " ++ toString sum.succeeded ++ "/" ++ toString sum.total ++
      " Succeeded"⟩, ⟨none, "Artifacts: " ++ sum.outputDir.text⟩] ++ verdictLines sum

def bannerLines (index total : Nat) (b : Board) (buildDir : String) : List Line :=
  ["", rule, "[" ++ toString index ++ "/" ++ toString total ++ "] Building: " ++ b.title,
    "Config: " ++ b.source.text, "Dir: " ++ buildDir, rule].map (Line.mk (some .info))

/-- The lines of a message, from the first to the last. -/
def lines : Message → List Line
  | info text => [⟨some .info, text⟩]
  | success text => [⟨some .success, text⟩]
  | warning text => [⟨some .warning, text⟩]
  | error text => [⟨some .error, text⟩]
  | plain text => [⟨none, text⟩]
  | banner index total b buildDir => bannerLines index total b buildDir
  | summary sum => summaryLines sum

end Message

theorem flatMap_bytes (colored : Bool) (ls : List Line) :
    ls.flatMap (Line.bytes colored) =
      Utf8.encode (ls.flatMap fun l => (l.shown colored ++ "\n").toList) := by
  induction ls with
  | nil => rfl
  | cons l ls ih =>
    rw [List.flatMap_cons, List.flatMap_cons, Utf8.encode_append, ih, String.toList_append,
      Utf8.encode_append]
    rfl

/-! ## Messages are printed line by line -/

theorem styled_eq_print (style : Style) (text : String) (s : Screen) :
    styled style text s = (Line.mk (some style) text).print s := by
  unfold styled Line.print Line.shown
  split <;> rfl

theorem plain_eq_print (text : String) (s : Screen) :
    plain text s = (Line.mk none text).print s := by
  simp [plain, Line.print, Line.shown, Line.wrapped]

theorem verdict_eq_print (sum : Summary) (s : Screen) :
    verdict sum s = (Message.verdictLines sum).foldl (fun s l => l.print s) s := by
  unfold verdict Message.verdictLines
  split
  · exact styled_eq_print _ _ s
  · split
    · rfl
    · exact styled_eq_print _ _ s

theorem Message.report_eq (m : Message) (s : Screen) :
    m.report s = m.lines.foldl (fun s l => l.print s) s := by
  cases m with
  | info text => exact styled_eq_print .info text s
  | success text => exact styled_eq_print .success text s
  | warning text => exact styled_eq_print .warning text s
  | error text => exact styled_eq_print .error text s
  | plain text => exact plain_eq_print text s
  | banner index total b buildDir =>
    simp only [report, Console.banner, Console.info, styled_eq_print, lines, bannerLines,
      List.map_cons, List.map_nil, List.foldl_cons, List.foldl_nil]
  | summary sum =>
    simp only [report, Console.summary, lines, summaryLines, List.foldl_append, List.foldl_cons,
      List.foldl_nil, verdict_eq_print, plain_eq_print]
    cases sum.interrupted with
    | false => simp
    | true => simp [interruptionLine, Console.warning, styled_eq_print]

/-- Messages are printed as the lines of all of them. -/
theorem foldl_report_eq (ms : List Message) (s : Screen) :
    ms.foldl (fun s m => m.report s) s =
      (ms.flatMap Message.lines).foldl (fun s l => l.print s) s := by
  induction ms generalizing s with
  | nil => rfl
  | cons m ms ih => rw [List.foldl_cons, List.flatMap_cons, List.foldl_append, ih, m.report_eq]

end FirmwareMatrix.Console

namespace FirmwareMatrix

/-! ## What a sink has got -/

namespace Screen

theorem written_write (bytes : List UInt8) (s : Screen) :
    (s.write bytes).2.written = s.written ++ s.sink.accepted bytes := by
  simp [written, write, Mark.bytes]

theorem written_flush (s : Screen) : s.flush.2.written = s.written := by
  simp [written, flush, Mark.bytes]

/-- The sink, which takes `room` bytes if it has a limit, was handed `all` and has got what it
takes of that. -/
structure Handed (room : Option Nat) (all : List UInt8) (s : Screen) : Prop where
  written : s.written = Sink.accepted ⟨room, false⟩ all
  room : s.sink.room = room.map (· - all.length)

namespace Handed

variable {room : Option Nat} {all : List UInt8} {s : Screen}

theorem blank (room : Option Nat) (failsFlush colored : Bool) :
    Handed room [] (Screen.blank ⟨room, failsFlush⟩ colored) := by
  cases room <;> exact ⟨by simp [Screen.blank, Screen.written, Sink.accepted], rfl⟩

theorem write (h : Handed room all s) (bytes : List UInt8) :
    Handed room (all ++ bytes) (s.write bytes).2 := by
  have hroom : (s.write bytes).2.sink.room = room.map (· - (all ++ bytes).length) := by
    show s.sink.room.map (· - bytes.length) = _
    rw [h.room, Option.map_map, List.length_append]
    congr 1
    funext n
    exact Nat.sub_sub n _ _
  refine ⟨?_, hroom⟩
  rw [written_write, h.written]
  cases hr : room with
  | none =>
    have hnone : s.sink.room = none := by rw [h.room, hr]; rfl
    simp [Sink.accepted, hnone]
  | some n =>
    have hleft : s.sink.room = some (n - all.length) := by rw [h.room, hr]; rfl
    simp [Sink.accepted, hleft, List.take_append]

theorem flush (h : Handed room all s) : Handed room all s.flush.2 :=
  ⟨(written_flush s).trans h.written, h.room⟩

/-- A sink that is full has got all that it will get. -/
theorem more (h : Handed room all s) (hfull : s.sink.room = some 0) (bytes : List UInt8) :
    Handed room (all ++ bytes) s := by
  have hroom := h.room
  rw [hfull] at hroom
  obtain ⟨n, rfl, hn⟩ := Option.map_eq_some_iff.mp hroom.symm
  refine ⟨?_, ?_⟩
  · rw [h.written]
    simp only [Sink.accepted]
    rw [List.take_append_of_le_length (by omega)]
  · rw [hfull, Option.map_some, List.length_append]
    exact congrArg some (by omega)

end Handed

end Screen

namespace Console

/-- Where no sequences are removed, a text is written with a line end, in one write. -/
theorem printLine_of_plain {s : Screen} (h : s.plain = none) (text : String) :
    printLine text s =
      match s.write (Text.Utf8.encode text.toList ++ [0x0a]) with
      | (true, s) => s.flush.2
      | (false, s) => s := by
  obtain ⟨sink, colored, plain, bar, marks, log⟩ := s
  obtain rfl : plain = none := h
  rfl

/-- A console without removal of sequences, whose sink was handed `all`. -/
structure Printed (room : Option Nat) (colored : Bool) (all : List UInt8) (s : Screen) : Prop where
  colored : s.colored = colored
  plain : s.plain = none
  handed : s.Handed room all

namespace Printed

variable {room : Option Nat} {colored : Bool} {all : List UInt8} {s : Screen}

theorem blank (room : Option Nat) (failsFlush colored : Bool) :
    Printed room colored [] (Screen.blank ⟨room, failsFlush⟩ colored) :=
  ⟨rfl, rfl, .blank room failsFlush colored⟩

theorem print (h : Printed room colored all s) (l : Line) :
    Printed room colored (all ++ l.bytes colored) (l.print s) := by
  have hwrite : Printed room colored (all ++ l.bytes colored) (s.write (l.bytes colored)).2 :=
    ⟨h.colored, h.plain, h.handed.write _⟩
  rw [Line.print, h.colored, printLine_of_plain h.plain, ← Line.bytes]
  cases hs : s.write (l.bytes colored) with
  | mk whole s' =>
    rw [hs] at hwrite
    cases whole with
    | true => exact ⟨hwrite.colored, hwrite.plain, hwrite.handed.flush⟩
    | false => exact hwrite

theorem foldl_print (h : Printed room colored all s) (ls : List Line) :
    Printed room colored (all ++ ls.flatMap (Line.bytes colored))
      (ls.foldl (fun s l => l.print s) s) := by
  induction ls generalizing all s with
  | nil =>
    rw [List.flatMap_nil, List.append_nil]
    exact h
  | cons l ls ih =>
    rw [List.flatMap_cons, ← List.append_assoc]
    exact ih (h.print l)

end Printed

/-- What the sink of a console has got of some messages. -/
theorem written_report (ms : List Message) (room : Option Nat) (failsFlush colored : Bool) :
    (ms.foldl (fun s m => m.report s) (Screen.blank ⟨room, failsFlush⟩ colored)).written =
      Sink.accepted ⟨room, false⟩ ((ms.flatMap Message.lines).flatMap (Line.bytes colored)) := by
  rw [foldl_report_eq]
  exact ((Printed.blank room failsFlush colored).foldl_print _).handed.written

end Console

end FirmwareMatrix
