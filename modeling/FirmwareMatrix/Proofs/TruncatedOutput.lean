import FirmwareMatrix.Proofs.ConsoleLines

/-! # Consoles on failing sinks

A console ignores that a write or a flush failed and goes on with the next line. So a sink that takes
some bytes and then refuses every write must not get anything out of a later line, wherever in a line
its limit falls, and whatever pieces the line is written in. -/

namespace FirmwareMatrix

namespace Screen

/-- Writes pieces one after another, up to the first that is not accepted whole; whether all were
accepted. -/
def writeEach : List (List UInt8) → Screen → Bool × Screen
  | [], s => (true, s)
  | piece :: pieces, s =>
    match s.write piece with
    | (true, s) => writeEach pieces s
    | (false, s) => (false, s)

/-- A write that is not accepted whole fills the sink. -/
theorem write_fills {s s' : Screen} {bytes : List UInt8} (h : s.write bytes = (false, s')) :
    s'.sink.room = some 0 := by
  obtain ⟨hrefused, rfl⟩ := Prod.mk.inj h
  show s.sink.room.map (· - bytes.length) = some 0
  unfold Sink.acceptsAll at hrefused
  split at hrefused
  · cases hrefused
  · next n hroom =>
    have hshort : n < bytes.length := by simpa using hrefused
    rw [hroom, Option.map_some]
    exact congrArg some (by omega)

/-- In whatever pieces bytes are written, the sink gets what it would get of all of them. -/
theorem Handed.writeEach {room : Option Nat} {all : List UInt8} {s : Screen}
    (h : Handed room all s) (pieces : List (List UInt8)) :
    Handed room (all ++ pieces.flatten) (s.writeEach pieces).2 := by
  induction pieces generalizing all s with
  | nil =>
    rw [List.flatten_nil, List.append_nil]
    exact h
  | cons piece pieces ih =>
    have hpiece := h.write piece
    rw [List.flatten_cons, ← List.append_assoc, Screen.writeEach]
    cases hs : s.write piece with
    | mk whole s' =>
      rw [hs] at hpiece
      cases whole with
      | true => exact ih hpiece
      | false => exact hpiece.more (write_fills hs) _

/-- Hands a line to the sink in pieces, and flushes what was written whole. -/
def writePieces (pieces : List (List UInt8)) (s : Screen) : Screen :=
  match s.writeEach pieces with
  | (true, s) => s.flush.2
  | (false, s) => s

theorem Handed.writePieces {room : Option Nat} {all : List UInt8} {s : Screen}
    (h : Handed room all s) (pieces : List (List UInt8)) :
    Handed room (all ++ pieces.flatten) (s.writePieces pieces) := by
  have hwrite := h.writeEach pieces
  unfold Screen.writePieces
  cases hs : s.writeEach pieces with
  | mk whole s' =>
    rw [hs] at hwrite
    cases whole with
    | true => exact hwrite.flush
    | false => exact hwrite

theorem Handed.foldl_writePieces {room : Option Nat} {all : List UInt8} {s : Screen}
    (h : Handed room all s) (cuts : List (List (List UInt8))) :
    Handed room (all ++ (cuts.map List.flatten).flatten)
      (cuts.foldl (fun s pieces => s.writePieces pieces) s) := by
  induction cuts generalizing all s with
  | nil =>
    rw [List.map_nil, List.flatten_nil, List.append_nil]
    exact h
  | cons pieces cuts ih =>
    rw [List.map_cons, List.flatten_cons, ← List.append_assoc]
    exact ih (h.writePieces pieces)

end Screen

namespace Console

open Text

/-- Of any messages, a sink that takes `n` bytes and then fails every write has got the first `n`
bytes of what a sink without a limit gets, in whatever pieces each line is written. That flushes fail
makes no difference to what a sink gets, with a limit or without. -/
theorem written_truncates (ms : List Message) (colored : Bool) (n : Nat) (failsFlush : Bool) :
    let printedOn (sink : Sink) := ms.foldl (fun s m => m.report s) (Screen.blank sink colored)
    (printedOn ⟨some n, failsFlush⟩).written = (printedOn .open).written.take n ∧
    (∀ cuts : List (List (List UInt8)),
      cuts.map List.flatten = (ms.flatMap Message.lines).map (Line.bytes colored) →
      (cuts.foldl (fun s pieces => s.writePieces pieces)
          (Screen.blank ⟨some n, failsFlush⟩ colored)).written =
        (printedOn .open).written.take n) ∧
    ∀ room, (printedOn ⟨room, true⟩).written = (printedOn ⟨room, false⟩).written := by
  intro printedOn
  have hopen : (printedOn .open).written =
      (ms.flatMap Message.lines).flatMap (Line.bytes colored) := written_report ms none false colored
  rw [hopen]
  refine ⟨written_report ms (some n) failsFlush colored, fun cuts hcuts => ?_, fun room => ?_⟩
  · have hprinted := (Screen.Handed.blank (some n) failsFlush colored).foldl_writePieces cuts
    rw [hcuts, ← List.flatMap_def] at hprinted
    exact hprinted.written
  · exact (written_report ms room true colored).trans (written_report ms room false colored).symm

/-- A limit of six bytes falls within the second sequence of a red line, and the pieces that come
after it do not get through, nor does the line after that. -/
theorem redLine_truncates :
    let ms : List Message := [.error "no port", .plain "done"]
    let pieces (texts : List String) := texts.map fun text => Utf8.encode text.toList
    let cuts := [pieces [Escape.bold, Escape.csi "91m", "no port", Escape.reset, "\n"],
      pieces ["done", "\n"]]
    cuts.map List.flatten = (ms.flatMap Message.lines).map (Line.bytes true) ∧
      (cuts.foldl (fun s pieces => s.writePieces pieces)
        (Screen.blank ⟨some 6, true⟩ true)).written = Utf8.encode "\x1b[1m\x1b[".toList := by
  intro ms pieces cuts
  have hcuts : cuts.map List.flatten = (ms.flatMap Message.lines).map (Line.bytes true) := by
    decide +kernel
  refine ⟨hcuts, ?_⟩
  rw [(written_truncates ms true 6 true).2.1 cuts hcuts]
  decide +kernel

end Console

end FirmwareMatrix
