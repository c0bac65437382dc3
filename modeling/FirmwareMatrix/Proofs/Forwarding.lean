import FirmwareMatrix.Proofs.BarEvents
import FirmwareMatrix.Proofs.LinewiseReading
import FirmwareMatrix.Proofs.Utf8RoundTrip

/-! # Forwarded output

What a process writes comes in chunks of any size. Lines are shown as they end, each followed by one
drawing of the bar, and what is held when the process is done is a line of its own; so it does not
matter where the chunks are cut. Text that ends its lines with plain line feeds is passed on byte by
byte. -/

namespace FirmwareMatrix

/-! ## Screens that take everything -/

namespace Screen

open Text

variable {s : Screen}

/-- The screen with more marks. -/
def marked (s : Screen) (marks : List Mark) : Screen := { s with marks := s.marks ++ marks }

@[simp] theorem marked_sink (marks : List Mark) : (s.marked marks).sink = s.sink := rfl

@[simp] theorem marked_marked (marks more : List Mark) :
    (s.marked marks).marked more = s.marked (marks ++ more) := by
  simp [marked]

@[simp] theorem marked_nil : s.marked [] = s := by
  simp [marked]

theorem write_open (h : s.sink = .open) (bytes : List UInt8) :
    s.write bytes = (true, s.marked [.wrote bytes]) := by
  obtain ⟨sink, colored, plain, bar, marks, log⟩ := s
  have hsink : sink = .open := h
  subst hsink
  rfl

/-- What one drawing of the bar leaves: the request, if the bar is active, and what meets it. -/
def drawing (s : Screen) : List Mark :=
  if s.bar.active then
    .bar (.draw s.bar.text s.bar.frame) ::
      match s.bar.backend.perform (.draw s.bar.text s.bar.frame) with
      | .ok (text, _) => if text.isEmpty then [] else [.wrote (Utf8.encode text.toList)]
      | .error _ => []
  else []

@[simp] theorem drawing_marked (marks : List Mark) : (s.marked marks).drawing = s.drawing := rfl

theorem redraw_open (h : s.sink = .open) : s.redraw = s.marked s.drawing := by
  unfold redraw drawing
  by_cases hactive : s.bar.active = true
  · rw [if_pos hactive, if_pos hactive]
    unfold request
    cases hmet : s.bar.backend.perform (.draw s.bar.text s.bar.frame) with
    | error f => rfl
    | ok met =>
      obtain ⟨text, backend⟩ := met
      have hbackend := perform_ok (by simp) hmet
      subst hbackend
      dsimp only
      split
      · rfl
      · have hdraw := write_open (s := s.marked [.bar (.draw s.bar.text s.bar.frame)]) h
          (Utf8.encode text.toList)
        rw [marked_marked] at hdraw
        exact congrArg Prod.snd hdraw
  · rw [if_neg hactive, if_neg hactive, marked_nil]

/-- A line is written, and then the bar is drawn again. -/
def showLine (s : Screen) (line : List Char) : Screen :=
  (s.write (Utf8.encode line ++ [0x0a])).2.redraw

/-- What one line leaves. -/
def lineMarks (s : Screen) (line : List Char) : List Mark :=
  .wrote (Utf8.encode line ++ [0x0a]) :: s.drawing

theorem showLine_open (h : s.sink = .open) (line : List Char) :
    s.showLine line = s.marked (s.lineMarks line) := by
  have hwritten : (s.marked [.wrote (Utf8.encode line ++ [0x0a])]).sink = .open := h
  rw [showLine, write_open h, redraw_open hwritten, drawing_marked, marked_marked]
  rfl

theorem foldl_showLine (h : s.sink = .open) (lines : List (List Char)) :
    lines.foldl showLine s = s.marked (lines.flatMap s.lineMarks) := by
  induction lines generalizing s with
  | nil => exact marked_nil.symm
  | cons line lines ih =>
    have hnext : (s.marked (s.lineMarks line)).sink = .open := h
    rw [List.foldl_cons, showLine_open h, ih hnext, marked_marked]
    rfl

end Screen

namespace ToolOutput

open Text

theorem forward_open {s : Screen} (h : s.sink = .open) (lines : List (List Char)) :
    forward lines s = (.ok (), lines.foldl Screen.showLine s) := by
  induction lines generalizing s with
  | nil => rfl
  | cons line lines ih =>
    have hnext : (s.showLine line).sink = .open := by
      rw [Screen.showLine_open h]
      exact h
    have hwrite : s.write (Utf8.encode line ++ [0x0a]) =
        (true, (s.write (Utf8.encode line ++ [0x0a])).2) := by
      rw [Screen.write_open h]
    rw [forward, hwrite]
    exact ih hnext

/-! ## Segments -/

theorem segments_append_feed {s : List UInt8} (h : 0x0a ∉ s) (bs : List UInt8) :
    segments (s ++ 0x0a :: bs) = s :: segments bs := by
  induction s with
  | nil => simp [segments]
  | cons b s ih =>
    obtain ⟨hb, hs⟩ := not_or.mp (mt List.mem_cons.mpr h)
    simp [segments, Ne.symm hb, ih hs]

theorem segments_of_not_mem {s : List UInt8} (h : 0x0a ∉ s) :
    segments s = if s = [] then [] else [s] := by
  induction s with
  | nil => rfl
  | cons b s ih =>
    obtain ⟨hb, hs⟩ := not_or.mp (mt List.mem_cons.mpr h)
    rw [segments, if_neg (Ne.symm hb), ih hs]
    cases s <;> rfl

theorem segments_of_cut {bs tail : List UInt8} {ended : List (List UInt8)}
    (h : Cut 0x0a bs ended tail) :
    segments bs = ended ++ if tail = [] then [] else [tail] := by
  induction h with
  | rest plain => exact segments_of_not_mem plain
  | piece plain _ ih =>
    rw [segments_append_feed plain, ih]
    rfl

/-- How a segment is shown. -/
def lineOf (segment : List UInt8) : List Char := dropReturn (Utf8.decodeLossy segment)

theorem lines_eq (output : List UInt8) : lines output = (segments output).map lineOf := rfl

/-! ## Chunks -/

/-- Takes a chunk in: the segments that end in it, and what is held of the next one. -/
def receive (held : List UInt8) : List UInt8 → List (List UInt8) × List UInt8
  | [] => ([], held)
  | b :: bs =>
    if b = 0x0a then
      let (ended, rest) := receive [] bs
      (held :: ended, rest)
    else receive (held ++ [b]) bs

/-- Shows output that comes in chunk by chunk, line by line. What is held when the last chunk is in
is a line, unless it is nothing. -/
def relay (held : List UInt8) : List (List UInt8) → Screen → Except Failure Unit × Screen
  | [], s => forward ((if held = [] then [] else [held]).map lineOf) s
  | chunk :: chunks, s =>
    let (ended, rest) := receive held chunk
    match forward (ended.map lineOf) s with
    | (.ok _, s) => relay rest chunks s
    | (.error f, s) => (.error f, s)

theorem receive_segments {held : List UInt8} (h : 0x0a ∉ held) (chunk more : List UInt8) :
    0x0a ∉ (receive held chunk).2 ∧
      segments (held ++ (chunk ++ more)) =
        (receive held chunk).1 ++ segments ((receive held chunk).2 ++ more) := by
  induction chunk generalizing held with
  | nil => exact ⟨h, rfl⟩
  | cons b bs ih =>
    by_cases hb : b = 0x0a
    · have hnone : (0x0a : UInt8) ∉ [] := List.not_mem_nil
      obtain ⟨hheld, hsegments⟩ := ih hnone
      subst hb
      refine ⟨by simpa [receive] using hheld, ?_⟩
      rw [List.cons_append, segments_append_feed h]
      simpa [receive] using hsegments
    · have hheld : 0x0a ∉ held ++ [b] := by simp [h, Ne.symm hb]
      have hstep := ih hheld
      rw [List.append_assoc, List.singleton_append] at hstep
      rw [receive, if_neg hb]
      exact hstep

theorem forward_append (ls ls' : List (List Char)) (s : Screen) :
    forward (ls ++ ls') s =
      match forward ls s with
      | (.ok _, s) => forward ls' s
      | (.error f, s) => (.error f, s) := by
  induction ls generalizing s with
  | nil => rfl
  | cons line ls ih =>
    rw [List.cons_append, forward, forward]
    split
    · exact ih _
    · rfl

theorem relay_held {held : List UInt8} (h : 0x0a ∉ held) (chunks : List (List UInt8))
    (s : Screen) :
    relay held chunks s = forward ((segments (held ++ chunks.flatten)).map lineOf) s := by
  induction chunks generalizing held s with
  | nil => rw [relay, List.flatten_nil, List.append_nil, segments_of_not_mem h]
  | cons chunk chunks ih =>
    obtain ⟨hheld, hsegments⟩ := receive_segments h chunk chunks.flatten
    rw [List.flatten_cons, hsegments, List.map_append, forward_append, relay]
    dsimp only
    split
    · rw [ih hheld]
    · rfl

/-- Output is shown alike however it is cut into chunks, also where showing it fails. -/
theorem relay_eq (chunks : List (List UInt8)) (s : Screen) :
    relay [] chunks s = forward (lines chunks.flatten) s :=
  relay_held (by simp) chunks s

/-! ## Text passed on -/

theorem decodeLossy_encode (cs : List Char) : Utf8.decodeLossy (Utf8.encode cs) = cs := by
  rw [Utf8.decodeLossy, Utf8.pieces_encode, List.map_map]
  exact List.map_id cs

/-- Lines that end in plain line feeds keep their bytes. -/
theorem flatMap_encode_lineOf {cs tail : List Char} {pieces : List (List Char)}
    (h : Cut '\n' cs pieces tail) (hreturn : ¬ ['\r', '\n'] <:+: cs) :
    (pieces.map dropReturn).flatMap (fun line => Utf8.encode line ++ [0x0a]) ++ Utf8.encode tail =
      Utf8.encode cs := by
  induction h with
  | rest => rfl
  | @piece s cs tail pieces _ _ ih =>
    have hkept : dropReturn s = s := by
      refine if_neg fun hlast => hreturn ?_
      obtain ⟨init, hinit⟩ := List.getLast?_eq_some_iff.mp hlast
      exact ⟨init, cs, by simp [hinit]⟩
    have hrest : ¬ ['\r', '\n'] <:+: cs :=
      fun hin => hreturn (hin.trans ⟨s ++ ['\n'], [], by simp⟩)
    have hfeed : Utf8.encode (s ++ '\n' :: cs) = Utf8.encode s ++ [0x0a] ++ Utf8.encode cs := by
      simp [Utf8.encode, show String.utf8EncodeChar '\n' = [0x0a] by decide]
    rw [List.map_cons, List.flatMap_cons, List.append_assoc, ih hrest, hkept, hfeed]

theorem infix_encode {cs ds : List Char} (h : ds <:+: cs) : Utf8.encode ds <:+: Utf8.encode cs := by
  obtain ⟨before, after, rfl⟩ := h
  exact ⟨Utf8.encode before, Utf8.encode after, by simp [Utf8.encode]⟩

/-- The lines of a text: what stands between its line feeds, without the last piece if that is
empty. -/
def textLines (cs : List Char) : List (List Char) :=
  let pieces := splitAt '\n' cs
  if pieces.getLast? = some [] then pieces.dropLast else pieces

theorem textLines_of_cut {cs tail : List Char} {pieces : List (List Char)}
    (h : Cut '\n' cs pieces tail) :
    textLines cs = pieces ++ if tail = [] then [] else [tail] := by
  rw [textLines, h.splitAt_eq]
  by_cases htail : tail = []
  · simp [htail]
  · simp [htail]

/-- Reading segment by segment gives the lines of the whole. -/
theorem map_decodeLossy_segments (output : List UInt8) :
    (segments output).map Utf8.decodeLossy = textLines (Utf8.decodeLossy output) := by
  obtain ⟨ended, tail, h⟩ := Cut.exists_cut 0x0a output
  rw [segments_of_cut h, textLines_of_cut h.decodeLossy]
  by_cases htail : tail = []
  · simp [htail, Utf8.decodeLossy_eq_nil]
  · simp [htail, Utf8.decodeLossy_eq_nil]

theorem lines_of_text {output : List UInt8} {text : List Char} (htext : output = Utf8.encode text)
    (hlast : output = [] ∨ output.getLast? = some 0x0a) (hreturn : ¬ [0x0d, 0x0a] <:+: output) :
    (lines output).flatMap (fun line => Utf8.encode line ++ [0x0a]) = output := by
  obtain ⟨ended, tail, h⟩ := Cut.exists_cut 0x0a output
  have htail : tail = [] := h.tail_eq_nil.mpr hlast
  have hcut := h.decodeLossy
  rw [htext, decodeLossy_encode, htail] at hcut
  have hchars : ¬ ['\r', '\n'] <:+: text := by
    intro hin
    refine hreturn ?_
    rw [htext]
    exact infix_encode hin
  have hkept := flatMap_encode_lineOf hcut hchars
  have hlines : lines output = (ended.map Utf8.decodeLossy).map dropReturn := by
    rw [lines_eq, segments_of_cut h, if_pos htail, List.append_nil, List.map_map]
    rfl
  rw [hlines, htext, ← hkept]
  exact (List.append_nil _).symm

/-- What a process writes on its output is shown as the lines of its segments. Each line feed ends
a segment, and what follows the last one is a segment unless it is nothing; a line is its segment
read with every byte that is no text replaced, less one carriage return at its end. Every line is
written with a line feed and followed by one drawing of the bar before the next, in whatever chunks
the bytes come in. The segments are read as the lines of the whole, and text that ends its lines in
line feeds, with no carriage return before one, is passed on as it is. -/
theorem stream_forwards (chunks : List (List UInt8)) (code : Int) (s : Screen)
    (hsink : s.sink = .open) :
    let output := chunks.flatten
    let shown := (lines output).foldl Screen.showLine s
    (∃ ended tail, Cut 0x0a output ended tail ∧
      segments output = ended ++ (if tail = [] then [] else [tail]) ∧
      (lines output).length = output.count 0x0a + if tail = [] then 0 else 1) ∧
    stream ⟨output, [], .exited code⟩ s = (some (.ok code), shown.flush.2) ∧
    relay [] chunks s = (.ok (), shown) ∧
    shown.marks = s.marks ++ (lines output).flatMap s.lineMarks ∧
    (segments output).map Utf8.decodeLossy = textLines (Utf8.decodeLossy output) ∧
    ∀ text, output = Utf8.encode text → (output = [] ∨ output.getLast? = some 0x0a) →
      ¬ [0x0d, 0x0a] <:+: output →
      (lines output).flatMap (fun line => Utf8.encode line ++ [0x0a]) = output := by
  intro output shown
  have hforward : forward (lines output) s = (.ok (), shown) := forward_open hsink _
  refine ⟨?_, ?_, ?_, ?_, map_decodeLossy_segments output, fun text => lines_of_text⟩
  · obtain ⟨ended, tail, h⟩ := Cut.exists_cut 0x0a output
    refine ⟨ended, tail, h, segments_of_cut h, ?_⟩
    rw [lines_eq, segments_of_cut h, List.length_map, List.length_append, h.length_eq_count]
    split <;> rfl
  · have hlines : linesOf ⟨output, [], .exited code⟩ = lines output := List.append_nil _
    have hopen : shown.sink.failsFlush = false := by
      show ((lines output).foldl Screen.showLine s).sink.failsFlush = false
      rw [Screen.foldl_showLine hsink, Screen.marked_sink, hsink]
      rfl
    simp only [stream, hlines, finish, hforward, Screen.flush, hopen, Bool.not_false]
  · rw [relay_eq]
    exact hforward
  · exact congrArg Screen.marks (Screen.foldl_showLine hsink _)

/-- Three lines in chunks of which one is empty and one ends within a character: a carriage return
is dropped, a byte that is no text is replaced, and the last line is not ended. -/
def brokenChunks : List (List UInt8) := [[0x6f, 0x6b, 0x0d, 0x0a, 0xc3], [], [0xa9, 0xff, 0x0a, 0x78]]

/-- A screen on which a bar shows a text. -/
def barredScreen : Screen :=
  ((Screen.blank .open false).startBar (.recorder true false false false)).setText "A"

theorem brokenChunks_forwarded :
    barredScreen.sink = .open ∧
      stream ⟨brokenChunks.flatten, [], .exited 3⟩ barredScreen =
        (some (.ok 3), ((lines brokenChunks.flatten).foldl Screen.showLine barredScreen).flush.2) ∧
      ((lines brokenChunks.flatten).foldl Screen.showLine barredScreen).marks =
        [.bar .reserve, .wrote [0x6f, 0x6b, 0x0a], .bar (.draw "A" 0),
          .wrote [0xc3, 0xa9, 0xef, 0xbf, 0xbd, 0x0a], .bar (.draw "A" 0),
          .wrote [0x78, 0x0a], .bar (.draw "A" 0)] := by
  obtain ⟨-, hstream, -, hmarks, -⟩ := stream_forwards brokenChunks 3 barredScreen rfl
  exact ⟨rfl, hstream, hmarks.trans (by decide +kernel)⟩

end ToolOutput

end FirmwareMatrix
