import FirmwareMatrix.Shell.Format
import FirmwareMatrix.Shell.Utility.Arguments

/-! Programs that pass text on by lines: some of it, counted, cut into columns or side by side. -/

namespace FirmwareMatrix.Shell.Utility.Lines

open Act

/-- What is not a number where one is wanted. -/
def invalid (k : Known) (what word : String) : Act Nat := do
  complain (k.program ++ ": invalid " ++ what ++ ": " ++ quoted word)
  return k.failure

/-- A count with a letter for a multiple. -/
def count? (s : List Char) : Option Nat :=
  match Numeral.natural? 10 s with
  | some (n, []) => some n
  | some (n, ['b']) => some (n * 512)
  | some (n, ['k']) | some (n, ['K']) => some (n * 1024)
  | some (n, ['M']) => some (n * 1048576)
  | some (n, ['G']) => some (n * 1073741824)
  | _ => none

def rightAligned (width : Nat) (s : String) : String :=
  String.ofList (List.replicate (width - s.length) ' ') ++ s

/-! ## Passing on -/

/-- Passes all that can be read from a descriptor on. -/
def copyOn (descriptor : Nat) : Nat → Act (Except Errno Unit)
  | 0 => return .ok ()
  | fuel + 1 => do
    match ← takeSome descriptor with
    | .error e => return .error e
    | .ok [] => return .ok ()
    | .ok text =>
      emit (String.ofList text)
      if (← process).lostOutput.isSome then return .ok ()
      copyOn descriptor fuel

/-- A character that cannot be seen, in signs that can. -/
def visible (tabs : Bool) (c : Char) : List Char :=
  let low (n : Nat) : List Char :=
    if n < 32 then ['^', Char.ofNat (n + 64)] else if n = 127 then ['^', '?'] else [Char.ofNat n]
  if c == '\t' then (if tabs then ['^', 'I'] else [c])
  else if c.toNat < 128 then low c.toNat
  else ['M', '-'] ++ low (c.toNat - 128)

/-- Lines with numbers and marks; `n` is the last number used. -/
def decorated (g : Given) (blankBefore : Bool) (n : Nat) : List (List Char) → List (List Char)
  | [] => []
  | l :: ls =>
    if g.has 's' && l.isEmpty && blankBefore then decorated g true n ls
    else
      let numbers := (g.has 'n' || g.has 'b') && !(g.has 'b' && l.isEmpty)
      let start := if numbers then (rightAligned 6 (toString (n + 1))).toList ++ ['\t'] else []
      let shows := g.has 'A' || g.has 'v' || g.has 'e' || g.has 't'
      let tabs := g.has 'A' || g.has 'T' || g.has 't'
      let body := if shows then l.flatMap (visible tabs)
        else if tabs then l.flatMap fun c => if c == '\t' then ['^', 'I'] else [c]
        else l
      let ends := if g.has 'A' || g.has 'E' || g.has 'e' then ['$'] else []
      (start ++ body ++ ends) :: decorated g l.isEmpty (if numbers then n + 1 else n) ls

def cat (args : List String) : Act Nat :=
  let k : Known := ⟨"cat", "nbsEATvetu", "", [("number", 'n'), ("number-nonblank", 'b'),
    ("squeeze-blank", 's'), ("show-ends", 'E'), ("show-all", 'A'), ("show-tabs", 'T')], 1⟩
  withArguments k args fun g => do
    if g.options.any (·.1 != 'u') then
      let (found, ok) ← texts "cat" (orInput g.operands)
      let text := found.flatMap (·.2)
      let out := unlines (decorated g false 0 (lines text))
      emit (String.ofList (if endsWithLine text then out else out.dropLast))
      return zeroOr !ok
    else
      let rec go : List String → Nat → Act Nat
        | [], status => return status
        | name :: rest, status => do
          let result ← if name == "-" then copyOn 0 mostTakes
            else do
              match ← openPath (← process).here name .reading false with
              | .error e => pure (.error e)
              | .ok n =>
                attach 19 n
                let r ← copyOn 19 1048576
                close 19
                pure r
          match result with
          | .ok _ => go rest status
          | .error e =>
            complain ("cat: " ++ quotedIfNeeded name ++ ": " ++ e.text)
            go rest 1
      go (orInput g.operands) 0

def tee (args : List String) : Act Nat :=
  let k : Known := ⟨"tee", "aip", "", [("append", 'a')], 1⟩
  withArguments k args fun g => do
    let text := match ← takeAll 0 with
      | .ok text => text
      | .error _ => []
    let status ← forEach (fun name => do
      match ← openPath (← process).here name (if g.has 'a' then .appending else .writing) false with
      | .ok n =>
        attach 19 n
        let _ ← write 19 text
        close 19
        return true
      | .error e =>
        complain ("tee: " ++ quotedIfNeeded name ++ ": " ++ e.text)
        return false) g.operands
    emit (String.ofList text)
    return status

/-- The same line again and again. -/
def yes (args : List String) : Act Nat := do
  let line := if args.isEmpty then "y" else String.intercalate " " args
  let block := String.join (List.replicate 512 (line ++ "\n"))
  let rec go : Nat → Act Nat
    | 0 => throw .waiting
    | fuel + 1 => do
      emit block
      if (← process).lostOutput.isSome then return 1
      go fuel
  go 100000

/-! ## Starts and ends -/

/-- The first lines of a text. -/
def firstLines : Nat → List Char → List Char
  | 0, _ => []
  | _, [] => []
  | n + 1, c :: cs => c :: firstLines (if c == '\n' then n else n + 1) cs

/-- The last lines of a text. -/
def lastLines (n : Nat) (text : List Char) : List Char :=
  let ls := lines text
  let kept := ls.drop (ls.length - n)
  let out := unlines kept
  if endsWithLine text then out else out.dropLast

/-- Old spellings of counts: a number right behind the dash. -/
def withOldCount (sign : Char) (args : List String) : List String :=
  match args with
  | first :: rest =>
    match first.toList with
    | '-' :: c :: cs =>
      if c.isDigit then
        let digits := (c :: cs).takeWhile Char.isDigit
        let unit := (c :: cs).drop digits.length
        (if unit == ['c'] then "-c" else "-n") :: String.ofList digits :: rest
      else args
    | '+' :: c :: cs => if sign == '+' && c.isDigit then "-n" :: String.ofList ('+' :: c :: cs) :: rest
      else args
    | _ => args
  | [] => []

/-- Some texts with titles if there are several. -/
def titled (g : Given) (found : List (String × List Char)) : List Char :=
  let shows := (found.length > 1 && !g.has 'q') || g.has 'v'
  let title (first : Bool) (name : String) : List Char :=
    if shows then
      (if first then "" else "\n").toList ++
        ("==> " ++ (if name == "-" then "standard input" else name) ++ " <==\n").toList
    else []
  (found.zipIdx).flatMap fun ((name, text), i) => title (i == 0) name ++ text

def head (args : List String) : Act Nat :=
  let k : Known := ⟨"head", "qvz", "nc", [("lines", 'n'), ("bytes", 'c'), ("quiet", 'q'),
    ("silent", 'q'), ("verbose", 'v')], 1⟩
  withArguments k (withOldCount '-' args) fun g => do
    let (inBytes, word) := match g.value? 'c', g.value? 'n' with
      | some c, _ => (true, c)
      | none, some n => (false, n)
      | none, none => (false, "10")
    let (fromEnd, digits) := match word.toList with
      | '-' :: cs => (true, cs)
      | '+' :: cs => (false, cs)
      | cs => (false, cs)
    match count? digits with
    | none => invalid k (if inBytes then "number of bytes" else "number of lines") word
    | some n =>
      let enough (text : List Char) : Bool :=
        !fromEnd && (if inBytes then n ≤ text.length else n ≤ text.count '\n')
      let cut (text : List Char) : List Char :=
        if fromEnd then
          (if inBytes then text.take (text.length - n)
           else firstLines ((lines text).length - n) text)
        else if inBytes then text.take n else firstLines n text
      let readFrom (d : Nat) : Act (Except Errno (List Char)) := do
        if n = 0 && !fromEnd then return .ok []
        match ← takeUntil d enough mostTakes [] with
        | .error e => return .error e
        | .ok text =>
          let taken := cut text
          if let some (_, .file _ _ _) := ← channel? d then giveBack d (text.drop taken.length)
          return .ok taken
      let rec go : List String → Act (List (String × List Char) × Bool)
        | [] => return ([], true)
        | name :: rest => do
          let result ← if name == "-" then readFrom 0
            else do
              match ← openPath (← process).here name .reading false with
              | .error e =>
                complain ("head: cannot open " ++ quoted name ++ " for reading: " ++ e.text)
                pure (.error .noEntry)
              | .ok n =>
                attach 19 n
                let r ← readFrom 19
                close 19
                if let .error e := r then complain ("head: error reading " ++ quoted name ++ ": " ++ e.text)
                pure r
          let (more, ok) ← go rest
          match result with
          | .ok text => return ((name, text) :: more, ok)
          | .error _ => return (more, false)
      let (found, ok) ← go (orInput g.operands)
      emit (String.ofList (titled g found))
      return zeroOr !ok

def tail (args : List String) : Act Nat :=
  let k : Known := ⟨"tail", "qvzfF", "nc", [("lines", 'n'), ("bytes", 'c'), ("quiet", 'q'),
    ("silent", 'q'), ("verbose", 'v')], 1⟩
  withArguments k (withOldCount '+' args) fun g => do
    let (inBytes, word) := match g.value? 'c', g.value? 'n' with
      | some c, _ => (true, c)
      | none, some n => (false, n)
      | none, none => (false, "10")
    let (fromStart, digits) := match word.toList with
      | '+' :: cs => (true, cs)
      | '-' :: cs => (false, cs)
      | cs => (false, cs)
    match count? digits with
    | none => invalid k (if inBytes then "number of bytes" else "number of lines") word
    | some n =>
      let cut (text : List Char) : List Char :=
        if fromStart then
          (if inBytes then text.drop (n - 1) else text.drop (firstLines (n - 1) text).length)
        else if inBytes then text.drop (text.length - n) else lastLines n text
      let rec go : List String → Act (List (String × List Char) × Bool)
        | [] => return ([], true)
        | name :: rest => do
          match ← contents name with
          | .ok text =>
            let (more, ok) ← go rest
            return ((name, cut text) :: more, ok)
          | .error e =>
            complain (if e = .isDirectory then "tail: error reading " ++ quoted name ++ ": " ++ e.text
              else "tail: cannot open " ++ quoted name ++ " for reading: " ++ e.text)
            let (more, _) ← go rest
            return (more, false)
      let (found, ok) ← go (orInput g.operands)
      emit (String.ofList (titled g found))
      return zeroOr !ok

/-! ## Counting -/

def isSpace (c : Char) : Bool := Numeral.isSpace c

def wordCount (text : List Char) : Nat :=
  (text.foldl (fun (n, inside) c =>
    if isSpace c then (n, false) else (if inside then n else n + 1, true)) (0, false)).1

def longestLine (text : List Char) : Nat :=
  let widths := (lines text).map fun l =>
      l.foldl (fun n c => if c == '\t' then (n / 8 + 1) * 8 else n + 1) 0
  widths.foldl max 0

def wc (args : List String) : Act Nat :=
  let k : Known := ⟨"wc", "lwcmL", "", [("lines", 'l'), ("words", 'w'), ("bytes", 'c'), ("chars", 'm'),
    ("max-line-length", 'L')], 1⟩
  withArguments k args fun g => do
    let all := g.options.isEmpty
    let kinds : List Char := "lwmcL".toList.filter fun c => g.has c || (all && "lwc".toList.contains c)
    let measure (text : List Char) : List Nat := kinds.map fun c =>
      match c with
      | 'l' => text.count '\n'
      | 'w' => wordCount text
      | 'L' => longestLine text
      | _ => text.length
    let names := orInput g.operands
    let isFile (name : String) : Act Bool := do
      if name == "-" then
        match ← channel? 0 with
        | some (_, .file _ _ _) => return true
        | _ => return false
      else return (← disk).isFile (← process).here (pathOf name)
    let exists_ (name : String) : Act Bool := do
      return name == "-" || (← disk).isPresent (← process).here (pathOf name)
    let (found, ok) ← texts "wc" names
    let irregular ← names.anyM fun n => return (← exists_ n) && !(← isFile n)
    let size := (found.map (·.2.length)).foldl (· + ·) 0
    let width := if names.length ≤ 1 && kinds.length ≤ 1 then 1
      else max (toString size).length (if irregular then 7 else 1)
    let row (counts : List Nat) (name : String) : String :=
      String.intercalate " " (counts.map fun n => rightAligned width (toString n)) ++ name ++ "\n"
    let results := found.map fun (name, text) => (name, measure text)
    emit (String.join (results.map fun (name, counts) =>
      row counts (if g.operands.isEmpty then "" else " " ++ name)))
    if names.length > 1 then
      let total := (results.map (·.2)).foldl (fun (a b : List Nat) => a.zipWith (· + ·) b)
        (kinds.map fun _ => 0)
      let total := if kinds.contains 'L' && false then total else total
      emit (row total " total")
    return zeroOr !ok

def nl (args : List String) : Act Nat :=
  let k : Known := ⟨"nl", "p", "bwsnvihfdl", [("body-numbering", 'b'), ("number-width", 'w'),
    ("number-separator", 's'), ("number-format", 'n'), ("starting-line-number", 'v'),
    ("line-increment", 'i')], 1⟩
  withArguments k args fun g => do
    let (found, ok) ← texts "nl" (orInput g.operands)
    let text := found.flatMap (·.2)
    let number (c : Char) (usual : Nat) : Nat :=
      ((g.value? c).bind fun s => (Numeral.natural? 10 s.toList).map (·.1)).getD usual
    let width := number 'w' 6
    let separator := (g.value? 's').getD "\t"
    let style := (g.value? 'b').getD "t"
    let shown (n : Nat) : String :=
      let digits := toString n
      match g.value? 'n' with
      | some "ln" => digits ++ String.ofList (List.replicate (width - digits.length) ' ')
      | some "rz" => String.ofList (List.replicate (width - digits.length) '0') ++ digits
      | _ => rightAligned width digits
    let rec go : Nat → List (List Char) → List (List Char)
      | _, [] => []
      | n, l :: ls =>
        if style == "a" || (style == "t" && !l.isEmpty) then
          ((shown n ++ separator).toList ++ l) :: go (n + number 'i' 1) ls
        else (List.replicate (width + separator.length) ' ' ++ l) :: go n ls
    emitLines (go (number 'v' 1) (lines text))
    return zeroOr !ok

def uniq (args : List String) : Act Nat :=
  let k : Known := ⟨"uniq", "cduiDz", "fsw", [("count", 'c'), ("repeated", 'd'), ("unique", 'u'),
    ("ignore-case", 'i'), ("skip-fields", 'f'), ("skip-chars", 's'), ("check-chars", 'w')], 1⟩
  withArguments k args fun g => do
    let number (c : Char) : Option Nat :=
      (g.value? c).bind fun s => (Numeral.natural? 10 s.toList).map (·.1)
    let skipField (l : List Char) : List Char :=
      (l.dropWhile fun c => c == ' ' || c == '\t').dropWhile fun c => !(c == ' ' || c == '\t')
    let key (l : List Char) : List Char :=
      let l := (List.range ((number 'f').getD 0)).foldl (fun l _ => skipField l) l
      let l := l.drop ((number 's').getD 0)
      let l := match number 'w' with
        | some n => l.take n
        | none => l
      if g.has 'i' then l.map Char.toLower else l
    match ← contents (g.operands.head?.getD "-") with
    | .error e =>
      complain ("uniq: " ++ quotedIfNeeded (g.operands.head?.getD "-") ++ ": " ++ e.text)
      return 1
    | .ok text =>
      let groups := (lines text).foldl (fun (found : List (List Char × Nat)) l =>
        match found with
        | (first, n) :: rest => if key first == key l then (first, n + 1) :: rest else (l, 1) :: found
        | [] => [(l, 1)]) []
      let kept := groups.reverse.filter fun (_, n) =>
        !(g.has 'd' && n = 1) && !(g.has 'u' && n > 1)
      let out := kept.map fun (l, n) =>
        if g.has 'c' then (rightAligned 7 (toString n) ++ " ").toList ++ l else l
      match g.operands[1]? with
      | none => emitLines out
      | some name =>
        if let .ok n := ← openPath (← process).here name .writing false then
          attach 19 n
          let _ ← write 19 (unlines out)
          close 19
      return 0

/-! ## Columns -/

/-- A list of positions: ranges, of which the ends may be open. -/
def ranges? (s : String) : Option (List (Nat × Option Nat)) :=
  (Text.splitAt ',' s.toList).mapM fun piece =>
    match Text.cutAt '-' piece with
    | none => match Numeral.natural? 10 piece with
      | some (n, []) => if n = 0 then none else some (n, some n)
      | _ => none
    | some ([], []) => none
    | some (low, high) => do
      let low ← if low.isEmpty then some 1 else match Numeral.natural? 10 low with
        | some (n, []) => if n = 0 then none else some n
        | _ => none
      let high ← if high.isEmpty then some none else match Numeral.natural? 10 high with
        | some (n, []) => some (some n)
        | _ => none
      if high.any (· < low) then none else some (low, high)

def chosen (rs : List (Nat × Option Nat)) (complement : Bool) (i : Nat) : Bool :=
  (rs.any fun (low, high) => low ≤ i && high.all (i ≤ ·)) != complement

/-- The items at chosen positions, from one on. -/
def pick {α : Type} (rs : List (Nat × Option Nat)) (complement : Bool) (xs : List α) : List α :=
  (xs.zipIdx).filterMap fun (x, i) => if chosen rs complement (i + 1) then some x else none

def cut (args : List String) : Act Nat :=
  let k : Known := ⟨"cut", "snCz", "bcfdO", [("bytes", 'b'), ("characters", 'c'), ("fields", 'f'),
    ("delimiter", 'd'), ("only-delimited", 's'), ("complement", 'C'), ("output-delimiter", 'O')], 1⟩
  withArguments k args fun g => do
    let wrong (text : String) : Act Nat := do
      let _ ← misuse (α := Unit) k text
      return 1
    let delimiter := (g.value? 'd').getD "\t"
    let list := (g.value? 'f').or ((g.value? 'c').or (g.value? 'b'))
    match list with
    | none => wrong "you must specify a list of bytes, characters, or fields"
    | some list =>
      if delimiter.length > 1 then wrong "the delimiter must be a single character"
      else if (g.value? 'd').isSome && !g.has 'f' then
        wrong "an input delimiter may be specified only when operating on fields"
      else match ranges? list with
      | none =>
        let isRange (c : Char) : Bool := c.isDigit || c == '-' || c == ','
        if list.toList.all isRange then
          wrong (if g.has 'f' then "invalid field range" else "invalid byte or character range")
        else
          let bad := (list.toList.dropWhile isRange)
          wrong ((if g.has 'f' then "invalid field value " else "invalid byte/character position ") ++
            quoted (String.ofList bad))
      | some rs =>
        let (found, ok) ← texts "cut" (orInput g.operands)
        let d := delimiter.toList.head?.getD '\x00'
        let between := (g.value? 'O').getD (if g.has 'f' then delimiter else "")
        let one (l : List Char) : Option (List Char) :=
          if g.has 'f' then
            if l.contains d then
              some (List.intercalate between.toList (pick rs (g.has 'C') (Text.splitAt d l)))
            else if g.has 's' then none else some l
          else some (pick rs (g.has 'C') l)
        emitLines ((found.flatMap fun e => lines e.2).filterMap one)
        return zeroOr !ok

/-- Delimiters with escapes. -/
def delimiters : List Char → List (List Char)
  | '\\' :: 'n' :: rest => ['\n'] :: delimiters rest
  | '\\' :: 't' :: rest => ['\t'] :: delimiters rest
  | '\\' :: '0' :: rest => [] :: delimiters rest
  | '\\' :: '\\' :: rest => ['\\'] :: delimiters rest
  | c :: rest => [c] :: delimiters rest
  | [] => []

/-- Texts with delimiters between them, which are used in turn. -/
def joinInTurn (ds : Array (List Char)) (items : List (List Char)) : List Char :=
  (items.zipIdx).flatMap fun (l, i) =>
    if i = 0 then l else (if ds.isEmpty then [] else (ds[(i - 1) % ds.size]?).getD []) ++ l

def paste (args : List String) : Act Nat :=
  let k : Known := ⟨"paste", "sz", "d", [("serial", 's'), ("delimiters", 'd')], 1⟩
  withArguments k args fun g => do
    let ds := (delimiters ((g.value? 'd').getD "\t").toList).toArray
    let names := orInput g.operands
    let inputs := names.count "-"
    let (found, ok) ← texts "paste" (names.eraseDups)
    let columns : List (List (List Char)) :=
      (names.zipIdx).filterMap fun (name, i) =>
        (found.lookup name).map fun text =>
          if name == "-" && inputs > 1 then
            let before := (names.take i).count "-"
            ((lines text).zipIdx).filterMap fun (l, j) => if j % inputs == before then some l else none
          else lines text
    if !ok then return 1
    if g.has 's' then emitLines (columns.map (joinInTurn ds))
    else
      let height := (columns.map List.length).foldl max 0
      emitLines ((List.range height).map fun i =>
        joinInTurn ds (columns.map fun column => (column[i]?).getD []))
    return 0

def rev (args : List String) : Act Nat := do
  let (found, ok) ← texts "rev" (orInput args)
  let text := found.flatMap (·.2)
  let out := unlines ((lines text).map List.reverse)
  emit (String.ofList (if endsWithLine text then out else out.dropLast))
  return zeroOr !ok

def tac (args : List String) : Act Nat := do
  let (found, ok) ← texts "tac" (orInput args)
  let one (text : List Char) : List Char :=
    let ls := lines text
    if endsWithLine text then unlines ls.reverse
    else (ls.reverse.zipIdx).flatMap fun (l, i) => if i = 0 then l else l ++ ['\n']
  emit (String.ofList (found.flatMap fun e => one e.2))
  return zeroOr !ok

def fold (args : List String) : Act Nat :=
  let k : Known := ⟨"fold", "sb", "w", [("spaces", 's'), ("width", 'w'), ("bytes", 'b')], 1⟩
  withArguments k args fun g => do
    let width := max 1 (((g.value? 'w').bind fun s => (Numeral.natural? 10 s.toList).map (·.1)).getD 80)
    let (found, ok) ← texts "fold" (orInput g.operands)
    let rec go : Nat → List Char → List (List Char)
      | 0, l => [l]
      | fuel + 1, l =>
        if l.length ≤ width then [l]
        else
          let start := l.take width
          let atBlank := (start.reverse.dropWhile fun c => !(c == ' ' || c == '\t')).reverse
          let start := if g.has 's' && !atBlank.isEmpty then atBlank else start
          start :: go fuel (l.drop start.length)
    let text := found.flatMap (·.2)
    let out := unlines ((lines text).flatMap fun l => go l.length l)
    emit (String.ofList (if endsWithLine text then out else out.dropLast))
    return zeroOr !ok

/-! ## Bytes -/

/-- A byte in three columns, as a character if it has a sign. -/
def byteShown (c : Char) : String :=
  let n := c.toNat
  match c with
  | '\x00' => "\\0"
  | '\x07' => "\\a"
  | '\x08' => "\\b"
  | '\t' => "\\t"
  | '\n' => "\\n"
  | '\x0b' => "\\v"
  | '\x0c' => "\\f"
  | '\r' => "\\r"
  | c =>
    if 32 ≤ n && n < 127 then c.toString
    else
      let digits := Nat.toDigits 8 n
      String.ofList (List.replicate (3 - digits.length) '0' ++ digits)

def zeroPadded (width : Nat) (ds : List Char) : String :=
  String.ofList (List.replicate (width - ds.length) '0' ++ ds)

/-- Rows of sixteen bytes. -/
def chunks (n : Nat) : Nat → List Char → List (List Char)
  | 0, _ => []
  | _, [] => []
  | fuel + 1, cs => cs.take n :: chunks n fuel (cs.drop n)

/-- One row of a dump. -/
def dumped (kind : String) (row : List Char) : String :=
  let pairs := chunks 2 (row.length + 1) row
  let word (p : List Char) : Nat := (p.head?.getD '\x00').toNat + 256 * ((p[1]?).getD '\x00').toNat
  match kind with
  | "c" => String.join (row.map fun c => rightAligned 4 (byteShown c))
  | "x1" => String.join (row.map fun c => " " ++ zeroPadded 2 (Nat.toDigits 16 c.toNat))
  | "o1" => String.join (row.map fun c => " " ++ zeroPadded 3 (Nat.toDigits 8 c.toNat))
  | "u1" => String.join (row.map fun c => rightAligned 4 (toString c.toNat))
  | "d1" => String.join (row.map fun c =>
      rightAligned 5 (toString (if c.toNat < 128 then (c.toNat : Int) else (c.toNat : Int) - 256)))
  | "x2" => String.join (pairs.map fun p => " " ++ zeroPadded 4 (Nat.toDigits 16 (word p)))
  | "u2" => String.join (pairs.map fun p => rightAligned 6 (toString (word p)))
  | _ => String.join (pairs.map fun p => " " ++ zeroPadded 6 (Nat.toDigits 8 (word p)))

def od (args : List String) : Act Nat :=
  let k : Known := ⟨"od", "cbxdov", "AtNjw", [("address-radix", 'A'), ("format", 't'),
    ("read-bytes", 'N'), ("skip-bytes", 'j')], 1⟩
  withArguments k args fun g => do
    let (found, ok) ← texts "od" (orInput g.operands)
    let text := found.flatMap (·.2)
    let number (c : Char) : Option Nat := (g.value? c).bind fun s => count? s.toList
    let text := text.drop ((number 'j').getD 0)
    let text := match number 'N' with
      | some n => text.take n
      | none => text
    let kinds := g.options.filterMap fun (c, v) =>
      match c with
      | 'c' => some "c"
      | 'b' => some "o1"
      | 'x' => some "x2"
      | 'd' => some "u2"
      | 'o' => some "o2"
      | 't' => some (if v == "x" then "x2" else if v == "o" then "o2" else v)
      | _ => none
    let kinds := if kinds.isEmpty then ["o2"] else kinds
    let radix := (g.value? 'A').getD "o"
    let address (n : Nat) : String :=
      match radix with
      | "n" => ""
      | "d" => zeroPadded 7 (toString n).toList
      | "x" => zeroPadded 6 (Nat.toDigits 16 n)
      | _ => zeroPadded 7 (Nat.toDigits 8 n)
    let blank := String.ofList ((address 0).toList.map fun _ => ' ')
    let rows := chunks 16 (text.length + 1) text
    let rec go : Nat → Option (List Char) → Bool → List (List Char) → List String
      | _, _, _, [] => []
      | i, last, starred, row :: rest =>
        if last == some row && row.length == 16 && !rest.isEmpty && !g.has 'v' then
          (if starred then [] else ["*\n"]) ++ go (i + 1) last true rest
        else
          String.join ((kinds.zipIdx).map fun (kind, j) =>
            (if j = 0 then address (16 * i) else blank) ++ dumped kind row ++ "\n") ::
          go (i + 1) (some row) false rest
    emit (String.join (go 0 none false rows))
    if radix != "n" then emit (address text.length ++ "\n")
    return zeroOr !ok

def base64Digits : Array Char :=
  "ABCDEFGHIJKLMNOPQRSTUVWXYZabcdefghijklmnopqrstuvwxyz0123456789+/".toList.toArray

def encoded64 : List Char → List Char
  | a :: b :: c :: rest =>
    let n := a.toNat * 65536 + b.toNat * 256 + c.toNat
    digitOf (n / 262144) :: digitOf (n / 4096) :: digitOf (n / 64) :: digitOf n :: encoded64 rest
  | [a, b] =>
    let n := a.toNat * 65536 + b.toNat * 256
    [digitOf (n / 262144), digitOf (n / 4096), digitOf (n / 64), '=']
  | [a] =>
    let n := a.toNat * 65536
    [digitOf (n / 262144), digitOf (n / 4096), '=', '=']
  | [] => []
where
  digitOf (n : Nat) : Char := (base64Digits[n % 64]?).getD 'A'

def decoded64 (cs : List Char) : List Char :=
  let bits := cs.filterMap fun c => (base64Digits.toList.idxOf? c)
  let rec go : List Nat → List Char
    | a :: b :: c :: d :: rest =>
      let n := a * 262144 + b * 4096 + c * 64 + d
      Char.ofNat (n / 65536) :: Char.ofNat (n / 256 % 256) :: Char.ofNat (n % 256) :: go rest
    | [a, b, c] =>
      let n := a * 262144 + b * 4096 + c * 64
      [Char.ofNat (n / 65536), Char.ofNat (n / 256 % 256)]
    | [a, b] => [Char.ofNat ((a * 262144 + b * 4096) / 65536)]
    | _ => []
  go bits

def base64 (args : List String) : Act Nat :=
  let k : Known := ⟨"base64", "di", "w", [("decode", 'd'), ("wrap", 'w')], 1⟩
  withArguments k args fun g => do
    let (found, ok) ← texts "base64" (orInput g.operands)
    let text := found.flatMap (·.2)
    if g.has 'd' then emit (String.ofList (decoded64 (text.filter (· != '\n'))))
    else
      let width := ((g.value? 'w').bind fun s => count? s.toList).getD 76
      let out := encoded64 text
      if width = 0 then emit (String.ofList out)
      else emitLines (chunks width (out.length + 1) out)
    return zeroOr !ok

/-! ## Numbers -/

/-- A decimal as a whole number of its last places. -/
def decimal? (s : String) : Option (Int × Nat) :=
  let (negative, cs) := match s.toList with
    | '-' :: cs => (true, cs)
    | '+' :: cs => (false, cs)
    | cs => (false, cs)
  match Decimal.digits? 10 cs with
  | some (n, places, []) => some (if negative then -(n : Int) else n, places)
  | _ => none

def atPlaces (places : Nat) (x : Int × Nat) : Int := x.1 * Nat.pow 10 (places - x.2)

def shownAt (places : Nat) (n : Int) : String :=
  (if n < 0 then "-" else "") ++ Decimal.pointed places false n.natAbs

def seq (args : List String) : Act Nat := do
  let known : Known := ⟨"seq", "w", "sf", [("separator", 's'), ("equal-width", 'w'), ("format", 'f')], 1⟩
  let isNumber (s : String) : Bool := (decimal? s).isSome
  let format := match args with
    | "-f" :: f :: _ => some f
    | _ => none
  let args := if format.isSome then args.drop 2 else args
  let rec sortOut : List String → Bool × String × List String
    | "-w" :: rest => let (_, s, ns) := sortOut rest; (true, s, ns)
    | "-s" :: v :: rest => let (w, _, ns) := sortOut rest; (w, v, ns)
    | "--" :: rest => (false, "\n", rest)
    | a :: rest =>
      if "-s".toList.isPrefixOf a.toList && !isNumber a then
        let (w, _, ns) := sortOut rest
        (w, String.ofList (a.toList.drop 2), ns)
      else
        let (w, s, ns) := sortOut rest
        (w, s, a :: ns)
    | [] => (false, "\n", [])
  let (wide, separator, words) := sortOut args
  match words.find? fun s => !isNumber s with
  | some bad =>
    let _ ← misuse (α := Unit) known ("invalid floating point argument: " ++ quoted bad)
    return 1
  | none =>
    let values := words.filterMap decimal?
    let run (first step last : Int × Nat) : Act Nat := do
      let places := max first.2 step.2
      let scale := max places last.2
      let a := atPlaces scale first
      let d := atPlaces scale step
      let z := atPlaces scale last
      if d = 0 then
        let _ ← misuse (α := Unit) known ("invalid Zero increment value: " ++
          quoted ((words[1]?).getD "0"))
        return 1
      let count : Int := (z - a).fdiv d + 1
      let shown (i : Nat) : String :=
        shownAt places ((a + i * d).fdiv (Nat.pow 10 (scale - places)))
      let all := (List.range count.toNat).map shown
      let width := if wide then (all.map String.length).foldl max 0 else 0
      let all := all.map fun s =>
        if s.length < width then
          match s.toList with
          | '-' :: cs => "-" ++ zeroPadded (width - 1) cs
          | cs => zeroPadded width cs
        else s
      let all := match format with
        | some f => all.map fun s => String.ofList (Format.print true f [s]).1
        | none => all
      if !all.isEmpty then emit (String.intercalate separator all ++ "\n")
      return 0
    match values with
    | [] =>
      let _ ← misuse (α := Unit) known "missing operand"
      return 1
    | [last] => run (1, 0) (1, 0) last
    | [first, last] => run first (1, 0) last
    | [first, step, last] => run first step last
    | _ =>
      let _ ← misuse (α := Unit) known ("extra operand " ++ quoted ((words[3]?).getD ""))
      return 1

end FirmwareMatrix.Shell.Utility.Lines
