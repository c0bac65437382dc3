import FirmwareMatrix.Shell.Utility.Record.World

/-! Carrying out programs for records: the values of terms and what statements do. -/

namespace FirmwareMatrix.Shell.Utility.Record

/-- What a program runs with. -/
structure Setting where
  program : Program
  spawn : Spawn

/-- Whether a loop goes on after a round of it. -/
def round (body : Run Unit) : Run Bool := fun w =>
  match body w with
  | .ok _ w | .error .again w => .ok true w
  | .error .leave w => .ok false w
  | .error e w => .error e w

/-- Gives back what a function gives. -/
def returned (body : Run Unit) : Run Value := fun w =>
  match body w with
  | .ok _ w => .ok .unset w
  | .error (.back v) w => .ok v w
  | .error e w => .error e w

/-- Runs something and then something else, however the first ended. -/
def afterwards {α : Type} (body : Run α) (after : World → World) : Run α := fun w =>
  match body w with
  | .ok a w => .ok a (after w)
  | .error e w => .error e (after w)

/-- How a format fails. -/
def formatFault (name : String) (format : List Char) (f : FormatFault) : Run (List Char) := do
  let call := name ++ "(\"" ++ String.ofList format ++ "\")"
  let what := match f with
    | .tooFewValues => "not enough arguments passed to " ++ call
    | .noConversion n => "improper conversion(number " ++ toString n ++ ") in " ++ call
  let place := "\n\tFILENAME=\"" ++ String.ofList (← textOf "FILENAME") ++ "\" FNR=" ++
    String.ofList (← textOf "FNR") ++ " NR=" ++ String.ofList (← textOf "NR")
  fault ("run time error: " ++ what ++ place)

/-- Text by a format; what comes before a fault goes where `partial_` says. -/
def byFormat (name : String) (vs : List Value) (before : List Char → Run Unit) :
    Run (List Char) := do
  match vs with
  | [] => return []
  | v :: vs =>
    let format ← text v
    match formatted (← numberFormat) 1 (pieces format.length format) vs with
    | (s, none) => return s
    | (s, some f) =>
      before s
      formatFault name format f

/-- The characters of a text from a place on, counted from one. -/
def part (s : List Char) (start : Int) (length : Option Int) : List Char :=
  let stop := length.map (start + ·)
  let s := match stop with
    | some n => s.take (n - 1).toNat
    | none => s
  s.drop (start - 1).toNat

/-- Where a text starts in another, counted from `n`; zero if it does not. -/
def place (part : List Char) (n : Nat) : List Char → Nat
  | [] => if part.isEmpty then n else 0
  | c :: cs => if part.isPrefixOf (c :: cs) then n else place part (n + 1) cs

/-- What takes the place of a match. -/
def replacement (found : List Char) : List Char → List Char
  | [] => []
  | '&' :: cs => found ++ replacement found cs
  | '\\' :: c :: cs =>
    if ((c :: cs).dropWhile (· == '\\')).head? == some '&' then c :: replacement found cs
    else '\\' :: replacement found (c :: cs)
  | c :: cs => c :: replacement found cs

/-- A text with its matches replaced, and how many there were. -/
def replaced (e : Expression) (by_ : List Char) (all : Bool) (s : Expression.Subject) :
    Nat → Nat → Option Nat → List Char × Nat
  | 0, i, _ => ((s.text.extract i s.text.size).toList, 0)
  | fuel + 1, i, last =>
    match Expression.find? e s (s.text.size + 1) i with
    | none => ((s.text.extract i s.text.size).toList, 0)
    | some m =>
      let skipped := (s.text.extract i m.low).toList
      let next := ((s.text[m.high]?).map ([·])).getD []
      let isDouble := m.low = m.high ∧ last = some m.low
      let new := if isDouble then [] else replacement (s.text.extract m.low m.high).toList by_
      let (rest, n) :=
        if !all then ((s.text.extract m.high s.text.size).toList, 0)
        else if m.low < m.high then replaced e by_ all s fuel m.high (some m.high)
        else if s.text.size ≤ m.high then ([], 0)
        else
          let (rest, n) := replaced e by_ all s fuel (m.high + 1) none
          (next ++ rest, n)
      (skipped ++ new ++ rest, if isDouble then n else n + 1)

/-- Random numbers are parts of so many. -/
def mostRandom : Nat := 2147483648

/-- A place whose keys are known. -/
inductive Spot where
  | variable (name : String)
  | item (table : Nat) (k : Key)
  | field (n : Nat)

namespace Spot

/-- The value at a place. An item that there was not is there from then on. -/
def read : Spot → Run Value
  | .variable name => do
    if name == "NF" then return .ofNat (← get).fields.size else value name
  | .item id k => do
    let v := ((← table id).value? k).getD .unset
    onTable id (·.insert k v)
    return v
  | .field n => Record.field n

def write (v : Value) : Spot → Run Unit
  | .variable name => setVariable name v
  | .item id k => onTable id (·.insert k v)
  | .field n => setField n v

end Spot

mutual

/-- The value of a term. -/
def eval (g : Setting) : Nat → Term → Run Value
  | 0, _ => throw (.stop .waiting)
  | fuel + 1, t => do
    match t with
    | .number x => return .number x
    | .text s => return .text s
    | .regex e => return .ofBool (Expression.search? e false (← record) 0).isSome
    | .at_ p => (← find g fuel p).read
    | .assign p op t =>
      let spot ← find g fuel p
      let v ← match op with
        | none => eval g fuel t
        | some op => do
          let y := (← eval g fuel t).toNumber
          pure (.number (op.apply (← spot.read).toNumber y))
      spot.write v
      return v
    | .choose c yes no =>
      if (← eval g fuel c).holds then eval g fuel yes else eval g fuel no
    | .and a b =>
      if (← eval g fuel a).holds then return .ofBool (← eval g fuel b).holds
      else return .ofBool false
    | .or a b =>
      if (← eval g fuel a).holds then return .ofBool true
      else return .ofBool (← eval g fuel b).holds
    | .not t => return .ofBool !(← eval g fuel t).holds
    | .isIn keys array =>
      let k ← key g fuel keys
      return .ofBool ((← table (← cell array).table).value? k).isSome
    | .matches_ wanted t pattern =>
      let s ← text (← eval g fuel t)
      let e ← pattern_ g fuel pattern
      return .ofBool ((Expression.search? e false s 0).isSome == wanted)
    | .compare c a b =>
      let x ← eval g fuel a
      let y ← eval g fuel b
      return .ofBool (x.compare (← numberFormat) c y)
    | .join a b =>
      let s ← text (← eval g fuel a)
      return .text (s ++ (← text (← eval g fuel b)))
    | .binary op a b =>
      let x := (← eval g fuel a).toNumber
      return .number (op.apply x (← eval g fuel b).toNumber)
    | .negate t => return .number (-(← eval g fuel t).toNumber)
    | .plus t => return .number (← eval g fuel t).toNumber
    | .step p up before =>
      let spot ← find g fuel p
      let x := (← spot.read).toNumber
      let y := if up then x + 1 else x - 1
      spot.write (.number y)
      return .number (if before then y else x)
    | .call name args => callFunction g fuel name args
    | .routine r args => runRoutine g fuel r args
    | .record target source ofCommand => readRecord g fuel target source ofCommand
    | .several ts => return .text (← key g fuel ts).text.toList

/-- The key that some values are together. -/
def key (g : Setting) : Nat → List Term → Run Key
  | 0, _ => throw (.stop .waiting)
  | fuel + 1, ts => do
    match ts with
    | [t] => return Key.ofValue (← numberFormat) (← eval g fuel t)
    | ts =>
      let parts ← values g fuel ts
      let parts ← parts.mapM text
      return ⟨String.ofList ((← textOf "SUBSEP").intercalate parts), false⟩

def values (g : Setting) : Nat → List Term → Run (List Value)
  | 0, _ => throw (.stop .waiting)
  | _, [] => return []
  | fuel + 1, t :: ts => do
    let v ← eval g fuel t
    return v :: (← values g fuel ts)

/-- The expression that a term stands for where one is wanted. -/
def pattern_ (g : Setting) : Nat → Term → Run Expression
  | 0, _ => throw (.stop .waiting)
  | fuel + 1, t => do
    match t with
    | .regex e => return e
    | t => expression (← text (← eval g fuel t))

def fieldNumber (g : Setting) : Nat → Term → Run Nat
  | 0, _ => throw (.stop .waiting)
  | fuel + 1, t => do
    let n := whole (← eval g fuel t).toNumber
    if n < 0 then fault ("run time error: negative field index $" ++ toString n) else return n.toNat

/-- Where a place is now. -/
def find (g : Setting) : Nat → Place → Run Spot
  | 0, _ => throw (.stop .waiting)
  | fuel + 1, p => do
    match p with
    | .variable name => return .variable name
    | .item array keys => do
      let k ← key g fuel keys
      return .item (← cell array).table k
    | .field t => return .field (← fieldNumber g fuel t)

/-- Calls a function: it has its parameters for itself, but shares tables that it is given. -/
def callFunction (g : Setting) : Nat → String → List Term → Run Value
  | 0, _, _ => throw (.stop .waiting)
  | fuel + 1, name, args => do
    match g.program.functions.find? (·.name == name) with
    | none => return .unset
    | some f =>
      let cells ← args.mapM fun t => do
        match t with
        | .at_ (.variable v) => if v == "NF" then pure ⟨← eval g fuel t, ← freshTable⟩ else cell v
        | t => do
          let v ← eval g fuel t
          pure ⟨v, ← freshTable⟩
      let missing ← (f.parameters.drop cells.length).mapM fun _ => do
        pure (⟨.unset, ← freshTable⟩ : Cell)
      let saved := (← get).locals
      modify fun w => { w with locals := f.parameters.zip (cells ++ missing) }
      afterwards (returned (exec g fuel f.body)) fun w => { w with locals := saved }

def runRoutine (g : Setting) : Nat → Routine → List Term → Run Value
  | 0, _, _ => throw (.stop .waiting)
  | fuel + 1, r, args => do
    let ofFloat (f : Float → Float) : Run Value := do
      return .number (f ((← values g fuel args).head?.getD .unset).toNumber)
    let texts : Run (List (List Char)) := do (← values g fuel args).mapM text
    match r, args with
    | .length, [] => return .ofNat (← record).length
    | .length, t :: _ =>
      let size ← match t with
        | .at_ (.variable name) => do
          let n := (← table (← cell name).table).entries.size
          pure (if n = 0 then none else some n)
        | _ => pure none
      match size with
      | some n => return .ofNat n
      | none => return .ofNat (← text (← eval g fuel t)).length
    | .part, _ =>
      match ← values g fuel args with
      | v :: start :: rest =>
        return .text (part (← text v) (whole start.toNumber) (rest.head?.map (whole ·.toNumber)))
      | _ => return .text []
    | .index, _ =>
      match ← texts with
      | s :: t :: _ => return .ofNat (place t 1 s)
      | _ => return .ofNat 0
    | .split, t :: .at_ (.variable array) :: rest =>
      let s ← text (← eval g fuel t)
      let separator ← match rest with
        | [] => do separator (← textOf "FS")
        | .regex e :: _ => pure (.expression e)
        | t :: _ => do separator (← text (← eval g fuel t))
      let parts := separator.split false s
      let filled := parts.zipIdx.foldl (fun (t : Table) (part, i) =>
        t.insert (Key.ofValue [] (.ofNat (i + 1))) (.input part)) .empty
      let id := (← cell array).table
      onTable id fun _ => filled
      return .ofNat parts.length
    | .replace all, pattern :: by_ :: rest =>
      let e ← pattern_ g fuel pattern
      let by_ ← text (← eval g fuel by_)
      let p : Place := match rest with
        | .at_ p :: _ => p
        | _ => .field (.number 0)
      let s ← match rest with
        | [] => record
        | t :: _ => do text (← eval g fuel t)
      let (new, n) := replaced e by_ all ⟨s.toArray, false⟩ (s.length + 2) 0 none
      if 0 < n then (← find g fuel p).write (.text new)
      return .ofNat n
    | .locate, t :: pattern :: _ =>
      let s ← text (← eval g fuel t)
      let e ← pattern_ g fuel pattern
      let (start, length) : Float × Float := match Expression.search? e false s 0 with
        | some m => (Float.ofNat (m.low + 1), Float.ofNat (m.high - m.low))
        | none => (0, -1)
      setValue "RSTART" (.number start)
      setValue "RLENGTH" (.number length)
      return .number start
    | .format, _ => return .text (← byFormat "sprintf" (← values g fuel args) fun _ => return)
    | .sine, _ => ofFloat Float.sin
    | .cosine, _ => ofFloat Float.cos
    | .exponential, _ => ofFloat Float.exp
    | .logarithm, _ => ofFloat Float.log
    | .root, _ => ofFloat Float.sqrt
    | .whole, _ => ofFloat truncated
    | .angle, _ =>
      match ← values g fuel args with
      | y :: x :: _ => return .number (Float.atan2 y.toNumber x.toNumber)
      | _ => return .unset
    | .random, _ =>
      let n := ((← get).seed * 1103515245 + 12345) % mostRandom
      modify fun w => { w with seed := n }
      return .number (Float.ofNat n / Float.ofNat mostRandom)
    | .seed, _ =>
      let old := (← get).seed
      let new ← values g fuel args
      modify fun w => { w with seed := (new.head?.map fun v => (whole v.toNumber).toNat).getD 0 }
      return .ofNat old
    | .lower, _ => return .text ((← texts).head?.getD [] |>.map Char.toLower)
    | .upper, _ => return .text ((← texts).head?.getD [] |>.map Char.toUpper)
    | .system, _ =>
      flush
      let command := String.ofList ((← texts).head?.getD [])
      match ← act (g.spawn id ["/bin/sh", "-c", command]) with
      | .ok n => return .ofNat n
      | .error _ => return .ofNat 127
    | .close, _ =>
      let name := String.ofList ((← texts).head?.getD [])
      let w ← get
      modify fun w => { w with
        outputs := w.outputs.filter (·.1 != name), sources := w.sources.filter (·.1 != name) }
      match w.outputs.lookup name, w.sources.lookup name with
      | some o, _ => return .ofNat (← closeOutput g.spawn name o)
      | none, some s => return .ofNat s.status
      | none, none => return .number (-1)
    | .flush, _ =>
      flush
      return .ofNat 0
    | _, _ => return .unset

/-- Reads the next record into a place: one if there is one, zero at the end, less if it cannot be
read. -/
def readRecord (g : Setting) : Nat → Option Place → Option Term → Bool → Run Value
  | 0, _, _, _ => throw (.stop .waiting)
  | fuel + 1, target, source, ofCommand => do
    let give (s : List Char) : Run Unit := do
      match target with
      | some p => do (← find g fuel p).write (.input s)
      | none => setRecord s
    match source with
    | none =>
      match ← mainRecord fuel with
      | none => return .ofNat 0
      | some s =>
        give s
        return .ofNat 1
    | some t =>
      let name := String.ofList (← text (← eval g fuel t))
      let known := (← get).sources.lookup name
      let found : Option Source ← match known with
        | some s => pure (some s)
        | none => do
          if ofCommand then pure (some (← printedBy g.spawn name))
          else if name == "-" || name == "/dev/stdin" then pure (some ⟨none, [], false, 0⟩)
          else match ← act do Act.openPath (← Act.process).here name .reading false with
            | .ok n => pure (some ⟨some n, [], false, 0⟩)
            | .error _ => pure none
      match found with
      | none => return .number (-1)
      | some s =>
        let (text, s) ← recordFrom s
        modify fun w => { w with sources := (name, s) :: w.sources.filter (·.1 != name) }
        match text with
        | none => return .ofNat 0
        | some text =>
          give text
          return .ofNat 1

/-- Writes text to where a statement says. -/
def output (g : Setting) : Nat → Option Sink → List Char → Run Unit
  | 0, _, _ => throw (.stop .waiting)
  | fuel + 1, sink, s => do
    let name (t : Term) : Run String := do return String.ofList (← text (← eval g fuel t))
    let toFile (name : String) (opening : Opening) : Run Unit := do
      if name == "-" || name == "/dev/stdout" then hold s
      else if name == "/dev/stderr" then
        let _ ← act (Act.write 2 s)
      else writeOut s name (openOutput name opening)
    match sink with
    | none => hold s
    | some (.file t) => toFile (← name t) .overwriting
    | some (.fileEnd t) => toFile (← name t) .appending
    | some (.command t) =>
      let name ← name t
      writeOut s name do
        flush
        return .command []

def exec (g : Setting) : Nat → Statement → Run Unit
  | 0, _ => throw (.stop .waiting)
  | fuel + 1, s => do
    match s with
    | .nothing => return
    | .value t =>
      let _ ← eval g fuel t
    | .print [] sink => output g fuel sink ((← record) ++ (← textOf "ORS"))
    | .print ts sink =>
      let vs ← values g fuel ts
      let parts ← vs.mapM fun v => do
        match v with
        | .number x => return numberText ((← value "OFMT").toText []) x
        | v => text v
      output g fuel sink ((← textOf "OFS").intercalate parts ++ (← textOf "ORS"))
    | .format ts sink =>
      let vs ← values g fuel ts
      output g fuel sink (← byFormat "printf" vs (output g fuel sink))
    | .both a b =>
      exec g fuel a
      exec g fuel b
    | .branch c yes no => if (← eval g fuel c).holds then exec g fuel yes else exec g fuel no
    | .loop c body =>
      if (← eval g fuel c).holds then
        if ← round (exec g fuel body) then exec g fuel (.loop c body)
    | .loopAfter body c =>
      if ← round (exec g fuel body) then exec g fuel (.loop c body)
    | .count start c next body =>
      exec g fuel start
      countOn g fuel c next body
    | .each name array body =>
      let keys := (← table (← cell array).table).keys
      eachKey g fuel name body keys
    | .leave => throw .leave
    | .again => throw .again
    | .nextRecord => throw .nextRecord
    | .nextFile => throw .nextFile
    | .exit t =>
      if let some t := t then
        let n := (whole (← eval g fuel t).toNumber % 256).toNat
        modify fun w => { w with status := n }
      throw .exit
    | .back t =>
      match t with
      | none => throw (.back .unset)
      | some t => throw (.back (← eval g fuel t))
    | .remove array [] =>
      let id := (← cell array).table
      onTable id fun _ => .empty
    | .remove array keys =>
      let k ← key g fuel keys
      let id := (← cell array).table
      onTable id (·.erase k)

/-- The rounds of a loop that counts. -/
def countOn (g : Setting) : Nat → Option Term → Statement → Statement → Run Unit
  | 0, _, _, _ => throw (.stop .waiting)
  | fuel + 1, c, next, body => do
    let goes ← match c with
      | some t => do pure (← eval g fuel t).holds
      | none => pure true
    if goes then
      if ← round (exec g fuel body) then
        exec g fuel next
        countOn g fuel c next body

def eachKey (g : Setting) : Nat → String → Statement → List String → Run Unit
  | 0, _, _, _ => throw (.stop .waiting)
  | _, _, _, [] => return
  | fuel + 1, name, body, k :: ks => do
    setVariable name (.input k.toList)
    if ← round (exec g fuel body) then eachKey g fuel name body ks

end

/-! ## Rules -/

/-- So many steps are more than any program takes that ends. -/
def mostSteps : Nat := 1000000000000000000

/-- Whether a rule is for the record at hand; `i` is its number. -/
def isFor (g : Setting) (i : Nat) (c : Condition) : Run Bool := do
  let holds (t : Term) : Run Bool := return (← eval g mostSteps t).holds
  match c with
  | .always => return true
  | .start | .finish => return false
  | .holds t => holds t
  | .range first last =>
    let isUnderWay := (← get).ranges.contains i
    if isUnderWay || (← holds first) then
      let ends ← holds last
      modify fun w =>
        let others := w.ranges.filter (· != i)
        { w with ranges := if ends then others else i :: others }
      return true
    else return false

/-- Carries out all rules for the record at hand. -/
def onRecord (g : Setting) : Run Unit := do
  let rec each : List (Rule × Nat) → Run Unit
    | [] => return
    | (r, i) :: rest => do
      if ← isFor g i r.condition then exec g mostSteps r.body
      each rest
  fun w =>
    match each g.program.rules.zipIdx w with
    | .error .nextRecord w => .ok () w
    | .error .nextFile w => .ok () { w with main := none }
    | result => result

def onRecords (g : Setting) : Nat → Run Unit
  | 0 => return
  | fuel + 1 => do
    match ← mainRecord mostSteps with
    | none => return
    | some s =>
      setRecord s
      onRecord g
      onRecords g fuel

def rulesFor (g : Setting) (isWanted : Condition → Bool) : Run Unit :=
  (g.program.rules.filter fun r => isWanted r.condition).forM fun r => exec g mostSteps r.body

def isStart : Condition → Bool
  | .start => true
  | _ => false

def isFinish : Condition → Bool
  | .finish => true
  | _ => false

/-- Runs something unless the program has been told to end in it. -/
def untilExit (body : Run Unit) : Run Bool := fun w =>
  match body w with
  | .ok _ w | .error .nextRecord w => .ok true w
  | .error .exit w => .ok false w
  | .error e w => .error e w

/-- Runs a whole program. -/
def runAll (g : Setting) : Run Unit := do
  let readsRecords := g.program.rules.any fun r => !isStart r.condition
  let goesOn ← untilExit (rulesFor g isStart)
  if goesOn && readsRecords then
    let _ ← untilExit (onRecords g mostSteps)
  let _ ← untilExit (rulesFor g isFinish)

/-- Ends all commands that are written to, and lets go of all output. -/
def finish (g : Setting) : Run Unit := do
  let outputs := (← get).outputs
  modify fun w => { w with outputs := [] }
  outputs.forM fun (name, o) => do
    let _ ← closeOutput g.spawn name o
  flush

/-- The values of variables at the start. -/
def initial (name : String) (args : List String) (state : State) : World :=
  let given : List (String × Value) :=
    [("FS", .text [' ']), ("OFS", .text [' ']), ("RS", .text ['\n']), ("ORS", .text ['\n']),
      ("SUBSEP", .text ['\x1c']), ("CONVFMT", .text "%.6g".toList), ("OFMT", .text "%.6g".toList),
      ("NR", .number 0), ("FNR", .number 0), ("RSTART", .number 0), ("RLENGTH", .number (-1)),
      ("FILENAME", .text []), ("ARGC", .ofNat (args.length + 1)), ("ARGV", .unset),
      ("ENVIRON", .unset)]
  let globals : Std.HashMap String Cell :=
    given.zipIdx.foldl (fun m ((name, v), i) => m.insert name ⟨v, i⟩) ∅
  let argv := ((name :: args).zipIdx).foldl (fun (t : Table) (s, i) =>
    t.insert (Key.ofValue [] (.ofNat i)) (.input s.toList)) .empty
  let environ := state.process.environment.foldl (fun (t : Table) (name, s) =>
    t.insert ⟨name, false⟩ (.input s.toList)) .empty
  { globals, locals := [], tables := (∅ : Std.HashMap Nat Table).insert 13 argv |>.insert 14 environ
    lastTable := given.length, record := [], fields := #[], isStale := false, expressions := ∅
    main := none, nextArgument := 1, hasOpened := false, sources := [], outputs := [], pending := []
    ranges := [], status := 0, seed := 0, state }

/-- Runs a program with variables that are set before, and gives its status. -/
def Program.run (p : Program) (spawn : Spawn) (name : String)
    (settings : List (String × List Char)) (args : List String) : Act Nat := fun state =>
  let g : Setting := ⟨p, spawn⟩
  let start : Run Unit := do
    settings.forM fun (name, s) => setVariable name (.input s)
    runAll g
  let ended : Run Unit := fun w =>
    match start w with
    | .error (.fault text) w =>
      (do
        act (Act.complain (name ++ ": " ++ text))
        modify fun w => { w with status := 2 } : Run Unit) w
    | .error (.stop s) w => .error (.stop s) w
    | .ok _ w | .error _ w => .ok () w
  match (do ended; finish g : Run Unit) (initial name args state) with
  | .error (.stop s) w => .error s w.state
  | .ok _ w | .error _ w => .ok w.status w.state

/-! ## The program -/

/-- What the arguments of the program ask for. -/
structure Request where
  settings : List (String × List Char)
  files : List String
  rest : List String

/-- Sorts the arguments. -/
def Request.ofArguments (q : Request) : Nat → List String → Except String Request
  | 0, _ => .ok q
  | _, [] => .ok q
  | fuel + 1, arg :: rest =>
    let valued (c : Char) (cs : List Char) (rest : List String)
        (next : String → Option Request) : Except String Request :=
      let (v, rest) := match cs, rest with
        | [], v :: rest => (some v, rest)
        | [], [] => (none, [])
        | cs, rest => (some (String.ofList cs), rest)
      match v with
      | none => .error ("option requires an argument -- " ++ c.toString)
      | some v =>
        match next v with
        | some q => ofArguments q fuel rest
        | none => .error ("improper assignment: -v " ++ v)
    match arg.toList with
    | ['-', '-'] => .ok { q with rest }
    | '-' :: 'F' :: cs =>
      valued 'F' cs rest fun v =>
        some { q with settings := q.settings ++ [("FS", unescaped v.length v.toList)] }
    | '-' :: 'v' :: cs =>
      valued 'v' cs rest fun v =>
        (setting? v).map fun s => { q with settings := q.settings ++ [s] }
    | '-' :: 'f' :: cs => valued 'f' cs rest fun v => some { q with files := q.files ++ [v] }
    | '-' :: c :: cs => .error ("not an option: " ++ String.ofList ('-' :: c :: cs))
    | _ => .ok { q with rest := arg :: rest }

/-- The text of a program in some files; the first that cannot be read if there is one. -/
def programText : List String → Act (Except (String × Errno) (List Char))
  | [] => return .ok []
  | name :: rest => do
    match ← contents name with
    | .error e => return .error (name, e)
    | .ok text =>
      match ← programText rest with
      | .ok more => return .ok (text ++ '\n' :: more)
      | .error e => return .error e

/-- Runs the program that the arguments give, or that is in files, on the files among them. -/
def command (name : String) (spawn : Spawn) (args : List String) : Act Nat := do
  let complain (text : String) : Act Nat := do
    Act.complain (name ++ ": " ++ text)
    return 2
  match Request.ofArguments ⟨[], [], []⟩ (args.length + 1) args with
  | .error text => complain text
  | .ok q =>
    let found : Except String (List Char × List String) ← match q.files, q.rest with
      | [], [] => pure (.error "usage")
      | [], text :: rest => pure (.ok (text.toList, rest))
      | files, rest => do
        match ← programText files with
        | .ok text => pure (.ok (text, rest))
        | .error (name, e) => pure (.error ("cannot open \"" ++ name ++ "\" (" ++ e.text ++ ")"))
    match found with
    | .error text => complain text
    | .ok (text, rest) =>
      match Program.read text with
      | .error f => complain f.message
      | .ok p => p.run spawn name q.settings rest

end FirmwareMatrix.Shell.Utility.Record
