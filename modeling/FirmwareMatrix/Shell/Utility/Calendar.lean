import FirmwareMatrix.Shell.Utility.Arguments

/-! Dates and times of day, by the calendar that has a leap year every four years but for most full
centuries. A moment is a number of seconds since the start of 1970. -/

namespace FirmwareMatrix.Shell.Utility.Calendar

open Act

/-- A day by the calendar; months and days count from one. -/
structure Day where
  year : Int
  month : Nat
  day : Nat
  deriving DecidableEq, Repr

/-- Days from the first of March of the year zero up to the start of 1970. -/
def daysBefore1970 : Int := 719468

/-- Days in four hundred years. -/
def daysInEra : Nat := 146097

/-- The day so many days after the start of 1970. Years begin in March here, so that a leap day comes
last. -/
def Day.ofNumber (n : Int) : Day :=
  let n := n + daysBefore1970
  let era := n.fdiv daysInEra
  let inEra := (n.fmod daysInEra).toNat
  let year := (inEra - inEra / 1460 + inEra / 36524 - inEra / 146096) / 365
  let inYear := inEra - (365 * year + year / 4 - year / 100)
  let fromMarch := (5 * inYear + 2) / 153
  let month := if fromMarch < 10 then fromMarch + 3 else fromMarch - 9
  { year := era * 400 + year + (if month ≤ 2 then 1 else 0)
    month
    day := inYear - (153 * fromMarch + 2) / 5 + 1 }

/-- How many days after the start of 1970 a day is. -/
def Day.number (d : Day) : Int :=
  let year := if d.month ≤ 2 then d.year - 1 else d.year
  let era := year.fdiv 400
  let ofEra := (year.fmod 400).toNat
  let fromMarch := if 2 < d.month then d.month - 3 else d.month + 9
  let inYear := (153 * fromMarch + 2) / 5 + (d.day - 1)
  era * daysInEra + (ofEra * 365 + ofEra / 4 - ofEra / 100 + inYear : Nat) - daysBefore1970

def secondsInDay : Nat := 86400

def weekdays : List String :=
  ["Sunday", "Monday", "Tuesday", "Wednesday", "Thursday", "Friday", "Saturday"]

def months : List String :=
  ["January", "February", "March", "April", "May", "June", "July", "August", "September", "October",
    "November", "December"]

/-- A number with something before it up to a width. -/
def padded (c : Char) (width : Nat) (n : Int) : String :=
  let digits := (toString n).toList
  String.ofList (List.replicate (width - digits.length) c ++ digits)

/-- A part of a moment, by the letter that asks for it. -/
def part? (moment : Int) (letter : Char) : Option String :=
  let dayNumber := moment.fdiv secondsInDay
  let d := Day.ofNumber dayNumber
  let inDay := (moment.fmod secondsInDay).toNat
  let hour := inDay / 3600
  let minute := inDay / 60 % 60
  let second := inDay % 60
  let weekday := ((dayNumber + 4).fmod 7).toNat
  let two (n : Nat) : String := padded '0' 2 n
  let weekdayName := (weekdays[weekday]?).getD ""
  let monthName := (months[d.month - 1]?).getD ""
  let short (s : String) : String := String.ofList (s.toList.take 3)
  let date := padded '0' 4 d.year ++ "-" ++ two d.month ++ "-" ++ two d.day
  let time := two hour ++ ":" ++ two minute ++ ":" ++ two second
  match letter with
  | 'Y' => some (toString d.year)
  | 'y' => some (two (d.year.fmod 100).toNat)
  | 'C' => some (two (d.year.fdiv 100).toNat)
  | 'm' => some (two d.month)
  | 'd' => some (two d.day)
  | 'e' => some (padded ' ' 2 d.day)
  | 'H' => some (two hour)
  | 'k' => some (padded ' ' 2 hour)
  | 'I' => some (two ((hour + 11) % 12 + 1))
  | 'M' => some (two minute)
  | 'S' => some (two second)
  | 's' => some (toString moment)
  | 'N' => some "000000000"
  | 'F' => some date
  | 'T' | 'X' => some time
  | 'R' => some (two hour ++ ":" ++ two minute)
  | 'D' | 'x' => some (two d.month ++ "/" ++ two d.day ++ "/" ++ two (d.year.fmod 100).toNat)
  | 'j' => some (padded '0' 3 (dayNumber - Day.number ⟨d.year, 1, 1⟩ + 1))
  | 'u' => some (toString (if weekday = 0 then 7 else weekday))
  | 'w' => some (toString weekday)
  | 'a' => some (short weekdayName)
  | 'A' => some weekdayName
  | 'b' | 'h' => some (short monthName)
  | 'B' => some monthName
  | 'p' => some (if hour < 12 then "AM" else "PM")
  | 'c' => some (short weekdayName ++ " " ++ short monthName ++ " " ++ padded ' ' 2 d.day ++ " " ++
      time ++ " " ++ toString d.year)
  | 'Z' => some "UTC"
  | 'z' => some "+0000"
  | 'n' => some "\n"
  | 't' => some "\t"
  | '%' => some "%"
  | _ => none

/-- What a format makes of a moment. A dash before a letter leaves out what fills a number up. -/
def shown (moment : Int) : List Char → List Char
  | [] => []
  | '%' :: '-' :: c :: cs =>
    match part? moment c with
    | some s =>
      let kept := s.toList.dropWhile fun d => d == '0' || d == ' '
      (if kept.isEmpty then ['0'] else kept) ++ shown moment cs
    | none => '%' :: '-' :: c :: shown moment cs
  | '%' :: c :: cs =>
    match part? moment c with
    | some s => s.toList ++ shown moment cs
    | none => '%' :: c :: shown moment cs
  | c :: cs => c :: shown moment cs

/-- Whole numbers between signs that are not digits. -/
def numbers (cs : List Char) : List Nat :=
  (Text.splitAt ' ' (cs.map fun c => if c.isDigit then c else ' ')).filterMap fun ds =>
    if ds.isEmpty then none else some (Numeral.ofDigits 10 ds)

/-- The moment that a text names. -/
def moment? (now : Int) (s : String) : Option Int :=
  match s.toList with
  | [] => some (now - now.fmod secondsInDay)
  | '@' :: cs =>
    match Numeral.read? false cs with
    | some (n, []) => some n
    | _ => none
  | cs =>
    if s == "now" || s == "today" then some now
    else if s == "yesterday" then some (now - secondsInDay)
    else if s == "tomorrow" then some (now + secondsInDay)
    else if !(cs.all fun c => c.isDigit || "-:TZ ".toList.contains c) then none
    else
      let day (y m d : Nat) : Option Int :=
        let found : Day := ⟨y, m, d⟩
        if 1 ≤ m && m ≤ 12 && 1 ≤ d && Day.ofNumber found.number == found then
          some (found.number * secondsInDay)
        else none
      match numbers cs with
      | [y, m, d] => day y m d
      | [y, m, d, hour, minute] => (day y m d).map (· + (hour * 3600 + minute * 60 : Nat))
      | [y, m, d, hour, minute, second] =>
        (day y m d).map (· + (hour * 3600 + minute * 60 + second : Nat))
      | _ => none

/-- When the first process starts: the first day of 2026. -/
def start : Int := 1767225600

def date (args : List String) : Act Nat :=
  let k : Known := ⟨"date", "uR", "dIr", [("utc", 'u'), ("universal", 'u'), ("date", 'd'),
    ("rfc-email", 'R')], 1⟩
  let args := args.map fun a => if a == "-I" || a == "--iso-8601" then "-Idate" else a
  withArguments k args fun g => do
    let now := start + ((← get).machine.clock / 1000000 : Nat)
    let found := match g.value? 'd' with
      | some s => moment? now s
      | none => some now
    match found, g.operands with
    | none, _ =>
      complain ("date: invalid date " ++ quoted ((g.value? 'd').getD ""))
      return 1
    | _, _ :: extra :: _ =>
      complain ("date: extra operand " ++ quoted extra)
      complain "Try 'date --help' for more information."
      return 1
    | some moment, operands =>
      let format := match operands.head?.map String.toList with
        | some ('+' :: cs) => cs
        | _ =>
          if g.has 'R' then "%a, %d %b %Y %H:%M:%S %z".toList
          else match g.value? 'I' with
            | some "date" => "%F".toList
            | some "seconds" => "%FT%T+00:00".toList
            | some _ => "%F".toList
            | none => "%a %b %e %H:%M:%S %Z %Y".toList
      emit (String.ofList (shown moment format) ++ "\n")
      return 0

end FirmwareMatrix.Shell.Utility.Calendar
