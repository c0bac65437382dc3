import FirmwareMatrix.Shell.Utility.Calendar
import FirmwareMatrix.Shell.Utility.Comparison
import FirmwareMatrix.Shell.Utility.Editing
import FirmwareMatrix.Shell.Utility.Files
import FirmwareMatrix.Shell.Utility.Finding
import FirmwareMatrix.Shell.Utility.Lines
import FirmwareMatrix.Shell.Utility.Record.Evaluation
import FirmwareMatrix.Shell.Utility.Running
import FirmwareMatrix.Shell.Utility.Search
import FirmwareMatrix.Shell.Utility.Sorting
import FirmwareMatrix.Shell.Utility.Translation
import FirmwareMatrix.Shell.Utility.Words

/-! The programs of the system by their names. A program gets its arguments and gives its status;
some run others, by a function that they are given for that. -/

namespace FirmwareMatrix.Shell.Utility

open Act

/-- Programs that need nothing but their arguments. -/
def plain : List (String × (List String → Act Nat)) :=
  [("[", Words.test true), ("basename", Files.basename), ("base64", Lines.base64),
    ("cat", Lines.cat), ("chmod", Files.chmod), ("cmp", Comparison.cmp), ("comm", Comparison.comm),
    ("cp", Files.cp), ("cut", Lines.cut), ("date", Calendar.date), ("diff", Comparison.diff),
    ("dirname", Files.dirname),
    ("echo", Words.echo), ("egrep", Search.grep "egrep"), ("expr", Words.expr),
    ("false", fun _ => return 1), ("fgrep", Search.grep "fgrep"), ("fold", Lines.fold),
    ("grep", Search.grep "grep"), ("head", Lines.head), ("id", Running.identity), ("ln", Files.ln),
    ("ls", Files.ls), ("mkdir", Files.mkdir), ("mktemp", Files.mktemp), ("mv", Files.mv),
    ("nl", Lines.nl), ("od", Lines.od), ("paste", Lines.paste), ("printenv", Running.printenv),
    ("printf", Words.printf), ("pwd", fun _ => Running.pwd), ("readlink", Files.readlink),
    ("realpath", Files.realpath), ("rev", Lines.rev), ("rm", Files.rm), ("rmdir", Files.rmdir),
    ("sed", Editing.sed), ("seq", Lines.seq), ("sleep", Running.sleep), ("sort", Sorting.sort),
    ("stat", Files.stat), ("sync", fun _ => return 0), ("tac", Lines.tac), ("tail", Lines.tail),
    ("tee", Lines.tee), ("test", Words.test false), ("touch", Files.touch), ("tr", Translation.tr),
    ("true", fun _ => return 0), ("truncate", Files.truncate), ("uname", Running.uname),
    ("uniq", Lines.uniq), ("wc", Lines.wc), ("which", Running.which),
    ("whoami", fun _ => Running.identity ["-un"]), ("yes", Lines.yes)]

/-- Programs that run others. -/
def running : List (String × (Spawn → List String → Act Nat)) :=
  [("awk", Record.command "awk"), ("env", Running.env), ("find", Finding.find),
    ("mawk", Record.command "mawk"), ("nice", Running.nice), ("nohup", Running.nohup),
    ("setsid", Running.plainly "setsid"), ("timeout", Running.timeout), ("xargs", Running.xargs)]

/-- The names of all programs, shells among them. -/
def names : List String :=
  ["sh", "dash", "bash"] ++ plain.map Prod.fst ++ running.map Prod.fst

def run? (spawn : Spawn) (name : String) (args : List String) : Option (Act Nat) :=
  match plain.lookup name, running.lookup name with
  | some program, _ => some (program args)
  | none, some program => some (program spawn args)
  | none, none => none

end FirmwareMatrix.Shell.Utility
