import FirmwareMatrix.CommandLine
import FirmwareMatrix.Shell.Start

/-! Whole calls of the program on a machine in memory: a set-up script puts files on a disk that
has only what belongs to the system, and the build tool is a script among them. -/

namespace FirmwareMatrix.Simulation

/-- The directory that set-up script and program work in. -/
def place : Disk.Place := ["work"]

def directory : Path := Disk.pathOf place

/-- The disk with nothing but what belongs to the system and the working directory. -/
def blankDisk : Disk := Shell.Installation.disk.insert place .directory

/-- The disk as a script leaves it. -/
def prepared (setUp : String) : Disk :=
  (Shell.start place ⟨"sh", ["-c", setUp], directory⟩ blankDisk).2

def surroundings : Launch.Surroundings Disk :=
  { fs := Disk.fileSystem place
    tool := fun s => Shell.tool place s.tool directory s.buildDir
    backend := .silent
    directory
    patience := 0 }

/-- How a call ends, and the disk and the screen that it leaves. -/
def call (setUp : String) (args : List String) : CommandLine.Exit × Launch.State Disk :=
  CommandLine.execute surroundings args ⟨prepared setUp, Console.screen false none⟩

end FirmwareMatrix.Simulation
