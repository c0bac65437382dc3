import FirmwareMatrix.FileSystem

/-! The three files that a build has to produce: where the tool writes each below the build
directory and what it is called where it is delivered. -/

namespace FirmwareMatrix

/-- Where the tool writes its outputs, from the build directory. -/
structure ArtifactPaths where
  image : Path
  bootloader : Path
  partitionTable : Path
  deriving Repr, BEq

structure Artifact where
  label : String
  source : Path
  deliveredAs : String
  deriving Repr

structure ArtifactSet where
  image : Artifact
  bootloader : Artifact
  partitionTable : Artifact
  deriving Repr

namespace ArtifactPaths

/-! The paths that are used where none are given. -/

def usualImage : Path := ⟨"vesc_express.bin"⟩

def usualBootloader : Path := ⟨"bootloader/bootloader.bin"⟩

def usualPartitionTable : Path := ⟨"partition_table/partition-table.bin"⟩

def default : ArtifactPaths :=
  { image := usualImage
    bootloader := usualBootloader
    partitionTable := usualPartitionTable }

/-- The image keeps its file name when it is delivered; the other two have fixed names. -/
def artifacts (paths : ArtifactPaths) : ArtifactSet :=
  { image := ⟨"bin", paths.image, paths.image.fileName.getD "app.bin"⟩
    bootloader := ⟨"bootloader", paths.bootloader, "bootloader.bin"⟩
    partitionTable := ⟨"partition table", paths.partitionTable, "partition_table.bin"⟩ }

end ArtifactPaths

namespace ArtifactSet

variable {σ : Type}

def default : ArtifactSet := ArtifactPaths.default.artifacts

def toList (set : ArtifactSet) : List Artifact := [set.image, set.bootloader, set.partitionTable]

/-- The first output that is no file. -/
def firstMissing? (fs : FileSystem σ) (buildDir : Path) :
    List Artifact → StateM σ (Option Path)
  | [] => pure none
  | a :: rest => do
    let file := buildDir.join a.source
    if ← fs.isFile file then firstMissing? fs buildDir rest else return some file

/-- The first output that a build left out, if any. -/
def missing? (fs : FileSystem σ) (buildDir : Path) (set : ArtifactSet) :
    StateM σ (Option Path) :=
  firstMissing? fs buildDir set.toList

/-- Removes those outputs that are files, stopping at the first failure. -/
def clearEach (fs : FileSystem σ) (buildDir : Path) :
    List Artifact → StateM σ (Except Failure Unit)
  | [] => pure (.ok ())
  | a :: rest => do
    let file := buildDir.join a.source
    if ← fs.isFile file then
      match ← fs.removeFile file with
      | .ok _ => clearEach fs buildDir rest
      | .error f => return .error (f.during (.clearingArtifact a.label))
    else clearEach fs buildDir rest

/-- Removes the outputs of an earlier build, so that a build that leaves one out is noticed. -/
def clear (fs : FileSystem σ) (buildDir : Path) (set : ArtifactSet) :
    StateM σ (Except Failure Unit) :=
  clearEach fs buildDir set.toList

/-- Copies outputs into `dest`, stopping at the first failure. -/
def deliverEach (fs : FileSystem σ) (buildDir dest : Path) :
    List Artifact → StateM σ (Except Failure (List Path))
  | [] => pure (.ok [])
  | a :: rest => do
    let delivered := dest.child a.deliveredAs
    match ← fs.copy (buildDir.join a.source) delivered with
    | .error f => return .error (f.during (.copyingArtifact a.label))
    | .ok _ =>
      match ← deliverEach fs buildDir dest rest with
      | .error f => return .error f
      | .ok paths => return .ok (delivered :: paths)

/-- Makes the directory `dest` and copies the outputs into it; the paths of the copies. -/
def deliver (fs : FileSystem σ) (buildDir dest : Path) (set : ArtifactSet) :
    StateM σ (Except Failure (List Path)) := do
  match ← fs.createDirectories dest with
  | .error f => return .error (f.during (.creatingOutput dest))
  | .ok _ => deliverEach fs buildDir dest set.toList

end ArtifactSet

end FirmwareMatrix
