import FirmwareMatrix.Shell.Utility

/-! What is on a disk before anything is put there: the programs of the system and the devices. -/

namespace FirmwareMatrix.Shell.Installation

def directories : List (List String) :=
  [["usr"], ["usr", "bin"], ["usr", "sbin"], ["usr", "lib"], ["usr", "local"],
    ["usr", "local", "bin"], ["usr", "share"], ["etc"], ["tmp"], ["dev"], ["root"], ["home"], ["var"],
    ["proc"], ["opt"], ["mnt"], ["run"]]

def links : List (List String × String) :=
  [(["bin"], "usr/bin"), (["sbin"], "usr/sbin"), (["lib"], "usr/lib"), (["usr", "bin", "sh"], "dash")]

def devices : List (List String × Disk.Device) :=
  [(["dev", "null"], .null), (["dev", "zero"], .zero), (["dev", "full"], .full),
    (["dev", "stdin"], .null), (["dev", "stdout"], .null), (["dev", "stderr"], .null)]

/-- The disk with nothing but what belongs to the system. -/
def disk : Disk :=
  ⟨directories.map (fun p => (p, .directory)) ++ links.map (fun e => (e.1, .link e.2)) ++
    devices.map (fun e => (e.1, .device e.2)) ++
    Utility.names.map fun n => (["usr", "bin", n], .program n)⟩

end FirmwareMatrix.Shell.Installation
