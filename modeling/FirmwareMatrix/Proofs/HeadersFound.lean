import FirmwareMatrix.Proofs.FirstWins
import FirmwareMatrix.Proofs.HeaderGrammar
import FirmwareMatrix.Proofs.HeaderPattern

/-! # The headers written are the boards found

Headers are put below a root, among other files that declare no board, in any order. After each
addition the tree holds the files added so far and nothing else, and the root lists every header
so far. So a search with the usual pattern finds one board for each header. -/

namespace FirmwareMatrix.Discovery

/-- A file that is put below a root: a header for its stem, or another file. -/
inductive Addition where
  | header (stem : String) (d : Declarations)
  | other (file : Path) (bytes : List UInt8)

namespace Addition

variable (root : Path)

def file : Addition → Path
  | header stem _ => root.child (headerName stem)
  | other file _ => file

def bytes : Addition → List UInt8
  | header _ d => Text.Utf8.encode (Declarations.header d).toList
  | other _ bytes => bytes

/-- The board that a header is for. -/
def board? : Addition → Option Board
  | header stem d => some ⟨d.name, d.target, root.child (headerName stem)⟩
  | other _ _ => none

def place (a : Addition) : List Component := (a.file root).components

def add (t : Tree) (a : Addition) : Tree := t.addFile (a.place root) a.bytes

end Addition

/-- The tree after the additions, made in their order below a root that is there. -/
def furnish (root : Path) (additions : List Addition) : Tree :=
  additions.foldl (Addition.add root) (Tree.empty.addDirectory root.components)

/-- Additions that a search tells apart: every file has its own place other than the root, headers
have stems without separators and legible declarations and are for boards of different names, and
no other file is found or read as a header. -/
structure Furnishing (root : Path) (additions : List Addition) : Prop where
  rooted : root.components ≠ []
  apart : additions.Pairwise fun a b => a.place root ≠ b.place root
  different : (additions.filterMap (Addition.board? root)).Pairwise fun b b' => b.name ≠ b'.name
  headers : ∀ stem d, .header stem d ∈ additions → '/' ∉ stem.toList ∧ d.Legible
  offRoot : ∀ file bytes, .other file bytes ∈ additions → file.components ≠ root.components
  others : ∀ file bytes, .other file bytes ∈ additions →
    wanted root Glob.headers.matches file = false ∨
      ∀ cs, Text.Utf8.decode bytes = .ok cs → Declarations.read (String.ofList cs) = none

/-- A tree that holds the files of `done` and no others. -/
structure Furnished (root : Path) (done : List Addition) (t : Tree) : Prop where
  files : ∀ place bytes, t.file? place = some bytes ↔
    ∃ a ∈ done, a.place root = place ∧ a.bytes = bytes
  rooted : (t.names? root.components).isSome
  listed : ∀ stem d, .header stem d ∈ done →
    ∃ names, t.names? root.components = some names ∧ headerName stem ∈ names
  named : t.Named

variable {root : Path} {additions done : List Addition} {t : Tree}

theorem place_header {stem : String} (h : '/' ∉ stem.toList) (d : Declarations) :
    (Addition.header stem d).place root = root.components ++ [.name (headerName stem)] :=
  Path.components_child (isName_headerName h)

theorem furnished_nil (root : Path) :
    Furnished root [] (Tree.empty.addDirectory root.components) where
  files place bytes := by simp [Tree.file?_empty]
  rooted := Tree.names?_addDirectory_empty root.components
  listed := by simp
  named := Tree.named_empty.addDirectory (Tree.legit_components root)

theorem Furnished.files_add (h : Furnished root done t) {a : Addition}
    (hfresh : ∀ b ∈ done, b.place root ≠ a.place root) (place : List Component)
    (bytes : List UInt8) :
    (a.add root t).file? place = some bytes ↔
      ∃ b ∈ done ++ [a], b.place root = place ∧ b.bytes = bytes := by
  rw [Addition.add, Tree.file?_addFile]
  simp only [List.mem_append, List.mem_singleton]
  by_cases hp : place = a.place root
  · subst hp
    rw [if_pos rfl, Option.some.injEq]
    constructor
    · rintro rfl
      exact ⟨a, .inr rfl, rfl, rfl⟩
    · rintro ⟨b, hb | rfl, hplace, hbytes⟩
      · exact absurd hplace (hfresh b hb)
      · exact hbytes
  · rw [if_neg hp, h.files]
    constructor
    · rintro ⟨b, hb, hb'⟩
      exact ⟨b, .inl hb, hb'⟩
    · rintro ⟨b, hb | rfl, hplace, hbytes⟩
      · exact ⟨b, hb, hplace, hbytes⟩
      · exact absurd hplace.symm hp

/-- One addition, at a place of its own other than the root. -/
theorem Furnished.add (h : Furnished root done t) {a : Addition} (hroot : root.components ≠ [])
    (hplace : a.place root ≠ root.components) (hfresh : ∀ b ∈ done, b.place root ≠ a.place root)
    (hstem : ∀ stem d, a = .header stem d → '/' ∉ stem.toList) :
    Furnished root (done ++ [a]) (a.add root t) where
  files := h.files_add hfresh
  rooted := (Tree.extends_addFile hplace.symm t a.bytes).isSome h.rooted
  listed stem d hmem := by
    rcases List.mem_append.mp hmem with hmem | hmem
    · obtain ⟨names, hnames, hname⟩ := h.listed stem d hmem
      obtain ⟨more, hmore⟩ := Tree.extends_addFile hplace.symm t a.bytes names hnames
      exact ⟨_, hmore, List.mem_append_left _ hname⟩
    · obtain rfl := List.mem_singleton.mp hmem
      rw [Addition.add, place_header (hstem stem d rfl)]
      exact Tree.mem_names?_addFile (Tree.above?_append_name hroot _)
        (Tree.nameOf?_append_name _ _) (by simp) h.rooted _
  named := h.named.addFile (Tree.legit_components _) _

theorem Furnished.foldl (h : Furnished root done t) (hroot : root.components ≠ [])
    (hplaces : ∀ a ∈ additions, a.place root ≠ root.components)
    (hapart : (done ++ additions).Pairwise fun a b => a.place root ≠ b.place root)
    (hstems : ∀ stem d, .header stem d ∈ additions → '/' ∉ stem.toList) :
    Furnished root (done ++ additions) (additions.foldl (Addition.add root) t) := by
  induction additions generalizing done t with
  | nil => simpa using h
  | cons a additions ih =>
    have hfresh : ∀ b ∈ done, b.place root ≠ a.place root := fun b hb =>
      (List.pairwise_append.mp hapart).2.2 b hb a List.mem_cons_self
    have hstep := h.add hroot (hplaces a List.mem_cons_self) hfresh
      fun stem d heq => hstems stem d (heq ▸ List.mem_cons_self)
    rw [List.append_cons] at hapart ⊢
    exact ih hstep (fun b hb => hplaces b (List.mem_cons_of_mem _ hb)) hapart
      fun stem d hmem => hstems stem d (List.mem_cons_of_mem _ hmem)

theorem Furnishing.place_ne (h : Furnishing root additions) :
    ∀ a ∈ additions, a.place root ≠ root.components := by
  intro a ha
  cases a with
  | header stem d =>
    rw [place_header (h.headers stem d ha).1]
    simp
  | other file bytes => exact h.offRoot file bytes ha

theorem Furnishing.furnished (h : Furnishing root additions) :
    Furnished root additions (furnish root additions) :=
  (furnished_nil root).foldl h.rooted h.place_ne h.apart fun stem d hmem => (h.headers stem d hmem).1

/-! ## The search -/

theorem declared?_header {stem : String} {d : Declarations} (h : Furnished root additions t)
    (hmem : .header stem d ∈ additions) (hlegible : d.Legible) :
    declared? t (root.child (headerName stem)) = some d := by
  have hcontents : t.contents? (root.child (headerName stem)) =
      some (Text.Utf8.encode (Declarations.header d).toList) :=
    (h.files _ _).mpr ⟨_, hmem, rfl, rfl⟩
  simp only [declared?, hcontents, Option.map_some, Text.Utf8.decode_encode, String.ofList_toList]
  exact Declarations.read_header hlegible

/-- The pattern sees the place of a file, not how its path is written. -/
theorem wanted_congr {p q : Path} (h : p.components = q.components) (accepts : String → Bool) :
    wanted root accepts p = wanted root accepts q := by
  simp only [wanted, Path.relativeTo, h]

/-- A candidate that declares something is a header. -/
theorem header_of_declared {file : Path} {d : Declarations} (h : Furnishing root additions)
    (ht : Furnished root additions t) (hfile : Findable t root Glob.headers.matches file)
    (hd : declared? t file = some d) :
    ∃ stem, .header stem d ∈ additions ∧ file = root.child (headerName stem) := by
  obtain ⟨bytes, hbytes⟩ := Option.isSome_iff_exists.mp hfile.isFile
  obtain ⟨a, ha, hplace, rfl⟩ := (ht.files _ _).mp hbytes
  cases a with
  | header stem d' =>
    obtain ⟨hstem, hlegible⟩ := h.headers stem d' ha
    rw [place_header hstem] at hplace
    obtain rfl := hfile.listed.eq_child ht.named hplace.symm
    rw [declared?_header ht ha hlegible] at hd
    obtain rfl := Option.some.inj hd
    exact ⟨stem, ha, rfl⟩
  | other written bytes =>
    exfalso
    rcases h.others written bytes ha with hunwanted | hunread
    · have hwanted := hfile.isWanted
      rw [← wanted_congr (p := written) hplace, hunwanted] at hwanted
      cases hwanted
    · simp only [declared?, hbytes, Option.map_some, Addition.bytes] at hd
      cases hdecode : Text.Utf8.decode bytes with
      | error fault => simp [hdecode] at hd
      | ok cs => simp [hdecode, hunread cs hdecode] at hd

/-- Boards of one list with different names are the same if their names are. -/
theorem eq_of_name_eq {boards : List Board} (h : boards.Pairwise fun b b' => b.name ≠ b'.name)
    {b b' : Board} (hb : b ∈ boards) (hb' : b' ∈ boards) (hname : b.name = b'.name) : b = b' := by
  have hfilter := filter_name_eq hb h
  have hmem : b' ∈ boards.filter (·.name == b.name) := List.mem_filter.mpr ⟨hb', by simp [hname]⟩
  rw [hfilter] at hmem
  exact (List.mem_singleton.mp hmem).symm

section Searched

variable {candidates : List Path} {boards : List Board} {log : List LogEntry}

/-- Nothing but the boards of headers is found. -/
theorem FirstWins.of_header (hwins : FirstWins t candidates boards log)
    (h : Furnishing root additions) (ht : Furnished root additions t)
    (hcandidates : Candidates t root Glob.headers.matches candidates) {b : Board}
    (hb : b ∈ boards) : b ∈ additions.filterMap (Addition.board? root) := by
  obtain ⟨hsource, hdeclared⟩ := hwins.declared b hb
  obtain ⟨stem, hmem, hfile⟩ := header_of_declared h ht (hcandidates.findable _ hsource) hdeclared
  refine List.mem_filterMap.mpr ⟨_, hmem, ?_⟩
  rw [Addition.board?, ← hfile]

theorem Candidates.mem_header (hcandidates : Candidates t root Glob.headers.matches candidates)
    (ht : Furnished root additions t) {stem : String} {d : Declarations}
    (hmem : .header stem d ∈ additions) (hstem : '/' ∉ stem.toList) :
    root.child (headerName stem) ∈ candidates := by
  obtain ⟨names, hnames, hname⟩ := ht.listed stem d hmem
  have hcontents : (t.contents? (root.child (headerName stem))).isSome :=
    Option.isSome_iff_exists.mpr ⟨_, (ht.files _ _).mpr ⟨_, hmem, rfl, rfl⟩⟩
  refine hcandidates.direct names hnames _ (List.mem_filter.mpr ⟨List.mem_map_of_mem hname, ?_⟩)
  rw [hcontents, wanted_header root hstem, Bool.and_self]

/-- The board of every header is found: its name is declared, and the one board of that name is
the board of a header, so it is this one. -/
theorem FirstWins.mem_of_header (hwins : FirstWins t candidates boards log)
    (h : Furnishing root additions) (ht : Furnished root additions t)
    (hcandidates : Candidates t root Glob.headers.matches candidates) {b : Board}
    (hb : b ∈ additions.filterMap (Addition.board? root)) : b ∈ boards := by
  obtain ⟨a, ha, hboard⟩ := List.mem_filterMap.mp hb
  cases a with
  | other file bytes => cases hboard
  | header stem d =>
    obtain rfl := Option.some.inj hboard
    obtain ⟨hstem, hlegible⟩ := h.headers stem d ha
    have hdeclares := declares_iff.mpr ⟨d.target, declared?_header ht ha hlegible⟩
    obtain ⟨found, hfilter, -⟩ :=
      hwins.first d.name ⟨_, hcandidates.mem_header ht ha hstem, hdeclares⟩
    have hfound : found ∈ boards.filter (·.name == d.name) := by
      rw [hfilter]
      exact List.mem_singleton_self _
    obtain ⟨hmem, hsame⟩ := List.mem_filter.mp hfound
    rw [← eq_of_name_eq h.different (hwins.of_header h ht hcandidates hmem) hb (beq_iff_eq.mp hsame)]
    exact hmem

end Searched

/-- Whatever the order of the additions, the search with the usual pattern finds the boards of the
headers and no others, sorted by target and name. -/
theorem headers_found {root : Path} {additions : List Addition} (h : Furnishing root additions) :
    ∃ boards log, discover Tree.fileSystem root "**/hw_*.h" (furnish root additions) =
        ((.ok boards, log), furnish root additions) ∧
      boards.Perm (additions.filterMap (Addition.board? root)) ∧ boards.Pairwise Board.Before := by
  have ht := h.furnished
  have hcompile : compile .nesting "**/hw_*.h" = .ok Glob.headers :=
    compile_ok Glob.read_headers Glob.headers_compile
  obtain ⟨candidates, boards, log, -, hcandidates, hdiscover, hwins⟩ :=
    search_candidates ht.rooted hcompile
  rw [Glob.Compiler.nesting_accepts] at hcandidates
  have hnodup : (additions.filterMap (Addition.board? root)).Nodup :=
    h.different.imp fun hne heq => hne (congrArg Board.name heq)
  refine ⟨boards, log, by rw [discover, hdiscover], ?_, hwins.ascending⟩
  rw [List.perm_ext_iff_of_nodup (Board.nodup_of_before hwins.ascending) hnodup]
  exact fun b =>
    ⟨hwins.of_header h ht hcandidates, hwins.mem_of_header h ht hcandidates⟩

/-- Two headers, one of them with a define for a name, beside a file that is no text and a header
without a target. -/
def drawer : List Addition :=
  [.header "b" ⟨"#define HW_TARGET x", "esp32s3"⟩, .other ⟨"main/hwconf/hw_c.h"⟩ [0xff],
    .header "a" ⟨"A", "esp32c3"⟩,
    .other ⟨"main/hwconf/old/hw_d.h"⟩ (Text.Utf8.encode "#define HW_NAME \"D\"\n".toList)]

theorem furnishing_drawer : Furnishing ⟨"main/hwconf"⟩ drawer where
  rooted := by decide +kernel
  apart := by decide +kernel
  different := by decide +kernel
  headers := by
    intro stem d hmem
    simp only [drawer, List.mem_cons, List.not_mem_nil, or_false, Addition.header.injEq,
      reduceCtorEq, false_or] at hmem
    rcases hmem with ⟨rfl, rfl⟩ | ⟨rfl, rfl⟩
    · exact ⟨by decide, by decide, by decide, ⟨by decide, by decide⟩, ⟨by decide, by decide⟩⟩
    · exact ⟨by decide, by decide, by decide, ⟨by decide, by decide⟩, ⟨by decide, by decide⟩⟩
  offRoot := by
    intro file bytes hmem
    simp only [drawer, List.mem_cons, List.not_mem_nil, or_false, Addition.other.injEq,
      reduceCtorEq, false_or] at hmem
    rcases hmem with ⟨rfl, -⟩ | ⟨rfl, -⟩ <;> decide +kernel
  others := by
    intro file bytes hmem
    simp only [drawer, List.mem_cons, List.not_mem_nil, or_false, Addition.other.injEq,
      reduceCtorEq, false_or] at hmem
    refine .inr fun cs hcs => ?_
    rcases hmem with ⟨-, rfl⟩ | ⟨-, rfl⟩
    · cases hcs
    · rw [Text.Utf8.decode_encode] at hcs
      obtain rfl := Except.ok.inj hcs
      rw [String.ofList_toList]
      decide +kernel

theorem drawer_found :
    Furnishing ⟨"main/hwconf"⟩ drawer ∧
      ∃ boards log, discover Tree.fileSystem ⟨"main/hwconf"⟩ "**/hw_*.h"
          (furnish ⟨"main/hwconf"⟩ drawer) = ((.ok boards, log), furnish ⟨"main/hwconf"⟩ drawer) ∧
        boards.Perm [⟨"#define HW_TARGET x", "esp32s3", ⟨"main/hwconf/hw_b.h"⟩⟩,
          ⟨"A", "esp32c3", ⟨"main/hwconf/hw_a.h"⟩⟩] ∧ boards.Pairwise Board.Before :=
  ⟨furnishing_drawer, headers_found furnishing_drawer⟩

end FirmwareMatrix.Discovery
